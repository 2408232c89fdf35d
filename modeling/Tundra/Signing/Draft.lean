/-
  Tundra.Signing.Draft

  Loading a draft for signing, which recomputes every fact of its review from
  the current wallet, and the operations on a loaded draft (`signing.rs`):
  accepting a response, progress, export and finalization.
-/

import Tundra.Engine
import Tundra.Signing.Merge

namespace Tundra
namespace Signing

open Checked Relational Engine

variable {State Wallet Scan : Type} (env : Env State Wallet Scan)

/-- `u64::checked_add`. -/
def checkedAdd (a b : UInt64) : Option UInt64 :=
  if a.toNat + b.toNat < 2 ^ 64 then some (a + b) else none

/-- `u64::checked_sub`. -/
def checkedSub (a b : UInt64) : Option UInt64 :=
  if b ≤ a then some (a - b) else none

/-! ## Loading -/

structure SigningDraft where
  approved : Psbt
  stored : Option Psbt
  trusted : List TrustedInput
  review : DraftReview
  deriving DecidableEq

/-- The extended keys of the wallet's descriptors, with their origins. -/
def expectedXpubs (w : Wallet) : Table Xpub KeySource :=
  ((env.publicDescriptor w .external).keys ++ (env.publicDescriptor w .internal).keys).foldl
    (fun t key => match key with
      | .xpub x => match x.origin with
          | some origin => t.insert x.xkey origin
          | none => t
      | .other _ => t) ∅

/-- One input of a draft: an unspent, reserved, unfrozen and mature coin, not
    seen before, with the sats of its review. -/
def loadInput (db : Db State) (w d : String) (wallet : Wallet) (seen : List OutPoint)
    (op : OutPoint) (reviewed : ReviewedInput) : Result TrustedInput := do
  let coin ← okOr ((env.listUnspent wallet).find? (fun c => c.outpoint = op)) .unavailableCoin
  let funding ← okOr (env.getTx wallet op.txid) .corruptState
  require (db.reservations[(w, env.displayOutPoint op)]? = some d ∧
    db.isFrozen w (env.displayOutPoint op) = false ∧ op ∉ seen ∧
    spendable coin.chainPosition (env.tipHeight wallet) (env.isCoinbase funding.tx) = true)
    .unavailableCoin
  require (reviewed.outpoint = env.displayOutPoint op ∧ reviewed.sats = coin.txout.value)
    .corruptState
  let (keychain, index) ← okOr (env.derivationOfSpk wallet coin.txout.scriptPubkey) .corruptState
  let (metadata, descriptor) ← okOr
    (env.deriveInput (env.publicDescriptor wallet keychain) index) .corruptState
  .ok { prevout := coin.txout, metadata, descriptor }

/-- The inputs of a draft in order, and the sum of their sats. -/
def loadInputs (db : Db State) (w d : String) (wallet : Wallet) :
    List OutPoint → List ReviewedInput → List OutPoint → UInt64 →
    Result (List TrustedInput × UInt64)
  | [], _, _, sum => .ok ([], sum)
  | _ :: _, [], _, _ => .error .corruptState
  | op :: ops, reviewed :: rest, seen, sum => do
      let trusted ← loadInput env db w d wallet seen op reviewed
      let sum ← okOr (checkedAdd sum reviewed.sats) .corruptState
      let (trustedRest, total) ← loadInputs db w d wallet ops rest (op :: seen) sum
      .ok (trusted :: trustedRest, total)

/-- The metadata the wallet itself derives for an output script. -/
def expectedOutput (wallet : Wallet) (script : Script) : Result PsbtOutput :=
  match env.derivationOfSpk wallet script with
  | none => .ok {}
  | some (keychain, index) => do
      let (expected, derived) ← okOr
        (env.deriveOutput (env.publicDescriptor wallet keychain) index) .corruptState
      require (env.scriptPubkey derived = script) .corruptState
      .ok expected

/-- One output of a draft agrees with its review and with the wallet. -/
def checkDraftOutput (network : Network) (wallet : Wallet) (output : TxOut)
    (reviewed : ReviewedOutput) (metadata : PsbtOutput) : Result Unit := do
  let address ← okOr (env.addressFromScript network output.scriptPubkey) .corruptState
  require (address = reviewed.address ∧ output.value = reviewed.sats ∧
    env.isMine wallet output.scriptPubkey = reviewed.isMine ∧
    (reviewed.isChange = true → env.isMine wallet output.scriptPubkey = true)) .corruptState
  let expected ← expectedOutput env wallet output.scriptPubkey
  orError (checkOutput metadata expected) .corruptState

/-- The outputs of a draft in order, and the sum of their sats. -/
def loadOutputs (network : Network) (wallet : Wallet) :
    List TxOut → List ReviewedOutput → List PsbtOutput → UInt64 → Result UInt64
  | output :: outputs, reviewed :: rest, metadata :: metadataRest, sum => do
      checkDraftOutput env network wallet output reviewed metadata
      let sum ← okOr (checkedAdd sum reviewed.sats) .corruptState
      loadOutputs network wallet outputs rest metadataRest sum
  | _, _, _, sum => .ok sum

/-- The stored aggregate of a draft, if any. -/
def loadStored (db : Db State) (w d : String) : Result (Option Psbt) :=
  match db.draftSignatures[(w, d)]? with
  | none => .ok none
  | some text => do
      let stored ← orError (parseResponse env text) .corruptState
      .ok (some stored)

def loadDraft (db : Db State) (w d : String) : Result SigningDraft := do
  let loaded ← load env db w
  require (loaded.summary.network ≠ .mainnet) (.unavailable "mainnet signing")
  require (loaded.summary.syncedAt ≠ none) (.unavailable "blockchain synchronization")
  let row ← okOr (db.selectDraft w d) .notFound
  let approved ← orError (parseResponse env row.psbt) .corruptState
  let review ← parseReview row.reviewJson
  require (review.state.isLive = true) .unavailableCoin
  require (draftIdentity env w approved.unsignedTx = d ∧ review.id = d ∧ review.walletId = w ∧
    review.inputs.length = approved.inputs.length ∧
    review.outputs.length = approved.outputs.length) .corruptState
  require (subset approved.xpub (expectedXpubs env loaded.wallet) = true ∧
    approved.unknown = [] ∧ approved.proprietary = []) .corruptState
  let (trusted, inputSum) ← loadInputs env db w d loaded.wallet
    approved.unsignedTx.previousOutputs review.inputs [] 0
  let outputSum ← loadOutputs env loaded.summary.network loaded.wallet
    approved.unsignedTx.output review.outputs approved.outputs 0
  require (inputSum ≤ maxSats ∧ checkedSub inputSum outputSum = some review.feeSats ∧
    review.feeSats ≤ 1000000) .corruptState
  let stored ← loadStored env db w d
  .ok { approved, stored, trusted, review }

/-! ## Progress and finalization -/

/-- The progress of one input. -/
def inputProgress (outpoint : OutPoint) (input : PsbtInput) (policy : TrustedInput) :
    Result InputSigningProgress := do
  let (_, required) ← policy.keys env
  .ok
    { outpoint := env.displayOutPoint outpoint
      validSignatures := input.partialSigs.size
      requiredSignatures := required }

def progress (psbt : Psbt) (trusted : List TrustedInput) : Result (List InputSigningProgress) :=
  (psbt.unsignedTx.previousOutputs.zip (psbt.inputs.zip trusted)).mapM
    (fun row => inputProgress env row.1 row.2.1 row.2.2)

def signingProgressOf (draftId : String) (psbt : Psbt) (trusted : List TrustedInput) :
    Result SigningProgress := do
  let inputs ← progress env psbt trusted
  .ok
    { draftId
      inputs
      complete := !inputs.isEmpty &&
        inputs.all (fun i => i.requiredSignatures ≤ i.validSignatures) }

/-- The first `required` signatures of an input, in key order. -/
def signedKeys (keys : List PublicKey) (required : Nat) (sigs : Table PublicKey Signature) :
    List (PublicKey × Signature) :=
  (keys.filterMap (fun key => (sigs[key]?).map (fun sig => (key, sig)))).take required

/-- The final witness stack of one input. -/
def finalWitness (policy : TrustedInput) (input : PsbtInput) : Result (List Bytes) := do
  let (keys, required) ← policy.keys env
  let signed := signedKeys keys required input.partialSigs
  require (signed.length = required) .corruptState
  match policy.descriptor, signed with
  | .wpkh _, (key, sig) :: _ => .ok [env.signatureToVec sig, env.publicKeyBytes key]
  | .wshSortedMulti _ _, signed => do
      let script ← okOr (env.explicitScript policy.descriptor) .unsupportedPolicy
      .ok ([] :: signed.map (fun entry => env.signatureToVec entry.2) ++ [script])
  | _, _ => .error .unsupportedPolicy

/-- A transaction with the given witnesses. -/
def withWitnesses (tx : Transaction) (witnesses : List (List Bytes)) : Transaction :=
  { tx with input := List.zipWith (fun i w => { i with witness := w }) tx.input witnesses }

/-- A PSBT with the given final witnesses. -/
def withFinalWitnesses (p : Psbt) (witnesses : List (List Bytes)) : Psbt :=
  { p with
    inputs := List.zipWith (fun i w => { i with finalScriptWitness := some w }) p.inputs witnesses }

/-- Assemble the final transaction and validate its witnesses again. -/
def finalizeTransaction (approved : Psbt) (stored : Option Psbt) (trusted : List TrustedInput) :
    Result Transaction := do
  let merged ← mergeResponse env approved stored approved trusted
  let current ← signingProgressOf env "" merged trusted
  require (current.complete = true) (.unavailable "all required signatures")
  let witnesses ← (trusted.zip merged.inputs).mapM (fun row => finalWitness env row.1 row.2)
  let transaction := withWitnesses approved.unsignedTx witnesses
  let _ ← mergeResponse env approved none (withFinalWitnesses approved witnesses) trusted
  require (env.computeTxid transaction = env.computeTxid approved.unsignedTx) .corruptState
  .ok transaction

def finalizedReview (draft : SigningDraft) (tx : Transaction) : FinalizedReview where
  walletId := draft.review.walletId
  draftId := draft.review.id
  txid := env.displayTxid (env.computeTxid tx)
  wtxid := env.displayTxid (env.computeWtxid tx)
  feeSats := draft.review.feeSats
  weightWu := env.weight tx
  vsize := env.vsize tx
  transactionBytes := env.serializeTx tx

/-- The finalized bytes of a draft, checked against a fresh assembly. -/
def validatedFinalized (db : Db State) (w d : String) : Result (Option FinalizedReview) := do
  let draft ← loadDraft env db w d
  match db.finalizedDrafts[(w, d)]? with
  | none =>
      if draft.review.state = .finalized then .error .corruptState else .ok none
  | some bytes => do
      require (draft.review.state = .finalized) .corruptState
      let tx ← finalizeTransaction env draft.approved draft.stored draft.trusted
      require (bytes = (finalizedReview env draft tx).transactionBytes) .corruptState
      .ok (some (finalizedReview env draft tx))

/-! ## Operations -/

/-- `finalize_draft`: freeze the final bytes and the review state together. -/
def finalizeDraft (db : Db State) (w d : String) : Result (FinalizedReview × Db State) := do
  let draft ← loadDraft env db w d
  let tx ← finalizeTransaction env draft.approved draft.stored draft.trusted
  let result := finalizedReview env draft tx
  match db.finalizedDrafts[(w, d)]? with
  | some bytes => do
      require (bytes = result.transactionBytes ∧ draft.review.state = .finalized) .corruptState
      .ok (result, db)
  | none => do
      require (draft.review.state ≠ .finalized) .corruptState
      let db ← db.insertFinalized w d result.transactionBytes
      .ok (result, db.updateReview w d (reviewText env (draft.review.withState .finalized)))

def finalizedDraft (db : Db State) (w d : String) : Result (Option FinalizedReview) :=
  validatedFinalized env db w d

/-- The state of a draft with the given progress. -/
def signedState (p : SigningProgress) : DraftState :=
  if p.complete then .signed else .partiallySigned

/-- `accept_signed_psbt`: import a response after verifying every signature. -/
def acceptSignedPsbt (db : Db State) (w d : String) (payload : Bytes) :
    Result (SigningProgress × Db State) := do
  let response ← parseResponse env payload
  let draft ← loadDraft env db w d
  require (draft.review.state ≠ .finalized) (.unavailable "signature changes after finalization")
  let merged ← mergeResponse env draft.approved draft.stored response draft.trusted
  let current ← signingProgressOf env d merged draft.trusted
  require (∃ i ∈ current.inputs, i.validSignatures ≠ 0)
    (.invalidInput "response contains no valid signatures")
  let db ← db.upsertSignatures w d (env.psbtText merged)
  .ok (current, db.updateReview w d (reviewText env (draft.review.withState (signedState current))))

/-- The aggregate of a draft: the approved PSBT with the stored signatures. -/
def aggregate (draft : SigningDraft) : Result Psbt :=
  mergeResponse env draft.approved draft.stored draft.approved draft.trusted

def signingProgress (db : Db State) (w d : String) : Result SigningProgress := do
  let draft ← loadDraft env db w d
  let merged ← aggregate env draft
  signingProgressOf env d merged draft.trusted

/-- `export_signing_psbt`: the next payload for a signer. -/
def exportSigningPsbt (db : Db State) (w d : String) : Result Bytes := do
  let draft ← loadDraft env db w d
  let merged ← aggregate env draft
  .ok (env.psbtText merged)

end Signing
end Tundra
