/-
  Tundra.Recovery

  Restored approvals (`recovery.rs`): `suspend` verifies every draft of a
  restored database and suspends it, and `resume_recovered_submission`
  reapproves one recovered submission after a fresh sync.
-/

import Tundra.Broadcast

namespace Tundra
namespace Recovery

open Checked Relational Engine Signing

variable {State Wallet Scan : Type} (env : Env State Wallet Scan)

/-! ## Suspend -/

/-- A stored text or byte string is longer than the restore accepts. -/
def oversized (db : Db State) : Bool :=
  db.drafts.anyRow (fun _ row => 1398106 < row.psbt.length ∨ 2097152 < row.reviewJson.length) ||
  db.draftSignatures.anyRow (fun _ psbt => 1398106 < psbt.length) ||
  db.finalizedDrafts.anyRow (fun _ bytes => 1048576 < bytes.length)

/-- The inputs of a review name the transaction's inputs; returns their sum. -/
def suspendInputs : List ReviewedInput → List OutPoint → UInt64 → Result UInt64
  | input :: inputs, expected :: rest, sum => do
      require (input.outpoint = env.displayOutPoint expected) .corruptState
      Labels.validateLabel input.label
      let sum ← okOr (checkedAdd sum input.sats) .corruptState
      suspendInputs inputs rest sum
  | _, _, sum => .ok sum

/-- The outputs of a review are the transaction's outputs; returns their sum. -/
def suspendOutputs (network : Network) (wallet : Wallet) :
    List ReviewedOutput → List TxOut → UInt64 → Result UInt64
  | output :: outputs, expected :: rest, sum => do
      let address ← okOr (env.addressFromScript network expected.scriptPubkey) .corruptState
      require (output.sats = expected.value ∧ output.address = address ∧
        output.isMine = env.isMine wallet expected.scriptPubkey ∧
        (output.isChange = true → output.isMine = true)) .corruptState
      let sum ← okOr (checkedAdd sum output.sats) .corruptState
      suspendOutputs network wallet outputs rest sum
  | _, _, sum => .ok sum

/-- The final bytes of a draft, if any, are its transaction with witnesses, and
    every attempt names their ids. -/
def suspendFinal (db : Db State) (w d : String) (approved : Psbt) : Result Unit :=
  match db.finalizedDrafts[(w, d)]? with
  | none => .ok ()
  | some bytes => do
      require (bytes.length ≤ maxPsbtBytes) .corruptState
      let tx ← okOr (env.deserializeTx bytes) .corruptState
      require (tx.stripWitnesses = approved.unsignedTx) .corruptState
      require (db.broadcastAttempts.anyRow (fun _ a => a.walletId = w ∧ a.draftId = d ∧
        (a.txid ≠ env.displayTxid (env.computeTxid tx) ∨
          a.wtxid ≠ env.displayTxid (env.computeWtxid tx))) = false) .corruptState

/-- The stored aggregate of a draft, if any, is one of its own transaction. -/
def suspendStored (db : Db State) (w d : String) (approved : Psbt) : Result Unit :=
  match db.draftSignatures[(w, d)]? with
  | none => .ok ()
  | some text => do
      let stored ← parseResponse env text
      require (stored.unsignedTx = approved.unsignedTx) .corruptState

/-- Verify one draft; returns its review. -/
def verifyDraft (db : Db State) (w d : String) : Result DraftReview := do
  let row ← okOr (db.selectDraft w d) .storage
  let approved ← parseResponse env row.psbt
  let review ← parseReview row.reviewJson
  require (review.state.isKnown = true) .corruptState
  require (review.walletId = w ∧ review.id = d ∧ d = draftIdentity env w approved.unsignedTx ∧
    review.inputs.length = approved.inputs.length ∧ review.inputs ≠ [] ∧
    review.inputs.length ≤ 200 ∧ review.outputs.length = approved.outputs.length ∧
    review.outputs.length ≤ 400) .corruptState
  Labels.validateLabel review.label
  let inputSats ← suspendInputs env review.inputs approved.unsignedTx.previousOutputs 0
  let loaded ← load env db w
  let outputSats ← suspendOutputs env loaded.summary.network loaded.wallet review.outputs
    approved.unsignedTx.output 0
  require (checkedSub inputSats outputSats = some review.feeSats) .corruptState
  suspendFinal env db w d approved
  suspendStored env db w d approved
  .ok review

/-- `INSERT INTO recovered_submissions`. -/
def insertRecovered (db : Db State) (w d : String) : Result (Db State) := do
  require ((db.finalizedDrafts[(w, d)]?).isSome) .storage
  let recovered ← okOr (db.recoveredSubmissions.insertNew (w, d) ()) .storage
  .ok { db with recoveredSubmissions := recovered }

/-- `INSERT INTO recovery_holds`. -/
def insertHold (w d : String) (db : Db State) (input : ReviewedInput) : Result (Db State) := do
  require (db.isRecovered w d = true) .storage
  let holds ← okOr (db.recoveryHolds.insertNew (w, input.outpoint, d) ()) .storage
  .ok { db with recoveryHolds := holds }

/-- Hold the inputs of a submitted draft. -/
def holdSubmitted (db : Db State) (w d : String) (review : DraftReview) : Result (Db State) :=
  if db.submitted w d then do
    let db ← insertRecovered db w d
    review.inputs.foldlM (insertHold w d) db
  else .ok db

/-- One draft of `suspend`. -/
def suspendDraft (db : Db State) (draft : String × String) : Result (Db State) := do
  let review ← verifyDraft env db draft.1 draft.2
  let db ← holdSubmitted db draft.1 draft.2 review
  .ok (db.updateReview draft.1 draft.2 (reviewText env (review.withState .invalidated)))

/-- `DELETE FROM recovered_submissions; DELETE FROM reservations`. -/
def clearReservations (db : Db State) : Db State :=
  { db with
    recoveredSubmissions := ∅
    recoveryHolds := db.recoveryHolds.deleteWhere (fun k _ => db.isRecovered k.1 k.2.2)
    reservations := ∅ }

/-- `SELECT wallet_id,id FROM drafts ORDER BY wallet_id,id`. -/
def draftKeys (db : Db State) : List (String × String) :=
  (db.drafts.toList.map (fun row => (row.2.walletId, row.1))).insertionSort
    (fun a b => (compare a b).isLE)

/-- `suspend`: every label, freeze and draft is verified, every draft is
    invalidated, and the inputs of the submitted ones are held. -/
def suspend (db : Db State) : Result (Db State) := do
  checkAll (fun row => Labels.validateLabel row.2) db.labels.toList
  checkAll (fun row => do
    let _ ← okOr (env.parseOutPoint row.1.2) .corruptState) db.freezes.toList
  require (oversized db = false) .corruptState
  let db ← (draftKeys db).foldlM (suspendDraft env) (clearReservations db)
  .ok { db with wallets := db.wallets.updateAll (fun _ row => { row with syncedAt := none }) }

/-! ## Resume -/

def recoveryRequired (db : Db State) (w d : String) : Bool := db.isRecovered w d

/-- `INSERT OR IGNORE INTO reservations` for every input. -/
def reserveInputs (w d : String) (inputs : List ReviewedInput) (db : Db State) : Db State :=
  inputs.foldl (fun db input =>
    { db with reservations := db.reservations.insertIfNew (w, input.outpoint) d }) db

/-- `resume_recovered_submission`: reapprove the exact recovered transaction. -/
def resumeRecoveredSubmission (db : Db State) (w d expectedTxid : String) (expectedAttempt : Nat)
    (reviewAcknowledged : Bool) : Result (FinalizedReview × Db State) := do
  require (reviewAcknowledged = true)
    (.invalidInput "review the recovered payment before resuming it")
  require (db.isRecovered w d = true) .notFound
  let attempt ← okOr (Broadcast.latest db w d) .storage
  require (attempt.attemptId = expectedAttempt ∧ attempt.txid = expectedTxid)
    (.invalidInput "recovered submission changed; review it again")
  let row ← okOr (db.selectDraft w d) .storage
  let review ← parseReview row.reviewJson
  require (review.state = .invalidated) .corruptState
  let db := db.updateReview w d (reviewText env (review.withState .finalized))
  let db := reserveInputs w d review.inputs db
  let validated ← validatedFinalized env db w d
  let finalized ← okOr validated .corruptState
  require (finalized.txid = expectedTxid) .corruptState
  .ok (finalized, db.deleteRecovered w d)

end Recovery
end Tundra
