/-
  Tundra.Fixture.Signed

  The fixture's payments signed: a response that carries one signature and no
  metadata, the aggregate it is merged to, and the final transaction.
-/

import Tundra.Fixture.Spending
import Tundra.Signing.Truth

namespace Tundra
namespace Fixture

open Ascii Wire Relational Checked Engine Signing

/-! ## Merging the signature -/

/-- The key of the funding output. -/
def fundingKey : PublicKey := childKey (.xpub
  { origin := some accountSource
    xkey := accountXpub
    derivationPath := [0]
    wildcard := .unhardened }) 0

def fundingSignature (signature : Bytes) : Signature where
  signature
  sighashType := .all

/-- The only signature of a payment. -/
def paymentSignatures (signature : Bytes) : Table PublicKey Signature :=
  (∅ : Table PublicKey Signature).insert fundingKey (fundingSignature signature)

/-- The signature is valid for the payment's only input. -/
def Signable (script : Script) (signature : Bytes) : Prop :=
  verifyEcdsa (Fixture.signatureHash (paymentTx script []) 0) signature fundingKey.inner = true

/-- A response with the signature and no metadata. -/
def responsePsbt (script : Script) (signature : Bytes) : Psbt where
  unsignedTx := paymentTx script []
  inputs := [{ partialSigs := paymentSignatures signature }]
  outputs := [{}, {}]

/-- The approved PSBT with the signature. -/
def signedPsbt (script : Script) (stack : List Bytes) (signature : Bytes) : Psbt :=
  { paymentPsbt script stack with
    inputs := [{ nonWitnessUtxo := some (fundingTx stack)
                 witnessUtxo := some fundingCoin.txout
                 bip32Derivation := derivations (accountDescriptor 0) 0
                 partialSigs := paymentSignatures signature }] }

theorem payee_signable : Signable payeeScript paymentSignature := by
  unfold Signable
  decide

theorem hidden_signable : Signable hiddenScript selfSignature := by
  unfold Signable
  decide

-- the record of crates is deeper than the default limit
set_option maxRecDepth 2000 in
theorem funding_keys : fundingTrusted.keys env = .ok ([fundingKey], 1) := by
  have hscript : env.scriptPubkey (derive (accountDescriptor 0) 0) = receiveScript := by
    have hcrate : env.scriptPubkey = scriptPubkey := rfl
    rw [hcrate]
    decide
  have hdescriptor : fundingTrusted.descriptor = .wpkh fundingKey := rfl
  have hchecked : (∀ key ∈ [fundingKey], key.compressed = true) ∧ [fundingKey].Nodup ∧
      env.scriptPubkey fundingTrusted.descriptor = fundingTrusted.prevout.scriptPubkey :=
    ⟨List.forall_mem_singleton.mpr rfl, List.nodup_singleton _, hscript⟩
  rw [TrustedInput.keys, hdescriptor]
  dsimp only
  rw [ok_bind]
  dsimp only
  rw [List.insertionSort_cons, List.insertionSort_nil, List.orderedInsert_nil, ← hdescriptor,
    require_of hchecked]
  rfl

section Merge

variable {script : Script} {address : String} {stack : List Bytes} {signature : Bytes}

-- the record of crates is deeper than the default limit
set_option maxRecDepth 2000 in
theorem funding_hash : Signing.signatureHash env (paymentTx script []) 0 fundingTrusted 1 =
    .ok (Fixture.signatureHash (paymentTx script []) 0) := by
  have hcrate : ∀ tx index s v, env.p2wpkhSignatureHash tx index s v =
    some (Fixture.signatureHash tx index) := fun _ _ _ _ => rfl
  rw [Signing.signatureHash, if_pos rfl, hcrate]
  rfl

theorem paymentSignatures_toList : (paymentSignatures signature).toList =
    [(fundingKey, fundingSignature signature)] := toList_singleton _ _

-- the record of crates is deeper than the default limit
set_option maxRecDepth 2000 in
theorem funding_valid (h : Signable script signature) :
    validSignature env (Fixture.signatureHash (paymentTx script []) 0) fundingKey
      (fundingSignature signature) = true :=
  (validSignature_eq_true env).mpr ⟨rfl, h⟩

/-- The signature of an input that carries it as a partial signature. -/
theorem partial_signatures (h : Signable script signature) {input : PsbtInput}
    (hsigs : input.partialSigs = paymentSignatures signature)
    (hwitness : input.finalScriptWitness = none) :
    inputSignatures env (paymentTx script []) 0 input fundingTrusted =
      .ok (paymentSignatures signature) := by
  have hvalid : ∀ entry ∈ input.partialSigs.toList, entry.1 ∈ [fundingKey] ∧
      validSignature env (Fixture.signatureHash (paymentTx script []) 0) entry.1 entry.2 = true := by
    intro entry hentry
    rw [hsigs, paymentSignatures_toList] at hentry
    obtain rfl := List.mem_singleton.mp hentry
    exact ⟨List.mem_singleton_self _, funding_valid h⟩
  rw [inputSignatures, funding_keys, ok_bind]
  dsimp only
  rw [funding_hash, ok_bind, require_of hvalid, ok_bind, hwitness]
  dsimp only
  rw [hsigs]

theorem unsigned_signatures {input : PsbtInput} (hsigs : input.partialSigs = ∅)
    (hwitness : input.finalScriptWitness = none) :
    inputSignatures env (paymentTx script []) 0 input fundingTrusted = .ok ∅ := by
  have hvalid : ∀ entry ∈ input.partialSigs.toList, entry.1 ∈ [fundingKey] ∧
      validSignature env (Fixture.signatureHash (paymentTx script []) 0) entry.1 entry.2 = true := by
    intro entry hentry
    rw [hsigs] at hentry
    exact absurd hentry List.not_mem_nil
  rw [inputSignatures, funding_keys, ok_bind]
  dsimp only
  rw [funding_hash, ok_bind, require_of hvalid, ok_bind, hwitness]
  dsimp only
  rw [hsigs]

/-- Metadata that the wallet itself wrote passes. -/
theorem funded_metadata {input : PsbtInput} (hfunding : input.nonWitnessUtxo = some (fundingTx stack))
    (hutxo : input.witnessUtxo = some fundingCoin.txout) (hscript : input.witnessScript = none)
    (hderivation : input.bip32Derivation = derivations (accountDescriptor 0) 0)
    (hsighash : input.sighashType = none) (hallowed : input = allowedInput input)
    (hfinal : input.finalScriptSig = none) :
    checkMetadata env input fundingTrusted (paymentTx script []) 0 = .ok () := by
  have hfields : optional input.witnessUtxo (some fundingTrusted.prevout) = true ∧
      optional input.witnessScript fundingTrusted.metadata.witnessScript = true ∧
      subset input.bip32Derivation fundingTrusted.metadata.bip32Derivation = true ∧
      (input.sighashType = none ∨ input.sighashType = some EcdsaSighashType.all.toPsbt) := by
    rw [hutxo, hscript, hderivation]
    exact ⟨optional_refl _, rfl, subset_refl _, .inl hsighash⟩
  have hfirst : (paymentTx script []).input[0]? =
      some { previousOutput := { txid := txidOfBytes fundingTxid, vout := 0 }
             sequence := 0xfffffffd
             witness := [] } := rfl
  have htx : env.computeTxid (fundingTx stack) = txidOfBytes fundingTxid ∧
      (fundingTx stack).output[(0 : UInt32).toNat]? = some fundingTrusted.prevout :=
    ⟨(fundingId_eq stack).trans fundingId_bytes, rfl⟩
  have hend : input = allowedInput input ∧
      (input.finalScriptSig = none ∨ input.finalScriptSig = some []) := ⟨hallowed, .inl hfinal⟩
  rw [checkMetadata, require_of hfields, ok_bind, hfunding]
  dsimp only
  rw [hfirst, okOr, ok_bind]
  dsimp only
  rw [require_of htx, ok_bind, require_of hend]

/-- So does an input without metadata. -/
theorem bare_metadata {input : PsbtInput} (hfunding : input.nonWitnessUtxo = none)
    (hutxo : input.witnessUtxo = none) (hscript : input.witnessScript = none)
    (hderivation : input.bip32Derivation = ∅) (hsighash : input.sighashType = none)
    (hallowed : input = allowedInput input) (hfinal : input.finalScriptSig = none) :
    checkMetadata env input fundingTrusted (paymentTx script []) 0 = .ok () := by
  have hfields : optional input.witnessUtxo (some fundingTrusted.prevout) = true ∧
      optional input.witnessScript fundingTrusted.metadata.witnessScript = true ∧
      subset input.bip32Derivation fundingTrusted.metadata.bip32Derivation = true ∧
      (input.sighashType = none ∨ input.sighashType = some EcdsaSighashType.all.toPsbt) := by
    rw [hutxo, hscript, hderivation]
    exact ⟨rfl, rfl, rfl, .inl hsighash⟩
  have hend : input = allowedInput input ∧
      (input.finalScriptSig = none ∨ input.finalScriptSig = some []) := ⟨hallowed, .inl hfinal⟩
  rw [checkMetadata, require_of hfields, ok_bind, hfunding]
  dsimp only
  rw [ok_bind, require_of hend]

theorem payment_lengths (script : Script) (stack : List Bytes) :
    (paymentPsbt script stack).inputs.length = [fundingTrusted].length ∧
      (paymentPsbt script stack).inputs.length =
        (paymentPsbt script stack).unsignedTx.input.length ∧
      (paymentPsbt script stack).outputs.length =
        (paymentPsbt script stack).unsignedTx.output.length ∧
      (paymentPsbt script stack).version = 0 := ⟨rfl, rfl, rfl, rfl⟩

theorem payment_approved : checkApproved env (paymentTx script []) 0
    (paymentPsbt script stack).inputs [fundingTrusted] = .ok () := by
  rw [payment_inputs, checkApproved, funded_metadata rfl rfl rfl rfl rfl rfl rfl, ok_bind,
    require_of ⟨rfl, rfl, rfl⟩, ok_bind]
  rfl

/-- The outputs of a candidate are bare, or those of the payment. -/
theorem payment_checkOutputs (hpay : Payable script address) {outputs : List PsbtOutput}
    (h : outputs = [{}, {}] ∨ outputs = (paymentPsbt script stack).outputs) :
    checkAll (fun pair => checkOutput pair.1 pair.2)
      (outputs.zip (paymentPsbt script stack).outputs) = .ok () := by
  have hbare : ∀ expected, checkOutput {} expected = .ok () := fun _ =>
    require_of ⟨rfl, rfl, rfl, rfl⟩
  have hchange : checkOutput { bip32Derivation := derivations (accountDescriptor 1) 0 }
      { bip32Derivation := derivations (accountDescriptor 1) 0 } = .ok () :=
    require_of ⟨rfl, rfl, rfl, subset_refl _⟩
  rw [payment_metadata stack hpay] at h ⊢
  rcases h with rfl | rfl
  · rw [List.zip_cons_cons, List.zip_cons_cons, checkAll, hbare, ok_bind, checkAll, hbare, ok_bind]
    rfl
  · rw [List.zip_cons_cons, List.zip_cons_cons, checkAll, hbare, ok_bind, checkAll, hchange, ok_bind]
    rfl

/-- A PSBT for the payment with one input, which carries the given signatures. -/
structure Carries (script : Script) (stack : List Bytes) (candidate : Psbt)
    (signatures : Table PublicKey Signature) : Prop where
  header : candidate.version = 0 ∧ candidate.unsignedTx = paymentTx script [] ∧
    candidate.xpub = ∅ ∧ candidate.unknown = [] ∧ candidate.proprietary = []
  outputs : candidate.outputs = [{}, {}] ∨ candidate.outputs = (paymentPsbt script stack).outputs
  input : ∃ input, candidate.inputs = [input] ∧
    checkMetadata env input fundingTrusted (paymentTx script []) 0 = .ok () ∧
    inputSignatures env (paymentTx script []) 0 input fundingTrusted = .ok signatures

theorem Carries.merge {candidate : Psbt} {signatures table : Table PublicKey Signature}
    (h : Carries script stack candidate signatures) (hpay : Payable script address)
    (merged : PsbtInput) (habsorb : absorb merged.partialSigs signatures.toList = .ok table) :
    mergeCandidate env (paymentPsbt script stack) [fundingTrusted] [merged] candidate =
      .ok [{ merged with partialSigs := table }] := by
  obtain ⟨⟨hversion, htx, hxpub, hunknown, hproprietary⟩, houtputs, input, hinputs, hmeta, hsigs⟩ := h
  have hlength : candidate.outputs.length = (paymentPsbt script stack).outputs.length := by
    rcases houtputs with h | h <;> rw [h]
    rfl
  have hchecked : candidate.version = 0 ∧
      candidate.unsignedTx = (paymentPsbt script stack).unsignedTx ∧
      candidate.inputs.length = [fundingTrusted].length ∧
      candidate.outputs.length = (paymentPsbt script stack).outputs.length ∧
      subset candidate.xpub (paymentPsbt script stack).xpub = true ∧
      candidate.unknown = [] ∧ candidate.proprietary = [] := by
    refine ⟨hversion, ?_, ?_, hlength, ?_, hunknown, hproprietary⟩
    · rw [htx, payment_unsigned]
    · rw [hinputs]
      rfl
    · rw [hxpub]
      rfl
  rw [mergeCandidate, require_of hchecked, ok_bind, payment_checkOutputs hpay houtputs, ok_bind,
    payment_unsigned, hinputs, mergeInputs, hmeta, ok_bind, hsigs, ok_bind, habsorb, ok_bind,
    mergeInputs, ok_bind]
  rintro _ _ _ _ _ _ _ ⟨⟩

/-- The input of the approved PSBT with signatures. -/
def signedInput (stack : List Bytes) (signatures : Table PublicKey Signature) : PsbtInput where
  nonWitnessUtxo := some (fundingTx stack)
  witnessUtxo := some fundingCoin.txout
  bip32Derivation := derivations (accountDescriptor 0) 0
  partialSigs := signatures

theorem absorb_new : absorb ∅ (paymentSignatures signature).toList =
    .ok (paymentSignatures signature) := by
  have hnew : (∅ : Table PublicKey Signature)[fundingKey]? = none ∨
      (∅ : Table PublicKey Signature)[fundingKey]? = some (fundingSignature signature) :=
    .inl Std.ExtTreeMap.getElem?_empty
  rw [paymentSignatures_toList, absorb, List.foldlM_cons, require_of hnew]
  rfl

theorem absorb_none (t : Table PublicKey Signature) :
    absorb t (∅ : Table PublicKey Signature).toList = .ok t := rfl

theorem payment_carries (script : Script) (stack : List Bytes) : Carries script stack
    (paymentPsbt script stack) ∅ where
  header := ⟨rfl, payment_unsigned script stack, rfl, rfl, rfl⟩
  outputs := .inr rfl
  input := ⟨_, payment_inputs script stack, funded_metadata rfl rfl rfl rfl rfl rfl rfl,
    unsigned_signatures rfl rfl⟩

theorem signed_carries (stack : List Bytes) (h : Signable script signature) :
    Carries script stack (signedPsbt script stack signature) (paymentSignatures signature) where
  header := ⟨rfl, payment_unsigned script stack, rfl, rfl, rfl⟩
  outputs := .inr rfl
  input := ⟨_, rfl, funded_metadata rfl rfl rfl rfl rfl rfl rfl, partial_signatures h rfl rfl⟩

theorem response_carries (stack : List Bytes) (h : Signable script signature) :
    Carries script stack (responsePsbt script signature) (paymentSignatures signature) where
  header := ⟨rfl, rfl, rfl, rfl, rfl⟩
  outputs := .inl rfl
  input := ⟨_, rfl, bare_metadata rfl rfl rfl rfl rfl rfl rfl, partial_signatures h rfl rfl⟩

/-- The approved PSBT after the candidates have been merged. -/
theorem merge_payment {previous : Option Psbt} {response : Psbt} {inputs : List PsbtInput}
    (hfold : (previous.toList ++ [response]).foldlM
      (mergeCandidate env (paymentPsbt script stack) [fundingTrusted])
      [signedInput stack ∅] = .ok inputs) :
    mergeResponse env (paymentPsbt script stack) previous response [fundingTrusted] =
      .ok { paymentPsbt script stack with inputs } := by
  have hinputs : (paymentPsbt script stack).inputs = [signedInput stack ∅] :=
    payment_inputs script stack
  rw [mergeResponse, require_of (payment_lengths script stack), ok_bind, payment_unsigned,
    payment_approved, ok_bind, hinputs, hfold, ok_bind, ← payment_unsigned script stack]

/-- The response is merged into the approved PSBT. -/
theorem merge_response (stack : List Bytes) (hpay : Payable script address) (h : Signable script signature) :
    mergeResponse env (paymentPsbt script stack) none (responsePsbt script signature)
      [fundingTrusted] = .ok (signedPsbt script stack signature) := by
  have hmerged := (response_carries stack h).merge hpay (signedInput stack ∅) absorb_new
  refine merge_payment ?_
  rw [Option.toList_none, List.nil_append, List.foldlM_cons, hmerged]
  rfl

/-- The aggregate of a draft whose signature is stored. -/
theorem merge_stored (hpay : Payable script address) (h : Signable script signature) :
    mergeResponse env (paymentPsbt script stack) (some (signedPsbt script stack signature))
      (paymentPsbt script stack) [fundingTrusted] = .ok (signedPsbt script stack signature) := by
  have hfirst := (signed_carries stack h).merge hpay (signedInput stack ∅) absorb_new
  have hsecond := (payment_carries script stack).merge hpay (signedInput stack (paymentSignatures signature))
    (absorb_none _)
  refine merge_payment ?_
  rw [Option.toList_some, List.singleton_append, List.foldlM_cons, hfirst]
  show (mergeCandidate env (paymentPsbt script stack) [fundingTrusted]
    [signedInput stack (paymentSignatures signature)] (paymentPsbt script stack) >>= _) = _
  rw [hsecond]
  rfl

/-! ### Progress -/

/-- The progress of the signed payment. -/
def signedProgress (draftId : String) : SigningProgress where
  draftId
  inputs := [{ outpoint := fundingText, validSignatures := 1, requiredSignatures := 1 }]
  complete := true

theorem progress_signed (draftId : String) :
    signingProgressOf env draftId (signedPsbt script stack signature) [fundingTrusted] =
      .ok (signedProgress draftId) := by
  have hops : (signedPsbt script stack signature).unsignedTx.previousOutputs = [fundingOutput] := rfl
  have hsize : (paymentSignatures signature).size = 1 := by
    rw [← Std.ExtTreeMap.length_toList, paymentSignatures_toList]
    rfl
  have hinput : inputProgress env fundingOutput (signedInput stack (paymentSignatures signature))
      fundingTrusted = .ok { outpoint := fundingText, validSignatures := 1, requiredSignatures := 1 } := by
    have hsigs : (signedInput stack (paymentSignatures signature)).partialSigs =
      paymentSignatures signature := rfl
    rw [inputProgress, funding_keys, ok_bind]
    dsimp only
    rw [hsigs, hsize]
    rfl
  have hprogress : progress env (signedPsbt script stack signature) [fundingTrusted] =
      .ok [{ outpoint := fundingText, validSignatures := 1, requiredSignatures := 1 }] := by
    rw [progress, hops]
    show [(fundingOutput, signedInput stack (paymentSignatures signature), fundingTrusted)].mapM
      (fun row => inputProgress env row.1 row.2.1 row.2.2) = _
    rw [List.mapM_cons, hinput]
    rfl
  rw [signingProgressOf, hprogress, ok_bind]
  rfl

end Merge

/-! ## Accepting the response -/

theorem response_wellFormed (script : Script) (signature : Bytes) :
    (responsePsbt script signature).WellFormed where
  unsigned := List.forall_mem_singleton.mpr ⟨rfl, rfl⟩
  version := rfl
  proprietary := rfl
  unknown := rfl
  inputs_length := rfl
  outputs_length := rfl
  inputs_other := List.forall_mem_singleton.mpr rfl
  outputs_other := List.forall_mem_cons.mpr ⟨rfl, List.forall_mem_singleton.mpr rfl⟩
  funding_inputs := List.forall_mem_singleton.mpr (by rintro tx ⟨⟩)

/-- The response fits into the limits. -/
def Responds (script : Script) (signature : Bytes) : Prop :=
  WithinLimits env (responsePsbt script signature)

theorem payee_responds : Responds payeeScript paymentSignature where
  size := by decide +kernel
  shape := ⟨1, 2, by decide, rfl⟩
  inputs := List.forall_mem_singleton.mpr (by unfold WithinFieldLimits; decide)
  outputs := List.forall_mem_cons.mpr ⟨by unfold WithinFieldLimits; decide,
    List.forall_mem_singleton.mpr (by unfold WithinFieldLimits; decide)⟩

theorem hidden_responds : Responds hiddenScript selfSignature where
  size := by decide +kernel
  shape := ⟨1, 2, by decide, rfl⟩
  inputs := List.forall_mem_singleton.mpr (by unfold WithinFieldLimits; decide)
  outputs := List.forall_mem_cons.mpr ⟨by unfold WithinFieldLimits; decide,
    List.forall_mem_singleton.mpr (by unfold WithinFieldLimits; decide)⟩

/-- The payload of the response. -/
def responsePayload (script : Script) (signature : Bytes) : Bytes :=
  env.serializePsbt (responsePsbt script signature)

theorem parse_response {script : Script} {signature : Bytes} (hresponds : Responds script signature) :
    parseResponse env (responsePayload script signature) = .ok (responsePsbt script signature) :=
  (parseResponse_serializePsbt env (response_wellFormed script signature)).mpr ⟨hresponds, rfl⟩

/-- A store after the response has been accepted. -/
def signedStore (db : Db TestWallet) (script : Script) (address : String) (stack : List Bytes)
    (signature : Bytes) (now : Nat) : Db TestWallet :=
  { db with
    draftSignatures := db.draftSignatures.insert (walletId, paymentId script)
      (env.psbtText (signedPsbt script stack signature))
    drafts := db.drafts.insert (paymentId script) (phaseRow script address stack now .signed) }

section Accepting

variable {db : Db TestWallet} {script : Script} {address : String} {stack : List Bytes}
  {signature : Bytes}

-- the record of crates is deeper than the default limit
set_option maxRecDepth 2000 in
theorem accept_payment (hpay : Payable script address) (hsign : Signable script signature)
    (hresponds : Responds script signature) {now : Nat}
    (hdraft : db.drafts[paymentId script]? = some (phaseRow script address stack now .unsigned))
    (hload : loadDraft env db walletId (paymentId script) =
      .ok (loadedPayment script address stack .unsigned none)) :
    acceptSignedPsbt env db walletId (paymentId script) (responsePayload script signature) =
      .ok (signedProgress (paymentId script), signedStore db script address stack signature now) := by
  have hparse := parse_response hresponds
  have hstate : DraftState.unsigned ≠ .finalized := by decide
  have hsome : ∃ i ∈ (signedProgress (paymentId script)).inputs, i.validSignatures ≠ 0 :=
    ⟨_, List.mem_singleton_self _, Nat.one_ne_zero⟩
  have hselect : (db.selectDraft walletId (paymentId script)).isSome :=
    Drafts.selectDraft_isSome.mpr ⟨_, hdraft, rfl⟩
  have hupsert : db.upsertSignatures walletId (paymentId script)
      (env.psbtText (signedPsbt script stack signature)) =
      .ok { db with
        draftSignatures := db.draftSignatures.insert (walletId, paymentId script)
          (env.psbtText (signedPsbt script stack signature)) } := by
    rw [Db.upsertSignatures, require_of hselect, ok_bind]
  rw [acceptSignedPsbt, hparse, ok_bind, hload, ok_bind]
  show (require (DraftState.unsigned ≠ .finalized) _ >>= _) = _
  rw [require_of hstate, ok_bind]
  show (mergeResponse env (paymentPsbt script stack) none (responsePsbt script signature)
    [fundingTrusted] >>= _) = _
  rw [merge_response stack hpay hsign, ok_bind]
  show (signingProgressOf env (paymentId script) (signedPsbt script stack signature)
    [fundingTrusted] >>= _) = _
  rw [progress_signed, ok_bind, require_of hsome, ok_bind, hupsert, ok_bind]
  have hrow : ({ db with
      draftSignatures := db.draftSignatures.insert (walletId, paymentId script)
        (env.psbtText (signedPsbt script stack signature)) } : Db TestWallet).selectDraft walletId
      (paymentId script) = some (phaseRow script address stack now .unsigned) :=
    Drafts.selectDraft_eq_some.mpr ⟨hdraft, rfl⟩
  rw [Drafts.updateReview_of_some hrow]
  rfl

end Accepting

/-- The run of a payment whose response is then accepted. -/
theorem accept_run {script : Script} {address : String} {stack : List Bytes} {signature : Bytes}
    (hpay : Payable script address) (hsign : Signable script signature)
    (hresponds : Responds script signature) (hfits : WithinLimits env (paymentPsbt script stack)) :
    acceptSignedPsbt env (System.run env (paymentRun address stack)).db walletId (paymentId script)
      (responsePayload script signature) = .ok (signedProgress (paymentId script),
        signedStore (paymentStore script address stack) script address stack signature 0) := by
  rw [run_payment hpay hfits]
  exact accept_payment hpay hsign hresponds (Table.get_insert_self _ _ _) (payment_loads hpay hfits)

theorem load_run {script : Script} {address : String} {stack : List Bytes}
    (hpay : Payable script address) (hfits : WithinLimits env (paymentPsbt script stack)) :
    loadDraft env (System.run env (paymentRun address stack)).db walletId (paymentId script) =
      .ok (loadedPayment script address stack .unsigned none) := by
  rw [run_payment hpay hfits]
  exact payment_loads hpay hfits

/-- The payment that was created tells the truth. -/
theorem payment_truthful : ∃ loaded,
    load env (paymentStore payeeScript payeeAddress []) walletId = .ok loaded ∧
      TruthfulDraft env (paymentStore payeeScript payeeAddress []) walletId (paymentId payeeScript)
        loaded.summary.network loaded.wallet
        (loadedPayment payeeScript payeeAddress [] .unsigned none) :=
  loadDraft_truthful (payment_loads payee_payable payee_fits)

/-! ## A payment at the size limit -/

theorem length_wide {n : Nat} (h : 0x10000 ≤ n) (hlt : n < 0x100000000) :
    (compactSize n).length = 5 := by
  have h₁ : ¬ n < 0xfd := by omega
  have h₂ : ¬ n < 0x10000 := by omega
  rw [compactSize, if_neg h₁, if_neg h₂, if_pos hlt, List.length_cons, leBytes_length]

/-- The funding transaction with a witness of `n` zeros. -/
def paddedTx (n : Nat) : Transaction := fundingTx [List.replicate n 0]

theorem length_padded {n : Nat} (h : 0x10000 ≤ n) (hlt : n < 0x100000000) :
    (serializeTx (paddedTx n)).length = n + 90 := by
  have hwitness : ¬ ∀ i ∈ (paddedTx n).input, i.witness = [] := by
    intro hall
    have hnil : [List.replicate n (0 : UInt8)] = [] := hall _ (List.mem_singleton_self _)
    cases hnil
  have hstack : (encodeWitness [List.replicate n 0]).length = n + 6 := by
    show (compactSize 1 ++ [List.replicate n (0 : UInt8)].flatMap varBytes).length = n + 6
    rw [List.length_append, List.flatMap_singleton, length_varBytes, List.length_replicate,
      length_wide h hlt]
    have hone : (compactSize 1).length = 1 := rfl
    omega
  have hinput : (counted encodeTxIn (paddedTx n).input).length = 42 := rfl
  have houtput : (counted encodeTxOut (paddedTx n).output).length = 32 := rfl
  have hbody : ((paddedTx n).input.map TxIn.witness).flatMap encodeWitness =
      encodeWitness [List.replicate n 0] := List.flatMap_singleton ..
  rw [serializeTx, if_neg hwitness, encodeBody, hbody]
  simp only [List.length_append, List.length_cons, hinput, houtput, hstack, encodeU32, leBytes_length]
  omega

theorem length_payment (stack : List Bytes) :
    (env.serializePsbt (paymentPsbt payeeScript stack)).length =
      281 + (varBytes (serializeTx (fundingTx stack))).length := by
  have hglobal : (encodeMap (env.globalFields (paymentPsbt payeeScript stack))).length = 117 := by
    have hempty : env.globalFields (paymentPsbt payeeScript stack) =
      globalFields (paymentPsbt payeeScript []) := rfl
    rw [hempty]
    decide +kernel
  have htail : (inputTail.map (fun f => (encodeField f).length)).sum = 94 := by decide
  have hfirst : ∀ value, (encodeField ([0x00], value)).length = 2 + (varBytes value).length := by
    intro value
    rw [encodeField, List.length_append]
    rfl
  have hinputs : ((paymentPsbt payeeScript stack).inputs.map env.inputFields) =
      [([0x00], serializeTx (fundingTx stack)) :: inputTail] := by
    rw [payment_inputs, List.map_singleton]
    exact congrArg (fun fields => [fields]) (payment_inputFields stack)
  have houtputs : (((paymentPsbt payeeScript stack).outputs.map env.outputFields).flatMap
      encodeMap).length = 62 := by
    rw [payment_metadata stack payee_payable]
    show (([{}, { bip32Derivation := derivations (accountDescriptor 1) 0 }].map
      outputFields).flatMap encodeMap).length = 62
    decide
  have hmagic : psbtMagic.length = 5 := rfl
  rw [Crates.serializePsbt, hinputs]
  simp only [List.length_append, List.flatMap_append, List.flatMap_singleton, length_encodeMap,
    List.map_cons, List.sum_cons, hfirst, htail, hmagic] at hglobal ⊢
  rw [hglobal, houtputs]
  omega

/-- The padding that makes the approved PSBT exactly as large as the limit allows. -/
def padding : List Bytes := [List.replicate 1048200 0]

theorem length_padding : (env.serializePsbt (paymentPsbt payeeScript padding)).length =
    maxPsbtBytes := by
  have htx : (serializeTx (fundingTx padding)).length = 1048290 := length_padded (by omega) (by omega)
  rw [length_payment, length_varBytes, htx, length_wide (by omega) (by omega)]
  rfl

theorem padding_fits : WithinLimits env (paymentPsbt payeeScript padding) :=
  payment_fits padding payee_payable payee_announces length_padding.le

end Fixture
end Tundra
