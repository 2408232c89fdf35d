/-
  Tundra.Fixture.Submitted

  The fixture's payments finalized and submitted: the final transaction is
  assembled from the stored signature, and one broadcast attempt is recorded.
-/

import Tundra.Fixture.Signed
import Tundra.Signing.Finalize

namespace Tundra
namespace Fixture

open Ascii Wire Relational Checked Engine Signing Broadcast

/-! ## The final transaction -/

section Finalizing

variable {script : Script} {address : String} {stack : List Bytes} {signature : Bytes}

-- the record of crates is deeper than the default limit
set_option maxRecDepth 2000 in
theorem final_witness : finalWitness env fundingTrusted
    (signedInput stack (paymentSignatures signature)) = .ok (signedStack signature) := by
  have hsigned : signedKeys [fundingKey] 1 (signedInput stack (paymentSignatures signature)).partialSigs =
      [(fundingKey, fundingSignature signature)] := by
    have hget : (signedInput stack (paymentSignatures signature)).partialSigs[fundingKey]? =
      some (fundingSignature signature) := Table.get_insert_self _ _ _
    rw [signedKeys, List.filterMap_cons, hget]
    rfl
  have hlength : [(fundingKey, fundingSignature signature)].length = 1 := rfl
  have hdescriptor : fundingTrusted.descriptor = .wpkh fundingKey := rfl
  have hkey : env.publicKeyBytes fundingKey =
      bigEndian 33 0x020c7f4de1cc760fc068775b1513d67d0a7802f0b4b1c61aa85784ebf722905b27 := by
    have hcrate : env.publicKeyBytes = publicKeyBytes := rfl
    rw [hcrate]
    decide
  rw [finalWitness, funding_keys, ok_bind]
  dsimp only
  rw [hsigned, require_of hlength, ok_bind, hdescriptor]
  dsimp only
  rw [hkey]
  rfl

/-- The approved PSBT with the final witness. -/
def witnessedPsbt (script : Script) (stack : List Bytes) (signature : Bytes) : Psbt :=
  withFinalWitnesses (paymentPsbt script stack) [signedStack signature]

-- the record of crates is deeper than the default limit
set_option maxRecDepth 2000 in
theorem witnessed_carries (stack : List Bytes) (h : Signable script signature) :
    Carries script stack (witnessedPsbt script stack signature) (paymentSignatures signature) where
  header := ⟨rfl, payment_unsigned script stack, rfl, rfl, rfl⟩
  outputs := .inr rfl
  input := by
    let input : PsbtInput := { signedInput stack ∅ with
      finalScriptWitness := some (signedStack signature) }
    have hinputs : (witnessedPsbt script stack signature).inputs = [input] := by
      rw [witnessedPsbt, withFinalWitnesses]
      dsimp only
      rw [payment_inputs]
      rfl
    have hkey : env.publicKeyBytes fundingKey =
        bigEndian 33 0x020c7f4de1cc760fc068775b1513d67d0a7802f0b4b1c61aa85784ebf722905b27 := by
      have hcrate : env.publicKeyBytes = publicKeyBytes := rfl
      rw [hcrate]
      decide
    have hslice : env.signatureFromSlice (signature ++ [0x01]) = some (fundingSignature signature) :=
      signatureFromSlice_toVec (fundingSignature signature)
    have hsigs : inputSignatures env (paymentTx script []) 0 input fundingTrusted =
        .ok (paymentSignatures signature) := by
      have hnone : ∀ entry ∈ input.partialSigs.toList, entry.1 ∈ [fundingKey] ∧
          validSignature env (Fixture.signatureHash (paymentTx script []) 0) entry.1 entry.2 = true :=
        fun entry hentry => absurd hentry List.not_mem_nil
      have hfinal : input.finalScriptWitness = some (signedStack signature) := rfl
      have hempty : input.partialSigs = ∅ := rfl
      have hstack : signedStack signature = [signature ++ [0x01],
        bigEndian 33 0x020c7f4de1cc760fc068775b1513d67d0a7802f0b4b1c61aa85784ebf722905b27] := rfl
      rw [inputSignatures, funding_keys, ok_bind]
      dsimp only
      rw [funding_hash, ok_bind, require_of hnone, ok_bind, hfinal]
      dsimp only
      rw [require_of hempty, ok_bind, hstack, witnessSignatures, if_pos rfl]
      rw [require_of hkey.symm, ok_bind, hslice, okOr, ok_bind, require_of (funding_valid h), ok_bind]
      rfl
    exact ⟨input, hinputs, funded_metadata rfl rfl rfl rfl rfl rfl rfl, hsigs⟩

/-- The witness is checked once more, as the response of a signer. -/
theorem merge_witnessed (hpay : Payable script address) (h : Signable script signature) :
    mergeResponse env (paymentPsbt script stack) none (witnessedPsbt script stack signature)
      [fundingTrusted] = .ok (signedPsbt script stack signature) := by
  have hmerged := (witnessed_carries stack h).merge hpay (signedInput stack ∅) absorb_new
  refine merge_payment ?_
  rw [Option.toList_none, List.nil_append, List.foldlM_cons, hmerged]
  rfl

-- the record of crates is deeper than the default limit
set_option maxRecDepth 2000 in
theorem finalize_payment (hpay : Payable script address) (h : Signable script signature) :
    finalizeTransaction env (paymentPsbt script stack) (some (signedPsbt script stack signature))
      [fundingTrusted] = .ok (paymentTx script (signedStack signature)) := by
  have hcomplete : (signedProgress "").complete = true := rfl
  have hinputs : (signedPsbt script stack signature).inputs =
    [signedInput stack (paymentSignatures signature)] := rfl
  have hwitnesses : ([fundingTrusted].zip (signedPsbt script stack signature).inputs).mapM
      (fun row => finalWitness env row.1 row.2) = .ok [signedStack signature] := by
    rw [hinputs, List.zip_cons_cons, List.zip_nil_left, List.mapM_cons, final_witness]
    rfl
  have htx : withWitnesses (paymentPsbt script stack).unsignedTx [signedStack signature] =
      paymentTx script (signedStack signature) := by
    rw [payment_unsigned]
    rfl
  have hid : env.computeTxid (paymentTx script (signedStack signature)) =
      env.computeTxid (paymentPsbt script stack).unsignedTx := by
    rw [payment_unsigned]
    rfl
  rw [finalizeTransaction, merge_stored hpay h, ok_bind, progress_signed, ok_bind,
    require_of hcomplete, ok_bind, hwitnesses, ok_bind]
  dsimp only
  rw [← witnessedPsbt, merge_witnessed hpay h, ok_bind, htx, require_of hid]
  rfl

/-- The final review of a payment. -/
def finalReview (script : Script) (address : String) (stack : List Bytes) (signature : Bytes)
    (phase : DraftState) : FinalizedReview :=
  finalizedReview env
    (loadedPayment script address stack phase (some (signedPsbt script stack signature)))
    (paymentTx script (signedStack signature))

/-- A store after the payment has been finalized. -/
def finalStore (db : Db TestWallet) (script : Script) (address : String) (stack : List Bytes)
    (signature : Bytes) (now : Nat) : Db TestWallet :=
  { db with
    finalizedDrafts := db.finalizedDrafts.insert (walletId, paymentId script)
      (serializeTx (paymentTx script (signedStack signature)))
    drafts := db.drafts.insert (paymentId script) (phaseRow script address stack now .finalized) }

/-- The steps of a finalization that succeeds. -/
theorem finalizeDraft_of {State Wallet Scan : Type} (env : Env State Wallet Scan) {db : Db State}
    {w d : String} {draft : SigningDraft} {tx : Transaction} {row : DraftRow}
    (hload : loadDraft env db w d = .ok draft)
    (htx : finalizeTransaction env draft.approved draft.stored draft.trusted = .ok tx)
    (hnew : db.finalizedDrafts[(w, d)]? = none) (hstate : draft.review.state ≠ .finalized)
    (hrow : db.selectDraft w d = some row) :
    finalizeDraft env db w d =
      .ok (finalizedReview env draft tx,
        { db with
          finalizedDrafts := db.finalizedDrafts.insert (w, d)
            (finalizedReview env draft tx).transactionBytes
          drafts := db.drafts.insert d
            { row with reviewJson := reviewText env (draft.review.withState .finalized) } }) := by
  have hselect : (db.selectDraft w d).isSome = true := by rw [hrow]; rfl
  have hinsert : db.insertFinalized w d (finalizedReview env draft tx).transactionBytes =
      .ok { db with
        finalizedDrafts := db.finalizedDrafts.insert (w, d)
          (finalizedReview env draft tx).transactionBytes } := by
    rw [Db.insertFinalized, require_of hselect, ok_bind,
      Table.insertNew_eq_some.mpr ⟨hnew, rfl⟩, okOr, ok_bind]
  rw [finalizeDraft, hload, ok_bind, htx, ok_bind, hnew]
  dsimp only
  rw [require_of hstate, ok_bind, hinsert, ok_bind, Drafts.updateReview_of_some (by exact hrow)]

-- the record of crates is deeper than the default limit
set_option maxRecDepth 2000 in
theorem finalize_draft {db : Db TestWallet} (hpay : Payable script address)
    (h : Signable script signature) {now : Nat}
    (hdraft : db.drafts[paymentId script]? = some (phaseRow script address stack now .signed))
    (hnew : db.finalizedDrafts[(walletId, paymentId script)]? = none)
    (hload : loadDraft env db walletId (paymentId script) =
      .ok (loadedPayment script address stack .signed (some (signedPsbt script stack signature)))) :
    finalizeDraft env db walletId (paymentId script) =
      .ok (finalReview script address stack signature .signed,
        finalStore db script address stack signature now) := by
  have hrow : db.selectDraft walletId (paymentId script) =
    some (phaseRow script address stack now .signed) := Drafts.selectDraft_eq_some.mpr ⟨hdraft, rfl⟩
  have hstate : DraftState.signed ≠ .finalized := by decide
  have hfinal := finalizeDraft_of env hload (finalize_payment hpay h) hnew hstate hrow
  rw [hfinal]
  rfl

/-- A transaction's id is the hash of its serialization without witnesses. -/
theorem encodeLegacy_stripWitnesses (tx : Transaction) :
    encodeLegacy tx.stripWitnesses = encodeLegacy tx := by
  have hinput : counted encodeTxIn tx.stripWitnesses.input = counted encodeTxIn tx.input := by
    rw [counted, counted, Transaction.stripWitnesses, List.length_map, List.flatMap_map]
    rfl
  rw [encodeLegacy, encodeLegacy, hinput]
  rfl

-- the record of crates is deeper than the default limit
set_option maxRecDepth 2000 in
/-- The environment of signing. -/
def signingEnv : SigningEnv TestWallet TestWallet ChainScan where
  toEnv := env
  signatureFromSlice_toVec := signatureFromSlice_toVec
  computeTxid_stripWitnesses tx := by
    have hcrate : env.computeTxid = computeTxid := rfl
    show env.computeTxid tx.stripWitnesses = env.computeTxid tx
    rw [hcrate, computeTxid, computeTxid, encodeLegacy_stripWitnesses]

end Finalizing

end Fixture
end Tundra
