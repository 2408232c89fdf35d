/-
  Tundra.Signing.MergeSound

  What an accepted merge guarantees.  One candidate adds to each input exactly
  the signatures `inputSignatures` accepts from it (`mergeInputs_eq_ok`); the
  invariant `MergeInv`, that the merged inputs are the approved ones with
  sound signatures, is carried over the candidates.
-/

import Tundra.Signing.Merge

namespace Tundra
namespace Signing

open Checked Relational

variable {State Wallet Scan : Type} (env : Env State Wallet Scan)

/-! ## One candidate -/

/-- One input after merging the signatures of a candidate's input. -/
def MergedInput (tx : Transaction) (index : Nat) (trusted : TrustedInput)
    (merged candidate result : PsbtInput) : Prop :=
  checkMetadata env candidate trusted tx index = .ok () ∧
  ∃ signatures partialSigs,
    inputSignatures env tx index candidate trusted = .ok signatures ∧
    absorb merged.partialSigs signatures.toList = .ok partialSigs ∧
    result = { merged with partialSigs := partialSigs }

theorem mergeInputs_eq_ok {tx : Transaction} {index : Nat}
    {merged inputs result : List PsbtInput} {trusted : List TrustedInput}
    (hm : merged.length = trusted.length) (hi : inputs.length = trusted.length) :
    mergeInputs env tx index merged inputs trusted = .ok result ↔
      result.length = trusted.length ∧
      ∀ j m c t r, merged[j]? = some m → inputs[j]? = some c → trusted[j]? = some t →
        result[j]? = some r → MergedInput env tx (index + j) t m c r := by
  induction trusted generalizing index merged inputs result with
  | nil =>
      obtain rfl := List.length_eq_zero_iff.mp hm
      obtain rfl := List.length_eq_zero_iff.mp hi
      simp [mergeInputs, eq_comm]
  | cons t trusted ih =>
      obtain ⟨m, merged, rfl⟩ := List.exists_cons_of_length_eq_add_one hm
      obtain ⟨c, inputs, rfl⟩ := List.exists_cons_of_length_eq_add_one hi
      simp only [List.length_cons, Nat.add_right_cancel_iff] at hm hi
      simp only [mergeInputs, bind_eq_ok, ih hm hi, Except.ok.injEq]
      constructor
      · rintro ⟨_, hmeta, sigs, hsigs, partialSigs, habs, tail, ⟨hlen, hall⟩, rfl⟩
        refine ⟨by simp [hlen], ?_⟩
        intro j m' c' t' r' hm' hc' ht' hr'
        cases j with
        | zero =>
            simp only [List.getElem?_cons_zero, Option.some.injEq] at hm' hc' ht' hr'
            subst hm' hc' ht' hr'
            exact ⟨hmeta, sigs, partialSigs, hsigs, habs, rfl⟩
        | succ j =>
            simp only [List.getElem?_cons_succ] at hm' hc' ht' hr'
            have hj := hall j m' c' t' r' hm' hc' ht' hr'
            rwa [Nat.add_assoc, Nat.add_comm 1 j] at hj
      · rintro ⟨hlen, hall⟩
        obtain ⟨r, tail, rfl⟩ := List.exists_cons_of_length_eq_add_one hlen
        obtain ⟨hmeta, sigs, partialSigs, hsigs, habs, rfl⟩ := hall 0 m c t r rfl rfl rfl rfl
        refine ⟨(), hmeta, sigs, hsigs, partialSigs, habs, tail, ⟨by simpa using hlen, ?_⟩, rfl⟩
        intro j m' c' t' r' hm' hc' ht' hr'
        have hj := hall (j + 1) m' c' t' r' (by simpa using hm') (by simpa using hc')
          (by simpa using ht') (by simpa using hr')
        rwa [Nat.add_assoc, Nat.add_comm 1 j]

/-- Everything but the partial signatures stays as approved, and these are sound. -/
structure MergeInv (approved : Psbt) (trusted : List TrustedInput) (merged : List PsbtInput) :
    Prop where
  stripped : merged.map PsbtInput.stripSignatures = approved.inputs
  length : merged.length = trusted.length
  sound : ∀ (i : Nat) (input : PsbtInput) (t : TrustedInput), merged[i]? = some input →
    trusted[i]? = some t → SoundSignatures env approved.unsignedTx i t input.partialSigs

/-- Two sound sets of signatures of one input are sound together. -/
theorem SoundSignatures.union {tx : Transaction} {index : Nat} {t : TrustedInput}
    {a b u : Table PublicKey Signature} (ha : SoundSignatures env tx index t a)
    (hb : SoundSignatures env tx index t b)
    (hu : ∀ (key : PublicKey) (sig : Signature), u[key]? = some sig →
      a[key]? = some sig ∨ b[key]? = some sig) :
    SoundSignatures env tx index t u := by
  obtain ⟨keys, required, hash, hkeys, hhash, hall⟩ := ha
  obtain ⟨keys', required', hash', hkeys', hhash', hall'⟩ := hb
  rw [hkeys, Except.ok.injEq, Prod.mk.injEq] at hkeys'
  obtain ⟨rfl, rfl⟩ := hkeys'
  rw [hhash, Except.ok.injEq] at hhash'
  subst hhash'
  refine ⟨keys, required, hash, hkeys, hhash, ?_⟩
  intro key sig hks
  rcases hu key sig hks with h | h
  · exact hall key sig h
  · exact hall' key sig h

theorem mergeCandidate_eq_ok {approved candidate : Psbt} {trusted : List TrustedInput}
    {merged result : List PsbtInput} :
    mergeCandidate env approved trusted merged candidate = .ok result ↔
      (candidate.version = 0 ∧ candidate.unsignedTx = approved.unsignedTx ∧
        candidate.inputs.length = trusted.length ∧
        candidate.outputs.length = approved.outputs.length ∧
        subset candidate.xpub approved.xpub = true ∧
        candidate.unknown = [] ∧ candidate.proprietary = []) ∧
      (∀ pair ∈ candidate.outputs.zip approved.outputs, checkOutput pair.1 pair.2 = .ok ()) ∧
      mergeInputs env approved.unsignedTx 0 merged candidate.inputs trusted = .ok result := by
  simp only [mergeCandidate, bind_eq_ok, require_eq_ok, checkAll_eq_ok, exists_const]

/-- Merging one candidate keeps the invariant. -/
theorem MergeInv.step {approved candidate : Psbt} {trusted : List TrustedInput}
    {merged result : List PsbtInput} (hinv : MergeInv env approved trusted merged)
    (h : mergeCandidate env approved trusted merged candidate = .ok result) :
    MergeInv env approved trusted result := by
  obtain ⟨⟨_, _, hlen, _⟩, _, h⟩ := (mergeCandidate_eq_ok env).mp h
  obtain ⟨hrlen, hall⟩ := (mergeInputs_eq_ok env hinv.length hlen).mp h
  refine ⟨?_, hrlen, ?_⟩
  · rw [← hinv.stripped]
    apply List.ext_getElem (by simp [hrlen, hinv.length])
    intro j hj hj'
    simp only [List.length_map] at hj hj'
    obtain ⟨_, sigs, partialSigs, _, _, hr⟩ := hall j merged[j] candidate.inputs[j] trusted[j]
      result[j] (by simp) (by simp) (by simp) (by simp)
    simp only [List.getElem_map, hr, PsbtInput.stripSignatures_set]
  · intro j r t hr ht
    have hj : j < trusted.length := (List.getElem?_eq_some_iff.mp ht).1
    have hjm : j < merged.length := hinv.length ▸ hj
    have hjc : j < candidate.inputs.length := hlen ▸ hj
    obtain ⟨_, sigs, partialSigs, hsigs, habs, rfl⟩ := hall j merged[j] candidate.inputs[j] t r
      (by simp) (by simp) ht hr
    rw [Nat.zero_add] at hsigs
    refine SoundSignatures.union env (hinv.sound j merged[j] t (by simp) ht)
      (inputSignatures_sound env hsigs) ?_
    intro key sig hks
    exact ((absorb_get habs key sig).mp hks).imp_right Table.mem_toList.mp

/-- Merging a candidate keeps what was merged and adds the candidate's partial
    signatures. -/
theorem mergeCandidate_keeps {approved candidate : Psbt} {trusted : List TrustedInput}
    {merged result : List PsbtInput} (hlen : merged.length = trusted.length)
    (h : mergeCandidate env approved trusted merged candidate = .ok result)
    {i : Nat} {m c r : PsbtInput} (hm : merged[i]? = some m) (hc : candidate.inputs[i]? = some c)
    (hr : result[i]? = some r) {key : PublicKey} {sig : Signature}
    (hks : m.partialSigs[key]? = some sig ∨ c.partialSigs[key]? = some sig) :
    r.partialSigs[key]? = some sig := by
  obtain ⟨⟨_, _, hclen, _⟩, _, h⟩ := (mergeCandidate_eq_ok env).mp h
  obtain ⟨hrlen, hall⟩ := (mergeInputs_eq_ok env hlen hclen).mp h
  have hi : i < trusted.length := hlen ▸ (List.getElem?_eq_some_iff.mp hm).1
  obtain ⟨_, sigs, partialSigs, hsigs, habs, rfl⟩ := hall i m c trusted[i] r hm hc (by simp) hr
  refine (absorb_get habs key sig).mpr (hks.imp_right fun hc' => ?_)
  exact Table.mem_toList.mpr (inputSignatures_partialSigs env hsigs hc')

/-- The signature fields of a PSBT's inputs. -/
def signatureFields (p : Psbt) : List (Table PublicKey Signature × Option (List Bytes)) :=
  p.inputs.map (fun i => (i.partialSigs, i.finalScriptWitness))

/-- Nothing but the signature fields of a candidate reaches the result. -/
theorem mergeCandidate_congr {approved candidate candidate' : Psbt} {trusted : List TrustedInput}
    {merged result result' : List PsbtInput} (hlen : merged.length = trusted.length)
    (hsame : signatureFields candidate' = signatureFields candidate)
    (h : mergeCandidate env approved trusted merged candidate = .ok result)
    (h' : mergeCandidate env approved trusted merged candidate' = .ok result') :
    result' = result := by
  obtain ⟨⟨_, _, hclen, _⟩, _, h⟩ := (mergeCandidate_eq_ok env).mp h
  obtain ⟨⟨_, _, hclen', _⟩, _, h'⟩ := (mergeCandidate_eq_ok env).mp h'
  obtain ⟨hrlen, hall⟩ := (mergeInputs_eq_ok env hlen hclen).mp h
  obtain ⟨hrlen', hall'⟩ := (mergeInputs_eq_ok env hlen hclen').mp h'
  apply List.ext_getElem (by rw [hrlen, hrlen'])
  intro j hj' hj
  have hjt : j < trusted.length := hrlen ▸ hj
  have hjm : j < merged.length := hlen ▸ hjt
  have hjc : j < candidate.inputs.length := hclen ▸ hjt
  have hjc' : j < candidate'.inputs.length := hclen' ▸ hjt
  obtain ⟨_, sigs, partialSigs, hsigs, habs, hr⟩ := hall j merged[j] candidate.inputs[j]
    trusted[j] result[j] (by simp) (by simp) (by simp) (by simp)
  obtain ⟨_, sigs', partialSigs', hsigs', habs', hr'⟩ := hall' j merged[j] candidate'.inputs[j]
    trusted[j] result'[j] (by simp) (by simp) (by simp) (by simp)
  have hfields : (candidate'.inputs[j].partialSigs, candidate'.inputs[j].finalScriptWitness) =
      (candidate.inputs[j].partialSigs, candidate.inputs[j].finalScriptWitness) := by
    have hget : (signatureFields candidate')[j]? = (signatureFields candidate)[j]? := by rw [hsame]
    simpa [signatureFields, hjc, hjc'] using hget
  obtain ⟨hp, hw⟩ := Prod.mk.injEq .. ▸ hfields
  rw [inputSignatures_congr env hp hw, hsigs, Except.ok.injEq] at hsigs'
  subst hsigs'
  rw [habs, Except.ok.injEq] at habs'
  rw [hr, hr', habs']

/-! ## The whole merge -/

theorem checkApproved_eq_ok {tx : Transaction} {index : Nat} {inputs : List PsbtInput}
    {trusted : List TrustedInput} (hlen : inputs.length = trusted.length) :
    checkApproved env tx index inputs trusted = .ok () ↔
      ∀ j input t, inputs[j]? = some input → trusted[j]? = some t →
        checkMetadata env input t tx (index + j) = .ok () ∧
        input.partialSigs = ∅ ∧ input.finalScriptWitness = none ∧ input.finalScriptSig = none := by
  induction trusted generalizing index inputs with
  | nil =>
      obtain rfl := List.length_eq_zero_iff.mp hlen
      simp [checkApproved]
  | cons t trusted ih =>
      obtain ⟨input, inputs, rfl⟩ := List.exists_cons_of_length_eq_add_one hlen
      simp only [List.length_cons, Nat.add_right_cancel_iff] at hlen
      simp only [checkApproved, bind_eq_ok, require_eq_ok, exists_const, ih hlen]
      constructor
      · rintro ⟨⟨⟩, hmeta, hclear, hall⟩ j input' t' hi ht
        cases j with
        | zero =>
            simp only [List.getElem?_cons_zero, Option.some.injEq] at hi ht
            subst hi ht
            exact ⟨hmeta, hclear⟩
        | succ j =>
            simp only [List.getElem?_cons_succ] at hi ht
            have hj := hall j input' t' hi ht
            rwa [Nat.add_assoc, Nat.add_comm 1 j] at hj
      · intro hall
        obtain ⟨hmeta, hclear⟩ := hall 0 input t rfl rfl
        refine ⟨(), hmeta, hclear, fun j input' t' hi ht => ?_⟩
        have hj := hall (j + 1) input' t' (by simpa using hi) (by simpa using ht)
        rwa [Nat.add_assoc, Nat.add_comm 1 j]

/-- What `mergeResponse` requires of the approved PSBT itself. -/
structure ApprovedOk (approved : Psbt) (trusted : List TrustedInput) : Prop where
  trusted_length : approved.inputs.length = trusted.length
  inputs_length : approved.inputs.length = approved.unsignedTx.input.length
  outputs_length : approved.outputs.length = approved.unsignedTx.output.length
  version : approved.version = 0
  inputs : ∀ (j : Nat) (input : PsbtInput) (t : TrustedInput), approved.inputs[j]? = some input →
    trusted[j]? = some t →
    checkMetadata env input t approved.unsignedTx j = .ok () ∧
    input.partialSigs = ∅ ∧ input.finalScriptWitness = none ∧ input.finalScriptSig = none

theorem mergeResponse_eq_ok {approved response merged : Psbt} {previous : Option Psbt}
    {trusted : List TrustedInput} :
    mergeResponse env approved previous response trusted = .ok merged ↔
      ApprovedOk env approved trusted ∧
      ∃ inputs, (previous.toList ++ [response]).foldlM (mergeCandidate env approved trusted)
        approved.inputs = .ok inputs ∧ merged = { approved with inputs := inputs } := by
  simp only [mergeResponse, bind_eq_ok, require_eq_ok, exists_const, Except.ok.injEq]
  constructor
  · rintro ⟨⟨h₁, h₂, h₃, h₄⟩, ⟨⟩, hinputs, inputs, hfold, rfl⟩
    refine ⟨⟨h₁, h₂, h₃, h₄, ?_⟩, inputs, hfold, rfl⟩
    have hall := (checkApproved_eq_ok env h₁).mp hinputs
    simpa only [Nat.zero_add] using hall
  · rintro ⟨hok, inputs, hfold, rfl⟩
    refine ⟨⟨hok.trusted_length, hok.inputs_length, hok.outputs_length, hok.version⟩, (), ?_,
      inputs, hfold, rfl⟩
    refine (checkApproved_eq_ok env hok.trusted_length).mpr fun j input t hi ht => ?_
    rw [Nat.zero_add]
    exact hok.inputs j input t hi ht

/-- The approved inputs themselves satisfy the invariant: they have no signature. -/
theorem ApprovedOk.mergeInv {approved : Psbt} {trusted : List TrustedInput}
    (hok : ApprovedOk env approved trusted)
    (hkeys : ∀ (i : Nat) (t : TrustedInput), trusted[i]? = some t →
      ∃ s, SoundSignatures env approved.unsignedTx i t s) :
    MergeInv env approved trusted approved.inputs where
  stripped := by
    conv_rhs => rw [← List.map_id approved.inputs]
    apply List.map_congr_left
    intro input hinput
    obtain ⟨j, hj, hget⟩ := List.getElem_of_mem hinput
    have ht : j < trusted.length := hok.trusted_length ▸ hj
    obtain ⟨_, hempty, _⟩ := hok.inputs j input trusted[j]
      (hget ▸ List.getElem?_eq_getElem hj) (List.getElem?_eq_getElem ht)
    exact PsbtInput.stripSignatures_of_empty hempty
  length := hok.trusted_length
  sound := by
    intro i input t hi ht
    obtain ⟨s, keys, required, hash, hk, hh, _⟩ := hkeys i t ht
    refine ⟨keys, required, hash, hk, hh, fun key sig hks => ?_⟩
    rw [(hok.inputs i input t hi ht).2.1] at hks
    simp at hks

/-- A merged candidate has shown the policy and hash of every input. -/
theorem mergeCandidate_policies {approved candidate : Psbt} {trusted : List TrustedInput}
    {merged result : List PsbtInput} (hlen : merged.length = trusted.length)
    (h : mergeCandidate env approved trusted merged candidate = .ok result)
    (i : Nat) (t : TrustedInput) (ht : trusted[i]? = some t) :
    ∃ s, SoundSignatures env approved.unsignedTx i t s := by
  obtain ⟨⟨_, _, hclen, _⟩, _, h⟩ := (mergeCandidate_eq_ok env).mp h
  obtain ⟨hrlen, hall⟩ := (mergeInputs_eq_ok env hlen hclen).mp h
  have hi : i < trusted.length := (List.getElem?_eq_some_iff.mp ht).1
  have him : i < merged.length := hlen ▸ hi
  have hic : i < candidate.inputs.length := hclen ▸ hi
  have hir : i < result.length := hrlen ▸ hi
  obtain ⟨_, sigs, _, hsigs, _⟩ := hall i merged[i] candidate.inputs[i] t result[i]
    (by simp) (by simp) ht (by simp)
  exact ⟨sigs, inputSignatures_sound env (by rwa [Nat.zero_add] at hsigs)⟩

/-- An accepted merge satisfies the invariant. -/
theorem mergeResponse_inv {approved response merged : Psbt} {previous : Option Psbt}
    {trusted : List TrustedInput}
    (h : mergeResponse env approved previous response trusted = .ok merged) :
    ApprovedOk env approved trusted ∧ MergeInv env approved trusted merged.inputs ∧
      merged = { approved with inputs := merged.inputs } := by
  obtain ⟨hok, inputs, hfold, rfl⟩ := (mergeResponse_eq_ok env).mp h
  refine ⟨hok, ?_, rfl⟩
  have hfirst : ∃ candidate result,
      mergeCandidate env approved trusted approved.inputs candidate = .ok result := by
    cases previous with
    | none =>
        simp only [Option.toList_none, List.nil_append, List.foldlM_cons, bind_eq_ok] at hfold
        obtain ⟨r, hr, _⟩ := hfold
        exact ⟨_, r, hr⟩
    | some prev =>
        simp only [Option.toList_some, List.cons_append, List.foldlM_cons, bind_eq_ok] at hfold
        obtain ⟨r, hr, _⟩ := hfold
        exact ⟨_, r, hr⟩
  obtain ⟨candidate, result, hr⟩ := hfirst
  have hstart := hok.mergeInv env (mergeCandidate_policies env hok.trusted_length hr)
  exact foldlM_ok_inv (MergeInv env approved trusted) (fun _ _ _ _ hinv hc => hinv.step env hc)
    hstart hfold

end Signing
end Tundra
