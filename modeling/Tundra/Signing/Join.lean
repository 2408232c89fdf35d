/-
  Tundra.Signing.Join

  Merging responses is a join of the signatures they carry: a list of accepted
  responses gives their union, in any order and any number of times, and a
  second signature for a key is refused.
-/

import Tundra.Lib.Join
import Tundra.Signing.Aggregate
import Tundra.System

namespace Tundra
namespace Signing

open Checked Relational Join

variable {State Wallet Scan : Type} (env : Env State Wallet Scan)

/-! ## Signatures as entries -/

/-- A signature under a key of an input. -/
abbrev Entry := Nat × PublicKey × Signature

/-- The signatures in the inputs of an aggregate. -/
def heldSignatures (p : Psbt) : Set Entry :=
  {e | ∃ input, p.inputs[e.1]? = some input ∧ input.partialSigs[e.2.1]? = some e.2.2}

/-- The signatures a response contributes, in either encoding. -/
def contributed (approved : Psbt) (trusted : List TrustedInput) (response : Psbt) : Set Entry :=
  {e | ∃ c t signatures, response.inputs[e.1]? = some c ∧ trusted[e.1]? = some t ∧
    inputSignatures env approved.unsignedTx e.1 c t = .ok signatures ∧
    signatures[e.2.1]? = some e.2.2}

/-- No key of an input has two signatures. -/
def OnePerKey (entries : Set Entry) : Prop :=
  ∀ (i : Nat) (key : PublicKey) (sig sig' : Signature), (i, key, sig) ∈ entries →
    (i, key, sig') ∈ entries → sig = sig'

/-- What a response needs, whatever has been merged before it. -/
structure Acceptable (approved : Psbt) (trusted : List TrustedInput) (response : Psbt) : Prop where
  header : response.version = 0 ∧ response.unsignedTx = approved.unsignedTx ∧
    response.inputs.length = trusted.length ∧ response.outputs.length = approved.outputs.length ∧
    subset response.xpub approved.xpub = true ∧ response.unknown = [] ∧ response.proprietary = []
  outputs : ∀ pair ∈ response.outputs.zip approved.outputs, checkOutput pair.1 pair.2 = .ok ()
  inputs : ∀ (i : Nat) (c : PsbtInput) (t : TrustedInput), response.inputs[i]? = some c →
    trusted[i]? = some t → checkMetadata env c t approved.unsignedTx i = .ok () ∧
      ∃ signatures, inputSignatures env approved.unsignedTx i c t = .ok signatures

/-- A state of the merge: the approved PSBT with sound signatures. -/
structure IsAggregate (approved : Psbt) (trusted : List TrustedInput) (m : Psbt) : Prop where
  approvedOk : ApprovedOk env approved trusted
  inv : MergeInv env approved trusted m.inputs
  eq : m = { approved with inputs := m.inputs }

section Candidates

variable {env}
variable {approved m m' response : Psbt} {trusted : List TrustedInput}
  {merged inputs : List PsbtInput}

theorem heldSignatures_onePerKey (p : Psbt) : OnePerKey (heldSignatures p) := by
  rintro i key sig sig' ⟨input, hinput, hsig⟩ ⟨input', hinput', hsig'⟩
  rw [hinput, Option.some.injEq] at hinput'
  subst hinput'
  rw [hsig, Option.some.injEq] at hsig'
  exact hsig'

/-- Two aggregates with the same signatures are equal. -/
theorem IsAggregate.ext (h : IsAggregate env approved trusted m)
    (h' : IsAggregate env approved trusted m') (hsame : heldSignatures m = heldSignatures m') :
    m = m' := by
  have hinputs : m.inputs = m'.inputs := by
    apply List.ext_getElem (h.inv.length.trans h'.inv.length.symm)
    intro i hi hi'
    have hget := List.getElem?_eq_getElem hi
    have hget' := List.getElem?_eq_getElem hi'
    have hstrip := strip_inputs_get (strip_merged h.inv h.eq) hget
    rw [strip_inputs_get (strip_merged h'.inv h'.eq) hget', Option.some.injEq] at hstrip
    have hsigs : m.inputs[i].partialSigs = m'.inputs[i].partialSigs := by
      apply Table.ext
      intro key
      apply Option.ext
      intro sig
      have hentry : (i, key, sig) ∈ heldSignatures m ↔ (i, key, sig) ∈ heldSignatures m' := by
        rw [hsame]
      simpa [heldSignatures, hget, hget'] using hentry
    have hset : ∀ x : PsbtInput, x = { x.stripSignatures with partialSigs := x.partialSigs } :=
      fun _ => rfl
    rw [hset m.inputs[i], hset m'.inputs[i], hstrip, hsigs]
  rw [h.eq, h'.eq, hinputs]

/-- The entries of the merged inputs and of the candidate. -/
theorem mergeCandidate_entries (hlen : merged.length = trusted.length)
    (h : mergeCandidate env approved trusted merged response = .ok inputs) :
    heldSignatures { approved with inputs := inputs } =
      heldSignatures { approved with inputs := merged } ∪ contributed env approved trusted response := by
  ext ⟨i, key, sig⟩
  obtain ⟨⟨_, _, hclen, _⟩, _, hrun⟩ := (mergeCandidate_eq_ok env).mp h
  obtain ⟨hrlen, -⟩ := (mergeInputs_eq_ok env hlen hclen).mp hrun
  by_cases hi : i < trusted.length
  · obtain ⟨x, c, t, r, signatures, hx, hc, ht, hr, hsigs, hget⟩ := mergeCandidate_get hlen h hi
    simp only [heldSignatures, contributed, Set.mem_ofPred_eq, Set.mem_union, hx, hc, ht, hr,
      Option.some.injEq, exists_eq_left', hget]
    refine or_congr_right ⟨fun hsig => ⟨c, t, signatures, rfl, rfl, hsigs, hsig⟩, ?_⟩
    rintro ⟨_, _, signatures', rfl, rfl, hsigs', hsig⟩
    rw [hsigs, Except.ok.injEq] at hsigs'
    rwa [hsigs']
  · -- past the last input neither side has an entry
    have hnone : inputs[i]? = none := List.getElem?_eq_none (by omega)
    have hnone' : merged[i]? = none := List.getElem?_eq_none (by omega)
    have hnone'' : trusted[i]? = none := List.getElem?_eq_none (by omega)
    simp [heldSignatures, contributed, hnone, hnone', hnone'']

theorem mergeCandidate_acceptable (hlen : merged.length = trusted.length)
    (h : mergeCandidate env approved trusted merged response = .ok inputs) :
    Acceptable env approved trusted response := by
  obtain ⟨hheader, houtputs, hrun⟩ := (mergeCandidate_eq_ok env).mp h
  have hclen : response.inputs.length = trusted.length := hheader.2.2.1
  obtain ⟨hrlen, hall⟩ := (mergeInputs_eq_ok env hlen hclen).mp hrun
  refine ⟨hheader, houtputs, fun i c t hc ht => ?_⟩
  have hi : i < trusted.length := (List.getElem?_eq_some_iff.mp ht).1
  obtain ⟨hmeta, signatures, _, hsigs, _⟩ := hall i merged[i] c t inputs[i] (by simp) hc ht (by simp)
  rw [Nat.zero_add] at hmeta hsigs
  exact ⟨hmeta, signatures, hsigs⟩

/-- The loop over the inputs ends when no input is refused. -/
theorem mergeInputs_total {tx : Transaction} {index : Nat} (hm : merged.length = trusted.length)
    (hi : inputs.length = trusted.length)
    (h : ∀ (j : Nat) (x c : PsbtInput) (t : TrustedInput), merged[j]? = some x →
      inputs[j]? = some c → trusted[j]? = some t →
      checkMetadata env c t tx (index + j) = .ok () ∧
      ∃ signatures partialSigs, inputSignatures env tx (index + j) c t = .ok signatures ∧
        absorb x.partialSigs signatures.toList = .ok partialSigs) :
    ∃ result, mergeInputs env tx index merged inputs trusted = .ok result := by
  induction trusted generalizing index merged inputs with
  | nil =>
      obtain rfl := List.length_eq_zero_iff.mp hm
      exact ⟨[], by rw [mergeInputs]; simp⟩
  | cons t trusted ih =>
      obtain ⟨x, merged, rfl⟩ := List.exists_cons_of_length_eq_add_one hm
      obtain ⟨c, inputs, rfl⟩ := List.exists_cons_of_length_eq_add_one hi
      simp only [List.length_cons, Nat.add_right_cancel_iff] at hm hi
      obtain ⟨hmeta, signatures, partialSigs, hsigs, habs⟩ := h 0 x c t rfl rfl rfl
      have hrest : ∀ (j : Nat) (x' c' : PsbtInput) (t' : TrustedInput), merged[j]? = some x' →
          inputs[j]? = some c' → trusted[j]? = some t' →
          checkMetadata env c' t' tx (index + 1 + j) = .ok () ∧
          ∃ signatures partialSigs, inputSignatures env tx (index + 1 + j) c' t' = .ok signatures ∧
            absorb x'.partialSigs signatures.toList = .ok partialSigs := by
        intro j x' c' t' hx hc ht
        have hj := h (j + 1) x' c' t' (by simpa using hx) (by simpa using hc) (by simpa using ht)
        rwa [Nat.add_comm j 1, ← Nat.add_assoc] at hj
      obtain ⟨tail, htail⟩ := ih hm hi hrest
      rw [Nat.add_zero] at hmeta hsigs
      exact ⟨{ x with partialSigs := partialSigs } :: tail, by
        rw [mergeInputs, hmeta, ok_bind, hsigs, ok_bind, habs, ok_bind, htail, ok_bind]⟩

/-- An acceptable response without a conflict is merged. -/
theorem mergeCandidate_total (hlen : merged.length = trusted.length)
    (haccept : Acceptable env approved trusted response)
    (hone : OnePerKey (heldSignatures { approved with inputs := merged } ∪
      contributed env approved trusted response)) :
    ∃ result, mergeCandidate env approved trusted merged response = .ok result := by
  have hclen : response.inputs.length = trusted.length := haccept.header.2.2.1
  have hinputs : ∀ (j : Nat) (x c : PsbtInput) (t : TrustedInput), merged[j]? = some x →
      response.inputs[j]? = some c → trusted[j]? = some t →
      checkMetadata env c t approved.unsignedTx (0 + j) = .ok () ∧
      ∃ signatures partialSigs,
        inputSignatures env approved.unsignedTx (0 + j) c t = .ok signatures ∧
          absorb x.partialSigs signatures.toList = .ok partialSigs := by
    intro j x c t hx hc ht
    obtain ⟨hmeta, signatures, hsigs⟩ := haccept.inputs j c t hc ht
    rw [Nat.zero_add]
    have hold : ∀ (key : PublicKey) (sig sig' : Signature), x.partialSigs[key]? = some sig →
        (key, sig') ∈ signatures.toList → sig = sig' := by
      intro key sig sig' hks hmem
      exact hone j key sig sig' (.inl ⟨x, hx, hks⟩)
        (.inr ⟨c, t, signatures, hc, ht, hsigs, Table.mem_toList.mp hmem⟩)
    obtain ⟨partialSigs, habs⟩ := absorb_total hold toList_functional
    exact ⟨hmeta, signatures, partialSigs, hsigs, habs⟩
  obtain ⟨result, hresult⟩ := mergeInputs_total hlen hclen hinputs
  exact ⟨result, (mergeCandidate_eq_ok env).mpr ⟨haccept.header, haccept.outputs, hresult⟩⟩

end Candidates

/-! ## The merge is a join -/

section Merge

variable {env}
variable {approved m previous response : Psbt} {trusted : List TrustedInput} {responses : List Psbt}

/-- A merge into an aggregate is that of one candidate. -/
theorem mergeResponse_aggregate {result : Psbt} (hplain : Plain approved)
    (h : IsAggregate env approved trusted m) :
    mergeResponse env approved (some m) response trusted = .ok result ↔
      ∃ inputs, mergeCandidate env approved trusted m.inputs response = .ok inputs ∧
        result = { approved with inputs := inputs } := by
  have hself := mergeCandidate_self hplain h.approvedOk h.inv h.eq
  simp only [mergeResponse_eq_ok, h.approvedOk, true_and, Option.toList_some, List.cons_append,
    List.nil_append, List.foldlM_cons, List.foldlM_nil, hself, ok_bind, bind_eq_ok, pure_eq_ok,
    exists_eq_right]

theorem mergeResponse_isAggregate {prior : Option Psbt}
    (h : mergeResponse env approved prior response trusted = .ok m) :
    IsAggregate env approved trusted m := by
  obtain ⟨hok, hinv, hm⟩ := mergeResponse_inv env h
  exact ⟨hok, hinv, hm⟩

/-- Merging responses is a join of their signatures. -/
theorem mergeResponse_isJoin (hplain : Plain approved) :
    IsJoin (fun m response => mergeResponse env approved (some m) response trusted)
      (IsAggregate env approved trusted) (Acceptable env approved trusted) OnePerKey heldSignatures
      (contributed env approved trusted) where
  sound m response result hm h := by
    obtain ⟨inputs, hcandidate, rfl⟩ := (mergeResponse_aggregate hplain hm).mp h
    refine ⟨mergeCandidate_acceptable hm.inv.length hcandidate, mergeResponse_isAggregate h, ?_⟩
    rw [mergeCandidate_entries hm.inv.length hcandidate, ← hm.eq]
  complete m response hm haccept hone := by
    rw [hm.eq] at hone
    obtain ⟨inputs, hcandidate⟩ := mergeCandidate_total hm.inv.length haccept hone
    exact ⟨_, (mergeResponse_aggregate hplain hm).mpr ⟨inputs, hcandidate, rfl⟩⟩
  consistent m _ := heldSignatures_onePerKey m
  mono _ _ hsub hone i key sig sig' h h' := hone i key sig sig' (hsub h) (hsub h')
  ext _ _ hm hm' hsame := hm.ext hm' hsame

/-- A response accepted without a previous aggregate. -/
def AcceptsAlone (env : Env State Wallet Scan) (approved : Psbt) (trusted : List TrustedInput)
    (response : Psbt) : Prop :=
  ∃ m, mergeResponse env approved none response trusted = .ok m

/-- Without a previous aggregate the merge starts from the approved PSBT. -/
theorem AcceptsAlone.start (h : AcceptsAlone env approved trusted response) :
    IsAggregate env approved trusted approved := by
  obtain ⟨m, hm⟩ := h
  obtain ⟨hok, hinv, heq⟩ := mergeResponse_inv env hm
  have hpolicies : ∀ (i : Nat) (t : TrustedInput), trusted[i]? = some t →
      ∃ s, SoundSignatures env approved.unsignedTx i t s := by
    intro i t ht
    have hi : i < m.inputs.length := hinv.length ▸ (List.getElem?_eq_some_iff.mp ht).1
    exact ⟨_, hinv.sound i m.inputs[i] t (by simp) ht⟩
  exact ⟨hok, hok.mergeInv env hpolicies, rfl⟩

theorem mergeResponse_none (hplain : Plain approved)
    (h : IsAggregate env approved trusted approved) (response : Psbt) :
    (∀ result, mergeResponse env approved none response trusted = .ok result ↔
      mergeResponse env approved (some approved) response trusted = .ok result) := by
  intro result
  rw [mergeResponse_aggregate hplain h, mergeResponse_eq_ok]
  simp only [h.approvedOk, true_and, Option.toList_none, List.nil_append, List.foldlM_cons,
    List.foldlM_nil, bind_eq_ok, pure_eq_ok, exists_eq_right]

theorem heldSignatures_approved (h : IsAggregate env approved trusted approved) :
    heldSignatures approved = ∅ := by
  ext ⟨i, key, sig⟩
  simp only [heldSignatures, Set.mem_ofPred_eq, Set.mem_empty_iff_false, iff_false]
  rintro ⟨input, hinput, hsig⟩
  have hi : i < trusted.length := h.inv.length ▸ (List.getElem?_eq_some_iff.mp hinput).1
  obtain ⟨_, hempty, _⟩ := h.approvedOk.inputs i input trusted[i] hinput (by simp)
  rw [hempty] at hsig
  simp at hsig

/-- `merge_response` on one response after the other, each with the aggregate
    that the one before it left. -/
def mergeAll (env : Env State Wallet Scan) (approved : Psbt) (trusted : List TrustedInput)
    (previous : Option Psbt) (responses : List Psbt) : Result (Option Psbt) :=
  responses.foldlM (fun previous response => do
    let merged ← mergeResponse env approved previous response trusted
    .ok (some merged)) previous

theorem mergeAll_some :
    mergeAll env approved trusted (some previous) responses = .ok (some m) ↔
      responses.foldlM (fun m response => mergeResponse env approved (some m) response trusted)
        previous = .ok m := by
  induction responses generalizing previous with
  | nil => simp [mergeAll]
  | cons response responses ih =>
      unfold mergeAll at ih ⊢
      simp only [List.foldlM_cons, bind_eq_ok, Except.ok.injEq]
      constructor
      · rintro ⟨_, ⟨merged, hmerged, rfl⟩, hrun⟩
        exact ⟨merged, hmerged, ih.mp hrun⟩
      · rintro ⟨merged, hmerged, hrun⟩
        exact ⟨_, ⟨merged, hmerged, rfl⟩, ih.mpr hrun⟩

/-- A list of responses is merged as from the approved PSBT. -/
theorem mergeAll_none (hplain : Plain approved) (hstart : IsAggregate env approved trusted approved)
    (hne : responses ≠ []) :
    mergeAll env approved trusted none responses = .ok (some m) ↔
      responses.foldlM (fun m response => mergeResponse env approved (some m) response trusted)
        approved = .ok m := by
  obtain ⟨response, rest, rfl⟩ := List.exists_cons_of_ne_nil hne
  rw [← mergeAll_some]
  unfold mergeAll
  simp only [List.foldlM_cons, bind_eq_ok, Except.ok.injEq, mergeResponse_none hplain hstart]

theorem mergeAll_nonempty (h : mergeAll env approved trusted none responses = .ok (some m)) :
    responses ≠ [] := by
  rintro rfl
  cases h

/-- The aggregate of a list of responses. -/
theorem mergeAll_run (hplain : Plain approved)
    (hall : ∀ response ∈ responses, AcceptsAlone env approved trusted response)
    (h : mergeAll env approved trusted none responses = .ok (some m)) :
    (∀ response ∈ responses, Acceptable env approved trusted response) ∧
      IsAggregate env approved trusted m ∧
      heldSignatures m = addsAll (contributed env approved trusted) responses := by
  have hne := mergeAll_nonempty h
  obtain ⟨response, hresponse⟩ := List.exists_mem_of_ne_nil responses hne
  have hstart := (hall response hresponse).start
  obtain ⟨haccept, hm, hheld⟩ :=
    (mergeResponse_isJoin hplain).run hstart ((mergeAll_none hplain hstart hne).mp h)
  refine ⟨haccept, hm, ?_⟩
  rw [hheld, heldSignatures_approved hstart, Set.empty_union]

/-- A response with another signature for a key is refused, whatever PSBT comes
    before it. -/
theorem mergeResponse_conflict {i : Nat} {key : PublicKey} {sig sig' : Signature}
    (hold : (i, key, sig) ∈ heldSignatures previous)
    (hnew : (i, key, sig') ∈ contributed env approved trusted response) (hne : sig ≠ sig') :
    mergeResponse env approved (some previous) response trusted ≠ .ok m := by
  intro h
  obtain ⟨hok, inputs, hrun, rfl⟩ := (mergeResponse_eq_ok env).mp h
  simp only [Option.toList_some, List.cons_append, List.nil_append, List.foldlM_cons,
    List.foldlM_nil, bind_eq_ok, pure_eq_ok, exists_eq_right] at hrun
  obtain ⟨mid, hprevious, hresponse⟩ := hrun
  obtain ⟨⟨_, _, hplen, _⟩, _, hmid⟩ := (mergeCandidate_eq_ok env).mp hprevious
  have hlen : mid.length = trusted.length :=
    ((mergeInputs_eq_ok env hok.trusted_length hplen).mp hmid).1
  obtain ⟨input, hinput, hsig⟩ := hold
  have hi : i < trusted.length := hplen ▸ (List.getElem?_eq_some_iff.mp hinput).1
  have hmerged : mid[i]? = some mid[i] := by simp
  have hkept := mergeCandidate_keeps env hok.trusted_length hprevious
    (List.getElem?_eq_getElem (hok.trusted_length ▸ hi)) hinput hmerged (.inr hsig)
  -- The result would hold both signatures under the key.
  have hentries := mergeCandidate_entries hlen hresponse
  have hboth := heldSignatures_onePerKey { approved with inputs := inputs }
  rw [hentries] at hboth
  exact hne (hboth i key sig sig' (.inl ⟨mid[i], hmerged, hkept⟩) (.inr hnew))

end Merge

/-! ## Drafts -/

section Drafts

variable {env}
variable {db : Db State} {w d : String} {draft : SigningDraft} {payload : Bytes}
  {response previous : Psbt} {i : Nat} {key : PublicKey} {sig sig' : Signature}

/-- A loaded draft can be merged with itself. -/
theorem loadDraft_plain (h : loadDraft env db w d = .ok draft) : Plain draft.approved := by
  obtain ⟨loaded, row, hfacts⟩ := (loadDraft_eq_ok env).mp h
  refine ⟨hfacts.unknown, hfacts.proprietary, fun o ho => ?_⟩
  obtain ⟨_, _, _, houtputs, _⟩ := hfacts.sums
  have hmeta := (parseResponse_lengths env hfacts.approved).2
  have hlen := hfacts.outputs_length.trans hmeta
  obtain ⟨hall, _⟩ := (loadOutputs_eq_ok env hlen hmeta).mp houtputs
  obtain ⟨j, hj, rfl⟩ := List.getElem_of_mem ho
  have hj' : j < (draft.approved.unsignedTx.output.zip draft.review.outputs).length := by
    rw [List.length_zip, hlen]
    omega
  have hcheck := hall.get hj' hj
  simp only [checkDraftOutput, bind_eq_ok, okOr_eq_ok, require_eq_ok, exists_unit, orError_eq_ok,
    checkOutput, List.get_eq_getElem] at hcheck
  obtain ⟨_, _, _, _, _, hother, _⟩ := hcheck
  exact eq_allowedOutput.mp hother

/-- A conflicting response is refused, and leaves the store as it is. -/
theorem acceptSignedPsbt_conflict (hload : loadDraft env db w d = .ok draft)
    (hstored : draft.stored = some previous) (hparse : parseResponse env payload = .ok response)
    (hold : (i, key, sig) ∈ heldSignatures previous)
    (hnew : (i, key, sig') ∈ contributed env draft.approved draft.trusted response)
    (hne : sig ≠ sig') : ∃ e, acceptSignedPsbt env db w d payload = .error e := by
  refine exists_error_of_ne_ok fun out hout => ?_
  simp only [acceptSignedPsbt, hparse, hload, ok_bind, hstored, bind_eq_ok] at hout
  obtain ⟨_, _, m, hmerge, _⟩ := hout
  exact mergeResponse_conflict hold hnew hne hmerge

theorem step_refused {world : System.World State} {e : Error}
    (h : acceptSignedPsbt env world.db w d payload = .error e) :
    System.step env world (.acceptSignedPsbt w d payload : System.Op Scan) = world := by
  have htransact : System.transact env world.db (.acceptSignedPsbt w d payload : System.Op Scan) =
      some (.error e) := by
    rw [System.transact, h]
    rfl
  unfold System.step
  dsimp only
  rw [htransact]

end Drafts

/-- Merging signatures is a join. -/
structure MergeIsJoin (env : Env State Wallet Scan) : Prop where
  /-- The approved PSBT of every draft that is loaded is plain. -/
  plain : ∀ (db : Db State) (w d : String) (draft : SigningDraft),
    loadDraft env db w d = .ok draft → Plain draft.approved
  /-- The aggregate holds the signatures each response contributes, and no other. -/
  union : ∀ approved trusted responses m, Plain approved →
    (∀ r ∈ responses, AcceptsAlone env approved trusted r) →
    mergeAll env approved trusted none responses = .ok (some m) →
    heldSignatures m = {entry | ∃ r ∈ responses, entry ∈ contributed env approved trusted r}
  /-- Merging one of them again changes nothing. -/
  again : ∀ approved trusted responses m, Plain approved →
    (∀ r ∈ responses, AcceptsAlone env approved trusted r) →
    mergeAll env approved trusted none responses = .ok (some m) →
    ∀ r ∈ responses, mergeResponse env approved (some m) r trusted = .ok m
  /-- The aggregate only grows. -/
  grows : ∀ approved trusted responses m r m', Plain approved →
    (∀ r ∈ responses, AcceptsAlone env approved trusted r) →
    mergeAll env approved trusted none responses = .ok (some m) →
    mergeResponse env approved (some m) r trusted = .ok m' → heldSignatures m ⊆ heldSignatures m'
  /-- Every order gives the same aggregate, and so the same progress. -/
  order : ∀ approved trusted responses responses' m, Plain approved →
    (∀ r ∈ responses, AcceptsAlone env approved trusted r) → responses.Perm responses' →
    mergeAll env approved trusted none responses = .ok (some m) →
    mergeAll env approved trusted none responses' = .ok (some m)
  /-- A second signature for a key is refused. -/
  conflict : ∀ approved trusted previous r i key sig sig',
    (i, key, sig) ∈ heldSignatures previous → (i, key, sig') ∈ contributed env approved trusted r →
    sig ≠ sig' → ∀ m, mergeResponse env approved (some previous) r trusted ≠ .ok m
  /-- The store is then left as it was, and so are the aggregate and the state. -/
  refused : ∀ (world : System.World State) w d payload draft previous r i key sig sig',
    loadDraft env world.db w d = .ok draft → draft.stored = some previous →
    parseResponse env payload = .ok r → (i, key, sig) ∈ heldSignatures previous →
    (i, key, sig') ∈ contributed env draft.approved draft.trusted r → sig ≠ sig' →
    (∃ e, acceptSignedPsbt env world.db w d payload = .error e) ∧
      System.step env world (.acceptSignedPsbt w d payload : System.Op Scan) = world

theorem merge_is_join : MergeIsJoin env where
  plain _ _ _ _ := loadDraft_plain
  union _ _ _ _ hplain hall h := (mergeAll_run hplain hall h).2.2
  again approved trusted responses m hplain hall h r hr := by
    obtain ⟨haccept, hm, hheld⟩ := mergeAll_run hplain hall h
    refine (mergeResponse_isJoin hplain).again hm (haccept r hr) ?_
    rw [hheld]
    exact subset_addsAll hr
  grows approved trusted responses m r m' hplain hall h hmerge := by
    obtain ⟨-, hm, -⟩ := mergeAll_run hplain hall h
    obtain ⟨-, -, hheld⟩ := (mergeResponse_isJoin hplain).sound m r m' hm hmerge
    rw [hheld]
    exact Set.subset_union_left
  order approved trusted responses responses' m hplain hall hperm h := by
    have hne := mergeAll_nonempty h
    obtain ⟨r, hr⟩ := List.exists_mem_of_ne_nil responses hne
    have hstart := (hall r hr).start
    have hne' : responses' ≠ [] := by
      rintro rfl
      exact hne hperm.eq_nil
    have hrun := (mergeAll_none hplain hstart hne).mp h
    exact (mergeAll_none hplain hstart hne').mpr
      ((mergeResponse_isJoin hplain).perm hstart hperm hrun)
  conflict _ _ _ _ _ _ _ _ hold hnew hne _ := mergeResponse_conflict hold hnew hne
  refused _ _ _ _ _ _ _ _ _ _ _ hload hstored hparse hold hnew hne := by
    obtain ⟨e, he⟩ := acceptSignedPsbt_conflict hload hstored hparse hold hnew hne
    exact ⟨⟨e, he⟩, step_refused he⟩

end Signing
end Tundra
