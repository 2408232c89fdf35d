/-
  Tundra.Signing.Aggregate

  The aggregate an accepted response leaves: which signatures it holds, how
  large its serialization is, that a draft with enough room for it can read it
  back (`withinLimits_merged`), and that merging it into the approved PSBT
  gives it again (`mergeResponse_again`).
-/

import Tundra.Signing.Loaded
import Tundra.Signing.MergeSound

namespace Tundra
namespace Signing

open Checked Relational Wire Engine

variable {State Wallet Scan : Type} (env : Env State Wallet Scan)

/-! ## The signatures of an aggregate -/

/-- The signatures each input of a candidate carries, in either encoding. -/
def carriedSignatures (approved candidate : Psbt) (trusted : List TrustedInput) :
    List (Table PublicKey Signature) :=
  (candidate.inputs.zip trusted).mapIdx (fun i row =>
    ((inputSignatures env approved.unsignedTx i row.1 row.2).toOption).getD ∅)

/-- The signatures stored for each input of a draft. -/
def storedSignatures (draft : SigningDraft) : List (Table PublicKey Signature) :=
  (draft.stored.getD draft.approved).inputs.map PsbtInput.partialSigs

/-- The signatures under keys that have not signed yet. -/
def newSignatures (stored carried : Table PublicKey Signature) : List (PublicKey × Signature) :=
  carried.toList.filter (fun entry => (stored[entry.1]?).isNone)

/-- The bytes signatures take in a PSBT. -/
def signatureBytes (entries : List (PublicKey × Signature)) : Nat :=
  (entries.map (fun entry => (encodeField (env.signatureField entry)).length)).sum

/-- The size of the approved PSBT with the stored signatures of a draft and
    those a response adds to them. -/
def aggregateSize (draft : SigningDraft) (response : Psbt) : Nat :=
  (env.serializePsbt draft.approved).length +
    (List.zipWith
      (fun stored carried => signatureBytes env (stored.toList ++ newSignatures stored carried))
      (storedSignatures draft)
      (carriedSignatures env draft.approved response draft.trusted)).sum

section Signatures

variable {env}

theorem carriedSignatures_get {approved candidate : Psbt} {trusted : List TrustedInput} {i : Nat}
    {c : PsbtInput} {t : TrustedInput} {signatures : Table PublicKey Signature}
    (hc : candidate.inputs[i]? = some c) (ht : trusted[i]? = some t)
    (h : inputSignatures env approved.unsignedTx i c t = .ok signatures) :
    (carriedSignatures env approved candidate trusted)[i]? = some signatures := by
  have hrow : (candidate.inputs.zip trusted)[i]? = some (c, t) :=
    List.getElem?_zip_eq_some.mpr ⟨hc, ht⟩
  simp [carriedSignatures, List.getElem?_mapIdx, hrow, h, Except.toOption]

/-- Merging a candidate adds what its input carries. -/
theorem mergeCandidate_get {approved candidate : Psbt} {trusted : List TrustedInput}
    {merged result : List PsbtInput} (hlen : merged.length = trusted.length)
    (h : mergeCandidate env approved trusted merged candidate = .ok result) {i : Nat}
    (hi : i < trusted.length) :
    ∃ m c t r signatures, merged[i]? = some m ∧ candidate.inputs[i]? = some c ∧
      trusted[i]? = some t ∧ result[i]? = some r ∧
      inputSignatures env approved.unsignedTx i c t = .ok signatures ∧
      ∀ (key : PublicKey) (sig : Signature), r.partialSigs[key]? = some sig ↔
        m.partialSigs[key]? = some sig ∨ signatures[key]? = some sig := by
  obtain ⟨⟨_, _, hclen, _⟩, _, hrun⟩ := (mergeCandidate_eq_ok env).mp h
  obtain ⟨hrlen, hall⟩ := (mergeInputs_eq_ok env hlen hclen).mp hrun
  have hm := List.getElem?_eq_getElem (hlen ▸ hi)
  have hc := List.getElem?_eq_getElem (hclen ▸ hi)
  have ht := List.getElem?_eq_getElem hi
  have hr := List.getElem?_eq_getElem (hrlen ▸ hi)
  obtain ⟨_, signatures, partialSigs, hsigs, habs, heq⟩ := hall i _ _ _ _ hm hc ht hr
  refine ⟨_, _, _, _, signatures, hm, hc, ht, hr, by rwa [Nat.zero_add] at hsigs, ?_⟩
  intro key sig
  rw [heq, ← Table.mem_toList (t := signatures)]
  exact absorb_get habs key sig

/-- The rows of two tables that agree where both have a key. -/
theorem union_perm {stored carried union : Table PublicKey Signature}
    (h : ∀ (key : PublicKey) (sig : Signature), union[key]? = some sig ↔
      stored[key]? = some sig ∨ carried[key]? = some sig) :
    union.toList.Perm (stored.toList ++ newSignatures stored carried) := by
  refine Table.toList_perm ?_ ?_
  · rw [List.map_append, List.nodup_append]
    refine ⟨Table.nodup_keys stored, ?_, ?_⟩
    · exact ((Table.nodup_keys carried).sublist (List.Sublist.map _ List.filter_sublist))
    · rintro k hk k' hk' rfl
      obtain ⟨⟨_, s⟩, hs, rfl⟩ := List.mem_map.mp hk
      obtain ⟨⟨k, c⟩, hc, hkey⟩ := List.mem_map.mp hk'
      have hnone := (List.mem_filter.mp hc).2
      simp only at hkey
      rw [hkey, Table.mem_toList.mp hs] at hnone
      cases hnone
  · intro key sig
    rw [h, List.mem_append, Table.mem_toList, newSignatures, List.mem_filter, Table.mem_toList]
    constructor
    · rintro (hs | hc)
      · exact .inl hs
      · cases hget : stored[key]? with
        | none => exact .inr ⟨hc, by simp⟩
        | some s =>
            have hs := (h key s).mpr (.inl hget)
            rw [(h key sig).mpr (.inr hc)] at hs
            exact .inl hs.symm
    · rintro (hs | ⟨hc, _⟩)
      · exact .inl hs
      · exact .inr hc

/-- A stored aggregate is the approved PSBT with signatures. -/
def StoredOk (draft : SigningDraft) : Prop :=
  ∀ stored, draft.stored = some stored → stored.stripSignatures = draft.approved

theorem strip_inputs_get {p q : Psbt} (h : p.stripSignatures = q) {i : Nat} {input : PsbtInput}
    (hi : p.inputs[i]? = some input) : q.inputs[i]? = some input.stripSignatures := by
  rw [← h]
  simp [Psbt.stripSignatures, hi]

/-- An aggregate holds the stored signatures and those the response adds. -/
theorem merged_signatures {draft : SigningDraft} {response merged : Psbt} (hstored : StoredOk draft)
    (h : mergeResponse env draft.approved draft.stored response draft.trusted = .ok merged)
    {i : Nat} (hi : i < draft.trusted.length) :
    ∃ stored carried r, (storedSignatures draft)[i]? = some stored ∧
      (carriedSignatures env draft.approved response draft.trusted)[i]? = some carried ∧
      merged.inputs[i]? = some r ∧
      r.partialSigs.toList.Perm (stored.toList ++ newSignatures stored carried) := by
  obtain ⟨hok, inputs, hfold, rfl⟩ := (mergeResponse_eq_ok env).mp h
  simp only
  unfold StoredOk at hstored
  unfold storedSignatures
  cases hs : draft.stored with
  | none =>
      rw [hs] at hfold
      simp only [Option.toList_none, List.nil_append, List.foldlM_cons, List.foldlM_nil,
        bind_eq_ok, pure_eq_ok, exists_eq_right] at hfold
      obtain ⟨m, c, t, r, signatures, hm, hc, ht, hr, hsigs, hget⟩ :=
        mergeCandidate_get hok.trusted_length hfold hi
      refine ⟨m.partialSigs, signatures, r, by simp [hm], carriedSignatures_get hc ht hsigs, hr,
        union_perm hget⟩
  | some stored =>
      have hstrip := hstored stored hs
      rw [hs] at hfold
      simp only [Option.toList_some, List.cons_append, List.nil_append, List.foldlM_cons,
        List.foldlM_nil, bind_eq_ok, pure_eq_ok] at hfold
      obtain ⟨mid, hprev, _, hresp, rfl⟩ := hfold
      obtain ⟨a, s, t, m, signatures, ha, hsi, ht, hm, hsigs, hget⟩ :=
        mergeCandidate_get hok.trusted_length hprev hi
      have hmid : mid.length = draft.trusted.length := by
        obtain ⟨⟨_, _, hslen, _⟩, _, hrun⟩ := (mergeCandidate_eq_ok env).mp hprev
        exact ((mergeInputs_eq_ok env hok.trusted_length hslen).mp hrun).1
      obtain ⟨m', c, t', r, carried, hm', hc, ht', hr, hcarried, hget'⟩ :=
        mergeCandidate_get hmid hresp hi
      rw [hm, Option.some.injEq] at hm'
      subst hm'
      -- the stored input is the approved one with signatures, and no witness
      have hai : draft.approved.inputs[i]? = some s.stripSignatures := strip_inputs_get hstrip hsi
      rw [ha, Option.some.injEq] at hai
      obtain ⟨_, hempty, hwitness, _⟩ := hok.inputs i a t ha ht
      have hwitness' : s.finalScriptWitness = none := by
        rw [← hwitness, hai]
        rfl
      have hpartial : signatures = s.partialSigs := by
        simp only [inputSignatures, bind_eq_ok, require_eq_ok, Prod.exists, exists_unit, hwitness',
          Except.ok.injEq] at hsigs
        obtain ⟨_, _, _, _, _, _, rfl⟩ := hsigs
        rfl
      refine ⟨s.partialSigs, carried, r, by simp [hsi], carriedSignatures_get hc ht' hcarried, hr,
        union_perm ?_⟩
      intro key sig
      rw [hget', hget, hempty, hpartial]
      simp

end Signatures

/-! ## Its size -/

section Size

variable {env}

theorem signatureBytes_perm {l l' : List (PublicKey × Signature)} (h : l.Perm l') :
    signatureBytes env l = signatureBytes env l' :=
  (h.map _).sum_nat

/-- One input map with signatures, against the map without them. -/
theorem length_inputFields (i : PsbtInput) :
    (encodeMap (env.inputFields i)).length =
      signatureBytes env i.partialSigs.toList +
        (encodeMap (env.inputFields i.stripSignatures)).length := by
  rw [length_encodeMap_perm (env.inputFields_perm i), length_encodeMap, length_encodeMap,
    List.map_append, List.sum_append, List.map_map, signatureBytes]
  simp only [Function.comp_def]
  omega

/-- Signatures add their bytes to a PSBT, and nothing else. -/
theorem length_serializePsbt (p : Psbt) :
    (env.serializePsbt p).length =
      (env.serializePsbt p.stripSignatures).length +
        (p.inputs.map (fun i => signatureBytes env i.partialSigs.toList)).sum := by
  have hinputs : ((p.inputs.map env.inputFields).flatMap encodeMap).length =
      ((p.stripSignatures.inputs.map env.inputFields).flatMap encodeMap).length +
        (p.inputs.map (fun i => signatureBytes env i.partialSigs.toList)).sum := by
    simp only [Psbt.stripSignatures]
    induction p.inputs with
    | nil => rfl
    | cons i inputs ih =>
        simp only [List.map_cons, List.flatMap_cons, List.length_append, ih, List.sum_cons,
          length_inputFields i]
        omega
  have hglobal : env.globalFields p.stripSignatures = env.globalFields p :=
    env.globalFields_inputs p _
  simp only [Crates.serializePsbt, List.length_append, List.flatMap_append, hinputs, hglobal]
  simp only [Psbt.stripSignatures]
  omega

theorem length_merged {draft : SigningDraft} {response merged : Psbt} (hstored : StoredOk draft)
    (h : mergeResponse env draft.approved draft.stored response draft.trusted = .ok merged) :
    (env.serializePsbt merged).length = aggregateSize env draft response := by
  obtain ⟨hok, hinv, hmerged⟩ := mergeResponse_inv env h
  have hstrip : merged.stripSignatures = draft.approved := by
    rw [hmerged]
    simp [Psbt.stripSignatures, hinv.stripped]
  rw [length_serializePsbt, hstrip, aggregateSize]
  congr 2
  have hslen : (storedSignatures draft).length = draft.trusted.length := by
    unfold storedSignatures
    cases hs : draft.stored with
    | none => simp [hok.trusted_length]
    | some stored =>
        have hin := congrArg (fun p : Psbt => p.inputs.length) (hstored stored hs)
        simp only [Psbt.stripSignatures, List.length_map] at hin
        simp [hin, hok.trusted_length]
  have hclen : (carriedSignatures env draft.approved response draft.trusted).length =
      draft.trusted.length := by
    by_contra hne
    have hle : (carriedSignatures env draft.approved response draft.trusted).length <
        draft.trusted.length := by
      simp only [carriedSignatures, List.length_mapIdx, List.length_zip] at hne ⊢
      omega
    obtain ⟨_, carried, _, _, hget, _⟩ := merged_signatures hstored h hle
    exact absurd (List.getElem?_eq_some_iff.mp hget).1 (by omega)
  apply List.ext_getElem
  · simp [hslen, hclen, hinv.length]
  · intro i hi hi'
    simp only [List.length_map] at hi
    obtain ⟨stored, carried, r, hs, hc, hr, hperm⟩ :=
      merged_signatures hstored h (hinv.length ▸ hi)
    obtain ⟨_, rfl⟩ := List.getElem?_eq_some_iff.mp hs
    obtain ⟨_, rfl⟩ := List.getElem?_eq_some_iff.mp hc
    obtain ⟨_, rfl⟩ := List.getElem?_eq_some_iff.mp hr
    simpa using signatureBytes_perm hperm

end Size

/-! ## Its limits -/

/-- Metadata and descriptor of a trusted input come from one derivation. -/
def Derived (t : TrustedInput) : Prop :=
  ∃ d index, env.deriveInput d index = some (t.metadata, t.descriptor)

section Limits

variable {env}

/-- A policy has at most three keys, and its metadata as many derivations. -/
theorem keys_bound {t : TrustedInput} (hderived : Derived env t) {keys : List PublicKey}
    {required : Nat} (h : t.keys env = .ok (keys, required)) :
    keys.length ≤ 3 ∧ t.metadata.bip32Derivation.size ≤ 3 := by
  obtain ⟨d, index, hderive⟩ := hderived
  cases hdesc : t.descriptor with
  | wpkh key =>
      rw [hdesc] at hderive
      simp only [TrustedInput.keys, hdesc, ok_bind, bind_eq_ok, exists_unit, Except.ok.injEq,
        Prod.mk.injEq] at h
      obtain ⟨_, rfl, _⟩ := h
      have hsize := env.deriveInput_wpkh d index _ key hderive
      rw [List.length_insertionSort, List.length_singleton]
      omega
  | wshSortedMulti k policyKeys =>
      rw [hdesc] at hderive
      simp only [TrustedInput.keys, hdesc] at h
      split_ifs at h with hthree
      · simp only [ok_bind, bind_eq_ok, exists_unit, Except.ok.injEq, Prod.mk.injEq] at h
        obtain ⟨_, rfl, _⟩ := h
        have hsize := env.deriveInput_wsh d index _ k policyKeys hderive
        rw [List.length_insertionSort]
        omega
      · cases h
  | other =>
      simp only [TrustedInput.keys, hdesc, error_bind] at h
      cases h

/-- A merged input has few fields, and no longer keys than the approved one. -/
theorem withinFieldLimits_merged {tx : Transaction} {i : Nat} {a r : PsbtInput} {t : TrustedInput}
    (hderived : Derived env t) (hmeta : checkMetadata env a t tx i = .ok ())
    (hempty : a.partialSigs = ∅) (hother : a.other = [])
    (hlimits : WithinFieldLimits (env.inputFields a)) (hstrip : r.stripSignatures = a)
    (hsound : SoundSignatures env tx i t r.partialSigs) :
    WithinFieldLimits (env.inputFields r) := by
  obtain ⟨keys, required, hash, hkeys, _, hall⟩ := hsound
  obtain ⟨hthree, hderivations⟩ := keys_bound hderived hkeys
  have hsigs : r.partialSigs.size ≤ keys.length :=
    Table.size_le_length (fun key sig hks => (hall key sig hks).1)
  have hbip : a.bip32Derivation.size ≤ t.metadata.bip32Derivation.size := by
    simp only [checkMetadata, bind_eq_ok, require_eq_ok, exists_unit] at hmeta
    exact Table.size_le_size (subset_eq_true.mp hmeta.1.2.2.1)
  have hfields := env.inputFields_length a hother hempty
  have hperm := env.inputFields_perm r
  rw [hstrip] at hperm
  refine ⟨?_, ?_⟩
  · rw [hperm.length_eq, List.length_append, List.length_map, Std.ExtTreeMap.length_toList]
    omega
  · intro f hf
    rcases List.mem_append.mp (hperm.mem_iff.mp hf) with hsig | hold
    · obtain ⟨⟨key, sig⟩, _, rfl⟩ := List.mem_map.mp hsig
      have hkey := env.publicKeyBytes_length key
      simp only [Crates.signatureField, List.length_cons]
      omega
    · exact hlimits.2 f hold

/-- An aggregate is within the limits exactly when it is short enough. -/
theorem withinLimits_merged {draft : SigningDraft} {response merged : Psbt}
    (hwf : draft.approved.WellFormed) (hlimits : WithinLimits env draft.approved)
    (hderived : ∀ t ∈ draft.trusted, Derived env t) (hstored : StoredOk draft)
    (h : mergeResponse env draft.approved draft.stored response draft.trusted = .ok merged) :
    WithinLimits env merged ↔ aggregateSize env draft response ≤ maxPsbtBytes := by
  rw [← length_merged hstored h]
  refine ⟨fun hw => hw.size, fun hsize => ?_⟩
  obtain ⟨hok, hinv, hmerged⟩ := mergeResponse_inv env h
  have hglobal : env.globalFields merged = env.globalFields draft.approved := by
    rw [hmerged]
    exact env.globalFields_inputs draft.approved merged.inputs
  have houtputs : merged.outputs = draft.approved.outputs := by rw [hmerged]
  obtain ⟨i, o, hshape, hlen⟩ := hlimits.shape
  refine ⟨hsize, ⟨i, o, by rw [hglobal, hshape], ?_⟩, ?_, by rw [houtputs]; exact hlimits.outputs⟩
  · rw [houtputs, hinv.length, ← hok.trusted_length, hlen]
  · intro r hr
    obtain ⟨j, hj, hget⟩ := List.getElem_of_mem hr
    have hj' : j < draft.trusted.length := hinv.length ▸ hj
    have hr' : merged.inputs[j]? = some r := by rw [List.getElem?_eq_getElem hj, hget]
    have ht := List.getElem?_eq_getElem hj'
    have hstrip : merged.stripSignatures = draft.approved := by
      rw [hmerged]
      simp [Psbt.stripSignatures, hinv.stripped]
    have ha := strip_inputs_get hstrip hr'
    have hmem := List.mem_of_getElem? ha
    obtain ⟨hmeta, hempty, _⟩ := hok.inputs j _ _ ha ht
    exact withinFieldLimits_merged (hderived _ (List.getElem_mem hj')) hmeta hempty
      (hwf.inputs_other _ hmem) (hlimits.inputs _ hmem) rfl (hinv.sound j r _ hr' ht)

/-! ## Merging it again -/

/-- What is asked of a PSBT for it to be merged with itself: it has none of the
    fields that a candidate may not have. -/
structure Plain (p : Psbt) : Prop where
  unknown : p.unknown = []
  proprietary : p.proprietary = []
  outputs_other : ∀ o ∈ p.outputs, o.other = []

theorem plain_of_wellFormed {p : Psbt} (h : p.WellFormed) : Plain p :=
  ⟨h.unknown, h.proprietary, h.outputs_other⟩

theorem checkOutput_self {output : PsbtOutput} (h : output.other = []) :
    checkOutput output output = .ok () :=
  require_of ⟨eq_allowedOutput.mpr h, optional_refl _, optional_refl _, subset_refl _⟩

/-- The approved PSBT with sound signatures is a candidate that gives its inputs. -/
theorem mergeCandidate_sound {approved candidate : Psbt} {trusted : List TrustedInput}
    {merged result : List PsbtInput} (hplain : Plain approved)
    (hok : ApprovedOk env approved trusted) (hlen : merged.length = trusted.length)
    (hclen : candidate.inputs.length = trusted.length) (hrlen : result.length = trusted.length)
    (hcandidate : candidate = { approved with inputs := candidate.inputs })
    (hinputs : ∀ (i : Nat) (m c r : PsbtInput) (t : TrustedInput), merged[i]? = some m →
      candidate.inputs[i]? = some c → result[i]? = some r → trusted[i]? = some t →
      ∃ a, approved.inputs[i]? = some a ∧ c = { a with partialSigs := c.partialSigs } ∧
        SoundSignatures env approved.unsignedTx i t c.partialSigs ∧
        absorb m.partialSigs c.partialSigs.toList = .ok r.partialSigs ∧
        r = { m with partialSigs := r.partialSigs }) :
    mergeCandidate env approved trusted merged candidate = .ok result := by
  refine (mergeCandidate_eq_ok env).mpr ⟨?_, ?_, ?_⟩
  · rw [hcandidate]
    exact ⟨hok.version, rfl, hclen, rfl, subset_refl _, hplain.unknown, hplain.proprietary⟩
  · have houtputs : candidate.outputs = approved.outputs := by rw [hcandidate]
    rw [houtputs]
    intro pair hpair
    obtain ⟨i, hi, rfl⟩ := List.getElem_of_mem hpair
    rw [List.getElem_zip]
    exact checkOutput_self (hplain.outputs_other _ (List.getElem_mem _))
  · refine (mergeInputs_eq_ok env hlen hclen).mpr ⟨hrlen, ?_⟩
    intro j m c t r hm hc ht hr
    obtain ⟨a, ha, hca, hsound, habs, hres⟩ := hinputs j m c r t hm hc hr ht
    obtain ⟨hmeta, _, hwitness, _⟩ := hok.inputs j a t ha ht
    rw [Nat.zero_add]
    refine ⟨?_, c.partialSigs, r.partialSigs, ?_, habs, hres⟩
    · rw [hca, checkMetadata_partialSigs]
      exact hmeta
    · refine inputSignatures_of_sound env ?_ hsound
      rw [hca]
      exact hwitness

section Again

variable {approved m : Psbt} {trusted : List TrustedInput}

/-- The inputs of an aggregate without their signatures are the approved ones. -/
theorem strip_merged (hinv : MergeInv env approved trusted m.inputs)
    (hm : m = { approved with inputs := m.inputs }) : m.stripSignatures = approved := by
  rw [hm]
  simp [Psbt.stripSignatures, hinv.stripped]

/-- The approved inputs take the signatures of an aggregate as they are. -/
theorem mergeCandidate_self (hplain : Plain approved) (hok : ApprovedOk env approved trusted)
    (hinv : MergeInv env approved trusted m.inputs) (hm : m = { approved with inputs := m.inputs }) :
    mergeCandidate env approved trusted approved.inputs m = .ok m.inputs := by
  refine mergeCandidate_sound hplain hok hok.trusted_length hinv.length hinv.length hm ?_
  intro i a c r t ha hc hr ht
  rw [hc, Option.some.injEq] at hr
  subst hr
  have hget := strip_inputs_get (strip_merged hinv hm) hc
  rw [ha, Option.some.injEq] at hget
  subst hget
  exact ⟨_, ha, rfl, hinv.sound i c t hc ht, absorb_empty _, rfl⟩

/-- An aggregate takes nothing from the approved PSBT, which has no signature. -/
theorem mergeCandidate_approved (hplain : Plain approved) (hok : ApprovedOk env approved trusted)
    (hinv : MergeInv env approved trusted m.inputs) :
    mergeCandidate env approved trusted m.inputs approved = .ok m.inputs := by
  refine mergeCandidate_sound hplain hok hinv.length hok.trusted_length hinv.length rfl ?_
  intro i x c r t hx hc hr ht
  rw [hx, Option.some.injEq] at hr
  subst hr
  obtain ⟨_, hempty, _⟩ := hok.inputs i c t hc ht
  obtain ⟨keys, required, hash, hkeys, hhash, _⟩ := hinv.sound i x t hx ht
  refine ⟨c, hc, rfl, ⟨keys, required, hash, hkeys, hhash, ?_⟩, ?_, rfl⟩
  · intro key sig hks
    rw [hempty] at hks
    simp at hks
  · rw [hempty]
    refine absorb_of_mem ?_
    rintro ⟨key, sig⟩ hentry
    have hget := Table.mem_toList.mp hentry
    simp at hget

/-- Merging an aggregate into the approved PSBT gives it again. -/
theorem mergeResponse_again {response : Psbt} {previous : Option Psbt} (hplain : Plain approved)
    (h : mergeResponse env approved previous response trusted = .ok m) :
    mergeResponse env approved (some m) approved trusted = .ok m := by
  obtain ⟨hok, hinv, hm⟩ := mergeResponse_inv env h
  refine (mergeResponse_eq_ok env).mpr ⟨hok, m.inputs, ?_, hm⟩
  rw [Option.toList_some, List.cons_append, List.nil_append, List.foldlM_cons,
    mergeCandidate_self hplain hok hinv hm, ok_bind, List.foldlM_cons,
    mergeCandidate_approved hplain hok hinv, ok_bind]
  rfl

end Again

end Limits

end Signing
end Tundra
