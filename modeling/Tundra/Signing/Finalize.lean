/-
  Tundra.Signing.Finalize

  Finalization of an aggregate.  It succeeds exactly when the aggregate has
  enough signatures, its witnesses hold signatures of the aggregate in the order
  of the script's keys, and each of them is accepted by the final witness check.
-/

import Tundra.Signing.Witness
import Tundra.Signing.Join

namespace Tundra
namespace Signing

open Checked Relational

variable {State Wallet Scan : Type}

/-- The crates of signing: a signature is read back from its bytes, and the id
    of a transaction does not depend on its witnesses. -/
structure SigningEnv (State Wallet Scan : Type) extends Env State Wallet Scan where
  signatureFromSlice_toVec : ∀ s, signatureFromSlice (signatureToVec s) = some s
  computeTxid_stripWitnesses : ∀ tx, computeTxid tx.stripWitnesses = computeTxid tx

/-! ## The final transaction -/

theorem stripWitnesses_withWitnesses {tx : Transaction} {ws : List (List Bytes)}
    (hlen : ws.length = tx.input.length) :
    (withWitnesses tx ws).stripWitnesses = tx.stripWitnesses := by
  unfold withWitnesses Transaction.stripWitnesses
  have hmap : ∀ (inputs : List TxIn) (ws : List (List Bytes)), ws.length = inputs.length →
      (List.zipWith (fun i w => { i with witness := w }) inputs ws).map
        (fun i => { i with witness := [] }) = inputs.map (fun i => { i with witness := [] }) := by
    intro inputs
    induction inputs with
    | nil => simp
    | cons i inputs ih =>
        intro ws hws
        obtain ⟨w, ws, rfl⟩ := List.exists_cons_of_length_eq_add_one hws
        simp [ih ws (by simpa using hws)]
  simp only [hmap tx.input ws hlen]

theorem SigningEnv.computeTxid_withWitnesses (env : SigningEnv State Wallet Scan) {tx : Transaction}
    {ws : List (List Bytes)} (hlen : ws.length = tx.input.length) :
    env.computeTxid (withWitnesses tx ws) = env.computeTxid tx := by
  rw [← env.computeTxid_stripWitnesses, stripWitnesses_withWitnesses hlen,
    env.computeTxid_stripWitnesses]

/-! ## The signatures of a witness -/

section SignedKeys

variable {keys : List PublicKey} {required : Nat} {sigs : Table PublicKey Signature}

/-- The signatures of an input, in the order of the script's keys. -/
theorem signedKeys_sublist : ((signedKeys keys required sigs).map Prod.fst).Sublist keys := by
  have hall : (keys.filterMap (fun key => (sigs[key]?).map (fun sig => (key, sig)))).map Prod.fst =
      keys.filter (fun key => (sigs[key]?).isSome) := by
    induction keys with
    | nil => rfl
    | cons key keys ih =>
        cases hget : sigs[key]? with
        | none =>
            rw [List.filterMap_cons_none (by rw [hget]; rfl), ih,
              List.filter_cons_of_neg (by rw [hget]; decide)]
        | some sig =>
            rw [List.filterMap_cons_some (b := (key, sig)) (by rw [hget]; rfl), List.map_cons, ih,
              List.filter_cons_of_pos (by rw [hget]; rfl)]
  rw [signedKeys, List.map_take, hall]
  exact (List.take_sublist _ _).trans List.filter_sublist

theorem signedKeys_get {e : PublicKey × Signature} (h : e ∈ signedKeys keys required sigs) :
    sigs[e.1]? = some e.2 := by
  obtain ⟨key, -, hkey⟩ := List.mem_filterMap.mp (List.mem_of_mem_take h)
  obtain ⟨sig, hsig, rfl⟩ := Option.map_eq_some_iff.mp hkey
  exact hsig

/-- As many as are required, when there are that many under the script's keys. -/
theorem signedKeys_length (hkeys : ∀ (key : PublicKey) (sig : Signature),
    sigs[key]? = some sig → key ∈ keys) (hrequired : required ≤ sigs.size) :
    (signedKeys keys required sigs).length = required := by
  have hmem : ∀ (key : PublicKey) (sig : Signature), sigs[key]? = some sig →
      key ∈ (keys.filterMap (fun key => (sigs[key]?).map (fun sig => (key, sig)))).map Prod.fst :=
    fun key sig hget => List.mem_map.mpr ⟨(key, sig),
      List.mem_filterMap.mpr ⟨key, hkeys key sig hget, by rw [hget]; rfl⟩, rfl⟩
  have hsize := Table.size_le_length hmem
  rw [List.length_map] at hsize
  rw [signedKeys, List.length_take]
  omega

end SignedKeys

/-! ## The witness of one input -/

section Inputs

variable (env : Env State Wallet Scan)

/-- The stack of a single signature and its key, or of two signatures and the
    script. -/
def Assembled (t : TrustedInput) (signed : List (PublicKey × Signature)) (stack : List Bytes) :
    Prop :=
  (∃ policyKey key sig, t.descriptor = .wpkh policyKey ∧ signed = [(key, sig)] ∧
    stack = [env.signatureToVec sig, env.publicKeyBytes key]) ∨
  ∃ policyKeys script, t.descriptor = .wshSortedMulti 2 policyKeys ∧
    env.explicitScript t.descriptor = some script ∧
    stack = [] :: signed.map (fun entry => env.signatureToVec entry.2) ++ [script]

/-- A stack with signatures of an input, in the order of the script's keys. -/
def SignedWitness (t : TrustedInput) (input : PsbtInput) (stack : List Bytes) : Prop :=
  ∃ keys required signed, t.keys env = .ok (keys, required) ∧ signed.length = required ∧
    (signed.map Prod.fst).Sublist keys ∧ (∀ e ∈ signed, input.partialSigs[e.1]? = some e.2) ∧
    Assembled env t signed stack

variable {env}
variable {t : TrustedInput} {input : PsbtInput} {stack : List Bytes} {tx : Transaction} {i : Nat}

theorem finalWitness_signed (h : finalWitness env t input = .ok stack) :
    SignedWitness env t input stack := by
  simp only [finalWitness, bind_eq_ok, require_eq_ok, exists_unit, Prod.exists] at h
  obtain ⟨keys, required, hkeys, hlength, h⟩ := h
  refine ⟨keys, required, _, hkeys, hlength, signedKeys_sublist, fun _ => signedKeys_get, ?_⟩
  rcases keys_cases hkeys with ⟨key, hdesc, -, rfl⟩ | ⟨policyKeys, hdesc, -, -, rfl⟩
  · obtain ⟨⟨key', sig⟩, hsigned⟩ := List.length_eq_one_iff.mp hlength
    rw [hdesc, hsigned] at h
    cases h
    exact .inl ⟨key, key', sig, hdesc, hsigned, rfl⟩
  · rw [hdesc] at h
    obtain ⟨script, hscript, hstack⟩ := bind_eq_ok.mp h
    cases hstack
    rw [okOr_eq_ok, ← hdesc] at hscript
    exact .inr ⟨policyKeys, script, hdesc, hscript, rfl⟩

/-- An input with enough sound signatures has a witness. -/
theorem finalWitness_total {keys : List PublicKey} {required : Nat}
    (hsound : SoundSignatures env tx i t input.partialSigs)
    (hkeys : t.keys env = .ok (keys, required)) (hrequired : required ≤ input.partialSigs.size) :
    ∃ stack, finalWitness env t input = .ok stack := by
  obtain ⟨keys', required', hash, hkeys', hhash, hall⟩ := hsound
  rw [hkeys, Except.ok.injEq, Prod.mk.injEq] at hkeys'
  obtain ⟨rfl, rfl⟩ := hkeys'
  have hlength := signedKeys_length (fun key sig hks => (hall key sig hks).1) hrequired
  unfold finalWitness
  rw [hkeys, ok_bind]
  dsimp only
  rw [require_of hlength, ok_bind]
  rcases keys_cases hkeys with ⟨key, hdesc, -, rfl⟩ | ⟨policyKeys, hdesc, -, -, rfl⟩
  · obtain ⟨⟨key', sig⟩, hsigned⟩ := List.length_eq_one_iff.mp hlength
    rw [hdesc, hsigned]
    exact ⟨_, rfl⟩
  · rw [signatureHash, if_neg (by decide)] at hhash
    obtain ⟨script, hscript, -⟩ := bind_eq_ok.mp hhash
    rw [okOr_eq_ok, hdesc] at hscript
    rw [hdesc]
    dsimp only
    rw [hscript]
    exact ⟨_, rfl⟩

end Inputs

variable {env : SigningEnv State Wallet Scan}
variable {t : TrustedInput} {input : PsbtInput} {stack : List Bytes} {tx : Transaction} {i : Nat}

/-- A stack of sound signatures satisfies the script, whichever keys the check
    gives them to. -/
theorem SignedWitness.accepted (h : SignedWitness env.toEnv t input stack)
    (hsound : SoundSignatures env.toEnv tx i t input.partialSigs) :
    ScriptAccepts env.toEnv tx i t stack := by
  obtain ⟨keys, required, signed, hkeys, hlength, hsub, hget, hassembled⟩ := h
  obtain ⟨keys', required', hash, hkeys', hhash, hall⟩ := hsound
  rw [hkeys, Except.ok.injEq, Prod.mk.injEq] at hkeys'
  obtain ⟨rfl, rfl⟩ := hkeys'
  have hvalid : ∀ e ∈ signed, validSignature env.toEnv hash e.1 e.2 = true := fun e he =>
    (validSignature_eq_true env.toEnv).mpr (hall e.1 e.2 (hget e he)).2
  refine ⟨keys, required, hash, hkeys, hhash, ?_⟩
  rcases hassembled with ⟨policyKey, key, sig, hdesc, rfl, rfl⟩ |
      ⟨policyKeys, script, hdesc, hscript, rfl⟩
  · rcases keys_cases hkeys with ⟨key', hdesc', rfl, -⟩ | ⟨_, hdesc', -⟩
    · -- the only key of the policy has signed
      have hkey : key = key' := List.singleton_sublist.mp hsub |> List.mem_singleton.mp
      subst hkey
      exact .inl ⟨key, hdesc', env.signatureToVec sig, sig, rfl, env.signatureFromSlice_toVec sig,
        hvalid _ List.mem_cons_self⟩
    · rw [hdesc] at hdesc'
      cases hdesc'
  · rcases keys_cases hkeys with ⟨_, hdesc', -⟩ | ⟨policyKeys', hdesc', hthree, -, rfl⟩
    · rw [hdesc] at hdesc'
      cases hdesc'
    · obtain ⟨⟨key₁, sig₁⟩, ⟨key₂, sig₂⟩, rfl⟩ := List.length_eq_two.mp hlength
      -- the two keys stand in the script in this order
      have hpair : List.SublistForall₂ (fun key key' : PublicKey => key = key') [key₁, key₂] keys :=
        List.sublistForall₂_iff.mpr ⟨_, List.forall₂_eq_eq_eq ▸ rfl, hsub⟩
      obtain ⟨a, b, _, _, hab, ha, hb, rfl, rfl⟩ := Greedy.match_pair.mp hpair
      exact .inr ⟨policyKeys', script, hdesc', hthree, hscript, env.signatureToVec sig₁,
        env.signatureToVec sig₂, sig₁, sig₂, rfl, env.signatureFromSlice_toVec sig₁,
        env.signatureFromSlice_toVec sig₂, a, b, _, _, hab, ha, hb,
        hvalid _ List.mem_cons_self, hvalid _ (List.mem_cons_of_mem _ List.mem_cons_self)⟩

/-! ## The final witness check of a draft -/

/-- The metadata check does not look at final witnesses. -/
theorem checkMetadata_finalWitness (env : Env State Wallet Scan) (input : PsbtInput)
    (w : List Bytes) (t : TrustedInput) (tx : Transaction) (i : Nat) :
    checkMetadata env { input with finalScriptWitness := some w } t tx i =
      checkMetadata env input t tx i := by
  simp only [checkMetadata, eq_allowedInput]

section Approved

variable {approved agg response : Psbt} {trusted : List TrustedInput} {ws : List (List Bytes)}

theorem acceptsAlone_of_acceptable (hok : ApprovedOk env.toEnv approved trusted)
    (h : Acceptable env.toEnv approved trusted response) :
    AcceptsAlone env.toEnv approved trusted response := by
  have hempty : heldSignatures { approved with inputs := approved.inputs } = ∅ := by
    ext ⟨i, key, sig⟩
    simp only [heldSignatures, Set.mem_ofPred_eq, Set.mem_empty_iff_false, iff_false]
    rintro ⟨input, hinput, hsig⟩
    have hi : i < trusted.length := hok.trusted_length ▸ (List.getElem?_eq_some_iff.mp hinput).1
    obtain ⟨_, hsigs, _⟩ := hok.inputs i input trusted[i] hinput (by simp)
    rw [hsigs] at hsig
    simp at hsig
  have hone : OnePerKey (heldSignatures { approved with inputs := approved.inputs } ∪
      contributed env.toEnv approved trusted response) := by
    rw [hempty, Set.empty_union]
    rintro i key sig sig' ⟨c, t, signatures, hc, ht, hsigs, hget⟩
      ⟨c', t', signatures', hc', ht', hsigs', hget'⟩
    rw [hc, Option.some.injEq] at hc'
    rw [ht, Option.some.injEq] at ht'
    subst hc' ht'
    rw [hsigs, Except.ok.injEq] at hsigs'
    rw [← hsigs', hget, Option.some.injEq] at hget'
    exact hget'
  obtain ⟨inputs, hinputs⟩ := mergeCandidate_total hok.trusted_length h hone
  refine ⟨_, (mergeResponse_eq_ok env.toEnv).mpr ⟨hok, inputs, ?_, rfl⟩⟩
  simp only [Option.toList_none, List.nil_append, List.foldlM_cons, List.foldlM_nil, hinputs,
    ok_bind, pure_eq_ok]

/-! ## Complete drafts -/

/-- What progress says of an aggregate: every input has enough signatures, and
    there is an input. -/
theorem complete_iff (env : Env State Wallet Scan) (d : String) :
    (∃ p, signingProgressOf env d agg trusted = .ok p ∧ p.complete = true) ↔
      ∃ rows, progress env agg trusted = .ok rows ∧ rows ≠ [] ∧
        ∀ row ∈ rows, row.requiredSignatures ≤ row.validSignatures := by
  simp only [signingProgressOf, bind_eq_ok, Except.ok.injEq]
  constructor
  · rintro ⟨_, ⟨rows, hrows, rfl⟩, hcomplete⟩
    simp only [Bool.and_eq_true, Bool.not_eq_true', List.isEmpty_eq_false_iff, List.all_eq_true,
      decide_eq_true_eq] at hcomplete
    exact ⟨rows, hrows, hcomplete.1, hcomplete.2⟩
  · rintro ⟨rows, hrows, hne, hall⟩
    refine ⟨_, ⟨rows, hrows, rfl⟩, ?_⟩
    simp only [Bool.and_eq_true, Bool.not_eq_true', List.isEmpty_eq_false_iff, List.all_eq_true,
      decide_eq_true_eq]
    exact ⟨hne, hall⟩

/-- A complete aggregate has a witness for each input. -/
theorem finalWitnesses_total (hagg : IsAggregate env.toEnv approved trusted agg)
    {rows : List InputSigningProgress} (hrows : progress env.toEnv agg trusted = .ok rows)
    (hall : ∀ row ∈ rows, row.requiredSignatures ≤ row.validSignatures) :
    ∃ ws, (trusted.zip agg.inputs).mapM (fun row => finalWitness env.toEnv row.1 row.2) = .ok ws := by
  have hprogress := mapM_eq_ok.mp hrows
  have hinputs : ∀ row ∈ trusted.zip agg.inputs, ∃ w, finalWitness env.toEnv row.1 row.2 = .ok w := by
    intro row hrow
    obtain ⟨j, hj, rfl⟩ := List.getElem_of_mem hrow
    rw [List.getElem_zip]
    rw [List.length_zip, hagg.inv.length, min_self] at hj
    have hjx : j < agg.inputs.length := hagg.inv.length ▸ hj
    have htx : agg.unsignedTx.previousOutputs.length = trusted.length := by
      rw [hagg.eq, Transaction.previousOutputs, List.length_map, ← hagg.approvedOk.inputs_length,
        hagg.approvedOk.trusted_length]
    have hjp : j < (agg.unsignedTx.previousOutputs.zip (agg.inputs.zip trusted)).length := by
      rw [List.length_zip, List.length_zip, htx, hagg.inv.length]
      omega
    have hjr : j < rows.length := hprogress.length_eq ▸ hjp
    have hrow' := hprogress.get hjp hjr
    simp only [List.get_eq_getElem, List.getElem_zip, inputProgress, bind_eq_ok, Prod.exists,
      Except.ok.injEq] at hrow'
    obtain ⟨keys, required, hkeys, heq⟩ := hrow'
    have hrequired := hall rows[j] (List.getElem_mem hjr)
    rw [← heq] at hrequired
    exact finalWitness_total (hagg.inv.sound j agg.inputs[j] trusted[j] (by simp) (by simp)) hkeys
      hrequired
  exact mapM_total hinputs

/-- A final transaction is the approved one with the witnesses of the aggregate. -/
theorem finalizeTransaction_assembled (hplain : Plain approved) {prior : Option Psbt} {tx : Transaction}
    (h : mergeResponse env.toEnv approved prior response trusted = .ok agg)
    (hfinal : finalizeTransaction env.toEnv approved (some agg) trusted = .ok tx) :
    ∃ ws, List.Forall₂ (fun row w => finalWitness env.toEnv row.1 row.2 = .ok w)
        (trusted.zip agg.inputs) ws ∧
      ws.length = approved.unsignedTx.input.length ∧ tx = withWitnesses approved.unsignedTx ws := by
  have hagg := mergeResponse_isAggregate h
  simp only [finalizeTransaction, mergeResponse_again hplain h, ok_bind, bind_eq_ok, require_eq_ok,
    exists_unit, Except.ok.injEq] at hfinal
  obtain ⟨_, -, -, ws, hws, -, -, -, rfl⟩ := hfinal
  have hforall := mapM_eq_ok.mp hws
  refine ⟨ws, hforall, ?_, rfl⟩
  rw [← hforall.length_eq, List.length_zip, hagg.inv.length, min_self,
    ← hagg.approvedOk.trusted_length, hagg.approvedOk.inputs_length]

end Approved

/-- Finalization of every aggregate of a plain approved PSBT. -/
structure FinalizesComplete (env : SigningEnv State Wallet Scan) : Prop where
  /-- The approved PSBT of every draft that is loaded is plain. -/
  plain : ∀ (db : Db State) (w d : String) (draft : SigningDraft),
    loadDraft env.toEnv db w d = .ok draft → Plain draft.approved
  /-- Progress is complete exactly when finalization succeeds. -/
  complete : ∀ approved trusted prior response agg d, Plain approved →
    mergeResponse env.toEnv approved prior response trusted = .ok agg →
    ((∃ p, signingProgressOf env.toEnv d agg trusted = .ok p ∧ p.complete = true) ↔
      ∃ tx, finalizeTransaction env.toEnv approved (some agg) trusted = .ok tx)
  /-- Without its witnesses the transaction is the approved one. -/
  stripped : ∀ approved trusted prior response agg tx, Plain approved →
    approved.unsignedTx.Unsigned →
    mergeResponse env.toEnv approved prior response trusted = .ok agg →
    finalizeTransaction env.toEnv approved (some agg) trusted = .ok tx →
    tx.stripWitnesses = approved.unsignedTx
  /-- Its witnesses hold signatures of the aggregate in the order of the script's
      keys, and each is accepted again. -/
  witnesses : ∀ approved trusted prior response agg tx, Plain approved →
    mergeResponse env.toEnv approved prior response trusted = .ok agg →
    finalizeTransaction env.toEnv approved (some agg) trusted = .ok tx →
    ∀ (i : Nat) (t : TrustedInput), trusted[i]? = some t →
      ∃ input final a signatures, agg.inputs[i]? = some input ∧ tx.input[i]? = some final ∧
        SignedWitness env.toEnv t input final.witness ∧ approved.inputs[i]? = some a ∧
        inputSignatures env.toEnv approved.unsignedTx i
          { a with finalScriptWitness := some final.witness } t = .ok signatures

end Signing
end Tundra
