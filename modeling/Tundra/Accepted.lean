/-
  Tundra.Accepted

  A merged response, an accepted one and the draft it leaves.  The merge adds
  valid signatures and nothing else (`mergeResponse_sound`).  What is stored is the
  aggregate as `mergeResponse` built it, with no check on its size, while the
  next load parses it under the limits: the draft stays usable exactly when
  the aggregate still fits (`accept_usable_iff`).
-/

import Tundra.Finality
import Tundra.Fixture.Signed
import Tundra.Signing.Aggregate

namespace Tundra
namespace Accepted

open Checked Relational Engine Signing Broadcast Recovery Drafts Effects Paths Finality Tundra.System

variable {State Wallet Scan : Type} (env : Env State Wallet Scan)

/-! ## What is merged -/

/-- **The merge is sound and ignores untrusted metadata.**  The aggregate is
    the approved PSBT with signatures; every signature is under a policy key of
    its input, uses SIGHASH_ALL and is valid for that input's hash; the
    previous signatures are kept; and the response contributes its signature
    fields only. -/
theorem mergeResponse_sound {approved response merged : Psbt} {previous : Option Psbt}
    {trusted : List TrustedInput}
    (h : mergeResponse env approved previous response trusted = .ok merged) :
    merged.stripSignatures = approved ∧ merged.inputs.length = trusted.length ∧
    (∀ (i : Nat) (input : PsbtInput) (t : TrustedInput), merged.inputs[i]? = some input →
      trusted[i]? = some t → SoundSignatures env approved.unsignedTx i t input.partialSigs) ∧
    (∀ prev, previous = some prev → ∀ (i : Nat) (old : PsbtInput), prev.inputs[i]? = some old →
      ∃ input, merged.inputs[i]? = some input ∧ ∀ (key : PublicKey) (sig : Signature),
        old.partialSigs[key]? = some sig → input.partialSigs[key]? = some sig) ∧
    (∀ response' merged', signatureFields response' = signatureFields response →
      mergeResponse env approved previous response' trusted = .ok merged' → merged' = merged) := by
  obtain ⟨hok, hinv, hmerged⟩ := mergeResponse_inv env h
  obtain ⟨_, inputs, hfold, rfl⟩ := (mergeResponse_eq_ok env).mp h
  simp only at hinv
  refine ⟨?_, hinv.length, hinv.sound, ?_, ?_⟩
  · simp [Psbt.stripSignatures, hinv.stripped]
  · rintro prev rfl i old hold
    simp only [Option.toList_some, List.cons_append, List.nil_append, List.foldlM_cons,
      List.foldlM_nil, bind_eq_ok, pure_eq_ok] at hfold
    obtain ⟨mid, hprev, _, hresp, rfl⟩ := hfold
    obtain ⟨⟨_, _, hplen, _⟩, _, hpi⟩ := (mergeCandidate_eq_ok env).mp hprev
    obtain ⟨⟨_, _, hrlen, _⟩, _, hri⟩ := (mergeCandidate_eq_ok env).mp hresp
    have hmid := ((mergeInputs_eq_ok env hok.trusted_length hplen).mp hpi).1
    have hi : i < trusted.length := hplen ▸ (List.getElem?_eq_some_iff.mp hold).1
    have hia : i < approved.inputs.length := hok.trusted_length ▸ hi
    have him : i < mid.length := hmid ▸ hi
    have hir : i < response.inputs.length := hrlen ▸ hi
    have hii := hinv.length ▸ hi
    refine ⟨_, List.getElem?_eq_getElem hii, fun key sig hks => ?_⟩
    have hstep := mergeCandidate_keeps env hok.trusted_length hprev
      (List.getElem?_eq_getElem hia) hold (List.getElem?_eq_getElem him) (.inr hks)
    exact mergeCandidate_keeps env hmid hresp (List.getElem?_eq_getElem him)
      (List.getElem?_eq_getElem hir) (List.getElem?_eq_getElem hii) (.inl hstep)
  · intro response' merged' hsame h'
    obtain ⟨_, inputs', hfold', rfl⟩ := (mergeResponse_eq_ok env).mp h'
    have hfinal : inputs' = inputs := by
      rw [List.foldlM_append, bind_eq_ok] at hfold hfold'
      obtain ⟨mid, hmid, hlast⟩ := hfold
      obtain ⟨mid', hmid', hlast'⟩ := hfold'
      rw [hmid, Except.ok.injEq] at hmid'
      subst hmid'
      simp only [List.foldlM_cons, List.foldlM_nil, bind_eq_ok, pure_eq_ok, exists_eq_right]
        at hlast hlast'
      have hlen : mid.length = trusted.length := by
        refine foldlM_ok_inv (fun l => l.length = trusted.length) ?_ hok.trusted_length hmid
        intro l c l' _ hl hc
        obtain ⟨⟨_, _, hclen, _⟩, _, hci⟩ := (mergeCandidate_eq_ok env).mp hc
        exact ((mergeInputs_eq_ok env hl hclen).mp hci).1
      exact mergeCandidate_congr env hlen hsame hlast hlast'
    rw [hfinal]

open Fixture in
/-- The response to the payment gives a valid signature under the funding key. -/
theorem mergeResponse_sound_payee :
    (signedPsbt payeeScript [] paymentSignature).stripSignatures = paymentPsbt payeeScript [] ∧
    SoundSignatures Fixture.env (paymentPsbt payeeScript []).unsignedTx 0 fundingTrusted
      (paymentSignatures paymentSignature) := by
  obtain ⟨hstrip, -, hsound, -⟩ := mergeResponse_sound Fixture.env
    (merge_response [] payee_payable payee_signable)
  exact ⟨hstrip, hsound 0 (signedInput [] (paymentSignatures paymentSignature)) fundingTrusted rfl rfl⟩

/-! ## Stored aggregates over runs -/

/-- Every stored aggregate is the text of an approved PSBT with signatures. -/
def SignaturesOk (db : Db State) : Prop :=
  ∀ (w d : String) (b : Bytes), db.draftSignatures[(w, d)]? = some b →
    ∃ row p m, db.selectDraft w d = some row ∧ p.WellFormed ∧ WithinLimits env p ∧
      row.psbt = env.psbtText p ∧ m.stripSignatures = p ∧ b = env.psbtText m

section Invariant

variable {env}
variable {db db' : Db State} {w d : String}

/-- Only an accepted response writes an aggregate. -/
theorem draftSignatures_effect {a : Act Wallet} (hok : StoreOk env db)
    (heffect : Effect env a db db') {b : Bytes} (hb : db'.draftSignatures[(w, d)]? = some b) :
    (db.draftSignatures[(w, d)]? = some b ∧ a ≠ .discard w d) ∨
      a ≠ .discard w d ∧ ∃ draft response merged, loadDraft env db w d = .ok draft ∧
        mergeResponse env draft.approved draft.stored response draft.trusted = .ok merged ∧
        b = env.psbtText merged := by
  cases heffect with
  | metadata changed => exact .inl ⟨changed.same.draftSignatures ▸ hb, by simp⟩
  | create => exact .inl ⟨hb, by simp⟩
  | discard found unsubmitted =>
      rename_i w' e row
      simp only [Db.deleteDraft, Table.get_erase] at hb
      split_ifs at hb with hkey
      refine .inl ⟨hb, ?_⟩
      intro heq
      obtain ⟨rfl, rfl⟩ := Act.discard.injEq .. ▸ heq
      exact hkey rfl
  | accept loaded unfinalized merge state =>
      rename_i w' e draft response merged s
      obtain ⟨row, found, _⟩ := hok.loaded loaded
      rw [updateReview_of_some (by exact found)] at hb
      simp only [Table.get_insert] at hb
      split_ifs at hb with hkey
      · obtain ⟨rfl, rfl⟩ := Prod.mk.injEq .. ▸ hkey
        rw [Option.some.injEq] at hb
        exact .inr ⟨by simp, draft, response, merged, loaded, merge, hb.symm⟩
      · exact .inl ⟨hb, by simp⟩
  | finalize loaded unfinalized final fresh =>
      obtain ⟨row, found, _⟩ := hok.loaded loaded
      rw [updateReview_of_some (by exact found)] at hb
      exact .inl ⟨hb, by simp⟩
  | observe found review submitted final decoded seen =>
      rw [updateReview_of_some (by exact found)] at hb
      exact .inl ⟨hb, by simp⟩
  | invalidate found review =>
      rw [updateReview_of_some found] at hb
      exact .inl ⟨hb, by simp⟩
  | attempt => exact .inl ⟨hb, by simp⟩
  | acknowledge => exact .inl ⟨hb, by simp⟩
  | resume recovered found review state validated =>
      rw [updateReview_of_some found, reserveInputs_eq] at hb
      exact .inl ⟨hb, by simp⟩
  | suspend checked suspended => exact .inl ⟨suspended.draftSignatures ▸ hb, by simp⟩

/-- The PSBT of a loaded draft is the one its builder made. -/
theorem approved_built (hfinal : FinalOk env db) (hok : StoreOk env db) {draft : SigningDraft}
    (hload : loadDraft env db w d = .ok draft) :
    ∃ row, db.selectDraft w d = some row ∧ row.psbt = env.psbtText draft.approved ∧
      draft.approved.WellFormed ∧ WithinLimits env draft.approved := by
  obtain ⟨row, found, hrow, happ, _⟩ := hok.loaded hload
  obtain ⟨p, hwf, hlim, htext⟩ := hfinal.built d row hrow
  have hp := happ.psbt
  rw [htext, parseResponse_psbtText env hwf] at hp
  rw [hp.2]
  exact ⟨row, found, htext, hwf, hlim⟩

theorem stripSignatures_merged {approved response merged : Psbt} {previous : Option Psbt}
    {trusted : List TrustedInput}
    (h : mergeResponse env approved previous response trusted = .ok merged) :
    merged.stripSignatures = approved := by
  obtain ⟨_, hinv, hmerged⟩ := mergeResponse_inv env h
  rw [hmerged]
  simp [Psbt.stripSignatures, hinv.stripped]

theorem SignaturesOk.effect (h : SignaturesOk env db) (hok : StoreOk env db)
    (hfinal : FinalOk env db) {a : Act Wallet} (heffect : Effect env a db db') :
    SignaturesOk env db' := by
  intro w d b hb
  rcases draftSignatures_effect hok heffect hb with
    ⟨hold, hne⟩ | ⟨hne, draft, response, merged, hload, hmerge, rfl⟩
  · obtain ⟨row, p, m, hrow, hwf, hlim, hpsbt, hstrip, rfl⟩ := h w d b hold
    obtain ⟨row', hrow', hsame⟩ := (kept_effect hok heffect hne).row row hrow
    exact ⟨row', p, m, hrow', hwf, hlim, hsame.trans hpsbt, hstrip, rfl⟩
  · obtain ⟨row, hrow, hpsbt, hwf, hlim⟩ := approved_built hfinal hok hload
    obtain ⟨row', hrow', hsame⟩ := (kept_effect hok heffect hne).row row hrow
    exact ⟨row', draft.approved, merged, hrow', hwf, hlim, hsame.trans hpsbt,
      stripSignatures_merged hmerge, rfl⟩

end Invariant

/-- What holds of the stored PSBTs after every run. -/
structure PsbtsOk (db : Db State) : Prop where
  store : StoreOk env db
  final : FinalOk env db
  signatures : SignaturesOk env db

theorem psbtsOk_run (ops : List (Op Scan)) : PsbtsOk env (run env ops).db := by
  refine Transition.run_invariant (I := fun world => PsbtsOk env world.db) (step env) ?_ ?_ ops
  · rintro world op ⟨hok, hfinal, hsigs⟩
    refine (step_path env hok.drafts op).invariant env (I := PsbtsOk env) ?_ ⟨hok, hfinal, hsigs⟩
    rintro a db db' - ⟨hok, hfinal, hsigs⟩ heffect
    exact ⟨hok.effect heffect, hfinal.effect hok heffect, hsigs.effect hok hfinal heffect⟩
  · refine ⟨StoreOk.empty env, ⟨?_, ?_⟩, ?_⟩
    · intro d row hrow
      simp at hrow
    · intro w d b hb
      simp at hb
    · intro w d b hb
      simp at hb

/-! ## The draft after an accepted response -/

section Draft

variable {env}
variable {db : Db State} {w d : String} {draft : SigningDraft}

theorem wellFormed_of_strip {m p : Psbt} (h : m.stripSignatures = p) (hwf : p.WellFormed) :
    m.WellFormed := by
  subst h
  have hfields : ∀ i ∈ m.inputs, i.other = [] ∧
      ∀ tx, i.nonWitnessUtxo = some tx → tx.input ≠ [] := by
    intro i hi
    have hmem : i.stripSignatures ∈ m.stripSignatures.inputs := List.mem_map_of_mem hi
    exact ⟨hwf.inputs_other i.stripSignatures hmem, hwf.funding_inputs i.stripSignatures hmem⟩
  exact ⟨hwf.unsigned, hwf.version, hwf.proprietary, hwf.unknown,
    by simpa [Psbt.stripSignatures] using hwf.inputs_length, hwf.outputs_length,
    fun i hi => (hfields i hi).1, hwf.outputs_other, fun i hi => (hfields i hi).2⟩

/-- The stored aggregate of a loaded draft is the approved PSBT with signatures. -/
theorem storedOk_loaded (hpsbts : PsbtsOk env db) (hload : loadDraft env db w d = .ok draft) :
    StoredOk draft := by
  intro stored hstored
  obtain ⟨loaded, row, facts⟩ := (loadDraft_eq_ok env).mp hload
  have hread := facts.stored
  unfold loadStored at hread
  split at hread
  · rw [Except.ok.injEq, hstored] at hread
    cases hread
  · rename_i b hb
    simp only [bind_eq_ok, orError_eq_ok, Except.ok.injEq, hstored, Option.some.injEq] at hread
    obtain ⟨_, hparse, rfl⟩ := hread
    obtain ⟨row', p, m, hrow', hwf, hlim, hpsbt, hstrip, rfl⟩ := hpsbts.signatures w d b hb
    rw [facts.found, Option.some.injEq] at hrow'
    subst hrow'
    have hp := facts.approved
    rw [hpsbt, parseResponse_psbtText env hwf] at hp
    rw [parseResponse_psbtText env (wellFormed_of_strip hstrip hwf)] at hparse
    rw [hparse.2, hstrip, hp.2]

/-- The trusted inputs of a loaded draft are derived by its wallet. -/
theorem derived_loaded (hload : loadDraft env db w d = .ok draft) :
    ∀ t ∈ draft.trusted, Derived env t := by
  intro t ht
  obtain ⟨loaded, row, facts⟩ := (loadDraft_eq_ok env).mp hload
  obtain ⟨hall, _⟩ := facts.inputs
  obtain ⟨i, hi, rfl⟩ := List.getElem_of_mem ht
  have hfacts := hall.get (hall.length_eq ▸ hi) hi
  obtain ⟨_, _, _, index, _, _, _, _, _, hderive, _⟩ := hfacts.coin
  exact ⟨_, index, hderive⟩

/-- A loaded draft whose review is written in another live state loads alike,
    up to its stored aggregate. -/
theorem loadDraft_withState {db' : Db State} {loaded : Loaded State Wallet} {row : DraftRow}
    (facts : LoadFacts env db w d loaded row draft) {s : DraftState} (hs : s.isLive = true)
    (hwallets : db'.wallets = db.wallets) (hreservations : db'.reservations = db.reservations)
    (hfreezes : db'.freezes = db.freezes)
    (hrow : db'.selectDraft w d =
      some { row with reviewJson := reviewText env (draft.review.withState s) }) :
    loadDraft env db' w d = (do
      let stored ← loadStored env db' w d
      .ok { draft with stored, review := draft.review.withState s }) := by
  obtain ⟨inputSum, outputSum, hinputs, houtputs, hmax, hfee, hcap⟩ := facts.sums
  have hload : load env db' w = .ok loaded := by
    rw [← facts.wallet]
    simp only [load, hwallets]
  have hinputs' : loadInputs env db' w d loaded.wallet draft.approved.unsignedTx.previousOutputs
      draft.review.inputs [] 0 = .ok (draft.trusted, inputSum) := by
    rw [← hinputs]
    exact loadInputs_congr env (fun _ => by rw [hreservations])
      (fun _ => by rw [Db.isFrozen, Db.isFrozen, hfreezes]) _ _ _ _
  have happroved : orError (parseResponse env row.psbt) .corruptState = .ok draft.approved :=
    orError_eq_ok.mpr facts.approved
  have hlive : (draft.review.withState s).state.isLive = true := hs
  have hmatch : draftIdentity env w draft.approved.unsignedTx = d ∧
      (draft.review.withState s).id = d ∧ (draft.review.withState s).walletId = w ∧
      (draft.review.withState s).inputs.length = draft.approved.inputs.length ∧
      (draft.review.withState s).outputs.length = draft.approved.outputs.length :=
    ⟨facts.identity, facts.id, facts.walletId, facts.inputs_length, facts.outputs_length⟩
  have hfields := And.intro facts.xpub (And.intro facts.unknown facts.proprietary)
  have hsums : inputSum ≤ maxSats ∧
      checkedSub inputSum outputSum = some (draft.review.withState s).feeSats ∧
      (draft.review.withState s).feeSats ≤ 1000000 := ⟨hmax, hfee, hcap⟩
  rw [loadDraft, hload, ok_bind, require_of facts.network, ok_bind, require_of facts.synced,
    ok_bind, hrow, okOr_some, ok_bind, happroved, ok_bind, parseReview, reviewText, okOr_some,
    ok_bind, require_of hlive, ok_bind, require_of hmatch, ok_bind, require_of hfields, ok_bind,
    DraftReview.withState_inputs, hinputs', ok_bind, DraftReview.withState_outputs, houtputs]
  dsimp only
  rw [ok_bind, require_of hsums, ok_bind]

/-- What `accept_signed_psbt` has checked and written. -/
theorem acceptSignedPsbt_eq_ok {payload : Bytes} {out : SigningProgress × Db State} :
    acceptSignedPsbt env db w d payload = .ok out ↔
      ∃ response draft merged, parseResponse env payload = .ok response ∧
        loadDraft env db w d = .ok draft ∧ draft.review.state ≠ .finalized ∧
        mergeResponse env draft.approved draft.stored response draft.trusted = .ok merged ∧
        signingProgressOf env d merged draft.trusted = .ok out.1 ∧
        (∃ i ∈ out.1.inputs, i.validSignatures ≠ 0) ∧ (db.selectDraft w d).isSome = true ∧
        out.2 = { db with
          draftSignatures := db.draftSignatures.insert (w, d) (env.psbtText merged)
          }.updateReview w d (reviewText env (draft.review.withState (signedState out.1))) := by
  obtain ⟨current, db'⟩ := out
  simp only [acceptSignedPsbt, bind_eq_ok, require_eq_ok, exists_unit, Db.upsertSignatures,
    Except.ok.injEq, Prod.mk.injEq]
  constructor
  · rintro ⟨response, hresponse, draft, hload, hstate, merged, hmerge, current', hcurrent, hvalid,
      _, ⟨hrow, rfl⟩, rfl, rfl⟩
    exact ⟨response, draft, merged, hresponse, hload, hstate, hmerge, hcurrent, hvalid, hrow, rfl⟩
  · rintro ⟨response, draft, merged, hresponse, hload, hstate, hmerge, hcurrent, hvalid, hrow, rfl⟩
    exact ⟨response, hresponse, draft, hload, hstate, merged, hmerge, current, hcurrent, hvalid, _,
      ⟨hrow, rfl⟩, rfl, rfl⟩

theorem signedState_isLive (p : SigningProgress) : (signedState p).isLive = true := by
  unfold signedState
  split_ifs <;> rfl

/-- The draft an accepted response leaves: it loads when the aggregate parses. -/
theorem loadDraft_accepted (hload : loadDraft env db w d = .ok draft) {s : DraftState}
    (hs : s.isLive = true) (b : Bytes) :
    loadDraft env ({ db with
        draftSignatures := db.draftSignatures.insert (w, d) b }.updateReview w d
          (reviewText env (draft.review.withState s))) w d =
      (do
        let stored ← orError (parseResponse env b) .corruptState
        .ok { draft with stored := some stored, review := draft.review.withState s }) := by
  obtain ⟨loaded, row, facts⟩ := (loadDraft_eq_ok env).mp hload
  obtain ⟨hget, hw⟩ := selectDraft_eq_some.mp facts.found
  rw [updateReview_of_some (by exact facts.found)]
  rw [loadDraft_withState facts hs (by rfl) (by rfl) (by rfl)
    (selectDraft_eq_some.mpr ⟨Table.get_insert_self .., hw⟩)]
  simp only [loadStored, Table.get_insert_self]
  cases orError (parseResponse env b) .corruptState with
  | error e => rfl
  | ok stored => rfl

/-- The draft an accepted response leaves answers as the claim says exactly
    when its aggregate is within the limits. -/
theorem accepted_usable (hpsbts : PsbtsOk env db) {payload : Bytes} {current : SigningProgress}
    {db' : Db State} (h : acceptSignedPsbt env db w d payload = .ok (current, db'))
    (hload : loadDraft env db w d = .ok draft) {response merged : Psbt}
    (hresponse : parseResponse env payload = .ok response)
    (hmerge : mergeResponse env draft.approved draft.stored response draft.trusted = .ok merged) :
    (aggregateSize env draft response ≤ maxPsbtBytes →
      signingProgress env db' w d = .ok current ∧
        exportSigningPsbt env db' w d = .ok (env.psbtText merged)) ∧
      (maxPsbtBytes < aggregateSize env draft response →
        signingProgress env db' w d = .error .corruptState ∧
          exportSigningPsbt env db' w d = .error .corruptState) := by
  obtain ⟨response', draft', merged', hresponse', hload', _, hmerge', hcurrent, _, _, hdb⟩ :=
    acceptSignedPsbt_eq_ok.mp h
  rw [hresponse, Except.ok.injEq] at hresponse'
  rw [hload, Except.ok.injEq] at hload'
  subst hresponse' hload'
  rw [hmerge, Except.ok.injEq] at hmerge'
  subst hmerge'
  simp only at hdb hcurrent
  subst hdb
  obtain ⟨_, _, _, hwf, hlim⟩ := approved_built hpsbts.final hpsbts.store hload
  have hmerged := wellFormed_of_strip (stripSignatures_merged hmerge) hwf
  have hlimits := withinLimits_merged hwf hlim (derived_loaded hload)
    (storedOk_loaded hpsbts hload) hmerge
  have hagain := loadDraft_accepted hload (signedState_isLive current) (env.psbtText merged)
  refine ⟨fun hsize => ?_, fun hsize => ?_⟩
  · have hparse := (parseResponse_psbtText env hmerged).mpr ⟨hlimits.mpr hsize, rfl⟩
    rw [orError_eq_ok.mpr hparse, ok_bind] at hagain
    have hagg := mergeResponse_again (plain_of_wellFormed hwf) hmerge
    simp only [signingProgress, exportSigningPsbt, hagain, ok_bind, aggregate, hagg, hcurrent,
      and_self]
  · obtain ⟨e, he⟩ : ∃ e, parseResponse env (env.psbtText merged) = .error e := by
      refine exists_error_of_ne_ok fun m hm => ?_
      have hle := hlimits.mp ((parseResponse_psbtText env hmerged).mp hm).1
      omega
    rw [he, show orError (.error e : Result Psbt) .corruptState = .error .corruptState from rfl,
      error_bind] at hagain
    simp only [signingProgress, exportSigningPsbt, hagain, error_bind, and_self]

end Draft

open Fixture in
theorem unsigned_stored (script : Script) (address : String) (stack : List Bytes) :
    StoredOk (loadedPayment script address stack .unsigned none) := by
  intro stored hstored
  cases hstored

end Accepted
end Tundra
