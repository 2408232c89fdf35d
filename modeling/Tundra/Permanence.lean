/-
  Tundra.Permanence

  An ended draft (invalidated or observed) stays ended.  Of all effects only a
  discard removes it and only a resume revives it, and a resume needs a
  recovered submission whose final bytes still validate.
-/

import Tundra.Paths
import Tundra.Fixture.Evicted

namespace Tundra
namespace Permanence

open Checked Relational Engine Signing Broadcast Recovery Drafts Effects Paths Tundra.System
open Transition (Along)

variable {State Wallet Scan : Type} (env : Env State Wallet Scan)

/-- The draft is invalidated or observed. -/
def Ended (db : Db State) (w d : String) : Prop :=
  stateOf db w d = some .invalidated ∨ stateOf db w d = some .observed

theorem Ended.not_live {db : Db State} {w d : String} (h : Ended db w d) {s : DraftState}
    (hs : stateOf db w d = some s) : s.isLive = false := by
  rcases h with h | h <;> rw [h, Option.some.injEq] at hs <;> subst hs <;> rfl

theorem Ended.congr {db db' : Db State} {w d : String} (h : Ended db w d)
    (hget : db'.drafts[d]? = db.drafts[d]?) : Ended db' w d := by
  rwa [Ended, stateOf_congr hget]

/-- The state of a draft after the row of some draft is written. -/
theorem stateOf_insert {db db' : Db State} {e : String} {row : DraftRow}
    (h : db'.drafts = db.drafts.insert e row) (w d : String) :
    stateOf db' w d =
      if d = e then (if row.walletId = w then row.reviewJson.parsed.map DraftReview.state else none)
      else stateOf db w d := by
  simp only [stateOf, reviewOf, selectDraft_insert h]
  split_ifs <;> rfl

section Refusals

variable {env}
variable {db : Db State} {w d : String}

/-- An ended draft does not load. -/
theorem Ended.loadDraft_ne_ok (h : Ended db w d) (draft : SigningDraft) :
    loadDraft env db w d ≠ .ok draft := by
  intro hload
  obtain ⟨loaded, row, facts⟩ := (loadDraft_eq_ok env).mp hload
  have hs : stateOf db w d = some draft.review.state := by
    rw [stateOf, reviewOf, facts.found, Option.bind_some, facts.review, Option.map_some]
  have hlive := facts.live
  rw [h.not_live hs] at hlive
  cases hlive

theorem Ended.accept_refused (h : Ended db w d) (payload : Bytes) :
    ∃ e, acceptSignedPsbt env db w d payload = .error e := by
  refine exists_error_of_ne_ok fun out hout => ?_
  simp only [acceptSignedPsbt, bind_eq_ok] at hout
  obtain ⟨_, _, draft, hload, _⟩ := hout
  exact h.loadDraft_ne_ok draft hload

theorem Ended.finalize_refused (h : Ended db w d) :
    ∃ e, finalizeDraft env db w d = .error e := by
  refine exists_error_of_ne_ok fun out hout => ?_
  simp only [finalizeDraft, bind_eq_ok] at hout
  obtain ⟨draft, hload, _⟩ := hout
  exact h.loadDraft_ne_ok draft hload

theorem Ended.validated_refused (h : Ended db w d) (final : Option FinalizedReview) :
    validatedFinalized env db w d ≠ .ok final := by
  intro hvalid
  simp only [validatedFinalized, bind_eq_ok] at hvalid
  obtain ⟨draft, hload, _⟩ := hvalid
  exact h.loadDraft_ne_ok draft hload

theorem Ended.preflight_refused (h : Ended db w d) {r : BroadcastRequest} (hw : r.walletId = w)
    (hd : r.draftId = d) : ∃ e, preflight env db r = .error e := by
  refine exists_error_of_ne_ok fun p hp => ?_
  simp only [preflight, bind_eq_ok, hw, hd] at hp
  obtain ⟨_, _, _, _, _, _, final, hvalid, _⟩ := hp
  exact h.validated_refused final hvalid

theorem Ended.insertAttempt_refused (h : Ended db w d) {r : BroadcastRequest} (hw : r.walletId = w)
    (hd : r.draftId = d) (p : Preflight) (now : Nat) :
    ∃ e, Broadcast.insertAttempt env db r p now = .error e := by
  refine exists_error_of_ne_ok fun out hout => ?_
  simp only [Broadcast.insertAttempt, bind_eq_ok, hw, hd] at hout
  obtain ⟨final, hvalid, _⟩ := hout
  exact h.validated_refused final hvalid

end Refusals

/-! ## Effects on an ended draft -/

section Effects

variable {env}
variable {db db' : Db State} {w d : String}

/-- A draft found in some wallet that is not the ended one has another id. -/
theorem Ended.id_ne (h : Ended db w d) {w' e : String} {row : DraftRow}
    (found : db.selectDraft w' e = some row) (hne : ¬ (w' = w ∧ e = d)) : e ≠ d := by
  rintro rfl
  obtain ⟨hrow, hw'⟩ := selectDraft_eq_some.mp found
  obtain ⟨s, hs⟩ : ∃ s, stateOf db w e = some s := by
    rcases h with h | h
    · exact ⟨_, h⟩
    · exact ⟨_, h⟩
  obtain ⟨r, hr, _⟩ := stateOf_eq_some.mp hs
  obtain ⟨row₁, hrow₁, hw₁, _⟩ := reviewOf_eq_some.mp hr
  rw [hrow, Option.some.injEq] at hrow₁
  exact hne ⟨by rw [← hw', ← hw₁, hrow₁], rfl⟩

/-- The row of another draft is written. -/
theorem Ended.insert (h : Ended db w d) {w' e : String} {row row' : DraftRow}
    (found : db.selectDraft w' e = some row) (hne : ¬ (w' = w ∧ e = d))
    (hdrafts : db'.drafts = db.drafts.insert e row') : Ended db' w d := by
  refine h.congr ?_
  rw [hdrafts, Table.get_insert_ne _ _ (h.id_ne found hne)]

theorem Ended.effect (h : Ended db w d) {a : Act Wallet} (hok : StoreOk env db)
    (heffect : Effect env a db db') (hdiscard : a ≠ .discard w d) (hresume : a ≠ .resume w d) :
    Ended db' w d := by
  have hfound : ∃ row, db.drafts[d]? = some row := by
    rcases h with h | h <;>
    · obtain ⟨r, hr, _⟩ := stateOf_eq_some.mp h
      obtain ⟨row, hrow, _⟩ := reviewOf_eq_some.mp hr
      exact ⟨row, hrow⟩
  -- a loaded draft is live, so it is another one
  have hother : ∀ {w' e : String} {draft : SigningDraft}, loadDraft env db w' e = .ok draft →
      ¬ (w' = w ∧ e = d) := by
    rintro w' e draft hload ⟨rfl, rfl⟩
    exact h.loadDraft_ne_ok draft hload
  cases heffect with
  | metadata changed => exact h.congr (by rw [changed.same.drafts])
  | create loaded label planned walletId id fresh row_wallet psbt review nodup =>
      rename_i w' e row p r _ _ _
      refine h.congr (Table.get_insert_ne _ _ ?_)
      rintro rfl
      obtain ⟨row, hrow⟩ := hfound
      rw [fresh] at hrow
      cases hrow
  | discard found unsubmitted =>
      rename_i w' e row
      have hne : ¬ (w' = w ∧ e = d) := by
        rintro ⟨rfl, rfl⟩
        exact hdiscard rfl
      refine h.congr ?_
      simp only [Db.deleteDraft, Table.get_erase, if_neg (h.id_ne found hne)]
  | accept loaded unfinalized merge state =>
      obtain ⟨row, found, _⟩ := hok.loaded loaded
      rw [updateReview_of_some (by exact found)]
      exact h.insert found (hother loaded) rfl
  | finalize loaded unfinalized final fresh =>
      obtain ⟨row, found, _⟩ := hok.loaded loaded
      rw [updateReview_of_some (by exact found)]
      exact h.insert found (hother loaded) rfl
  | observe found review submitted final decoded seen =>
      rename_i wallet w' e row r bytes tx
      rw [updateReview_of_some (by exact found)]
      by_cases hsame : w' = w ∧ e = d
      · obtain ⟨rfl, rfl⟩ := hsame
        refine .inr ((stateOf_insert rfl w' e).trans ?_)
        simp [(selectDraft_eq_some.mp found).2, reviewText]
      · exact h.insert found hsame rfl
  | invalidate found review =>
      rename_i w' e row r
      rw [updateReview_of_some found]
      by_cases hsame : w' = w ∧ e = d
      · obtain ⟨rfl, rfl⟩ := hsame
        refine .inl ((stateOf_insert rfl w' e).trans ?_)
        simp [(selectDraft_eq_some.mp found).2, reviewText]
      · exact h.insert found hsame rfl
  | attempt => exact h
  | acknowledge => exact h
  | resume recovered found review state validated =>
      rename_i w' e row r final
      have hne : ¬ (w' = w ∧ e = d) := by
        rintro ⟨rfl, rfl⟩
        exact hresume rfl
      rw [updateReview_of_some found, reserveInputs_eq]
      exact h.insert found hne rfl
  | suspend checked suspended =>
      rcases h with hs | hs <;>
      · obtain ⟨r, hr, _⟩ := stateOf_eq_some.mp hs
        obtain ⟨row, hrow, hw, hrev⟩ := reviewOf_eq_some.mp hr
        refine .inl (stateOf_eq_some.mpr ⟨r.withState .invalidated, ?_, rfl⟩)
        refine reviewOf_eq_some.mpr ⟨suspendRow env row, ?_, by simpa using hw, ?_⟩
        · rw [suspended.drafts, hrow, Option.map_some]
        · rw [suspendRow_of_review env hrev]
          rfl

end Effects

/-! ## Runs -/

/-- The operation resumes the draft. -/
def Resumes (world : World State) (op : Op Scan) (w d : String) : Prop :=
  ∃ txid attempt ack, op = .resumeRecovered w d txid attempt ack ∧
    ∃ out, resumeRecoveredSubmission env world.db w d txid attempt ack = .ok out

/-- One step, other than a discard or a resume of the draft. -/
theorem Ended.step {world : World State} {w d : String} (h : Ended world.db w d)
    (hok : StoreOk env world.db) {op : Op Scan} (hdiscard : ¬ Discards world op w d)
    (hresume : ¬ Resumes env world op w d) : Ended (step env world op).db w d := by
  by_cases hrefused : ∃ e, transact env world.db op = some (.error e)
  · obtain ⟨e, he⟩ := hrefused
    rwa [step_refused env he]
  · have hpath := step_path env hok.drafts op
    have hkeep : ∀ a db db', Allowed env world op a → StoreOk env db ∧ Ended db w d →
        Effect env a db db' → StoreOk env db' ∧ Ended db' w d := by
      rintro a db db' ha ⟨hdb, hended⟩ heffect
      refine ⟨hdb.effect heffect, hended.effect hdb heffect ?_ ?_⟩
      · intro hact
        obtain rfl := (allowed_ne env ha).1 hact
        refine hdiscard ⟨rfl, ?_⟩
        cases hrun : discardDraft world.db w d with
        | ok out => exact ⟨out, rfl⟩
        | error e => exact absurd ⟨e, by rw [transact, hrun]; rfl⟩ hrefused
      · intro hact
        obtain ⟨txid, attempt, ack, rfl⟩ := (allowed_ne env ha).2 hact
        refine hresume ⟨txid, attempt, ack, rfl, ?_⟩
        cases hrun : resumeRecoveredSubmission env world.db w d txid attempt ack with
        | ok out => exact ⟨out, rfl⟩
        | error e => exact absurd ⟨e, by rw [transact, hrun]; rfl⟩ hrefused
    exact (hpath.invariant env hkeep ⟨hok, h⟩).2

/-- Validation does not read the recovery records. -/
theorem validatedFinalized_deleteRecovered (db : Db State) (w d w' d' : String) :
    validatedFinalized env (db.deleteRecovered w' d') w d = validatedFinalized env db w d :=
  validatedFinalized_congr env (loadDraft_congr env rfl rfl (fun _ => rfl) (fun _ => rfl) rfl) rfl

/-- What a resume requires. -/
theorem resume_requires {db : Db State} {w d txid : String} {attempt : Nat} {ack : Bool}
    {out : FinalizedReview × Db State}
    (h : resumeRecoveredSubmission env db w d txid attempt ack = .ok out) :
    db.isRecovered w d = true ∧
      db.finalizedDrafts[(w, d)]? = some out.1.transactionBytes ∧
      validatedFinalized env out.2 w d = .ok (some out.1) := by
  simp only [resumeRecoveredSubmission, bind_eq_ok, require_eq_ok, exists_unit, okOr_eq_ok,
    parseReview, Except.ok.injEq] at h
  obtain ⟨_, hrec, _, _, _, row, hrow, review, _, _, validated, hvalid, final, rfl, _, rfl⟩ := h
  refine ⟨hrec, ?_, by rw [validatedFinalized_deleteRecovered]; exact hvalid⟩
  obtain ⟨draft, bytes, tx, _, hbytes, _, _, rfl, rfl⟩ := (validatedFinalized_eq_ok env).mp hvalid
  rw [updateReview_of_some hrow, reserveInputs_eq] at hbytes
  exact hbytes

/-- **Ended drafts stay ended.**  After any run, and along any later run that
    neither discards the draft nor resumes it, a draft that is invalidated or
    observed stays so.  It refuses signatures, finalization and broadcast, which
    change nothing, and only a recovered submission whose final bytes validate
    can be resumed. -/
theorem run_ended_permanent (ops : List (Op Scan)) (w d : String)
    (h : Ended (run env ops).db w d) :
    (∀ later, Along (step env)
        (fun world op => ¬ Discards world op w d ∧ ¬ Resumes env world op w d)
        (run env ops) later → Ended (run env (ops ++ later)).db w d) ∧
    (∀ payload, (∃ e, acceptSignedPsbt env (run env ops).db w d payload = .error e) ∧
      (run env (ops ++ [.acceptSignedPsbt w d payload])).db = (run env ops).db) ∧
    ((∃ e, finalizeDraft env (run env ops).db w d = .error e) ∧
      (run env (ops ++ [.finalizeDraft w d])).db = (run env ops).db) ∧
    (∀ request : BroadcastRequest, request.walletId = w → request.draftId = d →
      (∃ e, preflight env (run env ops).db request = .error e) ∧
      (∀ p now, ∃ e, Broadcast.insertAttempt env (run env ops).db request p now = .error e) ∧
      (run env (ops ++ [.preflight request])).db = (run env ops).db) ∧
    (∀ txid attempt ack out,
      resumeRecoveredSubmission env (run env ops).db w d txid attempt ack = .ok out →
      (run env ops).db.isRecovered w d = true ∧
        (run env ops).db.finalizedDrafts[(w, d)]? = some out.1.transactionBytes ∧
        validatedFinalized env out.2 w d = .ok (some out.1)) := by
  have hok := storeOk_run env ops
  refine ⟨?_, ?_, ?_, ?_, fun txid attempt ack out hout => resume_requires env hout⟩
  · intro later hall
    rw [run_append]
    refine (Transition.run_along (I := fun world => StoreOk env world.db ∧ Ended world.db w d)
      (step env) ?_ ⟨hok, h⟩ hall).2
    rintro world op ⟨hworld, hended⟩ ⟨hdiscard, hresume⟩
    exact ⟨storeOk_step env hworld op, hended.step env hworld hdiscard hresume⟩
  · intro payload
    obtain ⟨e, he⟩ := h.accept_refused payload
    refine ⟨⟨e, he⟩, ?_⟩
    rw [run_concat]
    exact step_refused env (by rw [transact, he]; rfl)
  · obtain ⟨e, he⟩ := h.finalize_refused
    refine ⟨⟨e, he⟩, ?_⟩
    rw [run_concat]
    exact step_refused env (by rw [transact, he]; rfl)
  · intro request hw hd
    obtain ⟨e, he⟩ := h.preflight_refused hw hd
    refine ⟨⟨e, he⟩, fun p now => h.insertAttempt_refused hw hd p now, ?_⟩
    rw [run_concat]
    change (World.preflight env (run env ops) request).db = (run env ops).db
    rw [World.preflight, he]

open Fixture in
/-- The draft that a reorganization has invalidated refuses every response, and
    stays invalidated when the coin comes back. -/
theorem run_ended_permanent_evicted :
    (∀ payload, ∃ e, acceptSignedPsbt Fixture.env (run Fixture.env evictedRun).db walletId
      (paymentId payeeScript) payload = .error e) ∧
    Ended (run Fixture.env (evictedRun ++
      [.commitSync walletId evictedSnapshot (confirmedScan []) 3000])).db walletId
      (paymentId payeeScript) := by
  obtain ⟨hstays, haccept, -⟩ := run_ended_permanent Fixture.env evictedRun walletId
    (paymentId payeeScript) (.inl run_evicted)
  refine ⟨fun payload => (haccept payload).1, hstays _ ⟨⟨?_, ?_⟩, trivial⟩⟩
  · rintro ⟨hdiscard, -⟩
    cases hdiscard
  · rintro ⟨_, _, _, hresume, -⟩
    cases hresume

end Permanence
end Tundra
