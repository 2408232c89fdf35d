/-
  Tundra.Drafts

  The drafts of a store as the results about them see them: the review and
  the state of a draft, the approval its row stands for, and the references
  between the draft tables.
-/

import Tundra.System

namespace Tundra
namespace Drafts

open Checked Relational Engine Signing Broadcast

variable {State Wallet Scan : Type} (env : Env State Wallet Scan)

/-! ## Looking up rows -/

section Lookup

variable {db : Db State} {w d : String} {row : DraftRow}

theorem selectDraft_eq_some :
    db.selectDraft w d = some row ↔ db.drafts[d]? = some row ∧ row.walletId = w := by
  simp [Db.selectDraft, Option.filter_eq_some_iff]

theorem selectDraft_isSome :
    (db.selectDraft w d).isSome = true ↔ ∃ row, db.drafts[d]? = some row ∧ row.walletId = w := by
  simp only [Option.isSome_iff_exists, selectDraft_eq_some]

theorem submitted_eq_true :
    db.submitted w d = true ↔
      ∃ (id : Nat) (a : AttemptRow), db.broadcastAttempts[id]? = some a ∧ a.walletId = w ∧
        a.draftId = d := by
  simp only [Db.submitted, Table.anyRow_eq_true, decide_eq_true_eq]

theorem isRecovered_eq_true :
    db.isRecovered w d = true ↔ db.recoveredSubmissions[(w, d)]? = some () := by
  unfold Db.isRecovered
  cases db.recoveredSubmissions[(w, d)]? <;> simp

theorem isReserved_eq_true {op : String} :
    db.isReserved w op = true ↔ (∃ d, db.reservations[(w, op)]? = some d) ∨
      ∃ d : String, db.recoveryHolds[(w, op, d)]? = some () := by
  simp only [Db.isReserved, Bool.or_eq_true, Option.isSome_iff_exists, Table.anyRow_eq_true,
    decide_eq_true_eq, Prod.exists]
  refine or_congr_right ⟨?_, ?_⟩
  · rintro ⟨_, _, d, ⟨⟩, h, rfl, rfl⟩
    exact ⟨d, h⟩
  · rintro ⟨d, h⟩
    exact ⟨w, op, d, (), h, rfl, rfl⟩

/-- A new attempt gets an id above all there are. -/
theorem lt_nextAttemptId {id : Nat} {a : AttemptRow} (h : db.broadcastAttempts[id]? = some a) :
    id < db.nextAttemptId := by
  have hfold : ∀ (l : List (Nat × AttemptRow)) (n : Nat), n ≤ l.foldl (fun n row => max n row.1) n ∧
      ∀ row ∈ l, row.1 ≤ l.foldl (fun n row => max n row.1) n := by
    intro l
    induction l with
    | nil => simp
    | cons row l ih =>
        intro n
        obtain ⟨hn, hl⟩ := ih (max n row.1)
        simp only [List.foldl_cons, List.forall_mem_cons]
        exact ⟨(le_max_left ..).trans hn, (le_max_right ..).trans hn, hl⟩
  have hle := (hfold db.broadcastAttempts.toList 0).2 (id, a) (Table.mem_toList.mpr h)
  unfold Db.nextAttemptId
  omega

/-- The row of a draft after its review has been written. -/
theorem updateReview_of_some (h : db.selectDraft w d = some row) (review : ReviewJson) :
    db.updateReview w d review =
      { db with drafts := db.drafts.insert d { row with reviewJson := review } } := by
  simp only [Db.updateReview, h]

end Lookup

/-! ## Reviews and states -/

/-- The outpoint texts of a review's inputs. -/
def outpoints (r : DraftReview) : List String := r.inputs.map ReviewedInput.outpoint

@[simp] theorem outpoints_withState (r : DraftReview) (s : DraftState) :
    outpoints (r.withState s) = outpoints r := rfl

/-- The review of a draft. -/
def reviewOf (db : Db State) (w d : String) : Option DraftReview :=
  (db.selectDraft w d).bind (fun row => row.reviewJson.parsed)

/-- The state of a draft. -/
def stateOf (db : Db State) (w d : String) : Option DraftState :=
  (reviewOf db w d).map DraftReview.state

theorem reviewOf_eq_some {db : Db State} {w d : String} {r : DraftReview} :
    reviewOf db w d = some r ↔
      ∃ row, db.drafts[d]? = some row ∧ row.walletId = w ∧ row.reviewJson.parsed = some r := by
  simp only [reviewOf, Option.bind_eq_some_iff, selectDraft_eq_some, and_assoc]

theorem stateOf_eq_some {db : Db State} {w d : String} {s : DraftState} :
    stateOf db w d = some s ↔ ∃ r, reviewOf db w d = some r ∧ r.state = s := by
  simp only [stateOf, Option.map_eq_some_iff]

/-- The drafts of a store are looked up in one table. -/
theorem reviewOf_congr {db db' : Db State} {w d : String}
    (h : db'.drafts[d]? = db.drafts[d]?) : reviewOf db' w d = reviewOf db w d := by
  simp only [reviewOf, Db.selectDraft, h]

theorem stateOf_congr {db db' : Db State} {w d : String}
    (h : db'.drafts[d]? = db.drafts[d]?) : stateOf db' w d = stateOf db w d := by
  simp only [stateOf, reviewOf_congr h]

/-! ## Approvals -/

/-- What the row of draft `d` stands for: the approved PSBT and its review. -/
structure Approval (d : String) (row : DraftRow) (p : Psbt) (r : DraftReview) : Prop where
  psbt : parseResponse env row.psbt = .ok p
  review : row.reviewJson.parsed = some r
  id : r.id = d
  walletId : r.walletId = row.walletId
  identity : d = draftIdentity env row.walletId p.unsignedTx
  inputs : outpoints r = p.unsignedTx.previousOutputs.map env.displayOutPoint
  known : r.state.isKnown = true

/-- Every draft of the store is an approval. -/
def DraftsOk (db : Db State) : Prop :=
  ∀ (d : String) (row : DraftRow), db.drafts[d]? = some row → ∃ p r, Approval env d row p r

/-- An approval in another state. -/
theorem Approval.withState {env : Env State Wallet Scan} {d : String} {row : DraftRow} {p : Psbt}
    {r : DraftReview} (h : Approval env d row p r) {s : DraftState} (hs : s.isKnown = true) :
    Approval env d { row with reviewJson := reviewText env (r.withState s) } p (r.withState s) where
  psbt := h.psbt
  review := rfl
  id := h.id
  walletId := h.walletId
  identity := h.identity
  inputs := h.inputs
  known := hs

/-- A row stands for one approval. -/
theorem Approval.unique {env : Env State Wallet Scan} {d : String} {row : DraftRow} {p p' : Psbt}
    {r r' : DraftReview} (h : Approval env d row p r) (h' : Approval env d row p' r') :
    p' = p ∧ r' = r := by
  have hp := h'.psbt
  rw [h.psbt, Except.ok.injEq] at hp
  have hr := h'.review
  rw [h.review, Option.some.injEq] at hr
  exact ⟨hp.symm, hr.symm⟩

/-! ## References -/

/-- The references between the draft tables. -/
structure DraftKeys (db : Db State) : Prop where
  reservations : ∀ (w op d : String), db.reservations[(w, op)]? = some d →
    (db.selectDraft w d).isSome = true
  signatures : ∀ (w d : String) (b : Bytes), db.draftSignatures[(w, d)]? = some b →
    (db.selectDraft w d).isSome = true
  finalized : ∀ (w d : String) (b : Bytes), db.finalizedDrafts[(w, d)]? = some b →
    (db.selectDraft w d).isSome = true
  attempts : ∀ (id : Nat) (a : AttemptRow), db.broadcastAttempts[id]? = some a →
    (db.finalizedDrafts[(a.walletId, a.draftId)]?).isSome = true
  recovered : ∀ (w d : String), db.recoveredSubmissions[(w, d)]? = some () →
    (db.finalizedDrafts[(w, d)]?).isSome = true
  holds : ∀ (w op d : String), db.recoveryHolds[(w, op, d)]? = some () →
    db.recoveredSubmissions[(w, d)]? = some ()

/-- A database that passes `PRAGMA foreign_key_check` has these references. -/
theorem draftKeys_of_foreignKeys {db : Db State} (h : db.ForeignKeys) : DraftKeys db := by
  obtain ⟨_, _, _, hres, _, hsigs, hfinal, _, hatt, _, _, hrec, hholds⟩ := h
  refine ⟨fun w op d hd => hres (w, op) d hd, fun w d b hb => hsigs (w, d) b hb,
    fun w d b hb => hfinal (w, d) b hb, hatt, fun w d hd => hrec (w, d) () hd, ?_⟩
  intro w op d hd
  exact isRecovered_eq_true.mp (hholds (w, op, d) () hd)

end Drafts
end Tundra
