/-
  Tundra.Suspended

  What `suspend` leaves behind.  Its loop verifies and rewrites one draft after
  the other, while `verifyDraft` reads only tables and rows that are still as
  they were; the loop invariant `SuspendInv` says what has happened to the
  drafts that are done, and `suspend_eq_ok` what has happened to all of them.
-/

import Tundra.Drafts
import Tundra.Signing.Loaded
import Mathlib.Data.List.Sort

namespace Tundra
namespace Recovery

open Checked Relational Engine Signing Drafts

variable {State Wallet Scan : Type} (env : Env State Wallet Scan)

/-! ## Verifying one draft -/

theorem suspendInputs_outpoints {inputs : List ReviewedInput} {ops : List OutPoint}
    {sum total : UInt64} (hlen : inputs.length = ops.length)
    (h : suspendInputs env inputs ops sum = .ok total) :
    inputs.map ReviewedInput.outpoint = ops.map env.displayOutPoint := by
  induction inputs generalizing ops sum with
  | nil =>
      obtain rfl := List.length_eq_zero_iff.mp hlen.symm
      rfl
  | cons input inputs ih =>
      obtain ⟨op, ops, rfl⟩ := List.exists_cons_of_length_eq_add_one hlen.symm
      simp only [suspendInputs, bind_eq_ok, require_eq_ok, exists_unit, okOr_eq_ok] at h
      obtain ⟨hop, _, sum', _, hrest⟩ := h
      simp only [List.length_cons, Nat.add_right_cancel_iff] at hlen
      simp [hop, ih hlen hrest]

/-- A verified draft is an approval. -/
theorem verifyDraft_approval {db : Db State} {w d : String} {r : DraftReview}
    (h : verifyDraft env db w d = .ok r) :
    ∃ row p, db.selectDraft w d = some row ∧ Approval env d row p r := by
  simp only [verifyDraft, bind_eq_ok, okOr_eq_ok, require_eq_ok, exists_unit, parseReview,
    Except.ok.injEq] at h
  obtain ⟨row, hrow, p, hp, r', hr, hknown, ⟨hw, hd, hid, hin, _⟩, _, total, hsum, _, _, _, _,
    _, _, _, rfl⟩ := h
  have hwallet := (selectDraft_eq_some.mp hrow).2
  refine ⟨row, p, hrow, hp, hr, hd, by rw [hw, hwallet], by rw [hwallet, hid], ?_, hknown⟩
  apply suspendInputs_outpoints env _ hsum
  rw [hin, (parseResponse_lengths env hp).1, Transaction.previousOutputs, List.length_map]

/-- Verifying a draft reads its own row, the wallets, and tables `suspend`
    does not write. -/
theorem verifyDraft_congr {db db' : Db State} {w d : String}
    (hrow : db'.selectDraft w d = db.selectDraft w d) (hwallets : db'.wallets = db.wallets)
    (hsigs : db'.draftSignatures = db.draftSignatures)
    (hfinal : db'.finalizedDrafts = db.finalizedDrafts)
    (hattempts : db'.broadcastAttempts = db.broadcastAttempts) :
    verifyDraft env db' w d = verifyDraft env db w d := by
  simp only [verifyDraft, suspendFinal, suspendStored, load, hrow, hwallets, hsigs, hfinal,
    hattempts]

/-! ## Holding the inputs of one draft -/

/-- The holds of a draft on a list of outpoints. -/
def holdAll (w d : String) (ops : List String) (t : Table (String × String × String) Unit) :
    Table (String × String × String) Unit :=
  t.insertAll (ops.map (fun op => (w, op, d))) ()

theorem holdAll_get (w d : String) (ops : List String)
    (t : Table (String × String × String) Unit) (w' op d' : String) :
    (holdAll w d ops t)[(w', op, d')]? = some () ↔
      (w' = w ∧ d' = d ∧ op ∈ ops) ∨ t[(w', op, d')]? = some () := by
  have hkey : (w', op, d') ∈ ops.map (fun op => (w, op, d)) ↔ w' = w ∧ d' = d ∧ op ∈ ops := by
    simp only [List.mem_map, Prod.mk.injEq]
    constructor
    · rintro ⟨_, hop, rfl, rfl, rfl⟩
      exact ⟨rfl, rfl, hop⟩
    · rintro ⟨rfl, rfl, hop⟩
      exact ⟨op, hop, rfl, rfl, rfl⟩
  rw [holdAll, Table.get_insertAll]
  by_cases h : w' = w ∧ d' = d ∧ op ∈ ops
  · simp [h]
  · simp [hkey, h]

/-- Inserting the holds of a recovered draft, one input after the other. -/
theorem insertHolds_eq_ok {w d : String} {inputs : List ReviewedInput} {db db' : Db State}
    (hrec : db.isRecovered w d = true) :
    inputs.foldlM (insertHold w d) db = .ok db' ↔
      ((inputs.map ReviewedInput.outpoint).Nodup ∧
        ∀ i ∈ inputs, db.recoveryHolds[(w, i.outpoint, d)]? = none) ∧
      db' = { db with
        recoveryHolds := holdAll w d (inputs.map ReviewedInput.outpoint) db.recoveryHolds } := by
  induction inputs generalizing db with
  | nil =>
      rw [List.foldlM_nil, pure_eq_ok]
      exact ⟨fun h => ⟨⟨List.nodup_nil, fun i hi => by cases hi⟩, h.symm⟩, fun h => h.2.symm⟩
  | cons i inputs ih =>
      simp only [List.foldlM_cons, bind_eq_ok, insertHold, require_eq_ok, hrec, exists_unit,
        okOr_eq_ok, Table.insertNew_eq_some, Except.ok.injEq, true_and]
      have hstep := @ih { db with
        recoveryHolds := db.recoveryHolds.insert (w, i.outpoint, d) () } hrec
      constructor
      · rintro ⟨_, ⟨_, ⟨hnone, rfl⟩, rfl⟩, h⟩
        obtain ⟨⟨hnodup, hfresh⟩, rfl⟩ := hstep.mp h
        have hnot : i.outpoint ∉ inputs.map ReviewedInput.outpoint := by
          rintro hmem
          obtain ⟨j, hj, hij⟩ := List.mem_map.mp hmem
          have hf := hfresh j hj
          simp [hij] at hf
        refine ⟨⟨List.nodup_cons.mpr ⟨hnot, hnodup⟩, ?_⟩, rfl⟩
        intro j hj
        rcases List.mem_cons.mp hj with rfl | hj
        · exact hnone
        · have hf := hfresh j hj
          rw [Table.get_insert_ne] at hf
          · exact hf
          · intro heq
            simp only [Prod.mk.injEq] at heq
            exact hnot (List.mem_map.mpr ⟨j, hj, heq.2.1.symm⟩)
      · rintro ⟨⟨hnodup, hfresh⟩, rfl⟩
        obtain ⟨hnot, hnodup⟩ := List.nodup_cons.mp hnodup
        refine ⟨_, ⟨_, ⟨hfresh i (List.mem_cons_self ..), rfl⟩, rfl⟩, hstep.mpr ⟨⟨hnodup, ?_⟩, rfl⟩⟩
        intro j hj
        rw [Table.get_insert_ne]
        · exact hfresh j (List.mem_cons_of_mem _ hj)
        · intro heq
          simp only [Prod.mk.injEq] at heq
          exact hnot (List.mem_map.mpr ⟨j, hj, heq.2.1.symm⟩)

/-- A submitted draft is recorded as recovered and its inputs are held. -/
def holdDraft (db : Db State) (w d : String) (review : DraftReview) : Db State :=
  if db.submitted w d then
    { db with
      recoveredSubmissions := db.recoveredSubmissions.insert (w, d) ()
      recoveryHolds := holdAll w d (outpoints review) db.recoveryHolds }
  else db

theorem holdSubmitted_eq_ok {db db' : Db State} {w d : String} {review : DraftReview} :
    holdSubmitted db w d review = .ok db' ↔
      (db.submitted w d = true → (db.finalizedDrafts[(w, d)]?).isSome = true ∧
        db.recoveredSubmissions[(w, d)]? = none ∧ (outpoints review).Nodup ∧
        ∀ op ∈ outpoints review, db.recoveryHolds[(w, op, d)]? = none) ∧
      db' = holdDraft db w d review := by
  unfold holdSubmitted holdDraft
  by_cases hs : db.submitted w d = true
  · have hrec : Db.isRecovered { db with
        recoveredSubmissions := db.recoveredSubmissions.insert (w, d) () } w d = true := by
      simp [isRecovered_eq_true]
    rw [if_pos hs, if_pos hs]
    simp only [bind_eq_ok, insertRecovered, require_eq_ok, exists_unit, okOr_eq_ok,
      Table.insertNew_eq_some, Except.ok.injEq, hs, true_implies]
    constructor
    · rintro ⟨_, ⟨hfinal, _, ⟨hnone, rfl⟩, rfl⟩, h⟩
      obtain ⟨⟨hnodup, hfresh⟩, rfl⟩ := (insertHolds_eq_ok hrec).mp h
      refine ⟨⟨hfinal, hnone, hnodup, ?_⟩, rfl⟩
      intro op hop
      obtain ⟨i, hi, rfl⟩ := List.mem_map.mp hop
      exact hfresh i hi
    · rintro ⟨⟨hfinal, hnone, hnodup, hfresh⟩, rfl⟩
      refine ⟨_, ⟨hfinal, _, ⟨hnone, rfl⟩, rfl⟩, (insertHolds_eq_ok hrec).mpr ⟨⟨hnodup, ?_⟩, rfl⟩⟩
      intro i hi
      exact hfresh i.outpoint (List.mem_map_of_mem hi)
  · simp only [hs, Bool.false_eq_true, if_false, Except.ok.injEq, false_implies, true_and]
    exact eq_comm

/-! ## The loop -/

/-- The row of a suspended draft. -/
def suspendRow (row : DraftRow) : DraftRow :=
  match row.reviewJson.parsed with
  | some r => { row with reviewJson := reviewText env (r.withState .invalidated) }
  | none => row

theorem suspendRow_of_review {row : DraftRow} {r : DraftReview}
    (h : row.reviewJson.parsed = some r) :
    suspendRow env row = { row with reviewJson := reviewText env (r.withState .invalidated) } := by
  simp only [suspendRow, h]

@[simp] theorem suspendRow_walletId (row : DraftRow) :
    (suspendRow env row).walletId = row.walletId := by
  unfold suspendRow
  split <;> rfl

@[simp] theorem suspendRow_psbt (row : DraftRow) : (suspendRow env row).psbt = row.psbt := by
  unfold suspendRow
  split <;> rfl

/-- The state of the loop once the drafts of `done` are suspended. -/
structure SuspendInv (db₀ : Db State) (done : List (String × String)) (db : Db State) : Prop where
  frame : db = { clearReservations db₀ with
    drafts := db.drafts
    recoveredSubmissions := db.recoveredSubmissions
    recoveryHolds := db.recoveryHolds }
  drafts : ∀ d : String, db.drafts[d]? = (db₀.drafts[d]?).map
    (fun row => if (row.walletId, d) ∈ done then suspendRow env row else row)
  recovered : ∀ w d : String, db.recoveredSubmissions[(w, d)]? = some () ↔
    (w, d) ∈ done ∧ db₀.submitted w d = true
  holds : ∀ w op d : String, db.recoveryHolds[(w, op, d)]? = some () ↔
    (w, d) ∈ done ∧ db₀.submitted w d = true ∧
      ∃ r, reviewOf db₀ w d = some r ∧ op ∈ outpoints r

/-- The old recovery rows go first: each hold refers to a recovered draft. -/
theorem SuspendInv.init {db₀ : Db State}
    (hholds : ∀ w op d : String, db₀.recoveryHolds[(w, op, d)]? = some () →
      db₀.recoveredSubmissions[(w, d)]? = some ()) :
    SuspendInv env db₀ [] (clearReservations db₀) where
  frame := rfl
  drafts d := by simp [clearReservations]
  recovered w d := by simp [clearReservations]
  holds w op d := by
    simp only [List.not_mem_nil, false_and, iff_false]
    intro h
    obtain ⟨hold, hnot⟩ := Table.get_deleteWhere_eq_some.mp h
    have hrec := isRecovered_eq_true.mpr (hholds w op d hold)
    exact absurd hrec (by simp [hnot])

section Step

variable {env}
variable {db₀ db : Db State} {done : List (String × String)} {w d : String}

theorem SuspendInv.submitted (h : SuspendInv env db₀ done db) (w d : String) :
    db.submitted w d = db₀.submitted w d := by
  rw [h.frame]
  rfl

/-- A draft that is not done yet is verified as in the database at the start. -/
theorem SuspendInv.verifyDraft (h : SuspendInv env db₀ done db) (hnew : (w, d) ∉ done) :
    verifyDraft env db w d = Recovery.verifyDraft env db₀ w d := by
  apply verifyDraft_congr env _ (by rw [h.frame]; rfl) (by rw [h.frame]; rfl)
    (by rw [h.frame]; rfl) (by rw [h.frame]; rfl)
  simp only [Db.selectDraft, h.drafts]
  cases hrow : db₀.drafts[d]? with
  | none => rfl
  | some row =>
      by_cases hw : row.walletId = w
      · subst hw
        simp [hnew]
      · by_cases hdone : (row.walletId, d) ∈ done <;> simp [hdone, hw, Option.filter]

/-- One round of the loop fails unless the draft verifies, and a submitted one
    is finalized and spends distinct inputs. -/
theorem SuspendInv.suspendDraft_eq_ok (h : SuspendInv env db₀ done db) (hnew : (w, d) ∉ done)
    {db' : Db State} :
    suspendDraft env db (w, d) = .ok db' ↔
      ∃ r, Recovery.verifyDraft env db₀ w d = .ok r ∧
        (db₀.submitted w d = true → (db₀.finalizedDrafts[(w, d)]?).isSome = true ∧
          (outpoints r).Nodup) ∧
        db' = (holdDraft db w d r).updateReview w d (reviewText env (r.withState .invalidated)) := by
  simp only [suspendDraft, bind_eq_ok, h.verifyDraft hnew, holdSubmitted_eq_ok, h.submitted w d,
    Except.ok.injEq]
  have hfinal : db.finalizedDrafts = db₀.finalizedDrafts := by
    rw [h.frame]
    rfl
  have hrec : db.recoveredSubmissions[(w, d)]? = none := by
    rw [Option.eq_none_iff_forall_ne_some]
    rintro ⟨⟩ hsome
    exact hnew ((h.recovered w d).mp hsome).1
  have hholds : ∀ op : String, db.recoveryHolds[(w, op, d)]? = none := by
    intro op
    rw [Option.eq_none_iff_forall_ne_some]
    rintro ⟨⟩ hsome
    exact hnew ((h.holds w op d).mp hsome).1
  rw [hfinal]
  constructor
  · rintro ⟨r, hr, _, ⟨hsub, rfl⟩, rfl⟩
    exact ⟨r, hr, fun hs => ⟨(hsub hs).1, (hsub hs).2.2.1⟩, rfl⟩
  · rintro ⟨r, hr, hsub, rfl⟩
    exact ⟨r, hr, _, ⟨fun hs => ⟨(hsub hs).1, hrec, (hsub hs).2, fun op _ => hholds op⟩, rfl⟩, rfl⟩

/-- What one round does to the invariant. -/
theorem SuspendInv.step (h : SuspendInv env db₀ done db) (hnew : (w, d) ∉ done) {db' : Db State}
    (hstep : suspendDraft env db (w, d) = .ok db') : SuspendInv env db₀ (done ++ [(w, d)]) db' := by
  obtain ⟨r, hr, _, rfl⟩ := (h.suspendDraft_eq_ok hnew).mp hstep
  obtain ⟨row, p, hrow, happ⟩ := verifyDraft_approval env hr
  obtain ⟨hget, hw⟩ := selectDraft_eq_some.mp hrow
  have hreview : reviewOf db₀ w d = some r := reviewOf_eq_some.mpr ⟨row, hget, hw, happ.review⟩
  have hhold : (holdDraft db w d r).drafts = db.drafts := by
    unfold holdDraft
    split <;> rfl
  have hselect : (holdDraft db w d r).selectDraft w d = some row := by
    refine selectDraft_eq_some.mpr ⟨?_, hw⟩
    rw [hhold, h.drafts, hget]
    simp [hw, hnew]
  rw [updateReview_of_some hselect]
  refine ⟨?_, ?_, ?_, ?_⟩
  · have hframe := h.frame
    unfold holdDraft
    split
    · rw [hframe]
    · rw [hframe]
  · intro e
    simp only [hhold, Table.get_insert, h.drafts, List.mem_append, List.mem_singleton,
      Prod.mk.injEq]
    by_cases hde : d = e
    · subst hde
      simp [hget, hw, suspendRow_of_review env happ.review]
    · have hed : ¬ e = d := fun heq => hde heq.symm
      simp [hde, hed]
  · intro w' d'
    unfold holdDraft
    by_cases hs : db.submitted w d = true
    · have hs₀ := h.submitted w d ▸ hs
      simp only [if_pos hs, Table.get_insert, List.mem_append, List.mem_singleton]
      by_cases hk : (w, d) = (w', d')
      · obtain ⟨rfl, rfl⟩ := Prod.mk.injEq .. ▸ hk
        simp [hs₀]
      · have hk' : ¬ (w', d') = (w, d) := fun heq => hk heq.symm
        simp only [if_neg hk, h.recovered, hk', or_false]
    · have hs₀ := h.submitted w d ▸ hs
      simp only [if_neg hs, h.recovered, List.mem_append, List.mem_singleton]
      constructor
      · rintro ⟨hd, hsub⟩
        exact ⟨.inl hd, hsub⟩
      · rintro ⟨hd | hd, hsub⟩
        · exact ⟨hd, hsub⟩
        · obtain ⟨rfl, rfl⟩ := Prod.mk.injEq .. ▸ hd
          exact absurd hsub hs₀
  · intro w' op d'
    unfold holdDraft
    by_cases hs : db.submitted w d = true
    · have hs₀ := h.submitted w d ▸ hs
      simp only [if_pos hs, holdAll_get, h.holds, List.mem_append, List.mem_singleton]
      constructor
      · rintro (⟨rfl, rfl, hop⟩ | ⟨hd, hrest⟩)
        · exact ⟨.inr rfl, hs₀, r, hreview, hop⟩
        · exact ⟨.inl hd, hrest⟩
      · rintro ⟨hd | hd, hsub, r', hr', hop⟩
        · exact .inr ⟨hd, hsub, r', hr', hop⟩
        · obtain ⟨rfl, rfl⟩ := Prod.mk.injEq .. ▸ hd
          rw [hreview, Option.some.injEq] at hr'
          exact .inl ⟨rfl, rfl, hr' ▸ hop⟩
    · have hs₀ := h.submitted w d ▸ hs
      simp only [if_neg hs, h.holds, List.mem_append, List.mem_singleton]
      constructor
      · rintro ⟨hd, hrest⟩
        exact ⟨.inl hd, hrest⟩
      · rintro ⟨hd | hd, hsub, hrest⟩
        · exact ⟨hd, hsub, hrest⟩
        · obtain ⟨rfl, rfl⟩ := Prod.mk.injEq .. ▸ hd
          exact absurd hsub hs₀

end Step

/-! ## The whole of suspend -/

theorem mem_draftKeys {db : Db State} {w d : String} :
    (w, d) ∈ draftKeys db ↔ ∃ row, db.drafts[d]? = some row ∧ row.walletId = w := by
  simp only [draftKeys, List.mem_insertionSort, List.mem_map, Prod.exists, Table.mem_toList,
    Prod.mk.injEq]
  constructor
  · rintro ⟨_, row, hrow, rfl, rfl⟩
    exact ⟨row, hrow, rfl⟩
  · rintro ⟨row, hrow, rfl⟩
    exact ⟨d, row, hrow, rfl, rfl⟩

theorem draftKeys_nodup (db : Db State) : (draftKeys db).Nodup := by
  have hperm := List.perm_insertionSort (fun a b : String × String => (compare a b).isLE)
    (db.drafts.toList.map (fun row => (row.2.walletId, row.1)))
  refine hperm.nodup_iff.mpr ?_
  have hkeys := Table.selectRows_nodup_keys db.drafts (fun _ _ => true)
  simp only [Table.selectRows, List.filter_true] at hkeys
  refine List.Nodup.of_map Prod.snd ?_
  simpa only [List.map_map, Function.comp_def] using hkeys

/-- What `suspend` checks of one draft. -/
def Verified (db : Db State) (w d : String) : Prop :=
  ∃ r, verifyDraft env db w d = .ok r ∧
    (db.submitted w d = true → (db.finalizedDrafts[(w, d)]?).isSome = true ∧ (outpoints r).Nodup)

/-- What `suspend` checks before the loop. -/
structure Suspendable (db : Db State) : Prop where
  labels : ∀ (k : String × LabelKind × String) (label : String), db.labels[k]? = some label →
    Labels.ValidLabel label
  freezes : ∀ (w op : String), db.freezes[(w, op)]? = some () → (env.parseOutPoint op).isSome = true
  sizes : oversized db = false
  drafts : ∀ (d : String) (row : DraftRow), db.drafts[d]? = some row →
    Verified env db row.walletId d

/-- The database `suspend` leaves. -/
structure Suspended (db db' : Db State) : Prop where
  frame : db' = { db with
    wallets := db.wallets.updateAll (fun _ row => { row with syncedAt := none })
    drafts := db'.drafts
    reservations := ∅
    recoveredSubmissions := db'.recoveredSubmissions
    recoveryHolds := db'.recoveryHolds }
  drafts : ∀ d : String, db'.drafts[d]? = (db.drafts[d]?).map (suspendRow env)
  recovered : ∀ w d : String, db'.recoveredSubmissions[(w, d)]? = some () ↔
    (db.selectDraft w d).isSome = true ∧ db.submitted w d = true
  holds : ∀ w op d : String, db'.recoveryHolds[(w, op, d)]? = some () ↔
    db.submitted w d = true ∧ ∃ r, reviewOf db w d = some r ∧ op ∈ outpoints r

section Whole

variable {db db' : Db State}

/-- The checks before the loop, and the loop. -/
theorem suspend_eq_ok :
    suspend env db = .ok db' ↔
      (∀ (k : String × LabelKind × String) (label : String), db.labels[k]? = some label →
        Labels.ValidLabel label) ∧
      (∀ (w op : String), db.freezes[(w, op)]? = some () →
        (env.parseOutPoint op).isSome = true) ∧
      oversized db = false ∧
      ∃ db₁, (draftKeys db).foldlM (suspendDraft env) (clearReservations db) = .ok db₁ ∧
        { db₁ with
          wallets := db₁.wallets.updateAll (fun _ row => { row with syncedAt := none }) } = db' := by
  simp only [suspend, bind_eq_ok, exists_unit, require_eq_ok, Except.ok.injEq, checkAll_eq_ok,
    Labels.validateLabel_eq_ok, Prod.forall, Table.mem_toList, okOr_eq_ok, pure_eq_ok,
    Option.isSome_iff_exists, and_true]
  refine and_congr_right fun _ => and_congr_left fun _ => ?_
  exact ⟨fun h w op hop => h w op () hop, fun h w op _ hop => h w op hop⟩

/-- One key of the loop's list has a draft, and is not among those before it. -/
theorem draftKeys_split {done rest : List (String × String)} {key : String × String}
    (h : draftKeys db = done ++ key :: rest) :
    key ∉ done ∧ ∃ row, db.drafts[key.2]? = some row ∧ row.walletId = key.1 := by
  have hnodup := draftKeys_nodup db
  rw [h, List.nodup_append] at hnodup
  refine ⟨fun hmem => hnodup.2.2 key hmem key (List.mem_cons_self ..) rfl, ?_⟩
  exact mem_draftKeys.mp (h ▸ by simp)

/-- `suspend` succeeds exactly when every check does. -/
theorem suspend_ok_iff (hholds : ∀ w op d : String, db.recoveryHolds[(w, op, d)]? = some () →
      db.recoveredSubmissions[(w, d)]? = some ()) :
    (∃ db', suspend env db = .ok db') ↔ Suspendable env db := by
  have hinit := SuspendInv.init env hholds
  constructor
  · rintro ⟨db', h⟩
    obtain ⟨hl, hf, hs, db₁, hrun, _⟩ := (suspend_eq_ok env).mp h
    refine ⟨hl, hf, hs, ?_⟩
    have hall := foldlM_ok_scanned (fun done c => SuspendInv env db done c ∧
        ∀ key ∈ done, Verified env db key.1 key.2) ?_ ⟨hinit, by simp⟩ hrun
    · intro d row hrow
      exact hall.2 (row.walletId, d) (mem_draftKeys.mpr ⟨row, hrow, rfl⟩)
    · rintro done ⟨w, d⟩ rest c c' hl ⟨hinv, hdone⟩ hstep
      obtain ⟨hnew, _⟩ := draftKeys_split hl
      obtain ⟨r, hr, hsub, _⟩ := (hinv.suspendDraft_eq_ok hnew).mp hstep
      refine ⟨hinv.step hnew hstep, ?_⟩
      intro key hkey
      rcases List.mem_append.mp hkey with hkey | hkey
      · exact hdone key hkey
      · rw [List.mem_singleton.mp hkey]
        exact ⟨r, hr, hsub⟩
  · rintro ⟨hl, hf, hs, hverified⟩
    suffices hrun : ∃ db₁, (draftKeys db).foldlM (suspendDraft env) (clearReservations db) =
        .ok db₁ by
      obtain ⟨db₁, hrun⟩ := hrun
      exact ⟨_, (suspend_eq_ok env).mpr ⟨hl, hf, hs, db₁, hrun, rfl⟩⟩
    refine foldlM_ok_total (fun done c => SuspendInv env db done c) ?_ hinit
    rintro done ⟨w, d⟩ rest c hl hinv
    obtain ⟨hnew, row, hrow, hw⟩ := draftKeys_split hl
    simp only at hrow hw
    obtain ⟨r, hr, hsub⟩ := hverified d row hrow
    have hstep := (hinv.suspendDraft_eq_ok hnew).mpr ⟨r, hw ▸ hr, hw ▸ hsub, rfl⟩
    exact ⟨_, hstep, hinv.step hnew hstep⟩

/-- What a successful `suspend` has done. -/
theorem suspended_of_ok (hholds : ∀ w op d : String, db.recoveryHolds[(w, op, d)]? = some () →
      db.recoveredSubmissions[(w, d)]? = some ()) (h : suspend env db = .ok db') :
    Suspended env db db' := by
  obtain ⟨_, _, _, db₁, hrun, rfl⟩ := (suspend_eq_ok env).mp h
  have hinv := foldlM_ok_scanned (fun done c => SuspendInv env db done c)
    (fun done key rest c c' hl hinv hstep => hinv.step (draftKeys_split hl).1 hstep)
    (SuspendInv.init env hholds) hrun
  refine ⟨?_, ?_, ?_, ?_⟩
  · have hframe := hinv.frame
    simp only
    rw [hframe]
    rfl
  · intro d
    simp only [hinv.drafts]
    cases hrow : db.drafts[d]? with
    | none => rfl
    | some row => simp [mem_draftKeys.mpr ⟨row, hrow, rfl⟩]
  · intro w d
    simp only [hinv.recovered, mem_draftKeys, selectDraft_isSome]
  · intro w op d
    simp only [hinv.holds, mem_draftKeys]
    constructor
    · rintro ⟨_, hrest⟩
      exact hrest
    · rintro ⟨hsub, r, hr, hop⟩
      obtain ⟨row, hrow, hw, _⟩ := reviewOf_eq_some.mp hr
      exact ⟨⟨row, hrow, hw⟩, hsub, r, hr, hop⟩

theorem Suspended.reservations {env : Env State Wallet Scan} (h : Suspended env db db') :
    db'.reservations = ∅ := by
  rw [h.frame]

theorem Suspended.draftSignatures {env : Env State Wallet Scan} (h : Suspended env db db') :
    db'.draftSignatures = db.draftSignatures := by
  rw [h.frame]

theorem Suspended.finalizedDrafts {env : Env State Wallet Scan} (h : Suspended env db db') :
    db'.finalizedDrafts = db.finalizedDrafts := by
  rw [h.frame]

theorem Suspended.broadcastAttempts {env : Env State Wallet Scan} (h : Suspended env db db') :
    db'.broadcastAttempts = db.broadcastAttempts := by
  rw [h.frame]

/-- The drafts of a suspended database are those of the original, in the same wallets. -/
theorem Suspended.selectDraft_isSome {env : Env State Wallet Scan} (h : Suspended env db db')
    (w d : String) : (db'.selectDraft w d).isSome = (db.selectDraft w d).isSome := by
  simp only [Db.selectDraft, h.drafts]
  cases db.drafts[d]? with
  | none => rfl
  | some row => by_cases hw : row.walletId = w <;> simp [Option.filter, hw]

/-- Every draft of a suspended database is an approval, in the invalidated state. -/
theorem Suspended.approval {env : Env State Wallet Scan} (h : Suspended env db db')
    (hok : Suspendable env db) {d : String} {row : DraftRow} (hrow : db'.drafts[d]? = some row) :
    ∃ row₀ p r, db.drafts[d]? = some row₀ ∧ Approval env d row₀ p r ∧
      row = { row₀ with reviewJson := reviewText env (r.withState .invalidated) } ∧
      Approval env d row p (r.withState .invalidated) := by
  rw [h.drafts, Option.map_eq_some_iff] at hrow
  obtain ⟨row₀, hrow₀, rfl⟩ := hrow
  obtain ⟨r, hr, _⟩ := hok.drafts d row₀ hrow₀
  obtain ⟨row₁, p, hsel, happ⟩ := verifyDraft_approval env hr
  obtain ⟨hget, _⟩ := selectDraft_eq_some.mp hsel
  rw [hrow₀, Option.some.injEq] at hget
  subst hget
  rw [suspendRow_of_review env happ.review]
  exact ⟨row₀, p, r, hrow₀, happ, rfl, happ.withState rfl⟩

end Whole

end Recovery
end Tundra
