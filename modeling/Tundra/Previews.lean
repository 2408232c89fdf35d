/-
  Tundra.Previews

  The preview of a label import predicts the import.  Records are matched under
  distinct texts, so no record reads a row that an earlier one has written, and
  reading the original store gives the same counts.
-/

import Tundra.System
import Tundra.Labels

namespace Tundra
namespace Previews

open Checked Relational Engine

variable {State Wallet Scan : Type} (env : Env State Wallet Scan)

/-! ## The rows of a record -/

/-- The two stores have the same rows under every text that is not in `seen`. -/
structure SameRows (id : String) (seen : List (LabelKind × String)) (db db' : Db State) : Prop where
  label : ∀ kind reference, (kind, reference) ∉ seen →
    getLabel db' id kind reference = getLabel db id kind reference
  frozen : ∀ reference, (LabelKind.output, reference) ∉ seen →
    db'.isFrozen id reference = db.isFrozen id reference

section Rows

variable {env}
variable {id : String} {seen : List (LabelKind × String)} {db db' : Db State}
  {r : Labels.LabelRecord}

theorem SameRows.refl : SameRows id seen db db := ⟨fun _ _ _ => rfl, fun _ _ => rfl⟩

/-- Without `apply` a record writes nothing. -/
theorem applyRecord_preview (db : Db State) (id : String) (r : Labels.LabelRecord) :
    (applyRecord false db id r).2 = db := by
  unfold applyRecord
  cases r.label <;> cases r.spendable <;> rfl

/-- A label is no freeze. -/
theorem putLabel_isFrozen (kind : LabelKind) (reference label o : String) :
    (db.putLabel id kind reference label).isFrozen id o = db.isFrozen id o := rfl

theorem setFreeze_getLabel (reference o : String) (kind : LabelKind) (frozen : Bool) :
    getLabel (db.setFreeze id reference frozen) id kind o = getLabel db id kind o := rfl

theorem putLabel_getLabel {kind kind' : LabelKind} {reference reference' : String} (label : String)
    (h : (kind', reference') ≠ (kind, reference)) :
    getLabel (db.putLabel id kind reference label) id kind' reference' =
      getLabel db id kind' reference' := by
  have hkey : (id, kind, reference) ≠ (id, kind', reference') := by
    intro heq
    cases heq
    exact h rfl
  rw [getLabel, getLabel, Db.putLabel, Table.get_insert, if_neg hkey]

theorem setFreeze_isFrozen {reference o : String} (frozen : Bool) (h : o ≠ reference) :
    (db.setFreeze id reference frozen).isFrozen id o = db.isFrozen id o := by
  have hkey : (id, reference) ≠ (id, o) := by
    intro heq
    cases heq
    exact h rfl
  unfold Db.setFreeze Db.isFrozen
  cases frozen
  · simp only [Bool.false_eq_true, if_false, Table.get_erase, if_neg hkey]
  · have hnot : ¬ ((id, reference) = (id, o) ∧ db.freezes[(id, reference)]? = none) :=
      fun hboth => hkey hboth.1
    simp only [if_true, Table.get_insertIfNew, if_neg hnot]

/-- Whether a record makes a change depends on the rows of its own text. -/
theorem applyRecord_differs (apply : Bool) (h : SameRows id seen db db')
    (hnew : (r.kind, r.reference) ∉ seen) (hok : Labels.RecordOk r) :
    (applyRecord apply db' id r).1 = (applyRecord false db id r).1 := by
  have hlabel := h.label r.kind r.reference hnew
  have hfrozen : r.spendable ≠ none → db'.isFrozen id r.reference = db.isFrozen id r.reference := by
    intro hspendable
    rw [hok.spendable hspendable] at hnew
    exact h.frozen r.reference hnew
  obtain ⟨kind, reference, label, spendable, origin⟩ := r
  cases spendable with
  | none =>
      cases label with
      | none => rfl
      | some label =>
          show (decide (getLabel db' id kind reference ≠ label) || _) = _
          rw [hlabel]
          rfl
  | some spendable =>
      have hfrozen' : db'.isFrozen id reference = db.isFrozen id reference := hfrozen (by simp)
      cases label with
      | none =>
          show (false || decide (db'.isFrozen id reference = spendable)) = _
          rw [hfrozen']
          rfl
      | some label =>
          -- the label is written before the freeze is read, and does not change it
          have hput : (if apply then db'.putLabel id kind reference label else db').isFrozen id
              reference = db.isFrozen id reference := by
            rw [← hfrozen']
            cases apply <;> rfl
          show (decide (getLabel db' id kind reference ≠ label) ||
            decide ((if apply then db'.putLabel id kind reference label else db').isFrozen id
              reference = spendable)) = _
          rw [hlabel, hput]
          rfl

/-- Applying a record leaves the rows of every other text. -/
theorem SameRows.apply (h : SameRows id seen db db') (hok : Labels.RecordOk r) :
    SameRows id ((r.kind, r.reference) :: seen) db (applyRecord true db' id r).2 := by
  have hspendable := hok.spendable
  obtain ⟨kind, reference, label, spendable, origin⟩ := r
  refine ⟨fun kind' reference' hnot => ?_, fun o hnot => ?_⟩
  · obtain ⟨hne, hseen⟩ := not_or.mp (mt List.mem_cons.mpr hnot)
    rw [← h.label kind' reference' hseen]
    cases label with
    | none => cases spendable <;> rfl
    | some label =>
        have hput : getLabel (db'.putLabel id kind reference label) id kind' reference' =
          getLabel db' id kind' reference' := putLabel_getLabel label hne
        rw [← hput]
        cases spendable <;> rfl
  · obtain ⟨hne, hseen⟩ := not_or.mp (mt List.mem_cons.mpr hnot)
    rw [← h.frozen o hseen]
    cases spendable with
    | none => cases label <;> rfl
    | some spendable =>
        have hkind : kind = .output := hspendable (by simp)
        have hother : o ≠ reference := by
          rintro rfl
          exact hne (by rw [hkind])
        cases label with
        | none => exact setFreeze_isFrozen (!spendable) hother
        | some label =>
            have hput : (db'.putLabel id kind reference label).isFrozen id o = db'.isFrozen id o :=
              putLabel_isFrozen kind reference label o
            rw [← hput]
            exact setFreeze_isFrozen (!spendable) hother

end Rows

/-! ## The loop over the records -/

/-- Reading the original store gives the same counts, or the same error. -/
theorem importRecords_preview {id : String} (origin : String) (w : Wallet)
    {records : List Labels.LabelRecord} {seen : List (LabelKind × String)}
    (preview : Labels.LabelPreview) {db db' : Db State} (h : SameRows id seen db db') (hok : ∀ r ∈ records, Labels.RecordOk r) :
    (importRecords env true id w origin records seen preview db').map Prod.fst =
      (importRecords env false id w origin records seen preview db).map Prod.fst := by
  induction records generalizing seen preview db' with
  | nil => rfl
  | cons r rest ih =>
      obtain ⟨hfirst, hrest⟩ := List.forall_mem_cons.mp hok
      unfold importRecords
      split_ifs with hmatch
      · by_cases hnew : (r.kind, r.reference) ∉ seen
        · rw [require_of hnew, ok_bind, ok_bind]
          dsimp only
          rw [applyRecord_differs true h hnew hfirst, applyRecord_preview]
          exact ih _ (h.apply hfirst) hrest
        · rw [require_of_not hnew]
          rfl
      · exact ih _ h hrest

/-- The store a result comes with does not change its counts. -/
theorem map_fst_bind {α β : Type} (f : α × β → β) (x : Result (α × β)) :
    (x >>= fun out => .ok (out.1, f out) : Result (α × β)).map Prod.fst = x.map Prod.fst := by
  cases x <;> rfl

/-- The preview of an import has the counts of the import, or its error. -/
theorem importLabels_preview (db : Db State) (id payload : String) :
    (importLabels env db id payload false).map Prod.fst =
      (importLabels env db id payload true).map Prod.fst := by
  unfold importLabels
  cases hparse : Labels.parseLabels env payload with
  | error e => rfl
  | ok parsed =>
      obtain ⟨records, skipped⟩ := parsed
      have hok := Labels.parseLabels_recordOk env hparse
      cases hload : load env db id with
      | error e => rfl
      | ok l =>
          rw [ok_bind, ok_bind]
          dsimp only
          rw [ok_bind, ok_bind]
          cases horigin : Descriptors.labelOrigin env (env.publicDescriptor l.wallet .external) with
          | error e => rfl
          | ok origin =>
              rw [ok_bind, ok_bind]
              have hsame : (importRecords env true id l.wallet origin records []
                  { matched := 0, skipped, changed := 0 } db).map Prod.fst =
                  (importRecords env false id l.wallet origin records []
                    { matched := 0, skipped, changed := 0 } db).map Prod.fst :=
                importRecords_preview env origin l.wallet _ SameRows.refl hok
              exact (map_fst_bind (fun _ => db) _).trans
                (hsame.symm.trans (map_fst_bind Prod.snd _).symm)

/-! ## The store -/

theorem importLabels_false {db : Db State} {id payload : String} {out : Labels.LabelPreview × Db State}
    (h : importLabels env db id payload false = .ok out) : out.2 = db := by
  simp only [importLabels, bind_eq_ok, Prod.exists, Except.ok.injEq] at h
  obtain ⟨_, _, _, _, _, _, _, _, _, _, rfl⟩ := h
  rfl

/-- The preview of an import predicts it: it has the same counts or the same
    error, and neither a preview nor a failed import changes the store. -/
theorem preview_predicts_apply (world : System.World State) (id payload : String) :
    (importLabels env world.db id payload false).map Prod.fst =
      (importLabels env world.db id payload true).map Prod.fst ∧
    System.step env world (.importLabels id payload false : System.Op Scan) = world ∧
    ((∃ e, importLabels env world.db id payload true = .error e) →
      System.step env world (.importLabels id payload true : System.Op Scan) = world) := by
  refine ⟨importLabels_preview env world.db id payload, ?_, ?_⟩
  · unfold System.step System.transact
    dsimp only
    cases h : importLabels env world.db id payload false with
    | error e => rfl
    | ok out =>
        show { world with db := out.2 } = world
        rw [importLabels_false env h]
  · rintro ⟨e, h⟩
    unfold System.step System.transact
    dsimp only
    rw [h]
    rfl

end Previews
end Tundra
