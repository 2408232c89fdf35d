/-
  Tundra.Changes

  The changes an import counts and the rows it changes.  A label that is absent
  is read as an empty one, so an empty label where there was none is written
  and not counted; every other row that is written anew is counted.
-/

import Mathlib.Data.Set.Card
import Tundra.Previews
import Tundra.Spellings
import Tundra.Exports
import Tundra.Broadcast

namespace Tundra
namespace Changes

open Checked Relational Engine Broadcast

variable {State Wallet Scan : Type} (env : Env State Wallet Scan)

/-! ## Rows -/

/-- The label row or the freeze row of a reference differs. -/
def RowDiffers (db db' : Db State) (id : String) (k : LabelKind × String) : Prop :=
  db'.labels[(id, k.1, k.2)]? ≠ db.labels[(id, k.1, k.2)]? ∨
    (k.1 = .output ∧ db'.freezes[(id, k.2)]? ≠ db.freezes[(id, k.2)]?)

/-- The records of an import text that belong to the wallet. -/
def matchedRecords (db : Db State) (id payload : String) : Result (List Labels.LabelRecord) := do
  let (records, _) ← Labels.parseLabels env payload
  let l ← load env db id
  let origin ← Descriptors.labelOrigin env (env.publicDescriptor l.wallet .external)
  .ok (records.filter (recordMatches env l.wallet origin))

/-- An empty label for a reference without one, in a record that leaves the
    freeze as it is. -/
def Hidden (db : Db State) (id : String) (r : Labels.LabelRecord) : Prop :=
  r.label = some "" ∧ db.labels[(id, r.kind, r.reference)]? = none ∧
    ∀ s, r.spendable = some s → db.isFrozen id r.reference = !s

/-- Some matching record writes a row that is not counted. -/
def Hides (db : Db State) (id payload : String) : Prop :=
  ∃ rs, matchedRecords env db id payload = .ok rs ∧ ∃ r ∈ rs, Hidden db id r

/-- A record writes a row that is not there. -/
def Writes (db : Db State) (id : String) (r : Labels.LabelRecord) : Prop :=
  (∃ label, r.label = some label ∧ db.labels[(id, r.kind, r.reference)]? ≠ some label) ∨
    ∃ s, r.spendable = some s ∧ db.isFrozen id r.reference = s

/-- A record is counted as a change. -/
def counted (db : Db State) (id : String) (r : Labels.LabelRecord) : Bool :=
  (applyRecord false db id r).1

section Records

variable {db db' : Db State} {id : String} {r : Labels.LabelRecord}

theorem counted_iff : counted db id r = true ↔
    (∃ label, r.label = some label ∧ getLabel db id r.kind r.reference ≠ label) ∨
      ∃ s, r.spendable = some s ∧ db.isFrozen id r.reference = s := by
  obtain ⟨kind, reference, label, spendable, origin⟩ := r
  cases label <;> cases spendable <;> simp [counted, applyRecord, @eq_comm _ (db.isFrozen id reference)]

/-- What is written is counted, or an empty label where there was none. -/
theorem writes_iff : Writes db id r ↔ counted db id r = true ∨ Hidden db id r := by
  rw [counted_iff]
  constructor
  · rintro (⟨label, hlabel, hrow⟩ | hfreeze)
    · by_cases hread : getLabel db id r.kind r.reference = label
      · by_cases hfrozen : ∃ s, r.spendable = some s ∧ db.isFrozen id r.reference = s
        · exact .inl (.inr hfrozen)
        · -- the label that is read is not a row, so there is none and it is empty
          have hnone : db.labels[(id, r.kind, r.reference)]? = none := by
            cases hget : db.labels[(id, r.kind, r.reference)]? with
            | none => rfl
            | some l =>
                rw [getLabel, hget] at hread
                exact absurd (hget.trans (congrArg some hread)) hrow
          rw [getLabel, hnone] at hread
          refine .inr ⟨hlabel.trans (congrArg some hread.symm), hnone, fun s hs => ?_⟩
          have hne : db.isFrozen id r.reference ≠ s := fun h => hfrozen ⟨s, hs, h⟩
          cases s <;> simpa using hne
      · exact .inl (.inl ⟨label, hlabel, hread⟩)
    · exact .inl (.inr hfreeze)
  · rintro ((⟨label, hlabel, hread⟩ | hfreeze) | ⟨hlabel, hnone, -⟩)
    · refine .inl ⟨label, hlabel, fun hrow => hread ?_⟩
      rw [getLabel, hrow]
      rfl
    · exact .inr hfreeze
    · exact .inl ⟨"", hlabel, by simp [hnone]⟩

/-- What is hidden is not counted. -/
theorem Hidden.not_counted (h : Hidden db id r) : ¬ counted db id r = true := by
  rw [counted_iff]
  obtain ⟨hlabel, hnone, hfreeze⟩ := h
  rintro (⟨label, hsome, hread⟩ | ⟨s, hs, hfrozen⟩)
  · rw [hlabel] at hsome
    cases hsome
    exact hread (by rw [getLabel, hnone]; rfl)
  · rw [hfreeze s hs] at hfrozen
    cases s <;> cases hfrozen

/-- A record that writes no new row leaves the store. -/
theorem write_of_not_writes (h : ¬ Writes db id r) :
    Spellings.write id db (Spellings.ofRecord r) = db := by
  obtain ⟨hlabel, hfreeze⟩ := not_or.mp h
  obtain ⟨kind, reference, label, spendable, origin⟩ := r
  have hput : ∀ l, label = some l → db.putLabel id kind reference l = db := by
    intro l hl
    have hrow : db.labels[(id, kind, reference)]? = some l := by
      by_contra hne
      exact hlabel ⟨l, hl, hne⟩
    rw [Db.putLabel, Table.insert_get_self hrow]
  have hset : ∀ s, spendable = some s → db.setFreeze id reference (!s) = db := by
    intro s hs
    have hne : db.isFrozen id reference ≠ s := fun heq => hfreeze ⟨s, hs, heq⟩
    unfold Db.setFreeze
    suffices hsame : (if (!s) = true then db.freezes.insertIfNew (id, reference) ()
        else db.freezes.erase (id, reference)) = db.freezes by rw [hsame]
    apply Table.ext
    intro k
    rw [Db.isFrozen] at hne
    cases s with
    | true =>
        have hnone : db.freezes[(id, reference)]? = none := by simpa using hne
        simp only [Bool.not_true, Bool.false_eq_true, if_false, Table.get_erase]
        split_ifs with hk
        · rw [← hk, hnone]
        · rfl
    | false =>
        have hsome : db.freezes[(id, reference)]? ≠ none := by simpa using hne
        simp only [Bool.not_false, if_true, Table.get_insertIfNew]
        rw [if_neg]
        rintro ⟨rfl, hk⟩
        exact hsome hk
  cases label with
  | none =>
      cases spendable with
      | none => rfl
      | some s => exact hset s rfl
  | some l =>
      have hl := hput l rfl
      cases spendable with
      | none => exact hl
      | some s =>
          show (db.putLabel id kind reference l).setFreeze id reference (!s) = db
          rw [hl, hset s rfl]

end Records

/-! ## A run over the records -/

section Run

variable {env} {db db' : Db State} {id payload : String} {rs : List Labels.LabelRecord}

/-- The count of a preview: the records that match and are counted. -/
theorem importRecords_changed {w : Wallet} {origin : String} {records : List Labels.LabelRecord}
    {seen : List (LabelKind × String)} {preview : Labels.LabelPreview}
    {out : Labels.LabelPreview × Db State}
    (h : importRecords env false id w origin records seen preview db = .ok out) :
    out.1.changed = preview.changed +
      (records.filter (recordMatches env w origin)).countP (counted db id) := by
  induction records generalizing seen preview with
  | nil =>
      cases h
      rfl
  | cons r rest ih =>
      unfold importRecords at h
      split_ifs at h with hmatch
      · simp only [bind_eq_ok, require_eq_ok, exists_unit] at h
        obtain ⟨-, h⟩ := h
        rw [Previews.applyRecord_preview] at h
        rw [ih h, List.filter_cons_of_pos hmatch, List.countP_cons]
        show preview.changed + (if counted db id r = true then 1 else 0) + _ = _
        omega
      · rw [ih h, List.filter_cons_of_neg hmatch]

/-- An accepted import: its records, its count and its writes. -/
theorem importLabels_eq_ok {preview : Labels.LabelPreview}
    (h : importLabels env db id payload true = .ok (preview, db')) :
    ∃ l origin rs, load env db id = .ok l ∧
      Descriptors.labelOrigin env (env.publicDescriptor l.wallet .external) = .ok origin ∧
      matchedRecords env db id payload = .ok rs ∧ (∀ r ∈ rs, Labels.RecordOk r) ∧
      (rs.map (fun r => (r.kind, r.reference))).Nodup ∧
      preview.changed = rs.countP (counted db id) ∧
      db' = (rs.map Spellings.ofRecord).foldl (Spellings.write id) db := by
  have hpreview := Previews.importLabels_preview env db id payload
  rw [h] at hpreview
  simp only [importLabels, bind_eq_ok, Prod.exists, Except.ok.injEq, if_true] at h
  obtain ⟨records, skipped, hparse, l, hload, origin, horigin, _, _, hrecords, heq⟩ := h
  cases heq
  have hok := Labels.parseLabels_recordOk env hparse
  obtain ⟨hout, hnodup, -⟩ := Spellings.importRecords_write hrecords
  have hchanged : preview.changed =
      (records.filter (recordMatches env l.wallet origin)).countP (counted db id) := by
    have hrefl : Previews.SameRows id [] db db := Previews.SameRows.refl
    have hsame := Previews.importRecords_preview env origin l.wallet
      { matched := 0, skipped, changed := 0 } hrefl hok
    rw [hrecords] at hsame
    cases hfalse : importRecords env false id l.wallet origin records []
        { matched := 0, skipped, changed := 0 } db with
    | error e => rw [hfalse] at hsame; cases hsame
    | ok out =>
        rw [hfalse] at hsame
        have hfst : preview = out.1 := Except.ok.inj hsame
        rw [hfst, importRecords_changed hfalse]
        exact Nat.zero_add _
  refine ⟨l, origin, _, hload, horigin, ?_, fun r hr => hok r (List.mem_filter.mp hr).1, ?_,
    hchanged, hout⟩
  · simp only [matchedRecords, hparse, hload, horigin, ok_bind]
  · rw [List.map_map] at hnodup
    exact hnodup

/-- A reference has at most one record. -/
theorem record_unique (hnodup : (rs.map (fun r => (r.kind, r.reference))).Nodup)
    {r r' : Labels.LabelRecord} (hr : r ∈ rs) (hr' : r' ∈ rs)
    (h : (r'.kind, r'.reference) = (r.kind, r.reference)) : r' = r :=
  List.inj_on_of_nodup_map hnodup hr' hr h

/-- The rows after the writes: those of the record of their text. -/
theorem rows_of_record (hnodup : (rs.map (fun r => (r.kind, r.reference))).Nodup)
    (hok : ∀ r ∈ rs, Labels.RecordOk r)
    (hdb : db' = (rs.map Spellings.ofRecord).foldl (Spellings.write id) db)
    {r : Labels.LabelRecord} (hr : r ∈ rs) :
    db'.labels[(id, r.kind, r.reference)]? =
      (r.label.or (db.labels[(id, r.kind, r.reference)]?)) ∧
    (r.kind = .output → db'.freezes[(id, r.reference)]? =
      r.spendable.elim (db.freezes[(id, r.reference)]?) fun s => if s then none else some ()) := by
  have hkeys : ((rs.map Spellings.ofRecord).map (fun a => (a.kind, a.written))).Nodup := by
    rw [List.map_map]
    exact hnodup
  subst hdb
  constructor
  · cases hlabel : r.label with
    | none =>
        refine Spellings.foldl_write_labels_ne ?_
        rintro a ha hsome heq
        obtain ⟨r', hr', rfl⟩ := List.mem_map.mp ha
        have hsame : r' = r := record_unique hnodup hr hr' heq
        exact hsome (by rw [hsame]; exact hlabel)
    | some l =>
        exact Spellings.foldl_write_labels hkeys (List.mem_map_of_mem hr) hlabel
  · intro hkind
    cases hspendable : r.spendable with
    | none =>
        refine Spellings.foldl_write_freezes_ne ?_
        rintro a ha hsome heq
        obtain ⟨r', hr', rfl⟩ := List.mem_map.mp ha
        have hkind' : r'.kind = .output :=
          (hok r' hr').spendable fun hnone => hsome (by rw [Spellings.ofRecord, hnone]; rfl)
        have hkey : (r'.kind, r'.reference) = (r.kind, r.reference) := by
          rw [hkind, hkind']
          exact congrArg _ heq
        have hsame : r' = r := record_unique hnodup hr hr' hkey
        exact hsome (by rw [hsame, Spellings.ofRecord, hspendable]; rfl)
    | some s =>
        have hfrozen : (Spellings.ofRecord r).frozen = some (!s) := by
          rw [Spellings.ofRecord, hspendable]
          rfl
        have houtputs : ∀ a ∈ rs.map Spellings.ofRecord, a.frozen ≠ none → a.kind = .output := by
          rintro a ha hsome
          obtain ⟨r', hr', rfl⟩ := List.mem_map.mp ha
          exact (hok r' hr').spendable fun hnone => hsome (by rw [Spellings.ofRecord, hnone]; rfl)
        have hrow : ((rs.map Spellings.ofRecord).foldl (Spellings.write id) db).freezes[(id,
            (Spellings.ofRecord r).written)]? = if !s then some () else none :=
          Spellings.foldl_write_freezes hkeys houtputs (List.mem_map_of_mem hr) hfrozen
        cases s
        · exact hrow
        · exact hrow

/-- The rows that differ are those of the records that write. -/
theorem rowDiffers_iff (hnodup : (rs.map (fun r => (r.kind, r.reference))).Nodup)
    (hok : ∀ r ∈ rs, Labels.RecordOk r)
    (hdb : db' = (rs.map Spellings.ofRecord).foldl (Spellings.write id) db)
    {k : LabelKind × String} :
    RowDiffers db db' id k ↔ ∃ r ∈ rs, (r.kind, r.reference) = k ∧ Writes db id r := by
  by_cases hrecord : ∃ r ∈ rs, (r.kind, r.reference) = k
  · obtain ⟨r, hr, rfl⟩ := hrecord
    obtain ⟨hlabels, hfreezes⟩ := rows_of_record hnodup hok hdb hr
    have hspendable := (hok r hr).spendable
    have hiff : RowDiffers db db' id (r.kind, r.reference) ↔ Writes db id r := by
      unfold RowDiffers Writes Db.isFrozen
      refine or_congr ?_ ?_
      · rw [hlabels]
        cases r.label with
        | none => simp
        | some l => simp [eq_comm]
      · cases hs : r.spendable with
        | none =>
            rw [hs] at hfreezes
            simp only [reduceCtorEq, false_and, exists_false, iff_false, not_and, not_not]
            exact hfreezes
        | some s =>
            have hkind : r.kind = .output := hspendable (by simp [hs])
            rw [hfreezes hkind, hs]
            cases hrow : db.freezes[(id, r.reference)]? <;> cases s <;> simp [hkind]
    rw [hiff]
    constructor
    · exact fun hwrites => ⟨r, hr, rfl, hwrites⟩
    · rintro ⟨r', hr', hkey, hwrites⟩
      rwa [record_unique hnodup hr hr' hkey] at hwrites
  · have hnot : ∀ r ∈ rs, (r.kind, r.reference) ≠ k := fun r hr hk => hrecord ⟨r, hr, hk⟩
    refine iff_of_false ?_ fun ⟨r, hr, hk, _⟩ => hnot r hr hk
    subst hdb
    rintro (hlabels | ⟨hkind, hfreezes⟩)
    · refine hlabels (Spellings.foldl_write_labels_ne ?_)
      rintro a ha - heq
      obtain ⟨r, hr, rfl⟩ := List.mem_map.mp ha
      exact hnot r hr heq
    · refine hfreezes (Spellings.foldl_write_freezes_ne ?_)
      rintro a ha hsome heq
      obtain ⟨r, hr, rfl⟩ := List.mem_map.mp ha
      have hkind' : r.kind = .output :=
        (hok r hr).spendable fun hnone => hsome (by rw [Spellings.ofRecord, hnone]; rfl)
      exact hnot r hr (Prod.ext (hkind'.trans hkind.symm) heq)

/-- When no record writes, the store stays. -/
theorem writes_none (hdb : db' = (rs.map Spellings.ofRecord).foldl (Spellings.write id) db)
    (h : ∀ r ∈ rs, ¬ Writes db id r) : db' = db := by
  subst hdb
  induction rs with
  | nil => rfl
  | cons r rs ih =>
      obtain ⟨hr, hrest⟩ := List.forall_mem_cons.mp h
      rw [List.map_cons, List.foldl_cons, write_of_not_writes hr]
      exact ih hrest

/-- The number of references whose rows differ, by their records. -/
theorem encard_rowDiffers [DecidablePred (Writes db id)]
    (hnodup : (rs.map (fun r => (r.kind, r.reference))).Nodup)
    (hok : ∀ r ∈ rs, Labels.RecordOk r)
    (hdb : db' = (rs.map Spellings.ofRecord).foldl (Spellings.write id) db) :
    {k | RowDiffers db db' id k}.encard =
      ((rs.filter fun r => decide (Writes db id r)).length : ℕ∞) := by
  have hset : {k | RowDiffers db db' id k} =
      ((((rs.filter fun r => decide (Writes db id r)).map
        (fun r => (r.kind, r.reference))).toFinset : Finset (LabelKind × String)) :
          Set (LabelKind × String)) := by
    ext k
    rw [Set.mem_ofPred_eq, rowDiffers_iff hnodup hok hdb]
    simp only [List.coe_toFinset, Set.mem_ofPred_eq, List.mem_map, List.mem_filter,
      decide_eq_true_eq]
    exact ⟨fun ⟨r, hr, hk, hw⟩ => ⟨r, ⟨hr, hw⟩, hk⟩, fun ⟨r, ⟨hr, hw⟩, hk⟩ => ⟨r, hr, hk, hw⟩⟩
  have hsub : ((rs.filter fun r => decide (Writes db id r)).map
      (fun r => (r.kind, r.reference))).Nodup :=
    hnodup.sublist (List.filter_sublist.map _)
  rw [hset, Set.encard_coe_eq_coe_finsetCard, List.toFinset_card_of_nodup hsub, List.length_map]

end Run

/-- The count of an import is the number of references whose rows it changes,
    an import that changes none leaves the export, and it leaves what a payment
    observed later labels: all of it exactly when no matching record has an
    empty label for a reference without one and no other change. -/
theorem changes_exact {db db' : Db State} {id payload : String} {preview : Labels.LabelPreview}
    (h : importLabels env db id payload true = .ok (preview, db')) :
    ({k | RowDiffers db db' id k}.encard = preview.changed ∧
      (preview.changed = 0 ↔ exportLabels env db' id = exportLabels env db id) ∧
      (preview.changed = 0 → ∀ (review : DraftReview) (wallet : Wallet) (info : BroadcastInfo),
        (applyObservedLabels env db' id review wallet info).map Db.labels =
          (applyObservedLabels env db id review wallet info).map Db.labels)) ↔
      ¬ Hides env db id payload := by
  classical
  obtain ⟨l, origin, rs, hload, horigin, hrs, hok, hnodup, hchanged, hdb⟩ := importLabels_eq_ok h
  have hcard := encard_rowDiffers hnodup hok hdb
  rw [hchanged, List.countP_eq_length_filter, hcard, Nat.cast_inj]
  have hsub : (rs.filter (counted db id)).Sublist
      (rs.filter fun r => decide (Writes db id r)) :=
    List.monotone_filter_right rs fun r hr => decide_eq_true (writes_iff.mpr (.inl hr))
  have hhides : Hides env db id payload ↔ ∃ r ∈ rs, Hidden db id r := by
    constructor
    · rintro ⟨rs', hrs', hhidden⟩
      rw [hrs, Except.ok.injEq] at hrs'
      exact hrs' ▸ hhidden
    · exact fun hhidden => ⟨rs, hrs, hhidden⟩
  rw [hhides]
  constructor
  · rintro ⟨hlength, -, -⟩ ⟨r, hr, hhidden⟩
    -- as many are counted as write, so what writes is counted
    have hlists := hsub.eq_of_length hlength.symm
    have hin : r ∈ rs.filter fun r => decide (Writes db id r) :=
      List.mem_filter.mpr ⟨hr, decide_eq_true (writes_iff.mpr (.inr hhidden))⟩
    rw [← hlists] at hin
    exact hhidden.not_counted (List.mem_filter.mp hin).2
  · intro hnone
    have hsame : ∀ r ∈ rs, decide (Writes db id r) = counted db id r := by
      intro r hr
      have hnot : ¬ Hidden db id r := fun hhidden => hnone ⟨r, hr, hhidden⟩
      rw [← Bool.decide_coe (counted db id r)]
      exact decide_eq_decide.mpr (writes_iff.trans (or_iff_left hnot))
    rw [List.filter_congr hsame]
    have hstays : (rs.filter (counted db id)).length = 0 → db' = db := by
      intro hzero
      refine writes_none hdb fun r hr hwrites => ?_
      have hin : r ∈ rs.filter (counted db id) :=
        List.mem_filter.mpr ⟨hr, (hsame r hr).symm.trans (decide_eq_true hwrites)⟩
      rw [List.length_eq_zero_iff.mp hzero] at hin
      cases hin
    refine ⟨rfl, ⟨fun hzero => by rw [hstays hzero], fun hexport => ?_⟩,
      fun hzero => by rw [hstays hzero]; exact fun _ _ _ => rfl⟩
    -- one text is one set of rows, so none differs
    have hwallets : db'.wallets = db.wallets := hdb ▸ Spellings.foldl_write_wallets _
    have hload' : load env db' id = .ok l := by rw [← hload, load, load, hwallets]
    have hrows := (Exports.exportLabels_eq_iff env hload hload' horigin).mp hexport
    have hempty : {k | RowDiffers db db' id k} = ∅ := by
      rw [Set.eq_empty_iff_forall_notMem]
      rintro ⟨kind, reference⟩ (hlabel | ⟨-, hfreeze⟩)
      · exact hlabel (hrows.label kind reference)
      · have hfrozen := hrows.frozen reference
        unfold Db.isFrozen at hfrozen
        cases hleft : db'.freezes[(id, reference)]? <;>
          cases hright : db.freezes[(id, reference)]? <;> simp_all
    rw [hempty, Set.encard_empty, List.filter_congr hsame] at hcard
    exact_mod_cast hcard.symm

end Changes
end Tundra
