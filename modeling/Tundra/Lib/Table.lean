/-
  Tundra.Lib.Table

  Relational tables keyed by their primary key.  A `Table κ ν` is a finite map
  from keys to rows, so two rows with one key cannot be built; it iterates in
  key order.  The operations are those of SQL statements on one table:

  - `insertNew`      INSERT, refused when the key is taken;
  - `insertIfNew`    INSERT OR IGNORE (the library's own);
  - `insert`         INSERT ... ON CONFLICT DO UPDATE (the library's own);
  - `deleteWhere`    DELETE ... WHERE;
  - `updateAll`      UPDATE of every row;
  - `anyRow`         SELECT EXISTS;
  - `countRows`      SELECT count(*).

  Each operation has one lookup lemma, stated with `=` on keys, and nothing
  else in a development has to open the tree behind the table.
-/

import Std.Data.ExtTreeMap
import Mathlib.Data.List.Sort
import Mathlib.Tactic.Common

attribute [instance] lexOrd

namespace Relational

open Std

/-- Rows keyed by a primary key. -/
abbrev Table (κ ν : Type) [Ord κ] := ExtTreeMap κ ν compare

namespace Table

variable {κ ν : Type} [Ord κ] [TransOrd κ] [LawfulEqOrd κ]

/-- INSERT: refused when the key is already present. -/
def insertNew (t : Table κ ν) (k : κ) (v : ν) : Option (Table κ ν) :=
  if k ∈ t then none else some (t.insert k v)

/-- DELETE of every row that satisfies `p`. -/
def deleteWhere (t : Table κ ν) (p : κ → ν → Bool) : Table κ ν :=
  t.filter (fun k v => !p k v)

/-- UPDATE of every row. -/
def updateAll (t : Table κ ν) (f : κ → ν → ν) : Table κ ν :=
  t.map f

/-- Upsert one row under every key of a list. -/
def insertAll (t : Table κ ν) (keys : List κ) (v : ν) : Table κ ν :=
  keys.foldl (fun t k => t.insert k v) t

/-- INSERT OR IGNORE of one row under every key of a list. -/
def insertIfNewAll (t : Table κ ν) (keys : List κ) (v : ν) : Table κ ν :=
  keys.foldl (fun t k => t.insertIfNew k v) t

/-- SELECT EXISTS: does some row satisfy `p`? -/
def anyRow (t : Table κ ν) (p : κ → ν → Bool) : Bool :=
  t.toList.any (fun row => p row.1 row.2)

/-- The rows that satisfy `p`, in key order. -/
def selectRows (t : Table κ ν) (p : κ → ν → Bool) : List (κ × ν) :=
  t.toList.filter (fun row => p row.1 row.2)

/-- SELECT count(*). -/
def countRows (t : Table κ ν) (p : κ → ν → Bool) : Nat :=
  (t.selectRows p).length

/-- Every row satisfies `p`. -/
def All (t : Table κ ν) (p : κ → ν → Prop) : Prop :=
  ∀ (k : κ) (v : ν), t[k]? = some v → p k v

/-! ## Lookup lemmas -/

theorem get_insert (t : Table κ ν) (k a : κ) (v : ν) [DecidableEq κ] :
    (t.insert k v)[a]? = if k = a then some v else t[a]? := by
  rw [ExtTreeMap.getElem?_insert]
  by_cases h : k = a <;> simp [h]

theorem get_insert_self (t : Table κ ν) (k : κ) (v : ν) : (t.insert k v)[k]? = some v := by
  simp

theorem get_insert_ne (t : Table κ ν) {k a : κ} (v : ν) (h : k ≠ a) :
    (t.insert k v)[a]? = t[a]? := by
  rw [ExtTreeMap.getElem?_insert]
  simp [h]

theorem get_erase (t : Table κ ν) (k a : κ) [DecidableEq κ] :
    (t.erase k)[a]? = if k = a then none else t[a]? := by
  rw [ExtTreeMap.getElem?_erase]
  by_cases h : k = a <;> simp [h]

omit [LawfulEqOrd κ] in
theorem mem_iff_get (t : Table κ ν) (k : κ) : k ∈ t ↔ ∃ v, t[k]? = some v := by
  rw [ExtTreeMap.mem_iff_isSome_getElem?, Option.isSome_iff_exists]

omit [LawfulEqOrd κ] in
theorem insertNew_eq_some {t t' : Table κ ν} {k : κ} {v : ν} :
    t.insertNew k v = some t' ↔ t[k]? = none ∧ t' = t.insert k v := by
  unfold insertNew
  by_cases h : k ∈ t
  · obtain ⟨u, hu⟩ := (mem_iff_get t k).mp h
    simp [h]
  · simp [h, eq_comm]

theorem get_insertIfNew (t : Table κ ν) (k a : κ) (v : ν) [DecidableEq κ] :
    (t.insertIfNew k v)[a]? = if k = a ∧ t[k]? = none then some v else t[a]? := by
  rw [ExtTreeMap.getElem?_insertIfNew]
  by_cases h : k = a
  · subst h
    by_cases hm : k ∈ t
    · obtain ⟨u, hu⟩ := (mem_iff_get t k).mp hm
      simp [hm]
    · simp [hm]
  · simp [h]

theorem get_insertAll [DecidableEq κ] (t : Table κ ν) (keys : List κ) (a : κ) (v : ν) :
    (t.insertAll keys v)[a]? = if a ∈ keys then some v else t[a]? := by
  induction keys generalizing t with
  | nil => simp [insertAll]
  | cons k keys ih =>
      have hcons : t.insertAll (k :: keys) v = insertAll (t.insert k v) keys v := rfl
      rw [hcons, ih, get_insert]
      by_cases ha : a ∈ keys
      · simp [ha]
      · by_cases hk : k = a
        · simp [hk]
        · simp [ha, hk, Ne.symm hk]

theorem get_insertIfNewAll [DecidableEq κ] (t : Table κ ν) (keys : List κ) (a : κ) (v : ν) :
    (t.insertIfNewAll keys v)[a]? = if a ∈ keys ∧ t[a]? = none then some v else t[a]? := by
  induction keys generalizing t with
  | nil => simp [insertIfNewAll]
  | cons k keys ih =>
      have hcons : t.insertIfNewAll (k :: keys) v = 
        insertIfNewAll (t.insertIfNew k v) keys v := rfl
      rw [hcons, ih, get_insertIfNew]
      by_cases hk : k = a
      · subst hk
        cases t[k]? <;> simp
      · simp [hk, Ne.symm hk]

theorem get_deleteWhere (t : Table κ ν) (p : κ → ν → Bool) (k : κ) :
    (t.deleteWhere p)[k]? = t[k]?.filter (fun v => !p k v) := by
  simp [deleteWhere]

theorem get_deleteWhere_eq_some {t : Table κ ν} {p : κ → ν → Bool} {k : κ} {v : ν} :
    (t.deleteWhere p)[k]? = some v ↔ t[k]? = some v ∧ p k v = false := by
  rw [get_deleteWhere, Option.filter_eq_some_iff]
  simp

/-- Rows that do not satisfy the condition survive a DELETE. -/
theorem get_deleteWhere_of_false {t : Table κ ν} {p : κ → ν → Bool} {k : κ}
    (h : ∀ v, t[k]? = some v → p k v = false) : (t.deleteWhere p)[k]? = t[k]? := by
  rw [get_deleteWhere]
  cases hk : t[k]? with
  | none => rfl
  | some v => simp [h v hk]

/-- A DELETE whose condition is decided by the key. -/
theorem get_deleteWhere_key (t : Table κ ν) (p : κ → Bool) (k : κ) :
    (t.deleteWhere (fun k _ => p k))[k]? = if p k then none else t[k]? := by
  rw [get_deleteWhere]
  cases hk : t[k]? with
  | none => simp
  | some v => by_cases hp : p k <;> simp [hp]

theorem get_updateAll (t : Table κ ν) (f : κ → ν → ν) (k : κ) :
    (t.updateAll f)[k]? = t[k]?.map (f k) := by
  simp [updateAll]

theorem mem_toList {t : Table κ ν} {k : κ} {v : ν} : (k, v) ∈ t.toList ↔ t[k]? = some v :=
  ExtTreeMap.mem_toList_iff_getElem?_eq_some

theorem anyRow_eq_true {t : Table κ ν} {p : κ → ν → Bool} :
    t.anyRow p = true ↔ ∃ k v, t[k]? = some v ∧ p k v = true := by
  simp only [anyRow, List.any_eq_true, Prod.exists, mem_toList]

theorem anyRow_eq_false {t : Table κ ν} {p : κ → ν → Bool} :
    t.anyRow p = false ↔ ∀ k v, t[k]? = some v → p k v = false := by
  rw [← Bool.not_eq_true, anyRow_eq_true]
  simp only [not_exists, not_and, Bool.not_eq_true]

instance (t : Table κ ν) (p : κ → ν → Prop) [∀ k v, Decidable (p k v)] : Decidable (t.All p) :=
  decidable_of_iff (t.anyRow (fun k v => !decide (p k v)) = false) (by
    rw [anyRow_eq_false]
    simp only [All, Bool.not_eq_false', decide_eq_true_eq])

/-- EXISTS over one key. -/
theorem anyRow_key [DecidableEq κ] {t : Table κ ν} {k : κ} :
    t.anyRow (fun a _ => a = k) = true ↔ ∃ v, t[k]? = some v := by
  rw [anyRow_eq_true]
  constructor
  · rintro ⟨a, v, hv, ha⟩
    exact ⟨v, of_decide_eq_true ha ▸ hv⟩
  · rintro ⟨v, hv⟩
    exact ⟨k, v, hv, by simp⟩

theorem mem_selectRows {t : Table κ ν} {p : κ → ν → Bool} {k : κ} {v : ν} :
    (k, v) ∈ t.selectRows p ↔ t[k]? = some v ∧ p k v = true := by
  simp only [selectRows, List.mem_filter, mem_toList]

/-- The keys of a selection are distinct. -/
theorem selectRows_nodup_keys (t : Table κ ν) (p : κ → ν → Bool) :
    ((t.selectRows p).map Prod.fst).Nodup := by
  have hd : t.toList.Pairwise (fun a b => a.1 ≠ b.1) := by
    refine (ExtTreeMap.distinct_keys_toList (t := t)).imp ?_
    intro a b h hab
    exact h (by simp [hab])
  exact List.pairwise_map.mpr (hd.filter _)

omit [LawfulEqOrd κ] in
/-- The keys of a selection come in order. -/
theorem selectRows_keys_sorted (t : Table κ ν) (p : κ → ν → Bool) :
    ((t.selectRows p).map Prod.fst).Pairwise (fun a b => compare a b = .lt) :=
  List.pairwise_map.mpr ((ExtTreeMap.ordered_keys_toList (t := t)).filter _)

omit [LawfulEqOrd κ] in
/-- Two ordered lists of the same keys are one list. -/
theorem keys_ext {l l' : List κ} (h : l.Pairwise (fun a b => compare a b = .lt))
    (h' : l'.Pairwise (fun a b => compare a b = .lt)) (hmem : ∀ k, k ∈ l ↔ k ∈ l') : l = l' := by
  have hirrefl : Std.Irrefl (fun a b : κ => compare a b = .lt) := ⟨fun a ha => by simp at ha⟩
  have hantisymm : Std.Antisymm (fun a b : κ => compare a b = .lt) := ⟨fun a b hab hba => by
    have hswap : compare a b = (compare b a).swap := OrientedCmp.eq_swap
    rw [hswap, hba] at hab
    cases hab⟩
  exact List.Pairwise.eq_of_mem_iff h h' hmem

/-! ## Sizes -/

theorem nodup_keys (t : Table κ ν) : (t.toList.map Prod.fst).Nodup := by
  have h := selectRows_nodup_keys t (fun _ _ => true)
  rwa [selectRows, List.filter_true] at h

/-- A table whose keys are all in a list is no larger than the list. -/
theorem size_le_length {t : Table κ ν} {keys : List κ}
    (h : ∀ (k : κ) (v : ν), t[k]? = some v → k ∈ keys) : t.size ≤ keys.length := by
  have hsub : t.toList.map Prod.fst ⊆ keys := by
    intro k hk
    obtain ⟨⟨k', v⟩, hmem, rfl⟩ := List.mem_map.mp hk
    exact h k' v (mem_toList.mp hmem)
  have hle := (nodup_keys t).length_le_of_subset hsub
  rwa [List.length_map, ExtTreeMap.length_toList] at hle

theorem size_le_size {t u : Table κ ν} (h : ∀ (k : κ) (v : ν), t[k]? = some v → u[k]? = some v) :
    t.size ≤ u.size := by
  have hle : t.size ≤ (u.toList.map Prod.fst).length := size_le_length fun k v hk =>
    List.mem_map_of_mem (f := Prod.fst) (mem_toList.mpr (h k v hk))
  rwa [List.length_map, ExtTreeMap.length_toList] at hle

/-- The rows of a table, in any list of distinct keys that holds the same rows. -/
theorem toList_perm {t : Table κ ν} {rows : List (κ × ν)} (hnodup : (rows.map Prod.fst).Nodup)
    (h : ∀ (k : κ) (v : ν), t[k]? = some v ↔ (k, v) ∈ rows) : t.toList.Perm rows := by
  refine (List.perm_ext_iff_of_nodup (.of_map _ (nodup_keys t)) (.of_map _ hnodup)).mpr ?_
  rintro ⟨k, v⟩
  rw [mem_toList, h]

theorem ext {t₁ t₂ : Table κ ν} (h : ∀ k : κ, t₁[k]? = t₂[k]?) : t₁ = t₂ :=
  ExtTreeMap.ext_getElem? (fun {k} => h k)

/-- Rows inserted one after the other: those under one key carry one value. -/
theorem get_foldl_insert [DecidableEq κ] {α : Type} {rows : List α} {key : α → κ} {val : α → ν}
    {k : κ} {v : ν} (h : ∀ r ∈ rows, key r = k → val r = v) (t : Table κ ν) :
    (rows.foldl (fun t r => t.insert (key r) (val r)) t)[k]? =
      if k ∈ rows.map key then some v else t[k]? := by
  induction rows generalizing t with
  | nil => simp
  | cons r rows ih =>
      obtain ⟨hr, hrest⟩ := List.forall_mem_cons.mp h
      rw [List.foldl_cons, ih hrest, get_insert, List.map_cons]
      by_cases hk : k ∈ rows.map key
      · rw [if_pos hk, if_pos (List.mem_cons_of_mem _ hk)]
      · by_cases hrk : key r = k
        · rw [if_neg hk, if_pos hrk, if_pos (hrk ▸ List.mem_cons_self ..), hr hrk]
        · rw [if_neg hk, if_neg hrk, if_neg]
          intro hmem
          rcases List.mem_cons.mp hmem with heq | hmem
          · exact hrk heq.symm
          · exact hk hmem

/-- Inserting rows of `t` into `u` copies them. -/
theorem get_insertRows [DecidableEq κ] {t : Table κ ν} (u : Table κ ν) {rows : List (κ × ν)}
    (h : ∀ row ∈ rows, t[row.1]? = some row.2) (k : κ) :
    (rows.foldl (fun u row => u.insert row.1 row.2) u)[k]? =
      if k ∈ rows.map Prod.fst then t[k]? else u[k]? := by
  by_cases hk : k ∈ rows.map Prod.fst
  · obtain ⟨row, hrow, rfl⟩ := List.mem_map.mp hk
    have hval : ∀ r ∈ rows, r.1 = row.1 → r.2 = row.2 := by
      intro r hr heq
      have hget := h r hr
      rw [heq, h row hrow] at hget
      exact (Option.some.inj hget).symm
    rw [get_foldl_insert hval, if_pos hk, if_pos hk, h row hrow]
  · rw [if_neg hk]
    cases rows with
    | nil => rfl
    | cons row rows =>
        have hval : ∀ r ∈ row :: rows, r.1 = k → r.2 = row.2 := fun r hr heq =>
          absurd (heq ▸ List.mem_map_of_mem hr) hk
        rw [get_foldl_insert hval, if_neg hk]

/-- A table is rebuilt from its rows. -/
theorem insertRows_toList [DecidableEq κ] (t : Table κ ν) :
    t.toList.foldl (fun u row => u.insert row.1 row.2) (∅ : Table κ ν) = t := by
  apply ext
  intro k
  rw [get_insertRows _ (fun row hrow => mem_toList.mp hrow)]
  split_ifs with hk
  · rfl
  · rw [Std.ExtTreeMap.getElem?_empty]
    cases hget : t[k]? with
    | none => rfl
    | some v => exact absurd (List.mem_map_of_mem (f := Prod.fst) (mem_toList.mpr hget)) hk

/-- Inserting the row that is already there changes nothing. -/
theorem insert_get_self [DecidableEq κ] {t : Table κ ν} {k : κ} {v : ν} (h : t[k]? = some v) :
    t.insert k v = t := by
  apply ext
  intro a
  rw [get_insert]
  by_cases hk : k = a
  · rw [if_pos hk, ← hk, h]
  · rw [if_neg hk]

end Table

end Relational
