/-
  Tundra.Lib.Gather

  A list collected one entry at a time, in any order and with repetitions: the
  table of the entries that have come, by their indices.  Which entries it
  holds depends on the set of indices alone; it has as many rows as there are
  indices, and once they are all there its rows are the list.
-/

import Mathlib.Algebra.BigOperators.Group.Finset.Basic
import Mathlib.Algebra.BigOperators.Fin
import Mathlib.Algebra.Order.BigOperators.Group.Finset
import Tundra.Lib.Table

namespace Gather

open Relational

variable {α : Type} {parts : List α} {seen : Finset Nat} {t : Table Nat α}

/-- A table holds the entries of the indices that have been seen. -/
structure Filled (parts : List α) (seen : Finset Nat) (t : Table Nat α) : Prop where
  get : ∀ i : Nat, t[i]? = if i ∈ seen then parts[i]? else none
  bound : ∀ i ∈ seen, i < parts.length

theorem filled_empty : Filled parts ∅ (∅ : Table Nat α) where
  get i := by simp
  bound i hi := by simp at hi

theorem Filled.insert (h : Filled parts seen t) {i : Nat} {v : α} (hv : parts[i]? = some v) :
    Filled parts (insert i seen) (t.insert i v) where
  get j := by
    rw [Table.get_insert, h.get]
    by_cases hij : i = j
    · subst hij
      simp [hv]
    · simp [hij, Finset.mem_insert, Ne.symm hij]
  bound j hj := by
    rcases Finset.mem_insert.mp hj with rfl | hj
    · exact (List.getElem?_eq_some_iff.mp hv).1
    · exact h.bound j hj

theorem Filled.mem_iff (h : Filled parts seen t) {i : Nat} : i ∈ seen ↔ ∃ v, t[i]? = some v := by
  rw [h.get]
  constructor
  · intro hi
    have hlt : i < parts.length := h.bound i hi
    exact ⟨parts[i], by rw [if_pos hi, List.getElem?_eq_getElem hlt]⟩
  · rintro ⟨v, hv⟩
    by_contra hi
    rw [if_neg hi] at hv
    cases hv

/-- The table has a row for each index. -/
theorem Filled.size (h : Filled parts seen t) : t.size = seen.card := by
  have hkeys : (t.toList.map Prod.fst).toFinset = seen := by
    ext i
    rw [List.mem_toFinset, h.mem_iff]
    constructor
    · intro hi
      obtain ⟨⟨i, v⟩, hmem, rfl⟩ := List.mem_map.mp hi
      exact ⟨v, Table.mem_toList.mp hmem⟩
    · rintro ⟨v, hv⟩
      exact List.mem_map.mpr ⟨(i, v), Table.mem_toList.mpr hv, rfl⟩
  rw [← hkeys, List.toFinset_card_of_nodup (Table.nodup_keys t), List.length_map,
    Std.ExtTreeMap.length_toList]

/-- There is an index that has not been seen, or the table is full. -/
theorem Filled.size_lt (h : Filled parts seen t) (hmiss : ∃ i < parts.length, i ∉ seen) :
    t.size < parts.length := by
  obtain ⟨i, hi, hnot⟩ := hmiss
  rw [h.size, ← Finset.card_range parts.length]
  refine Finset.card_lt_card (Finset.ssubset_iff_of_subset ?_ |>.mpr
    ⟨i, Finset.mem_range.mpr hi, hnot⟩)
  exact fun j hj => Finset.mem_range.mpr (h.bound j hj)

theorem Filled.size_eq (h : Filled parts seen t) (hall : ∀ i < parts.length, i ∈ seen) :
    t.size = parts.length := by
  have hseen : seen = Finset.range parts.length := by
    ext i
    exact ⟨fun hi => Finset.mem_range.mpr (h.bound i hi), fun hi => hall i (Finset.mem_range.mp hi)⟩
  rw [h.size, hseen, Finset.card_range]

/-- A full table lists the entries in order. -/
theorem Filled.values (h : Filled parts seen t) (hall : ∀ i < parts.length, i ∈ seen) :
    t.toList.map Prod.snd = parts := by
  have hkeys : t.toList.map Prod.fst = List.range parts.length := by
    have hsorted := Table.selectRows_keys_sorted t fun _ _ => true
    rw [Table.selectRows, List.filter_true] at hsorted
    refine Table.keys_ext hsorted ?_ fun i => ?_
    · exact (List.pairwise_lt_range).imp fun hlt => Nat.compare_eq_lt.mpr hlt
    · rw [List.mem_range]
      constructor
      · intro hi
        obtain ⟨⟨i, v⟩, hmem, rfl⟩ := List.mem_map.mp hi
        exact h.bound i (h.mem_iff.mpr ⟨v, Table.mem_toList.mp hmem⟩)
      · intro hi
        obtain ⟨v, hv⟩ := h.mem_iff.mp (hall i hi)
        exact List.mem_map.mpr ⟨(i, v), Table.mem_toList.mpr hv, rfl⟩
  have hlength : t.toList.length = parts.length := by
    rw [← List.length_map (f := Prod.fst), hkeys, List.length_range]
  refine List.ext_getElem (by rw [List.length_map, hlength]) fun i hi hi' => ?_
  have hlt : i < t.toList.length := hlength ▸ hi'
  -- the row at a place has its number as key, and so the entry of that number
  have hkey : t.toList[i].1 = i := by
    have hget : (t.toList.map Prod.fst)[i]? = some i := by
      rw [hkeys, List.getElem?_range (by omega)]
    rwa [List.getElem?_map, List.getElem?_eq_getElem hlt, Option.map_some, Option.some.injEq] at hget
  have hget : t[t.toList[i].1]? = some t.toList[i].2 :=
    Table.mem_toList.mp (List.getElem_mem hlt)
  rw [hkey, h.get, if_pos (hall i hi'), List.getElem?_eq_getElem hi'] at hget
  rw [List.getElem_map]
  exact (Option.some.inj hget).symm

/-! ## Weights -/

/-- The weight of the entries with these indices. -/
def weight (f : α → Nat) (parts : List α) (seen : Finset Nat) : Nat :=
  ∑ i ∈ seen, (parts[i]?.map f).getD 0

theorem weight_insert {f : α → Nat} {i : Nat} {v : α} (hi : i ∉ seen) (hv : parts[i]? = some v) :
    weight f parts (insert i seen) = weight f parts seen + f v := by
  rw [weight, Finset.sum_insert hi, hv, Nat.add_comm]
  rfl

/-- No set of indices weighs more than the list. -/
theorem weight_le {f : α → Nat} (hbound : ∀ i ∈ seen, i < parts.length) :
    weight f parts seen ≤ (parts.map f).sum := by
  have hall : weight f parts (Finset.range parts.length) = (parts.map f).sum := by
    rw [weight, Finset.sum_range, ← List.sum_ofFn]
    congr 1
    exact List.ext_getElem (by simp) fun i hi hi' => by simp
  rw [← hall]
  exact Finset.sum_le_sum_of_subset fun i hi => Finset.mem_range.mpr (hbound i hi)

end Gather
