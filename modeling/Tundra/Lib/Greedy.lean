/-
  Tundra.Lib.Greedy

  A scan that gives each wanted item the first candidate that fits it, among
  those after the candidate of the item before.  It finds a match in order
  whenever there is one (`scan_isSome`), whatever fits what.
-/

import Mathlib.Data.List.NodupEquivFin
import Mathlib.Data.List.Forall2

namespace Tundra
namespace Greedy

variable {α β : Type}

/-- The candidates the scan chooses, in order. -/
def scan (fits : α → β → Bool) : List α → List β → Option (List β)
  | [], _ => some []
  | _ :: _, [] => none
  | a :: wanted, b :: candidates =>
      if fits a b then (scan fits wanted candidates).map (b :: ·)
      else scan fits (a :: wanted) candidates

section Matches

variable {R : α → β → Prop} {a : α} {b : β} {wanted : List α} {candidates : List β}

/-- A match of more items is one of fewer. -/
theorem match_tail (h : List.SublistForall₂ R (a :: wanted) candidates) :
    List.SublistForall₂ R wanted candidates := by
  obtain ⟨chosen, hfits, hsub⟩ := List.sublistForall₂_iff.mp h
  cases hfits with
  | cons _ hrest =>
      exact List.sublistForall₂_iff.mpr ⟨_, hrest, (List.sublist_cons_self _ _).trans hsub⟩

variable (R) in
/-- The first candidate that fits may always be taken. -/
theorem match_take (hfit : R a b) :
    List.SublistForall₂ R (a :: wanted) (b :: candidates) ↔
      List.SublistForall₂ R wanted candidates := by
  refine ⟨fun h => ?_, .cons hfit⟩
  cases h with
  | cons _ hrest => exact hrest
  -- Where the match leaves it out, the rest of the match lies after it.
  | cons_right hlater => exact match_tail hlater

variable (R) in
/-- A candidate that does not fit is in no match of the first item. -/
theorem match_skip (hfit : ¬ R a b) :
    List.SublistForall₂ R (a :: wanted) (b :: candidates) ↔
      List.SublistForall₂ R (a :: wanted) candidates := by
  refine ⟨fun h => ?_, .cons_right⟩
  cases h with
  | cons hab _ => exact absurd hab hfit
  | cons_right hlater => exact hlater

/-- A match of two items is a pair of positions in order. -/
theorem match_pair {a' : α} :
    List.SublistForall₂ R [a, a'] candidates ↔
      ∃ (i j : Nat) (b b' : β), i < j ∧ candidates[i]? = some b ∧ candidates[j]? = some b' ∧ R a b ∧ R a' b' := by
  rw [List.sublistForall₂_iff]
  constructor
  · rintro ⟨chosen, hfits, hsub⟩
    cases hfits with
    | cons hab hrest =>
        cases hrest with
        | cons hab' hnil =>
            cases hnil
            obtain ⟨f, hf⟩ := List.sublist_iff_exists_orderEmbedding_getElem?_eq.mp hsub
            exact ⟨f 0, f 1, _, _, f.strictMono Nat.zero_lt_one, (hf 0).symm, (hf 1).symm, hab, hab'⟩
  · rintro ⟨i, j, b, b', hij, hb, hb', hab, hab'⟩
    refine ⟨[b, b'], .cons hab (.cons hab' .nil), ?_⟩
    have hbefore : b ∈ candidates.take j :=
      List.mem_of_getElem? (i := i) (by rw [List.getElem?_take_of_lt hij, hb])
    have hafter : b' ∈ candidates.drop j :=
      List.mem_of_getElem? (i := 0) (by rw [List.getElem?_drop, Nat.add_zero, hb'])
    exact List.cons_sublist_iff.mpr ⟨candidates.take j, candidates.drop j,
      (List.take_append_drop j candidates).symm, hbefore, List.singleton_sublist.mpr hafter⟩

end Matches

section Scan

variable {fits : α → β → Bool}

/-- The scan finds a match exactly when there is one. -/
theorem scan_isSome (wanted : List α) (candidates : List β) :
    (scan fits wanted candidates).isSome = true ↔
      List.SublistForall₂ (fun a b => fits a b = true) wanted candidates := by
  induction candidates generalizing wanted with
  | nil =>
      cases wanted with
      | nil => simp [scan, List.SublistForall₂.nil]
      | cons a wanted =>
          refine ⟨fun h => ?_, fun h => ?_⟩
          · simp [scan] at h
          · cases h
  | cons b candidates ih =>
      cases wanted with
      | nil => simp [scan, List.SublistForall₂.nil]
      | cons a wanted =>
          rw [scan]
          split_ifs with hfit
          · rw [Option.isSome_map, ih]
            exact (match_take (fun a b => fits a b = true) hfit).symm
          · rw [ih]
            exact (match_skip (fun a b => fits a b = true) hfit).symm

end Scan

end Greedy
end Tundra
