/-
  Tundra.Lib.Join

  Merges that are joins.  A merge adds the entries of a response to those of a
  state, and is refused exactly when they are inconsistent together.  Then a
  list of responses is merged to the union of their entries, in any order and
  any number of times.
-/

import Mathlib.Data.Set.Lattice
import Tundra.Lib.Checked

namespace Tundra
namespace Join

open Checked

variable {ε σ ρ α : Type}

/-- A merge of responses into a state is a join of their sets of entries. -/
structure IsJoin (merge : σ → ρ → Except ε σ) (Inv : σ → Prop) (Accept : ρ → Prop)
    (Consistent : Set α → Prop) (entries : σ → Set α) (adds : ρ → Set α) : Prop where
  /-- What a merge returns. -/
  sound : ∀ s r s', Inv s → merge s r = .ok s' →
    Accept r ∧ Inv s' ∧ entries s' = entries s ∪ adds r
  /-- An acceptable response is refused only for a conflict. -/
  complete : ∀ s r, Inv s → Accept r → Consistent (entries s ∪ adds r) →
    ∃ s', merge s r = .ok s'
  consistent : ∀ s, Inv s → Consistent (entries s)
  mono : ∀ A B, A ⊆ B → Consistent B → Consistent A
  /-- A state is its entries. -/
  ext : ∀ s s', Inv s → Inv s' → entries s = entries s' → s = s'

/-- The entries a list of responses adds. -/
def addsAll (adds : ρ → Set α) (rs : List ρ) : Set α := {a | ∃ r ∈ rs, a ∈ adds r}

section Runs

variable {merge : σ → ρ → Except ε σ} {Inv : σ → Prop} {Accept : ρ → Prop}
  {Consistent : Set α → Prop} {entries : σ → Set α} {adds : ρ → Set α} {s s' : σ} {r : ρ}
  {rs rs' : List ρ}

theorem addsAll_nil : addsAll adds [] = ∅ := by simp [addsAll]

theorem addsAll_cons : addsAll adds (r :: rs) = adds r ∪ addsAll adds rs := by
  ext a
  simp [addsAll]

theorem addsAll_perm (h : rs.Perm rs') : addsAll adds rs = addsAll adds rs' := by
  simp only [addsAll, h.mem_iff]

theorem subset_addsAll (h : r ∈ rs) : adds r ⊆ addsAll adds rs := fun _ ha => ⟨r, h, ha⟩

variable (h : IsJoin merge Inv Accept Consistent entries adds)
include h

/-- A list of responses is merged to the union of their entries. -/
theorem IsJoin.run (hinv : Inv s) (hrun : rs.foldlM merge s = .ok s') :
    (∀ r ∈ rs, Accept r) ∧ Inv s' ∧ entries s' = entries s ∪ addsAll adds rs := by
  induction rs generalizing s with
  | nil =>
      simp only [List.foldlM_nil, pure_eq_ok] at hrun
      subst hrun
      exact ⟨by simp, hinv, by rw [addsAll_nil, Set.union_empty]⟩
  | cons r rs ih =>
      simp only [List.foldlM_cons, bind_eq_ok] at hrun
      obtain ⟨mid, hmid, hrun⟩ := hrun
      obtain ⟨haccept, hmidInv, hentries⟩ := h.sound s r mid hinv hmid
      obtain ⟨hall, hinv', hentries'⟩ := ih hmidInv hrun
      refine ⟨List.forall_mem_cons.mpr ⟨haccept, hall⟩, hinv', ?_⟩
      rw [hentries', hentries, addsAll_cons, Set.union_assoc]

/-- Acceptable responses that are consistent together are merged. -/
theorem IsJoin.run_ok (hinv : Inv s) (hall : ∀ r ∈ rs, Accept r)
    (hconsistent : Consistent (entries s ∪ addsAll adds rs)) :
    ∃ s', rs.foldlM merge s = .ok s' := by
  induction rs generalizing s with
  | nil => exact ⟨s, rfl⟩
  | cons r rs ih =>
      obtain ⟨haccept, hrest⟩ := List.forall_mem_cons.mp hall
      rw [addsAll_cons, ← Set.union_assoc] at hconsistent
      have hfirst : Consistent (entries s ∪ adds r) :=
        h.mono _ _ Set.subset_union_left hconsistent
      obtain ⟨mid, hmid⟩ := h.complete s r hinv haccept hfirst
      obtain ⟨-, hmidInv, hentries⟩ := h.sound s r mid hinv hmid
      rw [← hentries] at hconsistent
      obtain ⟨s', hrun⟩ := ih hmidInv hrest hconsistent
      refine ⟨s', ?_⟩
      rw [List.foldlM_cons, hmid, ok_bind, hrun]

/-- The order of the responses does not matter. -/
theorem IsJoin.perm (hinv : Inv s) (hperm : rs.Perm rs') (hrun : rs.foldlM merge s = .ok s') :
    rs'.foldlM merge s = .ok s' := by
  obtain ⟨hall, hinv', hentries⟩ := h.run hinv hrun
  have hall' : ∀ r ∈ rs', Accept r := fun r hr => hall r (hperm.mem_iff.mpr hr)
  have hconsistent := h.consistent s' hinv'
  rw [hentries, addsAll_perm hperm] at hconsistent
  obtain ⟨s'', hrun'⟩ := h.run_ok hinv hall' hconsistent
  obtain ⟨-, hinv'', hentries'⟩ := h.run hinv hrun'
  have hsame : s'' = s' :=
    h.ext s'' s' hinv'' hinv' (by rw [hentries', hentries, addsAll_perm hperm])
  rw [hrun', hsame]

/-- Merging entries that are there already changes nothing. -/
theorem IsJoin.again (hinv : Inv s) (haccept : Accept r) (hsub : adds r ⊆ entries s) :
    merge s r = .ok s := by
  have hunion : entries s ∪ adds r = entries s := Set.union_eq_left.mpr hsub
  have hconsistent := h.consistent s hinv
  rw [← hunion] at hconsistent
  obtain ⟨s', hmerge⟩ := h.complete s r hinv haccept hconsistent
  obtain ⟨-, hinv', hentries⟩ := h.sound s r s' hinv hmerge
  rw [hmerge, h.ext s' s hinv' hinv (hentries.trans hunion)]

/-- A conflicting response is refused. -/
theorem IsJoin.refused (hinv : Inv s) (hconflict : ¬ Consistent (entries s ∪ adds r)) :
    merge s r ≠ .ok s' := by
  intro hmerge
  obtain ⟨-, hinv', hentries⟩ := h.sound s r s' hinv hmerge
  have hconsistent := h.consistent s' hinv'
  rw [hentries] at hconsistent
  exact hconflict hconsistent

end Runs

end Join
end Tundra
