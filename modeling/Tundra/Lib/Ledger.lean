/-
  Tundra.Lib.Ledger

  A ledger that assigns resources to owners, and what each owner is entitled
  to.  The ledger is exact when it assigns a resource to an owner precisely if
  the owner claims it.  Since a resource has one assignment, the claims of two
  owners in an exact ledger are disjoint.  An owner enters with resources that
  are free and leaves with all it had; both keep the ledger exact.
-/

import Mathlib.Tactic.Common

namespace Ledger

variable {ι κ : Type _}

/-- Resource `i` is assigned to `k` exactly when `k` claims it. -/
def Exact (owner : ι → Option κ) (claims : κ → ι → Prop) : Prop :=
  ∀ i k, owner i = some k ↔ claims k i

namespace Exact

variable {owner owner' : ι → Option κ} {claims claims' : κ → ι → Prop}

/-- A ledger without assignments or claims. -/
theorem empty (howner : ∀ i, owner i = none) (hclaims : ∀ k i, ¬ claims k i) :
    Exact owner claims := by
  intro i k
  simp [howner i, hclaims k i]

/-- No resource is claimed twice. -/
theorem exclusive (h : Exact owner claims) {k k' : κ} {i : ι} (hk : claims k i)
    (hk' : claims k' i) : k = k' := by
  have h₁ := (h i k).mpr hk
  rw [(h i k').mpr hk', Option.some.injEq] at h₁
  exact h₁.symm

/-- Exactness depends on the assignments and the claims only. -/
theorem congr (h : Exact owner claims) (howner : ∀ i, owner' i = owner i)
    (hclaims : ∀ k i, claims' k i ↔ claims k i) : Exact owner' claims' := by
  intro i k
  rw [howner, h i k, hclaims]

/-- An owner leaves: its assignments and its claims go together. -/
theorem release (h : Exact owner claims) (k : κ)
    (howner : ∀ i k', owner' i = some k' ↔ owner i = some k' ∧ k' ≠ k)
    (hclaims : ∀ k' i, claims' k' i ↔ claims k' i ∧ k' ≠ k) : Exact owner' claims' := by
  intro i k'
  rw [howner, h i k', hclaims]

/-- An owner without claims enters with resources that are its own afterwards
    and were not assigned before. -/
theorem acquire (h : Exact owner claims) (k : κ) (s : ι → Prop)
    (hnone : ∀ i, ¬ claims k i) (hfree : ∀ i, s i → owner i = none)
    (hin : ∀ i, s i → owner' i = some k) (hout : ∀ i, ¬ s i → owner' i = owner i)
    (hclaims : ∀ i, claims' k i ↔ s i) (hother : ∀ k' i, k' ≠ k → (claims' k' i ↔ claims k' i)) :
    Exact owner' claims' := by
  intro i k'
  by_cases hs : s i
  · rw [hin i hs, Option.some.injEq]
    by_cases hk : k' = k
    · simp [hk, hclaims, hs]
    · have hno : ¬ claims k' i := fun hc => by
        have ho := (h i k').mpr hc
        rw [hfree i hs] at ho
        cases ho
      simp [hother k' i hk, hno, Ne.symm hk]
  · rw [hout i hs, h i k']
    by_cases hk : k' = k
    · simp [hk, hclaims, hs, hnone]
    · exact (hother k' i hk).symm

end Exact

end Ledger
