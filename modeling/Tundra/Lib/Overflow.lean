/-
  Tundra.Lib.Overflow

  Fixed-width arithmetic as a program meets it.  An operation whose exact result
  does not fit panics in a build that checks overflow and wraps in one that does
  not; in both it is exact when the result fits, and only then.
-/

import Mathlib.Algebra.BigOperators.Group.List.Basic
import Mathlib.Algebra.GroupWithZero.Nat
import Mathlib.Data.UInt
import Mathlib.Tactic.Common

namespace Overflow

/-- Does the build check overflow? -/
inductive Build where
  | checked
  | wrapping
  deriving DecidableEq, Repr

/-- An exact result, or what the build makes of an overflow; `none` is a panic. -/
def settle {α : Type _} (build : Build) (fits : Prop) [Decidable fits] (wrapped : α) : Option α :=
  if fits then some wrapped
  else match build with
    | .checked => none
    | .wrapping => some wrapped

theorem settle_of {α : Type _} {build : Build} {fits : Prop} [Decidable fits] {wrapped : α}
    (h : fits) : settle build fits wrapped = some wrapped := if_pos h

/-! ## Unsigned sums -/

/-- `u64` addition. -/
def addU64 (build : Build) (a b : UInt64) : Option UInt64 :=
  settle build (a.toNat + b.toNat < 2 ^ 64) (a + b)

/-- `iter().sum::<u64>()`. -/
def sumU64 (build : Build) (values : List UInt64) : Option UInt64 :=
  values.foldlM (addU64 build) 0

/-- The sum of the values as natural numbers. -/
def exactSum (values : List UInt64) : Nat := (values.map UInt64.toNat).sum

@[simp] theorem exactSum_nil : exactSum [] = 0 := rfl

@[simp] theorem exactSum_cons (a : UInt64) (values : List UInt64) :
    exactSum (a :: values) = a.toNat + exactSum values := by
  rw [exactSum, List.map_cons, List.sum_cons]
  rfl

theorem exactSum_perm {values values' : List UInt64} (h : values.Perm values') :
    exactSum values = exactSum values' :=
  (h.map UInt64.toNat).sum_eq

theorem addU64_of {build : Build} {a b : UInt64} (h : a.toNat + b.toNat < 2 ^ 64) :
    addU64 build a b = some (a + b) ∧ (a + b).toNat = a.toNat + b.toNat :=
  ⟨settle_of h, by rw [UInt64.toNat_add, Nat.mod_eq_of_lt h]⟩

/-- A sum that fits is exact in every build. -/
theorem sumU64_exact {build : Build} {values : List UInt64} (h : exactSum values < 2 ^ 64) :
    ∃ total, sumU64 build values = some total ∧ total.toNat = exactSum values := by
  have hgen : ∀ (values : List UInt64) (start : UInt64), start.toNat + exactSum values < 2 ^ 64 →
      ∃ total, values.foldlM (addU64 build) start = some total ∧
        total.toNat = start.toNat + exactSum values := by
    intro values
    induction values with
    | nil => exact fun start _ => ⟨start, rfl, rfl⟩
    | cons a values ih =>
        intro start hstart
        rw [exactSum_cons] at hstart ⊢
        obtain ⟨hadd, hvalue⟩ := @addU64_of build start a (by omega)
        obtain ⟨total, hrun, htotal⟩ := ih (start + a) (by omega)
        refine ⟨total, ?_, by omega⟩
        rw [List.foldlM_cons, hadd]
        exact hrun
  obtain ⟨total, hrun, htotal⟩ := hgen values 0 (by simpa using h)
  exact ⟨total, hrun, by simpa using htotal⟩

/-- A sum that is returned is the machine's own. -/
theorem sumU64_eq_sum {build : Build} {values : List UInt64} {total : UInt64}
    (h : sumU64 build values = some total) : total = values.sum := by
  have hadd : ∀ {a b c : UInt64}, addU64 build a b = some c → c = a + b := by
    intro a b c hc
    unfold addU64 settle at hc
    cases build <;> split_ifs at hc <;> cases hc <;> rfl
  have hgen : ∀ (values : List UInt64) (start : UInt64),
      values.foldlM (addU64 build) start = some total → total = start + values.sum := by
    intro values
    induction values with
    | nil =>
        intro start hrun
        cases hrun
        exact (UInt64.add_zero _).symm
    | cons a values ih =>
        intro start hrun
        rw [List.foldlM_cons, Option.bind_eq_bind, Option.bind_eq_some_iff] at hrun
        obtain ⟨mid, hmid, hrest⟩ := hrun
        rw [ih mid hrest, hadd hmid, List.sum_cons, UInt64.add_assoc]
  rw [hgen values 0 h, UInt64.zero_add]

/-- A sum is exact only when it fits. -/
theorem lt_of_exact {values : List UInt64} {total : UInt64}
    (h : total.toNat = exactSum values) : exactSum values < 2 ^ 64 := h ▸ total.toNat_lt

/-! ## Signed differences -/

/-- `i64` subtraction. -/
def subI64 (build : Build) (a b : Int64) : Option Int64 :=
  settle build (-2 ^ 63 ≤ a.toInt - b.toInt ∧ a.toInt - b.toInt < 2 ^ 63) (a - b)

/-- `as i64` keeps a value that is at most `i64::MAX`, and no other. -/
theorem toInt_toInt64 (a : UInt64) : a.toInt64.toInt = (a.toNat : Int) ↔ a.toNat < 2 ^ 63 := by
  constructor
  · intro h
    have hlt := a.toInt64.toInt_lt
    omega
  · intro h
    show a.toBitVec.toInt = _
    rw [BitVec.toInt_eq_toNat_of_lt (by
      have hsame : a.toBitVec.toNat = a.toNat := rfl
      omega)]
    rfl

/-- The difference of two values that are not negative is exact. -/
theorem subI64_exact {build : Build} {a b : Int64} (ha : 0 ≤ a.toInt) (hb : 0 ≤ b.toInt) :
    subI64 build a b = some (a - b) ∧ (a - b).toInt = a.toInt - b.toInt := by
  have hlt := a.toInt_lt
  have hlt' := b.toInt_lt
  refine ⟨settle_of ⟨by omega, by omega⟩, ?_⟩
  rw [Int64.toInt_sub, Int.bmod_eq_of_le (by omega) (by omega)]

end Overflow
