/-
  Tundra.Lib.Numeral

  Decimal numerals with a fraction.  A numeral is read as an exact rational
  number; in units of a fixed number of decimal places it is the whole number
  that its digits and the missing zeros spell, and dropping trailing zeros or
  padding with leading ones does not change it.
-/

import Mathlib.Data.Rat.Defs
import Mathlib.Algebra.Order.Field.Rat
import Mathlib.Tactic.FieldSimp
import Mathlib.Data.List.TakeWhile

namespace Numeral

/-- The number that decimal digits spell. -/
def value (digits : List Char) : Nat := Nat.ofDigitChars 10 digits 0

def Digits (chars : List Char) : Prop := ∀ c ∈ chars, c.isDigit = true

@[simp] theorem value_nil : value [] = 0 := Nat.ofDigitChars_nil

theorem value_append (l m : List Char) : value (l ++ m) = value l * 10 ^ m.length + value m := by
  rw [value, Nat.ofDigitChars_append, Nat.ofDigitChars_eq_ofDigitChars_zero, Nat.mul_comm]
  rfl

@[simp] theorem value_zeros (n : Nat) : value (List.replicate n '0') = 0 := by
  rw [value, Nat.ofDigitChars_replicate_zero, Nat.mul_zero]

@[simp] theorem value_toDigits (n : Nat) : value (Nat.toDigits 10 n) = n :=
  Nat.ofDigitChars_ten_toDigits

theorem digits_toDigits (n : Nat) : Digits (Nat.toDigits 10 n) :=
  fun _ hc => Nat.isDigit_of_mem_toDigits (by omega) (by omega) hc

theorem Digits.append {l m : List Char} (hl : Digits l) (hm : Digits m) : Digits (l ++ m) := by
  intro c hc
  rcases List.mem_append.mp hc with hc | hc
  · exact hl c hc
  · exact hm c hc

theorem digit_le {c : Char} (h : c.isDigit = true) : c.toNat - '0'.toNat ≤ 9 := by
  have hrange : 48 ≤ c.toNat ∧ c.toNat ≤ 57 := by
    simpa [Char.isDigit, UInt32.le_iff_toNat_le] using h
  have hzero : '0'.toNat = 48 := rfl
  omega

theorem value_lt {l : List Char} (h : Digits l) : value l < 10 ^ l.length := by
  induction l with
  | nil => simp
  | cons c l ih =>
      obtain ⟨hc, hl⟩ := List.forall_mem_cons.mp h
      have hdigit := digit_le hc
      have hrest := ih hl
      have hvalue : value (c :: l) = (c.toNat - '0'.toNat) * 10 ^ l.length + value l := by
        have happend := value_append [c] l
        have hone : value [c] = c.toNat - '0'.toNat := by
          rw [value, Nat.ofDigitChars_cons, Nat.ofDigitChars_nil, Nat.mul_zero, Nat.zero_add]
        rwa [hone] at happend
      have hle : (c.toNat - '0'.toNat) * 10 ^ l.length ≤ 9 * 10 ^ l.length :=
        Nat.mul_le_mul_right _ hdigit
      rw [hvalue, List.length_cons, Nat.pow_succ]
      omega

/-! ## Zeros -/

/-- A number with leading zeros up to a width. -/
def pad (width n : Nat) : List Char :=
  List.replicate (width - (Nat.toDigits 10 n).length) '0' ++ Nat.toDigits 10 n

@[simp] theorem value_pad (width n : Nat) : value (pad width n) = n := by
  rw [pad, value_append, value_zeros, value_toDigits, Nat.zero_mul, Nat.zero_add]

theorem length_pad {width n : Nat} (hwidth : 0 < width) (h : n < 10 ^ width) :
    (pad width n).length = width := by
  have hlength := (Nat.length_toDigits_le_iff (b := 10) (by omega) hwidth).mpr h
  rw [pad, List.length_append, List.length_replicate]
  omega

theorem digits_pad (width n : Nat) : Digits (pad width n) := by
  refine Digits.append (fun c hc => ?_) (digits_toDigits n)
  rw [List.eq_of_mem_replicate hc]
  rfl

/-- `trim_end_matches('0')`. -/
def trimZeros (digits : List Char) : List Char :=
  (digits.reverse.dropWhile (fun c => c = '0')).reverse

/-- What is trimmed is zeros. -/
theorem trimZeros_append (digits : List Char) :
    ∃ n, digits = trimZeros digits ++ List.replicate n '0' := by
  have hsplit := List.takeWhile_append_dropWhile (p := fun c => decide (c = '0')) (l := digits.reverse)
  refine ⟨(digits.reverse.takeWhile fun c => decide (c = '0')).length, ?_⟩
  have hzeros : digits.reverse.takeWhile (fun c => decide (c = '0')) =
      List.replicate (digits.reverse.takeWhile fun c => decide (c = '0')).length '0' := by
    refine List.eq_replicate_of_mem fun c hc => ?_
    have hzero := List.mem_takeWhile_imp hc
    exact of_decide_eq_true hzero
  have hreverse := congrArg List.reverse hsplit
  rw [List.reverse_append, List.reverse_reverse] at hreverse
  conv_lhs => rw [← hreverse]
  rw [trimZeros, hzeros, List.reverse_replicate, List.length_replicate]

theorem Digits.trimZeros {digits : List Char} (h : Digits digits) : Digits (trimZeros digits) := by
  obtain ⟨n, hn⟩ := trimZeros_append digits
  intro c hc
  apply h c
  rw [hn]
  exact List.mem_append_left _ hc

theorem trimZeros_ne_nil {digits : List Char} (h : value digits ≠ 0) : trimZeros digits ≠ [] := by
  intro hnil
  obtain ⟨n, hn⟩ := trimZeros_append digits
  rw [hnil, List.nil_append] at hn
  rw [hn, value_zeros] at h
  exact h rfl

/-! ## Decimals -/

/-- A numeral: digits, and digits after a point or no point. -/
structure Decimal where
  whole : List Char
  fraction : List Char
  whole_ne_nil : whole ≠ []
  whole_digits : Digits whole
  fraction_digits : Digits fraction

namespace Decimal

/-- The numeral as it is written. -/
def chars (d : Decimal) : List Char :=
  d.whole ++ if d.fraction = [] then [] else '.' :: d.fraction

/-- The number it stands for. -/
def toRat (d : Decimal) : ℚ := value d.whole + value d.fraction / 10 ^ d.fraction.length

/-- The number in units of so many decimal places. -/
def units (places : Nat) (d : Decimal) : Nat :=
  value d.whole * 10 ^ places + value d.fraction * 10 ^ (places - d.fraction.length)

/-- Units are exact when there are enough places. -/
theorem units_eq {places : Nat} {d : Decimal} (h : d.fraction.length ≤ places) :
    (d.units places : ℚ) = d.toRat * 10 ^ places := by
  have hsplit : (10 : ℚ) ^ places =
      10 ^ d.fraction.length * 10 ^ (places - d.fraction.length) := by
    rw [← pow_add, Nat.add_sub_cancel' h]
  have hne : (10 : ℚ) ^ d.fraction.length ≠ 0 := pow_ne_zero _ (by norm_num)
  rw [units, toRat]
  push_cast
  rw [hsplit]
  field_simp

end Decimal

end Numeral
