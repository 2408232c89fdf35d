/-
  Tundra.Lib.Ascii

  Bytes and numbers as text: hexadecimal and decimal digits, and base64 with
  its padding.  Every form has a reader that gives back what was written, and
  base64 also the length of its text and the bytes it is made of.
-/

import Mathlib.Tactic.Common
import Mathlib.Tactic.IntervalCases
import Mathlib.Data.List.Basic

namespace Ascii

/-- A byte is determined by its number. -/
theorem ofNat_eq {b : UInt8} {n : Nat} (h : n = b.toNat) : UInt8.ofNat n = b := by
  rw [h, UInt8.ofNat_toNat]

/-! ## Hexadecimal -/

/-- The lower-case hexadecimal digit of a number below 16. -/
def hexChar (n : Nat) : Char :=
  if n < 10 then Char.ofNat (48 + n) else Char.ofNat (87 + n)

/-- The number of a digit, in either case. -/
def hexValue (c : Char) : Option Nat :=
  if 48 ≤ c.toNat ∧ c.toNat ≤ 57 then some (c.toNat - 48)
  else if 97 ≤ c.toNat ∧ c.toNat ≤ 102 then some (c.toNat - 87)
  else if 65 ≤ c.toNat ∧ c.toNat ≤ 70 then some (c.toNat - 55)
  else none

theorem hexValue_hexChar {n : Nat} (h : n < 16) : hexValue (hexChar n) = some n := by
  interval_cases n <;> decide

/-- The two digits of a byte, high half first. -/
def hexPair (b : UInt8) : List Char := [hexChar (b.toNat / 16), hexChar (b.toNat % 16)]

def hexChars (bytes : List UInt8) : List Char := bytes.flatMap hexPair

def readHex : List Char → Option (List UInt8)
  | [] => some []
  | [_] => none
  | hi :: lo :: rest => do
      let h ← hexValue hi
      let l ← hexValue lo
      let bytes ← readHex rest
      some (UInt8.ofNat (16 * h + l) :: bytes)

theorem readHex_hexChars (bytes : List UInt8) : readHex (hexChars bytes) = some bytes := by
  induction bytes with
  | nil => rfl
  | cons b bytes ih =>
      have hb : b.toNat < 256 := b.toNat_lt_size
      have hhi : hexValue (hexChar (b.toNat / 16)) = some (b.toNat / 16) :=
        hexValue_hexChar (by omega)
      have hlo : hexValue (hexChar (b.toNat % 16)) = some (b.toNat % 16) :=
        hexValue_hexChar (by omega)
      have hstep : hexChars (b :: bytes) =
          hexChar (b.toNat / 16) :: hexChar (b.toNat % 16) :: hexChars bytes := rfl
      rw [hstep, readHex, hhi, hlo, ih]
      simp only [Option.bind_eq_bind, Option.bind_some]
      rw [ofNat_eq (b := b) (by omega)]

@[simp] theorem length_hexChars (bytes : List UInt8) :
    (hexChars bytes).length = 2 * bytes.length := by
  induction bytes with
  | nil => rfl
  | cons b bytes ih =>
      have hstep : hexChars (b :: bytes) = hexPair b ++ hexChars bytes := rfl
      rw [hstep, List.length_append, ih, List.length_cons]
      simp only [hexPair, List.length_cons, List.length_nil]
      omega

/-- The bytes of a hexadecimal text; nothing when it is malformed. -/
def hex (s : String) : List UInt8 := (readHex s.toList).getD []

/-! ## Decimal -/

/-- The number of a decimal text, which has no leading zeros. -/
def readDecimal (chars : List Char) : Option Nat :=
  if Nat.toDigits 10 (Nat.ofDigitChars 10 chars 0) = chars then
    some (Nat.ofDigitChars 10 chars 0)
  else none

theorem readDecimal_toDigits (n : Nat) : readDecimal (Nat.toDigits 10 n) = some n := by
  have hread : Nat.ofDigitChars 10 (Nat.toDigits 10 n) 0 = n :=
    Nat.ofDigitChars_toDigits (by omega) (by omega)
  rw [readDecimal, hread, if_pos rfl]

theorem length_toDigits_le {n k : Nat} (hk : 0 < k) (h : n < 10 ^ k) :
    (Nat.toDigits 10 n).length ≤ k :=
  (Nat.length_toDigits_le_iff (by omega) hk).mpr h

/-! ## Base64 -/

/-- The base64 letter of a number below 64. -/
def letter (n : Nat) : UInt8 :=
  if n < 26 then UInt8.ofNat (65 + n)
  else if n < 52 then UInt8.ofNat (71 + n)
  else if n < 62 then UInt8.ofNat (n - 4)
  else if n = 62 then 43
  else 47

def letterValue (b : UInt8) : Option Nat :=
  if 65 ≤ b.toNat ∧ b.toNat ≤ 90 then some (b.toNat - 65)
  else if 97 ≤ b.toNat ∧ b.toNat ≤ 122 then some (b.toNat - 71)
  else if 48 ≤ b.toNat ∧ b.toNat ≤ 57 then some (b.toNat + 4)
  else if b = 43 then some 62
  else if b = 47 then some 63
  else none

theorem letterValue_letter {n : Nat} (h : n < 64) : letterValue (letter n) = some n := by
  interval_cases n <;> decide

/-- A letter is neither padding, nor white space, nor outside ASCII. -/
theorem letter_range {n : Nat} (h : n < 64) :
    letter n ≠ 61 ∧ 43 ≤ (letter n).toNat ∧ (letter n).toNat ≤ 122 := by
  interval_cases n <;> decide

def base64 : List UInt8 → List UInt8
  | [] => []
  | [a] => [letter (a.toNat / 4), letter (a.toNat % 4 * 16), 61, 61]
  | [a, b] =>
      [letter (a.toNat / 4), letter (a.toNat % 4 * 16 + b.toNat / 16),
        letter (b.toNat % 16 * 4), 61]
  | a :: b :: c :: rest =>
      letter (a.toNat / 4) :: letter (a.toNat % 4 * 16 + b.toNat / 16) ::
        letter (b.toNat % 16 * 4 + c.toNat / 64) :: letter (c.toNat % 64) :: base64 rest

/-- Reads groups of four letters; padding may end the last one. -/
def readBase64 : List UInt8 → Option (List UInt8)
  | [] => some []
  | w :: x :: y :: z :: rest =>
      if rest = [] ∧ z = 61 then
        if y = 61 then do
          let p ← letterValue w
          let q ← letterValue x
          some [UInt8.ofNat (p * 4 + q / 16)]
        else do
          let p ← letterValue w
          let q ← letterValue x
          let r ← letterValue y
          some [UInt8.ofNat (p * 4 + q / 16), UInt8.ofNat (q % 16 * 16 + r / 4)]
      else do
        let p ← letterValue w
        let q ← letterValue x
        let r ← letterValue y
        let s ← letterValue z
        let bytes ← readBase64 rest
        some (UInt8.ofNat (p * 4 + q / 16) :: UInt8.ofNat (q % 16 * 16 + r / 4) ::
          UInt8.ofNat (r % 4 * 64 + s) :: bytes)
  | _ => none

theorem readBase64_base64 (bytes : List UInt8) : readBase64 (base64 bytes) = some bytes := by
  induction bytes using base64.induct with
  | case1 => rfl
  | case2 a =>
      have ha : a.toNat < 256 := a.toNat_lt_size
      have h₁ := letterValue_letter (n := a.toNat / 4) (by omega)
      have h₂ := letterValue_letter (n := a.toNat % 4 * 16) (by omega)
      simp only [base64, readBase64, and_self, if_true, h₁, h₂, Option.bind_eq_bind,
        Option.bind_some]
      rw [ofNat_eq (b := a) (by omega)]
  | case3 a b =>
      have ha : a.toNat < 256 := a.toNat_lt_size
      have hb : b.toNat < 256 := b.toNat_lt_size
      have h₁ := letterValue_letter (n := a.toNat / 4) (by omega)
      have h₂ := letterValue_letter (n := a.toNat % 4 * 16 + b.toNat / 16) (by omega)
      have h₃ := letterValue_letter (n := b.toNat % 16 * 4) (by omega)
      have hpad := (letter_range (n := b.toNat % 16 * 4) (by omega)).1
      simp only [base64, readBase64, and_self, if_true, if_neg hpad, h₁, h₂, h₃,
        Option.bind_eq_bind, Option.bind_some]
      rw [ofNat_eq (b := a) (by omega), ofNat_eq (b := b) (by omega)]
  | case4 a b c rest ih =>
      have ha : a.toNat < 256 := a.toNat_lt_size
      have hb : b.toNat < 256 := b.toNat_lt_size
      have hc : c.toNat < 256 := c.toNat_lt_size
      have h₁ := letterValue_letter (n := a.toNat / 4) (by omega)
      have h₂ := letterValue_letter (n := a.toNat % 4 * 16 + b.toNat / 16) (by omega)
      have h₃ := letterValue_letter (n := b.toNat % 16 * 4 + c.toNat / 64) (by omega)
      have h₄ := letterValue_letter (n := c.toNat % 64) (by omega)
      have hpad := (letter_range (n := c.toNat % 64) (by omega)).1
      simp only [base64, readBase64, hpad, and_false, if_false, h₁, h₂, h₃, h₄, ih,
        Option.bind_eq_bind, Option.bind_some]
      rw [ofNat_eq (b := a) (by omega), ofNat_eq (b := b) (by omega),
        ofNat_eq (b := c) (by omega)]

theorem length_base64 (bytes : List UInt8) :
    (base64 bytes).length = (bytes.length + 2) / 3 * 4 := by
  induction bytes using base64.induct with
  | case1 => rfl
  | case2 a => simp [base64]
  | case3 a b => simp [base64]
  | case4 a b c rest ih =>
      simp only [base64, List.length_cons, ih]
      omega

/-- Base64 text is letters and padding. -/
theorem base64_range (bytes : List UInt8) :
    ∀ b ∈ base64 bytes, 43 ≤ b.toNat ∧ b.toNat ≤ 122 := by
  have hpad : 43 ≤ (61 : UInt8).toNat ∧ (61 : UInt8).toNat ≤ 122 := by decide
  induction bytes using base64.induct with
  | case1 => simp [base64]
  | case2 a =>
      have ha : a.toNat < 256 := a.toNat_lt_size
      have h₁ := (letter_range (n := a.toNat / 4) (by omega)).2
      have h₂ := (letter_range (n := a.toNat % 4 * 16) (by omega)).2
      simp only [base64, List.forall_mem_cons]
      exact ⟨h₁, h₂, hpad, hpad, by simp⟩
  | case3 a b =>
      have ha : a.toNat < 256 := a.toNat_lt_size
      have hb : b.toNat < 256 := b.toNat_lt_size
      have h₁ := (letter_range (n := a.toNat / 4) (by omega)).2
      have h₂ := (letter_range (n := a.toNat % 4 * 16 + b.toNat / 16) (by omega)).2
      have h₃ := (letter_range (n := b.toNat % 16 * 4) (by omega)).2
      simp only [base64, List.forall_mem_cons]
      exact ⟨h₁, h₂, h₃, hpad, by simp⟩
  | case4 a b c rest ih =>
      have ha : a.toNat < 256 := a.toNat_lt_size
      have hb : b.toNat < 256 := b.toNat_lt_size
      have hc : c.toNat < 256 := c.toNat_lt_size
      have h₁ := (letter_range (n := a.toNat / 4) (by omega)).2
      have h₂ := (letter_range (n := a.toNat % 4 * 16 + b.toNat / 16) (by omega)).2
      have h₃ := (letter_range (n := b.toNat % 16 * 4 + c.toNat / 64) (by omega)).2
      have h₄ := (letter_range (n := c.toNat % 64) (by omega)).2
      simp only [base64, List.forall_mem_cons]
      exact ⟨h₁, h₂, h₃, h₄, ih⟩

end Ascii
