/-
  Tundra.Amount

  Amounts and fee rates as the user writes them (`amount.rs`), without binary
  floating point: a decimal text is read in whole satoshis, and a fee rate in
  satoshis per virtual byte is rounded up to whole satoshis per thousand weight
  units.  The readers accept exactly the decimal numerals in range and return
  their exact value (`decimal_amounts_exact`).
-/

import Tundra.Text
import Tundra.Engine
import Tundra.Signing.Draft
import Tundra.Lib.Numeral
import Mathlib.Tactic.Linarith

namespace Tundra
namespace Amount

open Checked Numeral

/-- `str::parse::<u64>` of a text without a sign. -/
def parseU64 (digits : List Char) : Option UInt64 :=
  if digits ≠ [] ∧ digits.all Char.isDigit = true ∧ value digits < 2 ^ 64 then
    some (UInt64.ofNat (value digits))
  else none

/-- `u64::checked_mul`. -/
def checkedMul (a b : UInt64) : Option UInt64 :=
  if a.toNat * b.toNat < 2 ^ 64 then some (a * b) else none

/-- `u64::saturating_mul`. -/
def saturatingMul (a b : UInt64) : UInt64 :=
  if a.toNat * b.toNat < 2 ^ 64 then a * b else UInt64.ofNat (2 ^ 64 - 1)

/-- `u64::div_ceil`. -/
def divCeil (a b : UInt64) : UInt64 := if 0 < a % b then a / b + 1 else a / b

/-- The satoshis that the digits after the point stand for. -/
def fractionSats (fraction : List Char) : Result UInt64 :=
  if fraction = [] then .ok 0
  else do
    let f ← okOr (parseU64 fraction) (.invalidInput "amount")
    .ok (f * UInt64.ofNat (10 ^ (8 - (String.ofList fraction).utf8ByteSize)))

def parseBtc (input : String) : Result UInt64 := do
  let s := trim input
  require (s ≠ "" ∧ s.utf8ByteSize ≤ 32) (.invalidInput "enter a BTC amount")
  let parts := s.toList.splitOn '.'
  let whole ← okOr parts[0]? (.invalidInput "amount")
  let fraction := parts[1]?.getD []
  require (parts[2]? = none ∧ whole ≠ [] ∧ whole.all Char.isDigit = true ∧
      (String.ofList fraction).utf8ByteSize ≤ 8 ∧ fraction.all Char.isDigit = true ∧
      ¬ ('.' ∈ s.toList ∧ fraction = []))
    (.invalidInput "use BTC with at most eight decimal places")
  let n ← okOr (parseU64 whole) (.invalidInput "amount overflow")
  let f ← fractionSats fraction
  okOr (((checkedMul n 100000000).bind (Signing.checkedAdd · f)).filter (· ≤ Engine.maxSats))
    (.invalidInput "amount exceeds Bitcoin supply")

def formatBtc (sats : UInt64) : String :=
  let whole := sats / 100000000
  let fraction := sats % 100000000
  if fraction = 0 then whole.toNat.repr
  else whole.toNat.repr ++ "." ++ String.ofList (trimZeros (pad 8 fraction.toNat))

/-- Satoshis per virtual byte, rounded up to satoshis per thousand weight units. -/
def parseFeeRate (input : String) : Result UInt64 := do
  let sats ← parseBtc input
  require (¬ (sats = 0 ∨ sats > 1000 * 100000000))
    (.invalidInput "fee rate must be greater than zero and at most 1000 sat/vB")
  .ok (divCeil sats 400000)

def formatFeeRate (satPerKwu : UInt64) : String := formatBtc (saturatingMul satPerKwu 400000)

/-! ## Machine arithmetic -/

theorem parseU64_eq_some {digits : List Char} {n : UInt64} :
    parseU64 digits = some n ↔
      digits ≠ [] ∧ Digits digits ∧ n.toNat = value digits := by
  rw [parseU64]
  constructor
  · intro h
    split_ifs at h with hc
    obtain ⟨hne, hdigits, hlt⟩ := hc
    cases h
    exact ⟨hne, List.all_eq_true.mp hdigits, UInt64.toNat_ofNat_of_lt' hlt⟩
  · rintro ⟨hne, hdigits, hn⟩
    have hlt : value digits < 2 ^ 64 := hn ▸ n.toNat_lt
    rw [if_pos ⟨hne, List.all_eq_true.mpr hdigits, hlt⟩, ← hn, UInt64.ofNat_toNat]

theorem checkedMul_eq_some {a b n : UInt64} :
    checkedMul a b = some n ↔ n.toNat = a.toNat * b.toNat := by
  rw [checkedMul]
  constructor
  · intro h
    split_ifs at h with hlt
    cases h
    rw [UInt64.toNat_mul, Nat.mod_eq_of_lt hlt]
  · intro hn
    have hlt : a.toNat * b.toNat < 2 ^ 64 := hn ▸ n.toNat_lt
    rw [if_pos hlt, Option.some.injEq]
    apply UInt64.toNat_inj.mp
    rw [UInt64.toNat_mul, Nat.mod_eq_of_lt hlt, hn]

theorem checkedAdd_eq_some {a b n : UInt64} :
    Signing.checkedAdd a b = some n ↔ n.toNat = a.toNat + b.toNat := by
  rw [Signing.checkedAdd]
  constructor
  · intro h
    split_ifs at h with hlt
    cases h
    rw [UInt64.toNat_add, Nat.mod_eq_of_lt hlt]
  · intro hn
    have hlt : a.toNat + b.toNat < 2 ^ 64 := hn ▸ n.toNat_lt
    rw [if_pos hlt, Option.some.injEq]
    apply UInt64.toNat_inj.mp
    rw [UInt64.toNat_add, Nat.mod_eq_of_lt hlt, hn]

/-- The least multiple of `b` that is not below `a`. -/
theorem divCeil_le_iff {a b : UInt64} (hb : 0 < b.toNat) (n : Nat) :
    (divCeil a b).toNat ≤ n ↔ a.toNat ≤ n * b.toNat := by
  have hdiv := Nat.div_add_mod a.toNat b.toNat
  have hmod := Nat.mod_lt a.toNat hb
  rw [divCeil]
  split_ifs with hr
  · have hr' : 0 < a.toNat % b.toNat := by
      simpa [UInt64.lt_iff_toNat_lt, UInt64.toNat_mod] using hr
    have htwo : 2 ≤ b.toNat := by
      by_contra hlt
      have hone : b.toNat = 1 := by omega
      rw [hone, Nat.mod_one] at hr'
      omega
    have hhalf : a.toNat / b.toNat ≤ a.toNat / 2 := Nat.div_le_div_left htwo (by omega)
    have hlt := a.toNat_lt
    have hsum : (a / b + 1).toNat = a.toNat / b.toNat + 1 := by
      rw [UInt64.toNat_add, UInt64.toNat_div]
      exact Nat.mod_eq_of_lt (show a.toNat / b.toNat + 1 < 2 ^ 64 by omega)
    rw [hsum]
    constructor
    · intro h
      have hle := Nat.mul_le_mul_right b.toNat h
      rw [Nat.add_mul, Nat.mul_comm (a.toNat / b.toNat)] at hle
      omega
    · intro h
      by_contra hn
      have hle := Nat.mul_le_mul_right b.toNat (show n ≤ a.toNat / b.toNat by omega)
      rw [Nat.mul_comm (a.toNat / b.toNat)] at hle
      omega
  · have hr' : a.toNat % b.toNat = 0 := by
      simpa [UInt64.lt_iff_toNat_lt, UInt64.toNat_mod] using hr
    rw [UInt64.toNat_div]
    constructor
    · intro h
      have hle := Nat.mul_le_mul_right b.toNat h
      rw [Nat.mul_comm (a.toNat / b.toNat)] at hle
      omega
    · intro h
      exact Nat.div_le_of_le_mul (by rw [Nat.mul_comm]; exact h)

/-! ## Numerals as texts -/

/-- The text of a numeral, around which white space is ignored. -/
structure Written (input : String) (d : Decimal) : Prop where
  chars : (trim input).toList = d.chars
  size : (trim input).utf8ByteSize ≤ 32
  places : d.fraction.length ≤ 8

theorem utf8ByteSize_digits {l : List Char} (h : Digits l) :
    (String.ofList l).utf8ByteSize = l.length := by
  rw [utf8ByteSize_of_ascii, ← String.length_toList, String.toList_ofList]
  intro c hc
  rw [String.toList_ofList] at hc
  have hrange : 48 ≤ c.val.toNat ∧ c.val.toNat ≤ 57 := by
    simpa [Char.isDigit, UInt32.le_iff_toNat_le] using h c hc
  rw [UInt32.lt_iff_toNat_lt]
  exact Nat.lt_of_le_of_lt hrange.2 (by decide)

theorem point_not_mem {l : List Char} (h : Digits l) : '.' ∉ l :=
  fun hmem => absurd (h '.' hmem) (by decide)

/-- The parts of a text that is split at its points: one without a point, two
    around a single point. -/
theorem splitOn_parts {s whole fraction : List Char} (hwhole : (s.splitOn '.')[0]? = some whole)
    (hfraction : (s.splitOn '.')[1]?.getD [] = fraction) (hthird : (s.splitOn '.')[2]? = none)
    (hpoint : ¬ ('.' ∈ s ∧ fraction = [])) :
    s = whole ++ if fraction = [] then [] else '.' :: fraction := by
  have hs : ['.'].intercalate (s.splitOn '.') = s := List.intercalate_splitOn '.'
  rcases hparts : s.splitOn '.' with _ | ⟨a, _ | ⟨b, _ | ⟨c, rest⟩⟩⟩
  · exact absurd hparts (List.splitOn_ne_nil '.' s)
  · rw [hparts] at hs hwhole hfraction
    cases hwhole
    cases hfraction
    simpa using hs.symm
  · rw [hparts] at hs hwhole hfraction
    cases hwhole
    have hs' : s = whole ++ '.' :: b := by simpa using hs.symm
    have hb : b = fraction := hfraction
    subst hb
    have hne : b ≠ [] := fun hnil => hpoint ⟨by rw [hs']; simp, hnil⟩
    rw [if_neg hne]
    exact hs'
  · rw [hparts] at hthird
    cases hthird

/-- The parts of a numeral. -/
def parts (d : Decimal) : List (List Char) :=
  if d.fraction = [] then [d.whole] else [d.whole, d.fraction]

theorem splitOn_chars (d : Decimal) : d.chars.splitOn '.' = parts d := by
  have hchars : List.intercalate ['.'] (parts d) = d.chars := by
    by_cases hf : d.fraction = []
    · simp [Decimal.chars, parts, hf]
    · simp [Decimal.chars, parts, hf]
  rw [← hchars]
  refine List.splitOn_intercalate '.' ?_ ?_
  · have hwhole := point_not_mem d.whole_digits
    have hfraction := point_not_mem d.fraction_digits
    unfold parts
    split_ifs <;> simp [hwhole, hfraction]
  · unfold parts
    split_ifs <;> simp

/-! ## Reading amounts -/

/-- The digits after the point in satoshis; their product fits. -/
theorem fractionSats_eq_ok {fraction : List Char} (hdigits : Digits fraction)
    (hplaces : fraction.length ≤ 8) {f : UInt64} :
    fractionSats fraction = .ok f ↔
      f.toNat = value fraction * 10 ^ (8 - fraction.length) := by
  have hlt : value fraction * 10 ^ (8 - fraction.length) < 10 ^ 8 := by
    calc value fraction * 10 ^ (8 - fraction.length)
        < 10 ^ fraction.length * 10 ^ (8 - fraction.length) :=
          Nat.mul_lt_mul_of_pos_right (value_lt hdigits) (Nat.pow_pos (by omega))
      _ = 10 ^ 8 := by rw [← Nat.pow_add, Nat.add_sub_cancel' hplaces]
  have hpow : (UInt64.ofNat (10 ^ (8 - fraction.length))).toNat = 10 ^ (8 - fraction.length) :=
    UInt64.toNat_ofNat_of_lt' (Nat.lt_of_le_of_lt
      (Nat.pow_le_pow_right (by omega) (Nat.sub_le 8 _)) (by decide))
  rw [fractionSats]
  by_cases hnil : fraction = []
  · rw [if_pos hnil, hnil, value_nil, Nat.zero_mul, Except.ok.injEq, ← UInt64.toNat_inj]
    exact eq_comm
  · rw [if_neg hnil, utf8ByteSize_digits hdigits]
    simp only [bind_eq_ok, okOr_eq_ok, Except.ok.injEq, parseU64_eq_some]
    have hproduct : ∀ n : UInt64, n.toNat = value fraction →
        (n * UInt64.ofNat (10 ^ (8 - fraction.length))).toNat =
          value fraction * 10 ^ (8 - fraction.length) := by
      intro n hn
      rw [UInt64.toNat_mul, hpow, hn]
      exact Nat.mod_eq_of_lt (Nat.lt_trans hlt (by decide))
    constructor
    · rintro ⟨n, ⟨-, -, hn⟩, rfl⟩
      exact hproduct n hn
    · intro hf
      have hfits : value fraction < 2 ^ 64 :=
        Nat.lt_trans (value_lt hdigits) (Nat.lt_of_le_of_lt
          (Nat.pow_le_pow_right (by omega) hplaces) (by decide))
      refine ⟨UInt64.ofNat (value fraction), ⟨hnil, hdigits, UInt64.toNat_ofNat_of_lt' hfits⟩, ?_⟩
      rw [← UInt64.toNat_inj, hproduct _ (UInt64.toNat_ofNat_of_lt' hfits), hf]

/-- The checked total of an amount. -/
theorem total_eq_some {n f sats : UInt64} :
    ((checkedMul n 100000000).bind (Signing.checkedAdd · f)).filter (· ≤ Engine.maxSats) =
        some sats ↔ sats.toNat = n.toNat * 10 ^ 8 + f.toNat ∧ sats ≤ Engine.maxSats := by
  rw [Option.filter_eq_some_iff, Option.bind_eq_some_iff]
  simp only [checkedMul_eq_some, checkedAdd_eq_some, decide_eq_true_eq]
  refine and_congr_left fun hle => ?_
  constructor
  · rintro ⟨m, hm, hsats⟩
    rw [hsats, hm]
    rfl
  · intro hsats
    have hlt := sats.toNat_lt
    refine ⟨UInt64.ofNat (n.toNat * 10 ^ 8), ?_, ?_⟩
    · exact UInt64.toNat_ofNat_of_lt' (show n.toNat * 10 ^ 8 < 2 ^ 64 by omega)
    · rw [UInt64.toNat_ofNat_of_lt' (show n.toNat * 10 ^ 8 < 2 ^ 64 by omega), hsats]

/-- Both parts of an amount that fits are numbers that fit. -/
theorem units_parts {d : Decimal} {sats : UInt64} (h : sats.toNat = d.units 8) :
    (UInt64.ofNat (value d.whole)).toNat = value d.whole ∧
      (UInt64.ofNat (value d.fraction * 10 ^ (8 - d.fraction.length))).toNat =
        value d.fraction * 10 ^ (8 - d.fraction.length) := by
  have hlt : d.units 8 < 2 ^ 64 := h ▸ sats.toNat_lt
  rw [Decimal.units] at hlt
  constructor
  · refine UInt64.toNat_ofNat_of_lt' (Nat.lt_of_le_of_lt ?_ hlt)
    exact Nat.le_trans (Nat.le_mul_of_pos_right _ (Nat.pow_pos (by omega))) (Nat.le_add_right ..)
  · exact UInt64.toNat_ofNat_of_lt' (Nat.lt_of_le_of_lt (Nat.le_add_left ..) hlt)

/-- The reader accepts exactly the numerals in range, and returns their value in
    satoshis. -/
theorem parseBtc_eq_ok {input : String} {sats : UInt64} :
    parseBtc input = .ok sats ↔
      ∃ d : Decimal, Written input d ∧ sats.toNat = d.units 8 ∧ sats ≤ Engine.maxSats := by
  simp only [parseBtc, bind_eq_ok, okOr_eq_ok, require_eq_ok, exists_unit, total_eq_some,
    parseU64_eq_some]
  constructor
  · rintro ⟨⟨-, hsize⟩, whole, hwhole, ⟨hthird, hne, hdigits, hplaces, hfdigits, hpoint⟩, n,
      ⟨-, -, hn⟩, f, hf, hsats, hmax⟩
    generalize hparts : ((trim input).toList.splitOn '.')[1]?.getD [] = fraction at *
    have hfraction : Digits fraction := List.all_eq_true.mp hfdigits
    rw [utf8ByteSize_digits hfraction] at hplaces
    let d : Decimal := ⟨whole, fraction, hne, List.all_eq_true.mp hdigits, hfraction⟩
    refine ⟨d, ⟨splitOn_parts hwhole hparts hthird hpoint, hsize, hplaces⟩, ?_, hmax⟩
    rw [hsats, hn, (fractionSats_eq_ok hfraction hplaces).mp hf]
    rfl
  · rintro ⟨d, ⟨hchars, hsize, hplaces⟩, hsats, hmax⟩
    have hsplit : (trim input).toList.splitOn '.' = parts d := by rw [hchars, splitOn_chars]
    have hfraction : (parts d)[1]?.getD [] = d.fraction := by
      unfold parts
      split_ifs with hnil
      · exact hnil.symm
      · rfl
    have hne : trim input ≠ "" := by
      intro hempty
      rw [hempty, Decimal.chars] at hchars
      have hwhole := congrArg List.length hchars
      have hpos := List.length_pos_iff.mpr d.whole_ne_nil
      simp at hwhole
      omega
    obtain ⟨hwhole, hsmall⟩ := units_parts hsats
    rw [hsplit]
    refine ⟨⟨hne, hsize⟩, d.whole, ?_, ⟨?_, d.whole_ne_nil, List.all_eq_true.mpr d.whole_digits,
      ?_, ?_, ?_⟩, UInt64.ofNat (value d.whole),
      ⟨d.whole_ne_nil, d.whole_digits, hwhole⟩,
      UInt64.ofNat (value d.fraction * 10 ^ (8 - d.fraction.length)), ?_, ?_, hmax⟩
    · unfold parts
      split_ifs <;> rfl
    · unfold parts
      split_ifs <;> rfl
    · rw [hfraction, utf8ByteSize_digits d.fraction_digits]
      exact hplaces
    · rw [hfraction]
      exact List.all_eq_true.mpr d.fraction_digits
    · rw [hfraction]
      rintro ⟨hmem, hnil⟩
      rw [hchars, Decimal.chars, if_pos hnil, List.append_nil] at hmem
      exact point_not_mem d.whole_digits hmem
    · rw [hfraction, fractionSats_eq_ok d.fraction_digits hplaces, hsmall]
    · rw [hwhole, hsmall, hsats, Decimal.units]

/-! ## Writing amounts -/

theorem not_whitespace_of_chars {d : Decimal} {c : Char} (h : c ∈ d.chars) :
    c.val < 128 ∧ isWhitespace c = false := by
  have hchar : c.isDigit = true ∨ c = '.' := by
    rcases List.mem_append.mp h with hc | hc
    · exact Or.inl (d.whole_digits c hc)
    · split_ifs at hc
      · cases hc
      · rcases List.mem_cons.mp hc with rfl | hc
        · exact Or.inr rfl
        · exact Or.inl (d.fraction_digits c hc)
  rcases hchar with hdigit | rfl
  · have hrange : 48 ≤ c.val.toNat ∧ c.val.toNat ≤ 57 := by
      simpa [Char.isDigit, UInt32.le_iff_toNat_le] using hdigit
    constructor
    · rw [UInt32.lt_iff_toNat_lt]
      exact Nat.lt_of_le_of_lt hrange.2 (by decide)
    · exact isWhitespace_of_visible ⟨Nat.le_trans (by decide) hrange.1,
        Nat.le_trans hrange.2 (by decide)⟩
  · exact ⟨by decide, by decide⟩

/-- A short numeral is read as it is written. -/
theorem written_chars {d : Decimal} (hlength : d.chars.length ≤ 32)
    (hplaces : d.fraction.length ≤ 8) : Written (String.ofList d.chars) d := by
  have htrim : trim (String.ofList d.chars) = String.ofList d.chars := by
    apply trim_of_ends
    · intro c hc
      rw [String.toList_ofList] at hc
      exact (not_whitespace_of_chars (List.mem_of_mem_head? hc)).2
    · intro c hc
      rw [String.toList_ofList] at hc
      exact (not_whitespace_of_chars (List.mem_of_mem_getLast? hc)).2
  have hascii : ∀ c ∈ (String.ofList d.chars).toList, c.val < 128 := by
    intro c hc
    rw [String.toList_ofList] at hc
    exact (not_whitespace_of_chars hc).1
  refine ⟨by rw [htrim, String.toList_ofList], ?_, hplaces⟩
  rw [htrim, utf8ByteSize_of_ascii hascii, ← String.length_toList, String.toList_ofList]
  exact hlength

/-- The numeral that an amount is written as. -/
def numeral (sats : UInt64) : Decimal where
  whole := Nat.toDigits 10 (sats.toNat / 10 ^ 8)
  fraction :=
    if sats.toNat % 10 ^ 8 = 0 then [] else trimZeros (pad 8 (sats.toNat % 10 ^ 8))
  whole_ne_nil := Nat.toDigits_ne_nil
  whole_digits := digits_toDigits _
  fraction_digits := by
    split_ifs
    · exact fun c hc => by cases hc
    · exact (digits_pad _ _).trimZeros

/-- The digits that are left of a fraction, and the zeros that are not. -/
theorem numeral_fraction (sats : UInt64) :
    (numeral sats).fraction.length ≤ 8 ∧
      value (numeral sats).fraction * 10 ^ (8 - (numeral sats).fraction.length) =
        sats.toNat % 10 ^ 8 := by
  by_cases hzero : sats.toNat % 10 ^ 8 = 0
  · have hnil : (numeral sats).fraction = [] := if_pos hzero
    rw [hnil, hzero]
    simp
  · have htrimmed : (numeral sats).fraction = trimZeros (pad 8 (sats.toNat % 10 ^ 8)) :=
      if_neg hzero
    obtain ⟨n, hn⟩ := trimZeros_append (pad 8 (sats.toNat % 10 ^ 8))
    have hlength := congrArg List.length hn
    have hvalue := congrArg value hn
    rw [length_pad (by omega) (Nat.mod_lt _ (by omega)), List.length_append,
      List.length_replicate] at hlength
    rw [value_pad, value_append, value_zeros, List.length_replicate, Nat.add_zero] at hvalue
    have hmissing : 8 - (trimZeros (pad 8 (sats.toNat % 10 ^ 8))).length = n := by omega
    rw [htrimmed, hmissing, ← hvalue]
    exact ⟨by omega, rfl⟩

theorem formatBtc_eq (sats : UInt64) : formatBtc sats = String.ofList (numeral sats).chars := by
  have hwhole : (sats / 100000000).toNat.repr = String.ofList (numeral sats).whole := by
    rw [UInt64.toNat_div, Nat.repr_eq_ofList_toDigits]
    rfl
  have hfraction : (sats % 100000000).toNat = sats.toNat % 10 ^ 8 := UInt64.toNat_mod ..
  simp only [formatBtc, hwhole, hfraction, ← UInt64.toNat_inj, Decimal.chars]
  have hzero : (0 : UInt64).toNat = 0 := rfl
  by_cases hnil : sats.toNat % 10 ^ 8 = 0
  · have hfractionNil : (numeral sats).fraction = [] := if_pos hnil
    rw [if_pos (by rw [hnil, hzero]), if_pos hfractionNil, List.append_nil]
  · have htrimmed : (numeral sats).fraction = trimZeros (pad 8 (sats.toNat % 10 ^ 8)) :=
      if_neg hnil
    have hne : (numeral sats).fraction ≠ [] := by
      rw [htrimmed]
      exact trimZeros_ne_nil (by rw [value_pad]; exact hnil)
    rw [if_neg (by rw [hzero]; exact hnil), if_neg hne, ← htrimmed]
    apply String.toList_inj.mp
    simp

/-- What is written is read back. -/
theorem parseBtc_formatBtc {sats : UInt64} (h : sats ≤ Engine.maxSats) :
    parseBtc (formatBtc sats) = .ok sats := by
  obtain ⟨hplaces, hfraction⟩ := numeral_fraction sats
  have hmax : sats.toNat ≤ 2100000000000000 := UInt64.le_iff_toNat_le.mp h
  rw [parseBtc_eq_ok, formatBtc_eq]
  refine ⟨numeral sats, written_chars ?_ hplaces, ?_, h⟩
  · have hwhole : (numeral sats).whole.length ≤ 8 :=
      (Nat.length_toDigits_le_iff (b := 10) (by omega) (by omega)).mpr (by omega)
    rw [Decimal.chars, List.length_append]
    split_ifs
    · simpa using Nat.le_trans hwhole (by omega)
    · rw [List.length_cons]
      omega
  · have hvalue : value (numeral sats).whole = sats.toNat / 10 ^ 8 := value_toDigits _
    rw [Decimal.units, hvalue, hfraction]
    omega

/-! ## Fee rates -/

/-- A text is the writing of one numeral only. -/
theorem Written.unique {input : String} {d d' : Decimal} (h : Written input d)
    (h' : Written input d') : d = d' := by
  have hparts : parts d = parts d' := by
    rw [← splitOn_chars, ← splitOn_chars, ← h.chars, h'.chars]
  obtain ⟨whole, fraction, _, _, _⟩ := d
  obtain ⟨whole', fraction', _, _, _⟩ := d'
  simp only [parts] at hparts
  rw [Decimal.mk.injEq]
  split_ifs at hparts with hf hf'
  · exact ⟨(List.cons.inj hparts).1, by rw [hf, hf']⟩
  · cases hparts
  · cases hparts
  · obtain ⟨hwhole, hfraction⟩ := List.cons.inj hparts
    exact ⟨hwhole, (List.cons.inj hfraction).1⟩

/-- What an accepted fee rate says, in units of the written text. -/
theorem parseFeeRate_eq_ok {input : String} {rate : UInt64} (h : parseFeeRate input = .ok rate) :
    ∃ d : Decimal, Written input d ∧
      ∀ n : Nat, rate.toNat ≤ n ↔ d.toRat ≤ (n : ℚ) * 4 / 1000 := by
  simp only [parseFeeRate, bind_eq_ok, require_eq_ok, exists_unit, Except.ok.injEq] at h
  obtain ⟨sats, hsats, -, rfl⟩ := h
  obtain ⟨d, hwritten, hunits, -⟩ := parseBtc_eq_ok.mp hsats
  refine ⟨d, hwritten, fun n => ?_⟩
  have hexact := Decimal.units_eq hwritten.places
  have hdenominator : (400000 : UInt64).toNat = 400000 := rfl
  rw [divCeil_le_iff (by rw [hdenominator]; omega), hunits, hdenominator]
  -- One satoshi per virtual byte is 250 per thousand weight units.
  have hcast : d.units 8 ≤ n * 400000 ↔ (d.units 8 : ℚ) ≤ ((n * 400000 : ℕ) : ℚ) := Nat.cast_le.symm
  rw [hcast, hexact]
  push_cast
  constructor
  · intro hle
    linarith
  · intro hle
    linarith

theorem parseFeeRate_formatFeeRate {rate : UInt64} (hpos : 1 ≤ rate) (hmax : rate ≤ 250000) :
    parseFeeRate (formatFeeRate rate) = .ok rate := by
  have hpos' : 1 ≤ rate.toNat := UInt64.le_iff_toNat_le.mp hpos
  have hmax' : rate.toNat ≤ 250000 := UInt64.le_iff_toNat_le.mp hmax
  have hfactor : (400000 : UInt64).toNat = 400000 := rfl
  have hfits : rate.toNat * (400000 : UInt64).toNat < 2 ^ 64 := by
    rw [hfactor]
    omega
  have hproduct : (rate * 400000).toNat = rate.toNat * 400000 := by
    rw [UInt64.toNat_mul, Nat.mod_eq_of_lt hfits, hfactor]
  have hlimit : rate * 400000 ≤ Engine.maxSats := by
    have hsupply : Engine.maxSats.toNat = 2100000000000000 := rfl
    rw [UInt64.le_iff_toNat_le, hproduct, hsupply]
    omega
  have hwritten : parseBtc (formatFeeRate rate) = .ok (rate * 400000) := by
    rw [formatFeeRate, saturatingMul, if_pos hfits, parseBtc_formatBtc hlimit]
  rw [parseFeeRate, hwritten, ok_bind]
  have hrange : ¬ (rate * 400000 = 0 ∨ rate * 400000 > 1000 * 100000000) := by
    rintro (hzero | hlarge)
    · have hzero' := congrArg UInt64.toNat hzero
      rw [hproduct] at hzero'
      have hnone : (0 : UInt64).toNat = 0 := rfl
      omega
    · have hlarge' := UInt64.lt_iff_toNat_lt.mp hlarge
      have hcap : (1000 * 100000000 : UInt64).toNat = 100000000000 := rfl
      omega
  rw [require_of hrange, ok_bind, Except.ok.injEq, ← UInt64.toNat_inj]
  have hle : ∀ n, (divCeil (rate * 400000) 400000).toNat ≤ n ↔ rate.toNat ≤ n := by
    intro n
    rw [divCeil_le_iff (by rw [hfactor]; omega), hproduct, hfactor]
    omega
  exact Nat.le_antisymm ((hle _).mpr (Nat.le_refl _)) ((hle _).mp (Nat.le_refl _))

/-- Amounts and fee rates are read exactly.  An amount is accepted when it is a
    numeral of at most eight decimal places and at most the supply, with its
    value in satoshis; a fee rate is the least whole rate that is not below what
    is written; what is written by the program is read back. -/
theorem decimal_amounts_exact :
    (∀ input sats, parseBtc input = .ok sats ↔
      ∃ d : Decimal, Written input d ∧ (sats.toNat : ℚ) = d.toRat * 10 ^ 8 ∧
        sats ≤ Engine.maxSats) ∧
    (∀ sats, sats ≤ Engine.maxSats → parseBtc (formatBtc sats) = .ok sats) ∧
    (∀ input rate, parseFeeRate input = .ok rate →
      ∃ d : Decimal, Written input d ∧ IsLeast {n : ℕ | d.toRat ≤ (n : ℚ) * 4 / 1000} rate.toNat) ∧
    (∀ input input' d d' rate rate', Written input d → Written input' d' →
      parseFeeRate input = .ok rate → parseFeeRate input' = .ok rate' → d.toRat ≤ d'.toRat →
      rate ≤ rate') ∧
    ∀ rate, 1 ≤ rate → rate ≤ 250000 → parseFeeRate (formatFeeRate rate) = .ok rate := by
  refine ⟨fun input sats => ?_, fun sats h => parseBtc_formatBtc h, fun input rate h => ?_, ?_,
    fun rate hpos hmax => parseFeeRate_formatFeeRate hpos hmax⟩
  · rw [parseBtc_eq_ok]
    refine exists_congr fun d => and_congr_right fun hwritten => and_congr_left fun _ => ?_
    rw [← Decimal.units_eq hwritten.places, Nat.cast_inj]
  · obtain ⟨d, hwritten, hle⟩ := parseFeeRate_eq_ok h
    exact ⟨d, hwritten, (hle _).mp (Nat.le_refl _), fun n hn => (hle n).mpr hn⟩
  · intro input input' d d' rate rate' hd hd' h h' hvalue
    obtain ⟨e, he, hle⟩ := parseFeeRate_eq_ok h
    obtain ⟨e', he', hle'⟩ := parseFeeRate_eq_ok h'
    rw [he.unique hd] at hle
    rw [he'.unique hd'] at hle'
    rw [UInt64.le_iff_toNat_le, hle]
    exact le_trans hvalue ((hle' _).mp (Nat.le_refl _))

end Amount
end Tundra
