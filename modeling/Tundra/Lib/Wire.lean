/-
  Tundra.Lib.Wire

  Byte formats read from the front.  A `Decoder` returns the value and the
  bytes after it, so decoders compose, and a format is a pair of an encoder
  and a decoder that reads the encoding back whatever follows it
  (`RoundTrips`).  The combinators cover fixed-width little-endian integers,
  compact sizes, length-prefixed byte strings, counted lists and the
  key-value maps that end with an empty key.
-/

import Mathlib.Tactic.Common
import Mathlib.Tactic.Ring
import Mathlib.Data.List.Basic

namespace Wire

/-- Reads a value from the front of a byte string; `none` when it is malformed. -/
abbrev Decoder (α : Type) := List UInt8 → Option (α × List UInt8)

/-- `dec` reads back every encoding of a value that satisfies `P`. -/
def RoundTrips {α : Type} (enc : α → List UInt8) (dec : Decoder α) (P : α → Prop) : Prop :=
  ∀ a, P a → ∀ rest, dec (enc a ++ rest) = some (a, rest)

/-! ## Fixed numbers of bytes -/

/-- The first `n` bytes. -/
def takeBytes : Nat → Decoder (List UInt8)
  | 0, bytes => some ([], bytes)
  | _ + 1, [] => none
  | n + 1, b :: bytes => (takeBytes n bytes).map (fun r => (b :: r.1, r.2))

theorem takeBytes_eq_some {n : Nat} {bytes a rest : List UInt8} :
    takeBytes n bytes = some (a, rest) ↔ bytes = a ++ rest ∧ a.length = n := by
  induction n generalizing bytes a with
  | zero =>
      simp only [takeBytes, Option.some.injEq, Prod.mk.injEq, List.length_eq_zero_iff]
      constructor
      · rintro ⟨rfl, rfl⟩
        exact ⟨rfl, rfl⟩
      · rintro ⟨h, rfl⟩
        exact ⟨rfl, h⟩
  | succ n ih =>
      cases bytes with
      | nil =>
          simp only [takeBytes, reduceCtorEq, false_iff, not_and]
          intro h hlen
          have ha := congrArg List.length h
          rw [List.length_append, hlen, List.length_nil] at ha
          omega
      | cons b bytes =>
          simp only [takeBytes, Option.map_eq_some_iff, Prod.mk.injEq]
          constructor
          · rintro ⟨⟨a', r'⟩, h, rfl, rfl⟩
            obtain ⟨h₁, h₂⟩ := ih.mp h
            exact ⟨by simp [h₁], by simp [h₂]⟩
          · rintro ⟨h, hlen⟩
            cases a with
            | nil => simp at hlen
            | cons c a =>
                simp only [List.cons_append, List.cons.injEq] at h
                exact ⟨(a, rest), ih.mpr ⟨h.2, by simpa using hlen⟩, by simp [h.1], rfl⟩

theorem takeBytes_append (a rest : List UInt8) :
    takeBytes a.length (a ++ rest) = some (a, rest) :=
  takeBytes_eq_some.mpr ⟨rfl, rfl⟩

/-! ## Little-endian integers -/

/-- The `width` low bytes of a number, least significant first. -/
def leBytes : Nat → Nat → List UInt8
  | 0, _ => []
  | width + 1, n => UInt8.ofNat n :: leBytes width (n / 256)

/-- The number a little-endian byte string stands for. -/
def leValue : List UInt8 → Nat
  | [] => 0
  | b :: bytes => b.toNat + 256 * leValue bytes

@[simp] theorem leBytes_length (width n : Nat) : (leBytes width n).length = width := by
  induction width generalizing n with
  | zero => rfl
  | succ width ih => simp [leBytes, ih]

theorem leValue_leBytes {width n : Nat} (h : n < 256 ^ width) : leValue (leBytes width n) = n := by
  induction width generalizing n with
  | zero =>
      simp only [pow_zero, Nat.lt_one_iff] at h
      simp [leBytes, leValue, h]
  | succ width ih =>
      have hdiv : n / 256 < 256 ^ width := by
        rw [pow_succ] at h
        exact Nat.div_lt_of_lt_mul (by omega)
      have hlow : (UInt8.ofNat n).toNat = n % 256 := rfl
      rw [leBytes, leValue, ih hdiv, hlow]
      omega

/-- Reads a little-endian integer of `width` bytes. -/
def decodeLe (width : Nat) : Decoder Nat := fun bytes =>
  (takeBytes width bytes).map (fun r => (leValue r.1, r.2))

theorem decodeLe_roundTrips (width : Nat) :
    RoundTrips (leBytes width) (decodeLe width) (fun n => n < 256 ^ width) := by
  intro n hn rest
  have ht : takeBytes width (leBytes width n ++ rest) = some (leBytes width n, rest) :=
    takeBytes_eq_some.mpr ⟨rfl, leBytes_length width n⟩
  simp [decodeLe, ht, leValue_leBytes hn]

/-! ## Compact sizes -/

/-- The shortest compact size of a number below `2 ^ 64`. -/
def compactSize (n : Nat) : List UInt8 :=
  if n < 0xfd then [UInt8.ofNat n]
  else if n < 0x10000 then 0xfd :: leBytes 2 n
  else if n < 0x100000000 then 0xfe :: leBytes 4 n
  else 0xff :: leBytes 8 n

/-- The wide form of a compact size, refused when a shorter form exists. -/
def decodeWide (width minimum : Nat) : Decoder Nat := fun bytes =>
  match decodeLe width bytes with
  | some (n, rest) => if n < minimum then none else some (n, rest)
  | none => none

/-- Reads a compact size; only the shortest form is accepted. -/
def decodeCompactSize : Decoder Nat
  | [] => none
  | b :: bytes =>
      if b.toNat < 0xfd then some (b.toNat, bytes)
      else if b = 0xfd then decodeWide 2 0xfd bytes
      else if b = 0xfe then decodeWide 4 0x10000 bytes
      else decodeWide 8 0x100000000 bytes

theorem decodeWide_leBytes (width minimum : Nat) {n : Nat} (hn : n < 256 ^ width) (hmin : minimum ≤ n)
    (rest : List UInt8) :
    decodeWide width minimum (leBytes width n ++ rest) = some (n, rest) := by
  rw [decodeWide, decodeLe_roundTrips width n hn rest]
  simp [Nat.not_lt.mpr hmin]

theorem decodeCompactSize_fd (bytes : List UInt8) :
    decodeCompactSize (0xfd :: bytes) = decodeWide 2 0xfd bytes := rfl

theorem decodeCompactSize_fe (bytes : List UInt8) :
    decodeCompactSize (0xfe :: bytes) = decodeWide 4 0x10000 bytes := rfl

theorem decodeCompactSize_ff (bytes : List UInt8) :
    decodeCompactSize (0xff :: bytes) = decodeWide 8 0x100000000 bytes := rfl

theorem compactSize_roundTrips :
    RoundTrips compactSize decodeCompactSize (fun n => n < 2 ^ 64) := by
  intro n hn rest
  unfold compactSize
  split_ifs with h₁ h₂ h₃
  · have hb : (UInt8.ofNat n).toNat = n := by
      simp only [UInt8.toNat_ofNat']
      omega
    simp [decodeCompactSize, hb, h₁]
  · rw [List.cons_append, decodeCompactSize_fd]
    exact decodeWide_leBytes 2 0xfd (by omega) (by omega) rest
  · rw [List.cons_append, decodeCompactSize_fe]
    exact decodeWide_leBytes 4 0x10000 (by omega) (by omega) rest
  · rw [List.cons_append, decodeCompactSize_ff]
    exact decodeWide_leBytes 8 0x100000000 (by omega) (by omega) rest

theorem compactSize_length_pos (n : Nat) : 0 < (compactSize n).length := by
  unfold compactSize
  split_ifs <;> simp

theorem compactSize_length_le (n : Nat) : (compactSize n).length ≤ 9 := by
  unfold compactSize
  split_ifs <;> simp

@[simp] theorem compactSize_zero : compactSize 0 = [0] := rfl

theorem decodeCompactSize_append {n : Nat} (h : n < 2 ^ 64) (rest : List UInt8) :
    decodeCompactSize (compactSize n ++ rest) = some (n, rest) :=
  compactSize_roundTrips n h rest

/-! ## Length-prefixed byte strings -/

/-- A byte string after its length. -/
def varBytes (bytes : List UInt8) : List UInt8 :=
  compactSize bytes.length ++ bytes

def decodeVarBytes : Decoder (List UInt8) := fun bytes =>
  (decodeCompactSize bytes).bind (fun r => takeBytes r.1 r.2)

theorem varBytes_roundTrips :
    RoundTrips varBytes decodeVarBytes (fun bytes => bytes.length < 2 ^ 64) := by
  intro bytes h rest
  simp [decodeVarBytes, varBytes, List.append_assoc, decodeCompactSize_append h,
    takeBytes_append]

theorem length_varBytes (bytes : List UInt8) :
    (varBytes bytes).length = (compactSize bytes.length).length + bytes.length := by
  simp [varBytes]

theorem length_le_varBytes (bytes : List UInt8) : bytes.length ≤ (varBytes bytes).length := by
  simp [varBytes]

/-! ## Lists -/

/-- Reads `n` values one after the other. -/
def decodeMany {α : Type} (dec : Decoder α) : Nat → Decoder (List α)
  | 0, bytes => some ([], bytes)
  | n + 1, bytes =>
      (dec bytes).bind (fun r => (decodeMany dec n r.2).map (fun s => (r.1 :: s.1, s.2)))

theorem decodeMany_append {α : Type} {enc : α → List UInt8} {dec : Decoder α} {P : α → Prop}
    (hrt : RoundTrips enc dec P) {l : List α} (hl : ∀ a ∈ l, P a) (rest : List UInt8) :
    decodeMany dec l.length (l.flatMap enc ++ rest) = some (l, rest) := by
  induction l with
  | nil => rfl
  | cons a l ih =>
      have ha : dec (enc a ++ (l.flatMap enc ++ rest)) = some (a, l.flatMap enc ++ rest) :=
        hrt a (hl a (List.mem_cons_self ..)) _
      have htail := ih (fun b hb => hl b (List.mem_cons_of_mem _ hb))
      simp [decodeMany, List.append_assoc, ha, htail]

theorem length_of_decodeMany {α : Type} {dec : Decoder α} {n : Nat} {bytes rest : List UInt8}
    {l : List α} (h : decodeMany dec n bytes = some (l, rest)) : l.length = n := by
  induction n generalizing bytes l with
  | zero =>
      simp only [decodeMany, Option.some.injEq, Prod.mk.injEq] at h
      rw [← h.1, List.length_nil]
  | succ n ih =>
      simp only [decodeMany, Option.bind_eq_some_iff, Option.map_eq_some_iff, Prod.mk.injEq] at h
      obtain ⟨_, _, s, hs, rfl, hrest⟩ := h
      have htail : s.1.length = n := ih (by rw [hs, ← hrest])
      rw [List.length_cons, htail]

/-- A list after its number of elements. -/
def counted {α : Type} (enc : α → List UInt8) (l : List α) : List UInt8 :=
  compactSize l.length ++ l.flatMap enc

def decodeCounted {α : Type} (dec : Decoder α) : Decoder (List α) := fun bytes =>
  (decodeCompactSize bytes).bind (fun r => decodeMany dec r.1 r.2)

theorem counted_roundTrips {α : Type} {enc : α → List UInt8} {dec : Decoder α} {P : α → Prop}
    (hrt : RoundTrips enc dec P) :
    RoundTrips (counted enc) (decodeCounted dec)
      (fun l => l.length < 2 ^ 64 ∧ ∀ a ∈ l, P a) := by
  intro l hl rest
  simp [decodeCounted, counted, List.append_assoc, decodeCompactSize_append hl.1,
    decodeMany_append hrt hl.2]

/-- Every element of a list is encoded inside the whole. -/
theorem length_le_flatMap {α : Type} {e : α → List UInt8} {l : List α} {a : α} (ha : a ∈ l) :
    (e a).length ≤ (l.flatMap e).length := by
  induction l with
  | nil => simp at ha
  | cons b l ih =>
      simp only [List.flatMap_cons, List.length_append]
      rcases List.mem_cons.mp ha with rfl | h
      · omega
      · have := ih h
        omega

/-- Each encoding has a byte, so a list is no longer than its encoding. -/
theorem length_le_length_flatMap {α : Type} {e : α → List UInt8} {l : List α}
    (h : ∀ a ∈ l, 0 < (e a).length) : l.length ≤ (l.flatMap e).length := by
  induction l with
  | nil => simp
  | cons a l ih =>
      have ha := h a (List.mem_cons_self ..)
      have hl := ih (fun b hb => h b (List.mem_cons_of_mem _ hb))
      simp only [List.flatMap_cons, List.length_append, List.length_cons]
      omega

/-! ## Composed formats -/

section Composed

variable {α β : Type} {enc : α → List UInt8} {dec : Decoder α} {P : α → Prop}

/-- Two formats one after the other. -/
def decodePair (dec : Decoder α) (dec' : Decoder β) : Decoder (α × β) := fun bytes =>
  (dec bytes).bind (fun r => (dec' r.2).map (fun s => ((r.1, s.1), s.2)))

theorem pair_roundTrips {enc' : β → List UInt8} {dec' : Decoder β} {Q : β → Prop}
    (h : RoundTrips enc dec P) (h' : RoundTrips enc' dec' Q) :
    RoundTrips (fun p : α × β => enc p.1 ++ enc' p.2) (decodePair dec dec')
      (fun p => P p.1 ∧ Q p.2) := by
  intro p hp rest
  simp only [decodePair, List.append_assoc, h p.1 hp.1, h' p.2 hp.2, Option.bind_some,
    Option.map_some]

/-- A format of `α` whose values stand for those of `β`. -/
def decodeVia (f : α → Option β) (dec : Decoder α) : Decoder β := fun bytes =>
  (dec bytes).bind (fun r => (f r.1).map (fun b => (b, r.2)))

theorem via_roundTrips {f : α → Option β} {g : β → α} {Q : β → Prop} (h : RoundTrips enc dec P)
    (hg : ∀ b, Q b → P (g b) ∧ f (g b) = some b) :
    RoundTrips (fun b => enc (g b)) (decodeVia f dec) Q := by
  intro b hb rest
  obtain ⟨hP, hf⟩ := hg b hb
  simp only [decodeVia, h (g b) hP, Option.bind_some, hf, Option.map_some]

/-- Reads a byte string to its end. -/
def decodeAll (dec : Decoder α) (bytes : List UInt8) : Option α :=
  match dec bytes with
  | some (a, []) => some a
  | _ => none

theorem decodeAll_encode (h : RoundTrips enc dec P) {a : α} (ha : P a) :
    decodeAll dec (enc a) = some a := by
  have hread := h a ha []
  rw [List.append_nil] at hread
  rw [decodeAll, hread]

end Composed

/-! ## Key-value maps -/

/-- One field: key and value, each after its length. -/
def encodeField (field : List UInt8 × List UInt8) : List UInt8 :=
  varBytes field.1 ++ varBytes field.2

/-- A map: its fields, closed by an empty key. -/
def encodeMap (fields : List (List UInt8 × List UInt8)) : List UInt8 :=
  fields.flatMap encodeField ++ [0]

@[simp] theorem encodeMap_nil : encodeMap [] = [0] := rfl

theorem encodeMap_cons (field : List UInt8 × List UInt8)
    (fields : List (List UInt8 × List UInt8)) :
    encodeMap (field :: fields) = encodeField field ++ encodeMap fields := by
  simp [encodeMap, List.append_assoc]

theorem length_encodeMap (fields : List (List UInt8 × List UInt8)) :
    (encodeMap fields).length = (fields.map (fun f => (encodeField f).length)).sum + 1 := by
  simp [encodeMap, List.length_flatMap]

/-- The length of a map does not depend on the order of its fields. -/
theorem length_encodeMap_perm {l l' : List (List UInt8 × List UInt8)} (h : l.Perm l') :
    (encodeMap l).length = (encodeMap l').length := by
  simp only [encodeMap, List.length_append, (h.flatMap_right encodeField).length_eq]

/-- A field's value is shorter than any map that holds it. -/
theorem length_value_lt_encodeMap {fields : List (List UInt8 × List UInt8)}
    {field : List UInt8 × List UInt8} (h : field ∈ fields) :
    field.1.length + field.2.length < (encodeMap fields).length := by
  have hf : (encodeField field).length ≤ (fields.flatMap encodeField).length :=
    length_le_flatMap h
  have hk := length_le_varBytes field.1
  have hv := length_le_varBytes field.2
  simp only [encodeField, List.length_append] at hf
  simp only [encodeMap, List.length_append, List.length_singleton]
  omega

/-- Reads the fields of a map up to its empty key; `fuel` bounds their number. -/
def decodeFields : Nat → Decoder (List (List UInt8 × List UInt8))
  | 0, _ => none
  | fuel + 1, bytes =>
      (decodeVarBytes bytes).bind (fun key =>
        if key.1 = [] then some ([], key.2)
        else (decodeVarBytes key.2).bind (fun value =>
          (decodeFields fuel value.2).map (fun r => ((key.1, value.1) :: r.1, r.2))))

theorem decodeFields_encodeMap {fields : List (List UInt8 × List UInt8)}
    (hf : ∀ f ∈ fields, f.1 ≠ [] ∧ f.1.length < 2 ^ 64 ∧ f.2.length < 2 ^ 64) {fuel : Nat}
    (hfuel : fields.length < fuel) (rest : List UInt8) :
    decodeFields fuel (encodeMap fields ++ rest) = some (fields, rest) := by
  induction fields generalizing fuel with
  | nil =>
      obtain ⟨fuel, rfl⟩ := Nat.exists_eq_succ_of_ne_zero (Nat.ne_of_gt hfuel)
      rfl
  | cons field fields ih =>
      obtain ⟨fuel, rfl⟩ := Nat.exists_eq_succ_of_ne_zero (Nat.ne_of_gt (Nat.zero_lt_of_lt hfuel))
      obtain ⟨hkey, hk, hv⟩ := hf field (List.mem_cons_self ..)
      have htail := ih (fun f h => hf f (List.mem_cons_of_mem _ h))
        (Nat.lt_of_succ_lt_succ hfuel)
      have hbytes : encodeMap (field :: fields) ++ rest =
          varBytes field.1 ++ (varBytes field.2 ++ (encodeMap fields ++ rest)) := by
        simp [encodeMap_cons, encodeField, List.append_assoc]
      rw [hbytes, decodeFields, varBytes_roundTrips field.1 hk, Option.bind_some, if_neg hkey,
        varBytes_roundTrips field.2 hv, Option.bind_some, htail, Option.map_some]

end Wire
