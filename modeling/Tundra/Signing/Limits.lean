/-
  Tundra.Signing.Limits

  The bounds `parse_response` puts on a PSBT before the dependency parser sees
  it (`signing.rs`): sizes, the shape of the unsigned transaction, and the
  number of maps, of fields in a map and of bytes in a key.

  A PSBT is five magic bytes and then maps.  `prescan` walks the bytes;
  `prescan_encoding` says what it accepts in terms of the maps themselves.
-/

import Tundra.Error
import Tundra.Bitcoin
import Tundra.Lib.Wire

namespace Tundra
namespace Signing

open Checked Wire

def maxPsbtBytes : Nat := 1048576

/-- The base64 text of the longest PSBT, and two bytes of surrounding space. -/
def maxPsbtFileBytes : Nat := (maxPsbtBytes + 2) / 3 * 4 + 2

def maxInputs : Nat := 200

def maxOutputs : Nat := 400

def invalid : Error := .invalidInput "invalid or unsupported signing response"

def mismatch : Error := .invalidInput "signing response does not match the approved draft"

/-- `b"psbt\xff"`. -/
def psbtMagic : Bytes := [0x70, 0x73, 0x62, 0x74, 0xff]

def take (bytes : Bytes) (count : Nat) : Result (Bytes × Bytes) :=
  okOr (takeBytes count bytes) invalid

def count (bytes : Bytes) : Result (Nat × Bytes) :=
  okOr (decodeCompactSize bytes) invalid

/-! ## The shape of the unsigned transaction -/

/-- Skip `n` inputs, each with an empty scriptSig. -/
def skipInputs : Nat → Bytes → Result Bytes
  | 0, bytes => .ok bytes
  | n + 1, bytes => do
      let (_, bytes) ← take bytes 36
      let (scriptLen, bytes) ← count bytes
      require (scriptLen = 0) invalid
      let (_, bytes) ← take bytes 4
      skipInputs n bytes

/-- Skip `n` outputs, each with a script of at most 10,000 bytes. -/
def skipOutputs : Nat → Bytes → Result Bytes
  | 0, bytes => .ok bytes
  | n + 1, bytes => do
      let (_, bytes) ← take bytes 8
      let (size, bytes) ← count bytes
      require (size ≤ 10000) invalid
      let (_, bytes) ← take bytes size
      skipOutputs n bytes

/-- The numbers of inputs and outputs of a legacy-serialized transaction. -/
def transactionShape (bytes : Bytes) : Result (Nat × Nat) := do
  let (_, bytes) ← take bytes 4
  let (inputs, bytes) ← count bytes
  require (1 ≤ inputs ∧ inputs ≤ maxInputs) invalid
  let bytes ← skipInputs inputs bytes
  let (outputs, bytes) ← count bytes
  require (1 ≤ outputs ∧ outputs ≤ maxOutputs) invalid
  let bytes ← skipOutputs outputs bytes
  let (_, bytes) ← take bytes 4
  require (bytes = []) invalid
  .ok (inputs, outputs)

theorem transactionShape_bounds {bytes : Bytes} {i o : Nat}
    (h : transactionShape bytes = .ok (i, o)) :
    (1 ≤ i ∧ i ≤ maxInputs) ∧ (1 ≤ o ∧ o ≤ maxOutputs) := by
  simp only [transactionShape, bind_eq_ok, require_eq_ok, Prod.exists, Except.ok.injEq,
    Prod.mk.injEq] at h
  obtain ⟨_, _, _, i', _, _, _, hi, _, _, o', _, _, _, ho, _, _, _, _, _, _, _, rfl, rfl⟩ := h
  exact ⟨hi, ho⟩

/-! ## The walk over the maps -/

/-- The counts of the unsigned transaction, once it has been found. -/
abbrev Shape := Option (Nat × Nat)

/-- The fields of one map, of which at most `allow` more may follow.  The
    unsigned transaction is looked for in the `first` map only. -/
def scanFields (first : Bool) : Nat → Shape → Bytes → Result (Shape × Bytes)
  | 0, shape, rest => do
      let (keyLen, rest) ← count rest
      require (keyLen = 0) invalid
      .ok (shape, rest)
  | allow + 1, shape, rest => do
      let (keyLen, rest) ← count rest
      if keyLen = 0 then
        .ok (shape, rest)
      else
        require (keyLen ≤ 256) invalid
        let (key, rest) ← take rest keyLen
        let (valueLen, rest) ← count rest
        let (value, rest) ← take rest valueLen
        if first && key = [0] then
          require (shape = none) invalid
          let found ← transactionShape value
          scanFields first allow (some found) rest
        else
          scanFields first allow shape rest

/-- The maps after the first: exactly `remaining` of them. -/
def scanMaps : Nat → Bytes → Result Unit
  | remaining, [] => require (remaining = 0) invalid
  | 0, _ :: _ => .error invalid
  | remaining + 1, rest => do
      let (_, rest) ← scanFields false 64 none rest
      scanMaps remaining rest

/-- The checks of `parse_response` on the raw bytes of a PSBT. -/
def prescan (bytes : Bytes) : Result Unit := do
  require (bytes.length ≤ maxPsbtBytes ∧ psbtMagic <+: bytes) invalid
  let (shape, rest) ← scanFields true 64 none (bytes.drop 5)
  let (inputs, outputs) ← okOr shape invalid
  scanMaps (inputs + outputs) rest

/-! ## What the walk accepts -/

/-- `scanFields` on a list of fields instead of their bytes. -/
def fieldsShape (first : Bool) : Nat → Shape → RawFields → Result Shape
  | _, shape, [] => .ok shape
  | 0, _, _ :: _ => .error invalid
  | allow + 1, shape, (key, value) :: fields => do
      require (key.length ≤ 256) invalid
      if first && key = [0] then
        require (shape = none) invalid
        let found ← transactionShape value
        fieldsShape first allow (some found) fields
      else
        fieldsShape first allow shape fields

/-- The fields have keys, and lengths a compact size can hold. -/
def Encodable (fields : RawFields) : Prop :=
  ∀ f ∈ fields, f.1 ≠ [] ∧ f.1.length < 2 ^ 64 ∧ f.2.length < 2 ^ 64

theorem take_append (a rest : Bytes) : take (a ++ rest) a.length = .ok (a, rest) := by
  simp [take, takeBytes_append]

theorem count_append {n : Nat} (h : n < 2 ^ 64) (rest : Bytes) :
    count (compactSize n ++ rest) = .ok (n, rest) := by
  simp [count, decodeCompactSize_append h]

theorem count_closed (rest : Bytes) : count (encodeMap [] ++ rest) = .ok (0, rest) := rfl

/-- Walking the bytes of a map is walking its fields. -/
theorem scanFields_encodeMap (first : Bool) {fields : RawFields} (hf : Encodable fields)
    (allow : Nat) (shape : Shape) (rest : Bytes) :
    scanFields first allow shape (encodeMap fields ++ rest) =
      (fieldsShape first allow shape fields).map (fun s => (s, rest)) := by
  induction fields generalizing allow shape with
  | nil =>
      cases allow <;> simp only [scanFields, fieldsShape, count_closed, ok_bind] <;> rfl
  | cons field fields ih =>
      obtain ⟨key, value⟩ := field
      obtain ⟨hkey, hklen, hvlen⟩ := hf (key, value) (List.mem_cons_self ..)
      have hpos : key.length ≠ 0 := by simpa using hkey
      have htail : Encodable fields := fun f h => hf f (List.mem_cons_of_mem _ h)
      have hbytes : encodeMap ((key, value) :: fields) ++ rest =
          compactSize key.length ++ (key ++ (compactSize value.length ++
            (value ++ (encodeMap fields ++ rest)))) := by
        simp [encodeMap_cons, encodeField, varBytes, List.append_assoc]
      rw [hbytes]
      cases allow with
      | zero =>
          simp [scanFields, fieldsShape, count_append hklen, require, hpos, Except.map]
      | succ allow =>
          simp only [scanFields, count_append hklen, ok_bind, if_neg hpos, fieldsShape,
            take_append, count_append hvlen]
          by_cases h256 : key.length ≤ 256
          · rw [require_of h256, ok_bind, ok_bind]
            by_cases hzero : (first && decide (key = [0])) = true
            · simp only [hzero, if_true]
              by_cases hs : shape = none
              · rw [require_of hs, ok_bind, ok_bind]
                cases ht : transactionShape value with
                | error e => rfl
                | ok found => exact ih htail allow (some found)
              · rw [require_of_not hs]
                rfl
            · simp only [hzero]
              exact ih htail allow shape
          · rw [require_of_not h256]
            rfl

/-- The maps after the first are accepted by their sizes alone. -/
def WithinFieldLimits (fields : RawFields) : Prop :=
  fields.length ≤ 64 ∧ ∀ f ∈ fields, f.1.length ≤ 256

theorem fieldsShape_false {allow : Nat} {shape s : Shape} {fields : RawFields} :
    fieldsShape false allow shape fields = .ok s ↔
      s = shape ∧ fields.length ≤ allow ∧ ∀ f ∈ fields, f.1.length ≤ 256 := by
  induction fields generalizing allow with
  | nil => simp [fieldsShape, eq_comm]
  | cons field fields ih =>
      cases allow with
      | zero => simp [fieldsShape]
      | succ allow =>
          simp only [fieldsShape, Bool.false_and, Bool.false_eq_true, if_false, bind_eq_ok,
            require_eq_ok, exists_const, ih, List.length_cons, Nat.add_le_add_iff_right,
            List.forall_mem_cons]
          tauto

theorem scanMaps_encode {maps : List RawFields} (hm : ∀ m ∈ maps, Encodable m) (n : Nat) :
    scanMaps n (maps.flatMap encodeMap) = .ok () ↔
      maps.length = n ∧ ∀ m ∈ maps, WithinFieldLimits m := by
  induction maps generalizing n with
  | nil =>
      rw [List.flatMap_nil, scanMaps, require_eq_ok]
      simp [eq_comm]
  | cons m maps ih =>
      have hne : ∃ b bs, (m :: maps).flatMap encodeMap = b :: bs := by
        rw [List.flatMap_cons, encodeMap]
        cases hx : m.flatMap encodeField with
        | nil => exact ⟨_, _, rfl⟩
        | cons b bs => exact ⟨_, _, rfl⟩
      obtain ⟨b, bs, hbs⟩ := hne
      cases n with
      | zero => simp [hbs, scanMaps]
      | succ n =>
          have hstep : scanMaps (n + 1) ((m :: maps).flatMap encodeMap) =
              (do
                let (_, rest) ← scanFields false 64 none ((m :: maps).flatMap encodeMap)
                scanMaps n rest) := by
            rw [hbs, scanMaps]
            exact List.cons_ne_nil b bs
          rw [hstep, List.flatMap_cons,
            scanFields_encodeMap false (hm m (List.mem_cons_self ..)) 64 none]
          cases hs : fieldsShape false 64 none m with
          | error e =>
              have hno : ¬ WithinFieldLimits m := fun h => by
                rw [fieldsShape_false.mpr ⟨rfl, h⟩] at hs
                cases hs
              simp [Except.map, hno]
          | ok s =>
              have hyes : WithinFieldLimits m := (fieldsShape_false.mp hs).2
              simp [Except.map, ih (fun m' h => hm m' (List.mem_cons_of_mem _ h)), hyes]

/-- The scan of a PSBT written as maps: the size is bounded, the first map
    holds one unsigned transaction of an accepted shape, there is one map for
    each input and output, and no map has too many fields or too long a key. -/
theorem prescan_encoding {first : RawFields} {maps : List RawFields}
    (hfirst : Encodable first) (hmaps : ∀ m ∈ maps, Encodable m) :
    prescan (psbtMagic ++ (encodeMap first ++ maps.flatMap encodeMap)) = .ok () ↔
      (psbtMagic ++ (encodeMap first ++ maps.flatMap encodeMap)).length ≤ maxPsbtBytes ∧
      ∃ i o, fieldsShape true 64 none first = .ok (some (i, o)) ∧
        maps.length = i + o ∧ ∀ m ∈ maps, WithinFieldLimits m := by
  have hdrop : (psbtMagic ++ (encodeMap first ++ maps.flatMap encodeMap)).drop 5 =
      encodeMap first ++ maps.flatMap encodeMap := rfl
  have hpre : psbtMagic <+: psbtMagic ++ (encodeMap first ++ maps.flatMap encodeMap) :=
    List.prefix_append ..
  simp only [prescan, bind_eq_ok, require_eq_ok, hdrop, scanFields_encodeMap true hfirst,
    exists_const, hpre, and_true, Prod.exists, okOr_eq_ok]
  refine and_congr_right fun _ => ?_
  cases hs : fieldsShape true 64 none first with
  | error e => simp [Except.map]
  | ok s =>
      simp only [Except.map, Except.ok.injEq, Prod.mk.injEq]
      constructor
      · rintro ⟨_, _, ⟨rfl, rfl⟩, i, o, rfl, h⟩
        exact ⟨i, o, rfl, (scanMaps_encode hmaps _).mp h⟩
      · rintro ⟨i, o, rfl, h⟩
        exact ⟨_, _, ⟨rfl, rfl⟩, i, o, rfl, (scanMaps_encode hmaps _).mpr h⟩

end Signing
end Tundra
