/-
  Tundra.Text

  The parts of Rust's `str` and of `serde_json::Value` that the engine uses on
  names, labels and label files.
-/

import Mathlib.Tactic.Common
import Mathlib.Data.String.Basic

namespace Tundra

/-- A property of the characters of a text is decided on the text. -/
instance decidableForallChar {p : Char → Prop} [DecidablePred p] (chars : List Char) :
    Decidable (∀ c ∈ chars, p c) :=
  List.decidableBAll p chars

/-- `char::is_control`: the Unicode category Cc. -/
def isControl (c : Char) : Bool :=
  c.val < 0x20 || (0x7f ≤ c.val && c.val ≤ 0x9f)

/-- `char::is_whitespace`: the Unicode property White_Space. -/
def isWhitespace (c : Char) : Bool :=
  (9 ≤ c.val && c.val ≤ 13) || c.val == 0x20 || c.val == 0x85 || c.val == 0xa0 ||
    c.val == 0x1680 || (0x2000 ≤ c.val && c.val ≤ 0x200a) || c.val == 0x2028 ||
    c.val == 0x2029 || c.val == 0x202f || c.val == 0x205f || c.val == 0x3000

theorem isWhitespace_of_visible {c : Char} (h : 33 ≤ c.toNat ∧ c.toNat ≤ 122) :
    isWhitespace c = false := by
  obtain ⟨hlow, hhigh⟩ := h
  simp only [isWhitespace, Bool.or_eq_false_iff, Bool.and_eq_false_iff, decide_eq_false_iff_not,
    UInt32.le_iff_toNat_le, beq_eq_false_iff_ne, ne_eq, ← UInt32.toNat_inj]
  have hval : c.val.toNat = c.toNat := rfl
  simp [hval]
  omega

/-- `str::trim`. -/
def trim (s : String) : String :=
  String.ofList (((s.toList.dropWhile isWhitespace).reverse.dropWhile isWhitespace).reverse)

theorem dropWhile_of_head {p : Char → Bool} {l : List Char}
    (h : ∀ c, l.head? = some c → p c = false) : l.dropWhile p = l := by
  cases l with
  | nil => rfl
  | cons c l =>
      have hc : ¬ p c = true := by
        rw [h c rfl]
        exact Bool.false_ne_true
      exact List.dropWhile_cons_of_neg hc

/-- A text that neither begins nor ends with white space. -/
theorem trim_of_ends {s : String} (hfirst : ∀ c, s.toList.head? = some c → isWhitespace c = false)
    (hlast : ∀ c, s.toList.getLast? = some c → isWhitespace c = false) : trim s = s := by
  have hfront : s.toList.dropWhile isWhitespace = s.toList := dropWhile_of_head hfirst
  have hback : s.toList.reverse.dropWhile isWhitespace = s.toList.reverse := by
    refine dropWhile_of_head fun c hc => hlast c ?_
    rw [← hc, List.head?_reverse]
  rw [trim, hfront, hback, List.reverse_reverse, String.ofList_toList]

/-- A text of one-byte characters has as many bytes as characters. -/
theorem utf8ByteSize_of_ascii {s : String} (h : ∀ c ∈ s.toList, c.val < 128) :
    s.utf8ByteSize = s.length := by
  have hlen : ∀ l : List Char, (∀ c ∈ l, c.val < 128) → String.utf8Len l = l.length := by
    intro l hl
    induction l with
    | nil => rfl
    | cons c l ih =>
        obtain ⟨hc, hrest⟩ := List.forall_mem_cons.mp hl
        have hsize : c.utf8Size = 1 := by
          rw [Char.utf8Size_eq_one_iff, UInt32.le_iff_toNat_le]
          exact Nat.le_of_lt_succ hc
        rw [String.utf8Len_cons, ih hrest, hsize, List.length_cons]
  rw [← String.length_toList, ← hlen s.toList h, ← String.utf8ByteSize_ofList, String.ofList_toList]

/-- Strip one carriage return from the end of a line. -/
def stripReturn (line : List Char) : List Char :=
  if line.getLast? = some '\r' then line.dropLast else line

/-- `str::lines` on characters; `current` is the line read so far, reversed. -/
def linesFrom (current : List Char) : List Char → List String
  | [] => if current = [] then [] else [String.ofList current.reverse]
  | '\n' :: rest => String.ofList (stripReturn current.reverse) :: linesFrom [] rest
  | c :: rest => linesFrom (c :: current) rest

/-- `str::lines`: the lines without their `\n` or `\r\n`; a final line needs none. -/
def lines (s : String) : List String := linesFrom [] s.toList

/-- The hexadecimal digit of a number below 16. -/
def hexDigit (n : Nat) : Char := Char.ofNat (if n < 10 then 48 + n else 87 + n)

/-- A character of a JSON string as serde_json writes it. -/
def jsonChar (c : Char) : List Char :=
  if c = '"' then ['\\', '"']
  else if c = '\\' then ['\\', '\\']
  else if c = '\n' then ['\\', 'n']
  else if c = '\r' then ['\\', 'r']
  else if c = '\t' then ['\\', 't']
  else if c = '\x08' then ['\\', 'b']
  else if c = '\x0c' then ['\\', 'f']
  else if c.toNat < 0x20 then
    ['\\', 'u', '0', '0', hexDigit (c.toNat / 16), hexDigit (c.toNat % 16)]
  else [c]

/-- The JSON text of a string. -/
def jsonString (s : String) : String :=
  String.ofList ('"' :: (s.toList.flatMap jsonChar ++ ['"']))

/-- `serde_json::Value`.  An object has each key once; a number keeps its text. -/
inductive Json where
  | null
  | bool (b : Bool)
  | number (text : String)
  | string (s : String)
  | array (items : List Json)
  | object (fields : List (String × Json))

namespace Json

/-- `Value::get` with a text index. -/
def get (v : Json) (key : String) : Option Json :=
  match v with
  | .object fields => fields.lookup key
  | _ => none

/-- `Value::as_str`. -/
def asStr : Json → Option String
  | .string s => some s
  | _ => none

/-- `Value::as_bool`. -/
def asBool : Json → Option Bool
  | .bool b => some b
  | _ => none

/-- `Value::as_array`. -/
def asArray : Json → Option (List Json)
  | .array items => some items
  | _ => none

end Json

end Tundra
