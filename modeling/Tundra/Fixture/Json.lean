/-
  Tundra.Fixture.Json

  What the fixture's JSON reader makes of texts that need no escapes, of objects
  and lists, and of a list of two descriptors.
-/

import Tundra.Inputs
import Tundra.Fixture.Text

namespace Tundra
namespace Fixture

open Ascii Wire Descriptors

/-! ## Strings, objects and lists -/

/-- A text without quotes and escapes is read up to its quote. -/
theorem readText_append {chars : List Char} (rest : List Char) (h : ∀ c ∈ chars, c ≠ '"' ∧ c ≠ '\\') :
    readText (chars ++ '"' :: rest) = some (chars, rest) := by
  induction chars with
  | nil => rfl
  | cons c chars ih =>
      obtain ⟨hquote, hescape⟩ := h c List.mem_cons_self
      rw [List.cons_append, readText]
      · rw [ih fun d hd => h d (List.mem_cons_of_mem c hd)]
        rfl
      · exact hquote
      · exact fun _ hc _ => hescape hc
      · exact fun _ hc _ => hescape hc
      · exact hescape

theorem readValue_text (fuel : Nat) {chars : List Char} (rest : List Char)
    (h : ∀ c ∈ chars, c ≠ '"' ∧ c ≠ '\\') :
    readValue (fuel + 1) ('"' :: (chars ++ '"' :: rest)) =
      some (.string (String.ofList chars), rest) := by
  have hskip : skipSpace ('"' :: (chars ++ '"' :: rest)) = '"' :: (chars ++ '"' :: rest) := rfl
  rw [readValue, hskip]
  show (readText (chars ++ '"' :: rest)).map _ = _
  rw [readText_append rest h]
  rfl

/-- One field of an object whose value has been read. -/
theorem readFields_value (fuel : Nat) {key : List Char} {value : List Char} {v : Json}
    {rest : List Char} (hkey : ∀ c ∈ key, c ≠ '"' ∧ c ≠ '\\')
    (hvalue : readValue fuel value = some (v, rest)) :
    readFields (fuel + 1) ('"' :: (key ++ '"' :: ':' :: value)) =
      match skipSpace rest with
      | ',' :: rest =>
          (readFields fuel rest).map (fun r => ((String.ofList key, v) :: r.1, r.2))
      | '\x7d' :: rest => some ([(String.ofList key, v)], rest)
      | _ => none := by
  have hskip : skipSpace ('"' :: (key ++ '"' :: ':' :: value)) =
      '"' :: (key ++ '"' :: ':' :: value) := rfl
  rw [readFields, hskip]
  show (readText (key ++ '"' :: ':' :: value)).bind _ = _
  rw [readText_append _ hkey, Option.bind_some]
  show (readValue fuel value).bind _ = _
  rw [hvalue]
  rfl

theorem readValue_object {fuel : Nat} {chars rest : List Char} {fields : List (String × Json)}
    (h : readFields fuel ('"' :: chars) = some (fields, rest)) :
    readValue (fuel + 1) ('\x7b' :: '"' :: chars) = some (.object fields, rest) := by
  have hskip : skipSpace ('\x7b' :: '"' :: chars) = '\x7b' :: '"' :: chars := rfl
  rw [readValue, hskip]
  show (readFields fuel ('"' :: chars)).map _ = _
  rw [h]
  rfl

theorem readValue_array {fuel : Nat} {chars rest : List Char} {items : List Json}
    (h : readItems fuel ('\x7b' :: chars) = some (items, rest)) :
    readValue (fuel + 1) ('[' :: '\x7b' :: chars) = some (.array items, rest) := by
  have hskip : skipSpace ('[' :: '\x7b' :: chars) = '[' :: '\x7b' :: chars := rfl
  rw [readValue, hskip]
  show (readItems fuel ('\x7b' :: chars)).map _ = _
  rw [h]
  rfl

theorem readItems_last {fuel : Nat} {chars rest : List Char} {v : Json}
    (h : readValue fuel chars = some (v, ']' :: rest)) :
    readItems (fuel + 1) chars = some ([v], rest) := by
  rw [readItems, h]
  rfl

theorem readItems_more {fuel : Nat} {chars rest rest' : List Char} {v : Json} {items : List Json}
    (h : readValue fuel chars = some (v, ',' :: rest))
    (hmore : readItems fuel rest = some (items, rest')) :
    readItems (fuel + 1) chars = some (v :: items, rest') := by
  rw [readItems, h]
  show (readItems fuel rest).map _ = _
  rw [hmore]
  rfl

/-- An object that has been read to its end. -/
theorem parseJson_object {text : String} {chars : List Char} {fields : List (String × Json)}
    (htext : text.toList = '\x7b' :: '"' :: chars)
    (hfields : readFields 15 ('"' :: chars) = some (fields, [])) :
    parseJson text = some (.object fields) := by
  rw [parseJson, htext, readValue_object hfields]
  rfl

/-! ## Objects of texts -/

/-- The fields of an object whose values are all texts, up to its end. -/
def textFields : List Char × List Char → List (List Char × List Char) → List Char
  | (key, text), [] => '"' :: (key ++ '"' :: ':' :: '"' :: (text ++ '"' :: ['\x7d']))
  | (key, text), field :: fields =>
      '"' :: (key ++ '"' :: ':' :: '"' :: (text ++ '"' :: ',' :: textFields field fields))

/-- Texts without quotes and escapes are read field by field. -/
theorem readFields_texts {field : List Char × List Char} {fields : List (List Char × List Char)}
    (fuel : Nat) (h : ∀ f ∈ field :: fields, ∀ c ∈ f.1 ++ f.2, c ≠ '"' ∧ c ≠ '\\') :
    readFields (fuel + fields.length + 2) (textFields field fields) =
      some ((field :: fields).map (fun f => (String.ofList f.1, .string (String.ofList f.2))),
        []) := by
  induction fields generalizing field with
  | nil =>
      obtain ⟨hkey, htext⟩ := List.forall_mem_append.mp (h field List.mem_cons_self)
      exact readFields_value _ hkey (readValue_text _ ['\x7d'] htext)
  | cons next fields ih =>
      obtain ⟨hfirst, hrest⟩ := List.forall_mem_cons.mp h
      obtain ⟨hkey, htext⟩ := List.forall_mem_append.mp hfirst
      have hvalue := readFields_value (fuel + fields.length + 2) hkey
        (readValue_text (fuel + fields.length + 1) (',' :: textFields next fields) htext)
      refine hvalue.trans ?_
      show (readFields (fuel + fields.length + 2) _).map _ = _
      rw [ih hrest]
      rfl

/-! ## A list of two descriptors -/

/-- One row of the list. -/
def rowChars (text : List Char) (internal : Bool) (rest : List Char) : List Char :=
  '\x7b' :: '"' :: ("desc".toList ++ '"' :: ':' :: '"' :: (text ++ '"' :: ',' :: '"' ::
    ("internal".toList ++ '"' :: ':' ::
      ((if internal then "true".toList else "false".toList) ++ '\x7d' :: rest))))

def listFields (receive change : List Char) : List Char :=
  '"' :: ("descriptors".toList ++ '"' :: ':' :: '[' ::
    rowChars receive false (',' :: rowChars change true [']', '\x7d']))

theorem readValue_row (fuel : Nat) {text : List Char} (internal : Bool) (rest : List Char)
    (h : ∀ c ∈ text, c ≠ '"' ∧ c ≠ '\\') :
    readValue (fuel + 4) (rowChars text internal rest) =
      some (.object [("desc", .string (String.ofList text)), ("internal", .bool internal)], rest) := by
  have hkey : ∀ c ∈ "desc".toList, c ≠ '"' ∧ c ≠ '\\' :=
    List.forall_iff_forall_mem.mp (by decide)
  have hkey' : ∀ c ∈ "internal".toList, c ≠ '"' ∧ c ≠ '\\' :=
    List.forall_iff_forall_mem.mp (by decide)
  have hbool : readValue (fuel + 1)
      ((if internal then "true".toList else "false".toList) ++ '\x7d' :: rest) =
      some (.bool internal, '\x7d' :: rest) := by
    cases internal <;> rfl
  have hsecond := readFields_value (fuel + 1) hkey' hbool
  have hfirst := readFields_value (fuel + 2) hkey (readValue_text (fuel + 1)
    (',' :: '"' :: ("internal".toList ++ '"' :: ':' ::
      ((if internal then "true".toList else "false".toList) ++ '\x7d' :: rest))) h)
  refine readValue_object (hfirst.trans ?_)
  show (readFields (fuel + 2) _).map _ = _
  rw [hsecond]
  rfl

theorem readFields_list {receive change : List Char} (hreceive : ∀ c ∈ receive, c ≠ '"' ∧ c ≠ '\\')
    (hchange : ∀ c ∈ change, c ≠ '"' ∧ c ≠ '\\') :
    readFields 15 (listFields receive change) =
      some ([("descriptors", .array
        [.object [("desc", .string (String.ofList receive)), ("internal", .bool false)],
          .object [("desc", .string (String.ofList change)), ("internal", .bool true)]])], []) := by
  have hkey : ∀ c ∈ "descriptors".toList, c ≠ '"' ∧ c ≠ '\\' :=
    List.forall_iff_forall_mem.mp (by decide)
  have hrow := readValue_row 8 false (',' :: rowChars change true [']', '\x7d']) hreceive
  have hrow' := readValue_row 7 true [']', '\x7d'] hchange
  have hitems := readItems_more hrow (readItems_last hrow')
  exact readFields_value 14 hkey (readValue_array hitems)

theorem toList_pairText (receive change : String) :
    ("\x7b\"descriptors\":[\x7b\"desc\":\"" ++ receive ++
      "\",\"internal\":false\x7d,\x7b\"desc\":\"" ++ change ++
      "\",\"internal\":true\x7d]\x7d").toList =
      '\x7b' :: listFields receive.toList change.toList := by
  have hopen : "\x7b\"descriptors\":[\x7b\"desc\":\"".toList =
      '\x7b' :: '"' :: ("descriptors".toList ++ '"' :: ':' :: '[' :: '\x7b' :: '"' ::
        ("desc".toList ++ ['"', ':', '"'])) := by decide
  have hbetween : "\",\"internal\":false\x7d,\x7b\"desc\":\"".toList =
      '"' :: ',' :: '"' :: ("internal".toList ++ '"' :: ':' :: ("false".toList ++ '\x7d' :: ',' ::
        '\x7b' :: '"' :: ("desc".toList ++ ['"', ':', '"']))) := by decide
  have hclose : "\",\"internal\":true\x7d]\x7d".toList =
      '"' :: ',' :: '"' :: ("internal".toList ++ '"' :: ':' :: ("true".toList ++
        ['\x7d', ']', '\x7d'])) := by decide
  simp only [String.toList_append, hopen, hbetween, hclose, listFields, rowChars,
    List.append_assoc, List.cons_append, List.nil_append, if_true, Bool.false_eq_true, if_false]

theorem toList_pairJson (receive change : String) :
    (descriptorPairJson receive change).toList =
      '\x7b' :: listFields receive.toList change.toList :=
  toList_pairText receive change

/-- The list of two texts without quotes and escapes is read back. -/
theorem parse_pairJson {receive change : String} (hreceive : ∀ c ∈ receive.toList, c ≠ '"' ∧ c ≠ '\\')
    (hchange : ∀ c ∈ change.toList, c ≠ '"' ∧ c ≠ '\\') :
    parseJson (descriptorPairJson receive change) = some (descriptorList receive change) := by
  have hfields := readFields_list hreceive hchange
  rw [String.ofList_toList, String.ofList_toList] at hfields
  exact parseJson_object (toList_pairJson receive change) hfields

end Fixture
end Tundra
