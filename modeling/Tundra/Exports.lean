/-
  Tundra.Exports

  The text of a label export determines the rows it was made from.  A JSON
  string ends where it says (`jsonString_prefix`), so the text of a record
  determines the record and, with one record a line, the text of an export all
  of them; and the records determine labels and freezes.
-/

import Tundra.Engine

namespace Tundra
namespace Exports

open Checked Relational Engine Labels

/-! ## JSON strings -/

/-- The characters of a JSON string. -/
def quoted (s : String) : List Char := '"' :: (s.toList.flatMap jsonChar ++ ['"'])

/-- The first character of an escaped text, and what comes after it. -/
def unescape : List Char → Option (Char × List Char)
  | '\\' :: '"' :: rest => some ('"', rest)
  | '\\' :: '\\' :: rest => some ('\\', rest)
  | '\\' :: 'n' :: rest => some ('\n', rest)
  | '\\' :: 'r' :: rest => some ('\r', rest)
  | '\\' :: 't' :: rest => some ('\t', rest)
  | '\\' :: 'b' :: rest => some ('\x08', rest)
  | '\\' :: 'f' :: rest => some ('\x0c', rest)
  | '\\' :: 'u' :: '0' :: '0' :: hi :: lo :: rest =>
      some (Char.ofNat (16 * (hi.toNat - 48) +
        (if lo.toNat < 58 then lo.toNat - 48 else lo.toNat - 87)), rest)
  | c :: rest => some (c, rest)
  | [] => none

theorem unescape_control : ∀ n < 32, ∀ rest : List Char,
    unescape ('\\' :: 'u' :: '0' :: '0' :: hexDigit (n / 16) :: hexDigit (n % 16) :: rest) =
      some (Char.ofNat n, rest) := by
  have h : ∀ n < 32, Char.ofNat (16 * ((hexDigit (n / 16)).toNat - 48) +
      (if (hexDigit (n % 16)).toNat < 58 then (hexDigit (n % 16)).toNat - 48
        else (hexDigit (n % 16)).toNat - 87)) = Char.ofNat n := by decide
  intro n hn rest
  rw [unescape, h n hn]

theorem unescape_jsonChar (c : Char) (rest : List Char) :
    unescape (jsonChar c ++ rest) = some (c, rest) := by
  rw [jsonChar]
  split_ifs with hquote hslash hn hr ht hb hf hcontrol
  · rw [hquote]; rfl
  · rw [hslash]; rfl
  · rw [hn]; rfl
  · rw [hr]; rfl
  · rw [ht]; rfl
  · rw [hb]; rfl
  · rw [hf]; rfl
  · have hc := unescape_control c.toNat hcontrol rest
    rw [Char.ofNat_toNat] at hc
    exact hc
  · rw [List.singleton_append, unescape]
    all_goals intros; simp_all

/-- An escaped character does not begin like the end of the string. -/
theorem jsonChar_head (c : Char) : ∃ a l, jsonChar c = a :: l ∧ a ≠ '"' := by
  rw [jsonChar]
  split_ifs with hquote
  all_goals first
    | exact ⟨_, _, rfl, by decide⟩
    | exact ⟨_, _, rfl, hquote⟩

/-- Two escaped texts up to their quotes are the same text. -/
theorem escaped_prefix {l l' rest rest' : List Char}
    (h : l.flatMap jsonChar ++ '"' :: rest = l'.flatMap jsonChar ++ '"' :: rest') :
    l = l' ∧ rest = rest' := by
  induction l generalizing l' with
  | nil =>
      cases l' with
      | nil => exact ⟨rfl, (List.cons.inj h).2⟩
      | cons c l' =>
          obtain ⟨a, tail, hc, ha⟩ := jsonChar_head c
          rw [List.flatMap_cons, hc] at h
          exact absurd (List.cons.inj h).1.symm ha
  | cons c l ih =>
      cases l' with
      | nil =>
          obtain ⟨a, tail, hc, ha⟩ := jsonChar_head c
          rw [List.flatMap_cons, hc] at h
          exact absurd (List.cons.inj h).1 ha
      | cons c' l' =>
          rw [List.flatMap_cons, List.flatMap_cons, List.append_assoc, List.append_assoc] at h
          have hread := unescape_jsonChar c (l.flatMap jsonChar ++ '"' :: rest)
          rw [h, unescape_jsonChar, Option.some.injEq, Prod.mk.injEq] at hread
          obtain ⟨hl, hrest⟩ := ih hread.2.symm
          exact ⟨by rw [hread.1, hl], hrest⟩

/-- A JSON string ends where it says. -/
theorem quoted_cancel {s s' : String} {rest rest' : List Char}
    (h : quoted s ++ rest = quoted s' ++ rest') : s = s' ∧ rest = rest' := by
  simp only [quoted, List.cons_append, List.append_assoc] at h
  obtain ⟨hs, hrest⟩ := escaped_prefix (List.cons.inj h).2
  exact ⟨String.toList_inj.mp hs, hrest⟩

theorem toList_jsonString (s : String) : (jsonString s).toList = quoted s := by
  rw [jsonString, String.toList_ofList, quoted]

theorem newline_not_mem_quoted (s : String) : '\n' ∉ quoted s := by
  have hdigit : ∀ n < 16, hexDigit n ≠ '\n' := by decide
  have hchar (c : Char) : '\n' ∉ jsonChar c := by
    rw [jsonChar]
    split_ifs with _ _ hn _ _ _ _ hcontrol
    · decide
    · decide
    · decide
    · decide
    · decide
    · decide
    · decide
    · have hhi := hdigit (c.toNat / 16) (by omega)
      have hlo := hdigit (c.toNat % 16) (by omega)
      simp [hhi.symm, hlo.symm]
    · exact fun hmem => hn (List.mem_singleton.mp hmem).symm
  simp only [quoted, List.mem_cons, List.mem_append, List.mem_flatMap, not_or, not_exists,
    not_and]
  exact ⟨by decide, fun c _ => hchar c, by decide⟩

/-! ## Records -/

/-- A named value after a comma. -/
def member (name : String) (value : List Char) : List Char :=
  ',' :: (quoted name ++ ':' :: value)

def labelPart (label : Option String) : List Char :=
  label.elim [] fun l => member "label" (quoted l)

def spendablePart (spendable : Option Bool) : List Char :=
  spendable.elim [] fun b => member "spendable" (if b then "true" else "false").toList

def originPart (origin : Option String) : List Char :=
  origin.elim [] fun o => member "origin" (quoted o)

theorem intercalate_cons (c : Char) (l : List Char) (ls : List (List Char)) :
    List.intercalate [c] (l :: ls) = l ++ ls.flatMap (c :: ·) := by
  induction ls generalizing l with
  | nil => simp
  | cons l' ls ih => rw [List.intercalate_cons_cons, ih, List.flatMap_cons]; simp

theorem toList_fieldJson (name value : String) :
    (fieldJson name value).toList = quoted name ++ ':' :: value.toList := by
  rw [fieldJson, String.toList_append, String.toList_append, toList_jsonString, List.append_assoc]
  rfl

/-- The text of a record, part by part. -/
theorem toList_recordJson (r : LabelRecord) :
    (recordJson r).toList = '\x7b' :: (quoted "type" ++ ':' :: (quoted r.kind.key ++
      ',' :: (quoted "ref" ++ ':' :: (quoted r.reference ++ (labelPart r.label ++
        (spendablePart r.spendable ++ (originPart r.origin ++ ['\x7d']))))))) := by
  obtain ⟨kind, reference, label, spendable, origin⟩ := r
  have hparts : ((label.map (fun l => fieldJson "label" (jsonString l))).toList ++
      (spendable.map (fun b => fieldJson "spendable" (if b then "true" else "false"))).toList ++
      (origin.map (fun o => fieldJson "origin" (jsonString o))).toList).flatMap
        (fun s => ',' :: s.toList) =
      labelPart label ++ (spendablePart spendable ++ originPart origin) := by
    cases label <;> cases spendable <;> cases origin <;>
      simp [labelPart, spendablePart, originPart, member, toList_fieldJson, toList_jsonString]
  have hfields : List.intercalate [','] (([fieldJson "type" (jsonString kind.key),
        fieldJson "ref" (jsonString reference)] ++
      (label.map (fun l => fieldJson "label" (jsonString l))).toList ++
      (spendable.map (fun b => fieldJson "spendable" (if b then "true" else "false"))).toList ++
      (origin.map (fun o => fieldJson "origin" (jsonString o))).toList).map String.toList) =
      quoted "type" ++ ':' :: (quoted kind.key ++ ',' :: (quoted "ref" ++ ':' ::
        (quoted reference ++ (labelPart label ++ (spendablePart spendable ++
          originPart origin))))) := by
    rw [← hparts, List.append_assoc, List.append_assoc, List.cons_append, List.map_cons,
      intercalate_cons, List.flatMap_map]
    simp [toList_fieldJson, toList_jsonString]
  rw [recordJson, String.toList_append, String.toList_append, String.toList_intercalate]
  show '\x7b' :: (List.intercalate [','] _ ++ ['\x7d']) = _
  rw [hfields]
  simp

/-- The end of a record, or its origin: neither is another member. -/
theorem originPart_inj {origin origin' : Option String}
    (h : originPart origin ++ ['\x7d'] = originPart origin' ++ ['\x7d']) : origin = origin' := by
  cases origin with
  | none =>
      cases origin' with
      | none => rfl
      | some o' => exact absurd (List.cons.inj h).1 (by decide)
  | some o =>
      cases origin' with
      | none => exact absurd (List.cons.inj h).1 (by decide)
      | some o' =>
          simp only [originPart, Option.elim_some, member, List.cons_append, List.append_assoc,
            List.cons.injEq, true_and] at h
          obtain ⟨-, h⟩ := quoted_cancel h
          rw [(quoted_cancel (List.cons.inj h).2).1]

/-- A member is not the origin, nor the end. -/
theorem member_ne_originPart {name : String} (hname : name ≠ "origin") {value : List Char}
    {origin : Option String} {rest : List Char} :
    member name value ++ rest ≠ originPart origin ++ ['\x7d'] := by
  intro h
  cases origin with
  | none => exact absurd (List.cons.inj h).1 (by decide)
  | some o =>
      simp only [originPart, Option.elim_some, member, List.cons_append, List.append_assoc,
        List.cons.injEq, true_and] at h
      exact hname (quoted_cancel h).1

theorem spendablePart_inj {spendable spendable' : Option Bool} {origin origin' : Option String}
    (h : spendablePart spendable ++ (originPart origin ++ ['\x7d']) =
      spendablePart spendable' ++ (originPart origin' ++ ['\x7d'])) :
    spendable = spendable' ∧ origin = origin' := by
  cases spendable with
  | none =>
      cases spendable' with
      | none => exact ⟨rfl, originPart_inj h⟩
      | some b' => exact absurd h.symm (member_ne_originPart (by decide))
  | some b =>
      cases spendable' with
      | none => exact absurd h (member_ne_originPart (by decide))
      | some b' =>
          simp only [spendablePart, Option.elim_some, member, List.cons_append, List.append_assoc,
            List.cons.injEq, true_and] at h
          obtain ⟨-, h⟩ := quoted_cancel h
          have hvalue := (List.cons.inj h).2
          cases b <;> cases b'
          · exact ⟨rfl, originPart_inj (List.append_cancel_left hvalue)⟩
          · exact absurd (List.cons.inj hvalue).1 (by decide)
          · exact absurd (List.cons.inj hvalue).1 (by decide)
          · exact ⟨rfl, originPart_inj (List.append_cancel_left hvalue)⟩

/-- The label comes before the members that are not the label. -/
theorem member_label_ne {value : List Char} {spendable : Option Bool} {origin : Option String}
    {rest : List Char} :
    member "label" value ++ rest ≠
      spendablePart spendable ++ (originPart origin ++ ['\x7d']) := by
  intro h
  cases spendable with
  | none => exact member_ne_originPart (by decide) h
  | some b =>
      simp only [spendablePart, Option.elim_some, member, List.cons_append, List.append_assoc,
        List.cons.injEq, true_and] at h
      exact absurd (quoted_cancel h).1 (by decide)

theorem key_injective {kind kind' : LabelKind} (h : kind.key = kind'.key) : kind = kind' := by
  cases kind <;> cases kind' <;> first | rfl | exact absurd h (by decide)

/-- The text of a record determines the record. -/
theorem recordJson_injective {r r' : LabelRecord} (h : recordJson r = recordJson r') : r = r' := by
  have htext := congrArg String.toList h
  rw [toList_recordJson, toList_recordJson] at htext
  obtain ⟨-, htext⟩ := quoted_cancel (List.cons.inj htext).2
  obtain ⟨hkind, htext⟩ := quoted_cancel (List.cons.inj htext).2
  obtain ⟨-, htext⟩ := quoted_cancel (List.cons.inj htext).2
  obtain ⟨href, htext⟩ := quoted_cancel (List.cons.inj htext).2
  obtain ⟨kind, reference, label, spendable, origin⟩ := r
  obtain ⟨kind', reference', label', spendable', origin'⟩ := r'
  have hrest : label = label' ∧ spendable = spendable' ∧ origin = origin' := by
    cases label with
    | none =>
        cases label' with
        | none => exact ⟨rfl, spendablePart_inj htext⟩
        | some l' => exact absurd htext.symm member_label_ne
    | some l =>
        cases label' with
        | none => exact absurd htext member_label_ne
        | some l' =>
            simp only [labelPart, Option.elim_some, member, List.cons_append, List.append_assoc,
              List.cons.injEq, true_and] at htext
            obtain ⟨-, htext⟩ := quoted_cancel htext
            obtain ⟨hlabel, htext⟩ := quoted_cancel (List.cons.inj htext).2
            exact ⟨by rw [hlabel], spendablePart_inj htext⟩
  have hkey : kind = kind' := key_injective hkind
  have hreference : reference = reference' := href
  obtain ⟨rfl, rfl, rfl⟩ := hrest
  subst hkey hreference
  rfl

/-- A record is one line. -/
theorem newline_not_mem_recordJson (r : LabelRecord) : '\n' ∉ (recordJson r).toList := by
  have hmember (name : String) {value : List Char} (h : '\n' ∉ value) :
      '\n' ∉ member name value := by
    simp [member, newline_not_mem_quoted, h]
  have hlabel : '\n' ∉ labelPart r.label := by
    cases r.label with
    | none => exact List.not_mem_nil
    | some l => exact hmember "label" (newline_not_mem_quoted l)
  have hspendable : '\n' ∉ spendablePart r.spendable := by
    cases r.spendable with
    | none => exact List.not_mem_nil
    | some b => exact hmember "spendable" (by cases b <;> decide)
  have horigin : '\n' ∉ originPart r.origin := by
    cases r.origin with
    | none => exact List.not_mem_nil
    | some o => exact hmember "origin" (newline_not_mem_quoted o)
  rw [toList_recordJson]
  simp [newline_not_mem_quoted, hlabel, hspendable, horigin]

/-! ## Lines -/

/-- The text of an export, a record a line. -/
def linesText (ls : List String) : String :=
  if ls = [] then "" else String.intercalate "\n" ls ++ "\n"

theorem toList_linesText {ls : List String} (h : ls ≠ []) :
    (linesText ls).toList = List.intercalate ['\n'] (ls.map String.toList) ++ ['\n'] := by
  rw [linesText, if_neg h, String.toList_append, String.toList_intercalate]
  rfl

theorem linesText_eq_empty {ls : List String} : linesText ls = "" ↔ ls = [] := by
  refine ⟨fun h => ?_, fun h => by rw [linesText, if_pos h]⟩
  by_contra hne
  have htext := toList_linesText hne
  rw [h] at htext
  exact List.append_ne_nil_of_right_ne_nil _ (List.cons_ne_nil _ _) htext.symm

/-- Lines without line ends are what their text splits into. -/
theorem linesText_injective {ls ls' : List String} (hls : ∀ l ∈ ls, '\n' ∉ l.toList)
    (hls' : ∀ l ∈ ls', '\n' ∉ l.toList) (h : linesText ls = linesText ls') : ls = ls' := by
  by_cases hnil : ls = []
  · subst hnil
    exact (linesText_eq_empty.mp (h.symm.trans (linesText_eq_empty.mpr rfl))).symm
  have hnil' : ls' ≠ [] := by
    rintro rfl
    exact hnil (linesText_eq_empty.mp (h.trans (linesText_eq_empty.mpr rfl)))
  have hsplit {ms : List String} (hms : ∀ l ∈ ms, '\n' ∉ l.toList) (hne : ms ≠ []) :
      (List.intercalate ['\n'] (ms.map String.toList)).splitOn '\n' = ms.map String.toList := by
    refine List.splitOn_intercalate '\n' ?_ (by simpa using hne)
    rintro l hl
    obtain ⟨m, hm, rfl⟩ := List.mem_map.mp hl
    exact hms m hm
  have htext := congrArg String.toList h
  rw [toList_linesText hnil, toList_linesText hnil'] at htext
  have hlists := congrArg (List.splitOn '\n') (List.append_cancel_right htext)
  rw [hsplit hls hnil, hsplit hls' hnil'] at hlists
  exact List.map_injective_iff.mpr (fun _ _ => String.toList_inj.mp) hlists

/-! ## Rows -/

variable {State Wallet Scan : Type} (env : Env State Wallet Scan)

/-- The record of a text with these rows. -/
def recordOf (origin : String) (kind : LabelKind) (reference : String) (label : Option String)
    (frozen : Bool) : Option LabelRecord :=
  if label = none ∧ frozen = false then none
  else some
    { kind, reference, label
      spendable := if frozen then some false else none
      origin := some origin }

/-- The freezes are marked on the records, one after the other. -/
theorem get_foldl_freeze {rows : List ((String × String) × Unit)} {origin : String}
    (t : Table (LabelKind × String) LabelRecord) (kind : LabelKind) (reference : String) :
    (rows.foldl (fun t row =>
      t.insert (.output, row.1.2)
        { (t[(LabelKind.output, row.1.2)]?).getD
            { kind := .output
              reference := row.1.2
              label := none
              spendable := none
              origin := some origin } with spendable := some false }) t)[(kind, reference)]? =
      if kind = .output ∧ reference ∈ rows.map (fun row => row.1.2) then
        some { (t[(LabelKind.output, reference)]?).getD
            { kind := .output
              reference := reference
              label := none
              spendable := none
              origin := some origin } with spendable := some false }
      else t[(kind, reference)]? := by
  induction rows generalizing t with
  | nil => simp
  | cons row rows ih =>
      rw [List.foldl_cons, ih, Table.get_insert, Table.get_insert, List.map_cons]
      by_cases hkind : kind = .output
      · subst hkind
        by_cases hrow : row.1.2 = reference
        · subst hrow
          -- a freeze that is marked again is the freeze it was
          by_cases hin : row.1.2 ∈ rows.map (fun row => row.1.2) <;> simp [hin]
        · have hne : (LabelKind.output, row.1.2) ≠ (LabelKind.output, reference) :=
            fun heq => hrow (Prod.mk.inj heq).2
          have hmem : reference ∈ row.1.2 :: rows.map (fun row => row.1.2) ↔
              reference ∈ rows.map (fun row => row.1.2) :=
            List.mem_cons.trans (or_iff_right (Ne.symm hrow))
          simp only [if_neg hne, hmem]
      · have hne : (LabelKind.output, row.1.2) ≠ (kind, reference) :=
          fun heq => hkind (Prod.mk.inj heq).1.symm
        rw [if_neg hne, if_neg fun h => hkind h.1, if_neg fun h => hkind h.1]

/-- The record of a text is that of its rows. -/
theorem get_exportRecords (db : Db State) (id origin : String) (kind : LabelKind)
    (reference : String) :
    (exportRecords db id origin)[(kind, reference)]? =
      recordOf origin kind reference (db.labels[(id, kind, reference)]?)
        (decide (kind = .output) && db.isFrozen id reference) := by
  have hlabelled : ((db.labels.selectRows (fun k _ => k.1 = id)).foldl (fun t row =>
      t.insert row.1.2
        { kind := row.1.2.1
          reference := row.1.2.2
          label := some row.2
          spendable := none
          origin := some origin }) (∅ : Table (LabelKind × String) LabelRecord))[(kind, reference)]? =
      recordOf origin kind reference (db.labels[(id, kind, reference)]?) false := by
    have hmem : (kind, reference) ∈
        (db.labels.selectRows (fun k _ => k.1 = id)).map (fun row => row.1.2) ↔
        ∃ label, db.labels[(id, kind, reference)]? = some label := by
      constructor
      · intro hin
        obtain ⟨⟨⟨i, k⟩, l⟩, hsel, rfl⟩ := List.mem_map.mp hin
        obtain ⟨hget, hid⟩ := Table.mem_selectRows.mp hsel
        exact ⟨l, of_decide_eq_true hid ▸ hget⟩
      · rintro ⟨label, hrow⟩
        exact List.mem_map.mpr
          ⟨((id, kind, reference), label), Table.mem_selectRows.mpr ⟨hrow, by simp⟩, rfl⟩
    have hval : ∀ row ∈ db.labels.selectRows (fun k _ => k.1 = id), row.1.2 = (kind, reference) →
        ({ kind := row.1.2.1
           reference := row.1.2.2
           label := some row.2
           spendable := none
           origin := some origin } : LabelRecord) =
        { kind, reference
          label := db.labels[(id, kind, reference)]?
          spendable := none
          origin := some origin } := by
      rintro ⟨⟨i, k⟩, l⟩ hsel rfl
      obtain ⟨hget, hid⟩ := Table.mem_selectRows.mp hsel
      rw [← of_decide_eq_true hid, hget]
    rw [Table.get_foldl_insert hval]
    cases hrow : db.labels[(id, kind, reference)]? with
    | none =>
        have hnot : ¬ ∃ label, db.labels[(id, kind, reference)]? = some label := by simp [hrow]
        rw [if_neg (mt hmem.mp hnot)]
        simp [recordOf]
    | some label =>
        rw [if_pos (hmem.mpr ⟨label, hrow⟩)]
        rfl
  have hfrozen : (reference ∈ (db.freezes.selectRows (fun k _ => k.1 = id)).map
      (fun row => row.1.2)) ↔ db.isFrozen id reference = true := by
    rw [Db.isFrozen, Option.isSome_iff_exists]
    constructor
    · intro hin
      obtain ⟨⟨⟨i, r⟩, u⟩, hsel, rfl⟩ := List.mem_map.mp hin
      obtain ⟨hget, hid⟩ := Table.mem_selectRows.mp hsel
      exact ⟨u, of_decide_eq_true hid ▸ hget⟩
    · rintro ⟨u, hrow⟩
      exact List.mem_map.mpr ⟨((id, reference), u), Table.mem_selectRows.mpr ⟨hrow, by simp⟩, rfl⟩
  rw [exportRecords, get_foldl_freeze]
  simp only [hfrozen]
  by_cases hkind : kind = .output
  · subst hkind
    rw [hlabelled]
    cases db.labels[(id, LabelKind.output, reference)]? <;> cases db.isFrozen id reference <;>
      simp [recordOf]
  · rw [if_neg fun h => hkind h.1, hlabelled, decide_eq_false hkind, Bool.false_and]

theorem recordOf_fields {origin : String} {kind : LabelKind} {reference : String}
    {label : Option String} {frozen : Bool} {r : LabelRecord}
    (h : recordOf origin kind reference label frozen = some r) :
    r.kind = kind ∧ r.reference = reference := by
  unfold recordOf at h
  by_cases hrow : label = none ∧ frozen = false
  · rw [if_pos hrow] at h
    cases h
  · rw [if_neg hrow] at h
    cases h
    exact ⟨rfl, rfl⟩

/-- A record determines the rows of its text. -/
theorem recordOf_injective {origin : String} {kind : LabelKind} {reference : String}
    {label label' : Option String} {frozen frozen' : Bool}
    (h : recordOf origin kind reference label frozen =
      recordOf origin kind reference label' frozen') : label = label' ∧ frozen = frozen' := by
  cases label <;> cases label' <;> cases frozen <;> cases frozen' <;> simp_all [recordOf]

/-- The rows a wallet's export is made from. -/
structure SameRows (id : String) (db db' : Db State) : Prop where
  label : ∀ (kind : LabelKind) (reference : String),
    db'.labels[(id, kind, reference)]? = db.labels[(id, kind, reference)]?
  frozen : ∀ reference, db'.isFrozen id reference = db.isFrozen id reference

theorem SameRows.exportRecords {db db' : Db State} {id : String} (h : SameRows id db db')
    (origin : String) : exportRecords db' id origin = Engine.exportRecords db id origin := by
  apply Table.ext
  rintro ⟨kind, reference⟩
  rw [get_exportRecords, get_exportRecords, h.label, h.frozen]

/-- A record stands under its own text. -/
theorem mem_records {db : Db State} {id origin : String} {r : LabelRecord} :
    r ∈ (exportRecords db id origin).toList.map Prod.snd ↔
      (exportRecords db id origin)[(r.kind, r.reference)]? = some r := by
  constructor
  · intro hin
    obtain ⟨⟨⟨kind, reference⟩, r⟩, hmem, rfl⟩ := List.mem_map.mp hin
    have hget := Table.mem_toList.mp hmem
    have hrow := hget
    rw [get_exportRecords] at hrow
    obtain ⟨hkind, hreference⟩ := recordOf_fields hrow
    rw [hkind, hreference]
    exact hget
  · intro hget
    exact List.mem_map.mpr ⟨_, Table.mem_toList.mpr hget, rfl⟩

/-- The lines of an export determine the rows it was made from. -/
theorem sameRows_of_lines {db db' : Db State} {id origin : String}
    (h : (exportRecords db' id origin).toList.map (fun row => recordJson row.2) =
      (exportRecords db id origin).toList.map (fun row => recordJson row.2)) :
    SameRows id db db' := by
  have hrecords : (exportRecords db' id origin).toList.map Prod.snd =
      (exportRecords db id origin).toList.map Prod.snd := by
    refine List.map_injective_iff.mpr (fun _ _ => recordJson_injective) ?_
    rw [List.map_map, List.map_map]
    exact h
  have hget (kind : LabelKind) (reference : String) :
      (exportRecords db' id origin)[(kind, reference)]? =
        (exportRecords db id origin)[(kind, reference)]? := by
    have hone {d d' : Db State} (heq : (exportRecords d' id origin).toList.map Prod.snd =
        (exportRecords d id origin).toList.map Prod.snd) {r : LabelRecord}
        (hr : (exportRecords d id origin)[(kind, reference)]? = some r) :
        (exportRecords d' id origin)[(kind, reference)]? = some r := by
      have hrow := hr
      rw [get_exportRecords] at hrow
      obtain ⟨rfl, rfl⟩ := recordOf_fields hrow
      exact mem_records.mp (heq ▸ mem_records.mpr hr)
    exact Option.ext fun r => ⟨hone hrecords.symm, hone hrecords⟩
  have hrows (kind : LabelKind) (reference : String) := recordOf_injective
    ((get_exportRecords db' id origin kind reference).symm.trans
      ((hget kind reference).trans (get_exportRecords db id origin kind reference)))
  refine ⟨fun kind reference => (hrows kind reference).1, fun reference => ?_⟩
  simpa using (hrows .output reference).2

/-! ## The text of an export -/

theorem newline_not_mem_lines {db : Db State} {id origin : String} :
    ∀ l ∈ (exportRecords db id origin).toList.map (fun row => recordJson row.2),
      '\n' ∉ l.toList := by
  intro l hl
  obtain ⟨row, _, rfl⟩ := List.mem_map.mp hl
  exact newline_not_mem_recordJson row.2

/-- Over one wallet, two stores export one text exactly when they have the same
    labels and freezes. -/
theorem exportLabels_eq_iff {db db' : Db State} {id : String} {l : Loaded State Wallet}
    {origin : String} (hload : load env db id = .ok l) (hload' : load env db' id = .ok l)
    (horigin : Descriptors.labelOrigin env (env.publicDescriptor l.wallet .external) =
      .ok origin) :
    exportLabels env db' id = exportLabels env db id ↔ SameRows id db db' := by
  have htext {d : Db State} (hd : load env d id = .ok l) : exportLabels env d id =
      .ok (linesText ((exportRecords d id origin).toList.map (fun row => recordJson row.2))) := by
    rw [exportLabels, hd, ok_bind, horigin, ok_bind]
    rfl
  rw [htext hload, htext hload', Except.ok.injEq]
  constructor
  · intro h
    exact sameRows_of_lines
      (linesText_injective newline_not_mem_lines newline_not_mem_lines h)
  · intro h
    rw [h.exportRecords]

end Exports
end Tundra
