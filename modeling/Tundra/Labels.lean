/-
  Tundra.Labels

  The BIP 329 tx/addr/output subset (`labels.rs`).  Unknown types are skipped,
  and null is not omission.
-/

import Tundra.Env

namespace Tundra
namespace Labels

open Checked

variable {State Wallet Scan : Type} (env : Env State Wallet Scan)

structure LabelRecord where
  kind : LabelKind
  reference : String
  label : Option String
  spendable : Option Bool
  origin : Option String
  deriving DecidableEq, Repr

structure LabelPreview where
  matched : Nat
  skipped : Nat
  changed : Nat
  deriving DecidableEq, Repr

def maxLabelFile : Nat := 2 * 1024 * 1024

def maxLabels : Nat := 5000

/-- A label the engine stores: at most 255 characters, none a control character. -/
def ValidLabel (s : String) : Prop :=
  s.length ≤ 255 ∧ ∀ c ∈ s.toList, isControl c = false

instance (s : String) : Decidable (ValidLabel s) := by
  unfold ValidLabel
  infer_instance

def validateLabel (s : String) : Result Unit :=
  require (ValidLabel s)
    (.invalidInput "labels must be at most 255 characters without control characters")

@[simp] theorem validateLabel_eq_ok {s : String} {u : Unit} :
    validateLabel s = .ok u ↔ ValidLabel s := require_eq_ok

/-- The `label` field of a record. -/
def labelField (v : Json) : Result (Option String) :=
  match v.get "label" with
  | none => .ok none
  | some (.string s) => do
      validateLabel s
      .ok (some s)
  | some _ => .error (.invalidInput "label must be text")

/-- The `spendable` field of a record. -/
def spendableField (v : Json) (kind : LabelKind) : Result (Option Bool) :=
  match v.get "spendable" with
  | none => .ok none
  | some (.bool b) =>
      if kind = .output then .ok (some b)
      else .error (.invalidInput "spendable must be a boolean on outputs")
  | some _ => .error (.invalidInput "spendable must be a boolean on outputs")

/-- The `origin` field of a record. -/
def originField (v : Json) : Result (Option String) :=
  match v.get "origin" with
  | none => .ok none
  | some (.string s) =>
      if s.utf8ByteSize ≤ 1024 then .ok (some s) else .error (.invalidInput "label origin")
  | some _ => .error (.invalidInput "label origin")

/-- One field of a record's text. -/
def fieldJson (name value : String) : String := jsonString name ++ ":" ++ value

/-- `serde_json::to_string` of a record: a field that is absent is left out. -/
def recordJson (r : LabelRecord) : String :=
  "\x7b" ++ String.intercalate ","
    ([fieldJson "type" (jsonString r.kind.key), fieldJson "ref" (jsonString r.reference)] ++
      (r.label.map (fun label => fieldJson "label" (jsonString label))).toList ++
      (r.spendable.map (fun b => fieldJson "spendable" (if b then "true" else "false"))).toList ++
      (r.origin.map (fun origin => fieldJson "origin" (jsonString origin))).toList) ++ "\x7d"

/-- One line: a record, or `none` for a type this wallet does not know. -/
def parseRecord (line : String) : Result (Option LabelRecord) := do
  let v ← okOr (env.parseJson line) (.invalidInput "invalid label JSON line")
  let kind ← okOr ((v.get "type").bind Json.asStr) (.invalidInput "label type")
  match LabelKind.parse kind with
  | none => .ok none
  | some kind => do
      let reference ← okOr ((v.get "ref").bind Json.asStr) (.invalidInput "label reference")
      require (reference ≠ "" ∧ reference.utf8ByteSize ≤ 200) (.invalidInput "label reference")
      let label ← labelField v
      let spendable ← spendableField v kind
      let origin ← originField v
      .ok (some { kind, reference, label, spendable, origin })

/-- The records of the lines from number `index` on, and how many were skipped. -/
def parseLines : Nat → List String → List (LabelKind × String × Option String) →
    Result (List LabelRecord × Nat)
  | _, [], _ => .ok ([], 0)
  | index, line :: rest, seen => do
      require (index < maxLabels) (.invalidInput "too many label records")
      match ← parseRecord env line with
      | none => do
          let (records, skipped) ← parseLines (index + 1) rest seen
          .ok (records, skipped + 1)
      | some r => do
          let key := (r.kind, r.reference, r.origin)
          require (key ∉ seen) (.invalidInput "duplicate label reference")
          let (records, skipped) ← parseLines (index + 1) rest (key :: seen)
          .ok (r :: records, skipped)

def parseLabels (input : String) : Result (List LabelRecord × Nat) := do
  require (input.utf8ByteSize ≤ maxLabelFile) (.invalidInput "label file is too large")
  parseLines env 0 ((lines input).filter (fun line => trim line ≠ "")) []

/-- What every parsed record satisfies: its label is valid, and only an output
    is spendable. -/
structure RecordOk (r : LabelRecord) : Prop where
  label : ∀ label, r.label = some label → ValidLabel label
  spendable : r.spendable ≠ none → r.kind = .output

theorem labelField_valid {v : Json} {field : Option String} (h : labelField v = .ok field)
    (label : String) (hlabel : field = some label) : ValidLabel label := by
  unfold labelField at h
  split at h
  · cases h
    cases hlabel
  · simp only [bind_eq_ok, validateLabel_eq_ok, exists_unit, Except.ok.injEq] at h
    obtain ⟨hvalid, rfl⟩ := h
    cases hlabel
    exact hvalid
  · cases h

theorem spendableField_output {v : Json} {kind : LabelKind} {field : Option Bool}
    (h : spendableField v kind = .ok field) (hfield : field ≠ none) : kind = .output := by
  unfold spendableField at h
  split at h
  · cases h
    exact absurd rfl hfield
  · split_ifs at h with hkind
    exact hkind
  · cases h

theorem parseRecord_recordOk {line : String} {r : LabelRecord}
    (h : parseRecord env line = .ok (some r)) : RecordOk r := by
  simp only [parseRecord, bind_eq_ok, okOr_eq_ok] at h
  obtain ⟨v, _, kind, _, h⟩ := h
  split at h
  · cases h
  · simp only [bind_eq_ok, okOr_eq_ok, require_eq_ok, exists_unit, Except.ok.injEq,
      Option.some.injEq] at h
    obtain ⟨_, _, _, label, hlabel, spendable, hspendable, _, _, rfl⟩ := h
    exact ⟨labelField_valid hlabel, spendableField_output hspendable⟩

theorem parseLines_recordOk {ls : List String} {index : Nat}
    {seen : List (LabelKind × String × Option String)} {records : List LabelRecord} {skipped : Nat}
    (h : parseLines env index ls seen = .ok (records, skipped)) : ∀ r ∈ records, RecordOk r := by
  induction ls generalizing index seen records skipped with
  | nil =>
      simp only [parseLines, Except.ok.injEq, Prod.mk.injEq] at h
      rw [← h.1]
      simp
  | cons line ls ih =>
      simp only [parseLines, bind_eq_ok, require_eq_ok, exists_unit] at h
      obtain ⟨_, record, hrecord, h⟩ := h
      cases record with
      | none =>
          simp only [bind_eq_ok, Prod.exists, Except.ok.injEq, Prod.mk.injEq] at h
          obtain ⟨rs, n, hrest, rfl, _⟩ := h
          exact ih hrest
      | some r' =>
          simp only [bind_eq_ok, Prod.exists, require_eq_ok, exists_unit, Except.ok.injEq,
            Prod.mk.injEq] at h
          obtain ⟨_, rs, n, hrest, rfl, _⟩ := h
          exact List.forall_mem_cons.mpr ⟨parseRecord_recordOk env hrecord, ih hrest⟩

/-- Every record of a label file is as the engine stores it. -/
theorem parseLabels_recordOk {input : String} {records : List LabelRecord} {skipped : Nat}
    (h : parseLabels env input = .ok (records, skipped)) : ∀ r ∈ records, RecordOk r := by
  simp only [parseLabels, bind_eq_ok, require_eq_ok, exists_unit] at h
  exact parseLines_recordOk env h.2

end Labels
end Tundra
