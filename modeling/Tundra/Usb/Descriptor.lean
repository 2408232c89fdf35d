/-
  Tundra.Usb.Descriptor

  The check of a device's HID report descriptor (`UsbExchange.kt`).  The
  descriptor comes from the device: a list of items, some of which change a
  global state that others push, pop and read.  The check is one pass over the
  bytes; `LedgerShape` says what it accepts in terms of the whole list of items.
-/

import Tundra.Bitcoin
import Mathlib.Algebra.BigOperators.Group.Finset.Basic
import Mathlib.Data.List.Induction
import Mathlib.Data.Nat.Bitwise
import Mathlib.Data.Nat.Digits.Lemmas

namespace Tundra
namespace Usb
namespace Descriptor

/-- Kotlin's `Int`: 32 bits with wraparound. -/
def int (n : Int) : Int := n.bmod (2 ^ 32)

/-- The local variables of the check. -/
structure State where
  page : Int := -1
  depth : Int := 0
  ledger : Bool := false
  reportSize : Int := 0
  reportCount : Int := 0
  inputBits : Int := 0
  outputBits : Int := 0
  globals : List (Int × Int × Int) := []
  deriving DecidableEq, Repr

/-- The last element of the deque is the head of the list. -/
def State.pop (state : State) : Option State :=
  match state.globals with
  | [] => none
  | (page, reportSize, reportCount) :: globals =>
      some { state with page, reportSize, reportCount, globals }

/-- An input item, or an output item. -/
def State.data (state : State) (tag : Nat) : Option State :=
  if state.depth = 0 ∨ state.reportSize = 0 ∨ state.reportCount = 0 then none
  else
    let bits := int (state.reportSize * state.reportCount)
    let state :=
      if tag = 8 then { state with inputBits := int (state.inputBits + bits) }
      else { state with outputBits := int (state.outputBits + bits) }
    if state.inputBits > 512 ∨ state.outputBits > 512 then none else some state

def State.collection (state : State) (value : Nat) : Option State :=
  if state.depth = 0 ∧ (state.ledger = true ∨ value ≠ 1 ∨ state.page ≠ 0xffa0) then none
  else
    let state := if state.depth = 0 then { state with ledger := true } else state
    let state := { state with depth := int (state.depth + 1) }
    if state.depth > 8 then none else some state

/-- One item; `none` is the early `return false`. -/
def State.item (state : State) (type tag size value : Nat) : Option State :=
  if type = 1 ∧ tag = 0 then
    if value > 65535 then none else some { state with page := int value }
  else if type = 1 ∧ tag = 7 then
    if value > 64 then none else some { state with reportSize := int value }
  else if type = 1 ∧ tag = 8 then none -- Report IDs would change the 64-byte wire layout.
  else if type = 1 ∧ tag = 9 then
    if value > 512 then none else some { state with reportCount := int value }
  else if type = 1 ∧ tag = 10 then
    if size ≠ 0 ∨ state.globals.length ≥ 8 then none
    else some { state with
      globals := (state.page, state.reportSize, state.reportCount) :: state.globals }
  else if type = 1 ∧ tag = 11 then
    if size ≠ 0 then none else state.pop
  else if type = 0 ∧ (tag = 8 ∨ tag = 9) then state.data tag
  else if type = 0 ∧ tag = 10 then state.collection value
  else if type = 0 ∧ tag = 12 then
    if size ≠ 0 ∨ int (state.depth - 1) < 0 then none
    else some { state with depth := int (state.depth - 1) }
  else some state

/-- How many bytes of data a prefix announces. -/
def dataSize (lead : Nat) : Nat := if lead &&& 3 = 3 then 4 else lead &&& 3

/-- The data of an item, little endian. `none` is a read out of bounds. -/
def readValue (bytes : Bytes) (offset size : Nat) : Option Nat :=
  (List.range size).foldlM (fun value it => do
    let byte ← bytes[offset + it]?
    some (value ||| byte.toNat <<< (8 * it))) 0

/-- What is left when every item was read. -/
def State.accepts (state : State) : Bool :=
  state.ledger && state.depth == 0 && state.globals.isEmpty && state.inputBits == 512 &&
    state.outputBits == 512

/-- The loop. `none` is a read out of bounds. -/
def scan (bytes : Bytes) (offset : Nat) (state : State) : Option Bool :=
  if offset < bytes.length then do
    let lead ← (bytes[offset]?).map UInt8.toNat
    if lead = 254 then some false -- No long items needed by this restricted Ledger transport.
    else if offset + 1 + dataSize lead > bytes.length then some false
    else do
      let value ← readValue bytes (offset + 1) (dataSize lead)
      match state.item (lead >>> 2 &&& 3) (lead >>> 4) (dataSize lead) value with
      | none => some false
      | some state => scan bytes (offset + 1 + dataSize lead) state
  else some state.accepts
termination_by bytes.length - offset

def isLedgerHidDescriptor (bytes : Bytes) : Option Bool :=
  if bytes.isEmpty ∨ bytes.length > 1024 then some false else scan bytes 0 {}

/-! ## Items -/

/-- A complete short item. -/
structure Item where
  lead : UInt8
  data : Bytes
  short : lead.toNat ≠ 254
  complete : data.length = dataSize lead.toNat

inductive Kind
  | usagePage | reportSize | reportId | reportCount | push | pop
  | input | output | collection | endCollection | other
  deriving DecidableEq, Repr

namespace Item

def bytes (item : Item) : Bytes := item.lead :: item.data

def value (item : Item) : Nat := Nat.ofDigits 256 (item.data.map UInt8.toNat)

def type (item : Item) : Nat := item.lead.toNat >>> 2 &&& 3

def tag (item : Item) : Nat := item.lead.toNat >>> 4

def kind (item : Item) : Kind :=
  match item.type, item.tag with
  | 1, 0 => .usagePage
  | 1, 7 => .reportSize
  | 1, 8 => .reportId
  | 1, 9 => .reportCount
  | 1, 10 => .push
  | 1, 11 => .pop
  | 0, 8 => .input
  | 0, 9 => .output
  | 0, 10 => .collection
  | 0, 12 => .endCollection
  | _, _ => .other

end Item

/-! ## The shape of a descriptor -/

/-- The global state an item reads. -/
structure Global where
  page : Option Nat := none
  reportSize : Nat := 0
  reportCount : Nat := 0
  deriving DecidableEq, Repr

/-- The bits an input or output item declares. -/
def Global.bits (g : Global) : Nat := g.reportSize * g.reportCount

/-- The global state, and those pushed, after an item. -/
def Global.next (state : Global × List Global) (item : Item) : Global × List Global :=
  match item.kind with
  | .usagePage => ({ state.1 with page := some item.value }, state.2)
  | .reportSize => ({ state.1 with reportSize := item.value }, state.2)
  | .reportCount => ({ state.1 with reportCount := item.value }, state.2)
  | .push => (state.1, state.1 :: state.2)
  | .pop => (state.2.headD state.1, state.2.tail)
  | _ => state

def globals (items : List Item) : Global × List Global := items.foldl Global.next ({}, [])

/-- The global state in force after items. -/
def inForce (items : List Item) : Global := (globals items).1

/-- How many items are of a kind. -/
def tally (kind : Kind) (items : List Item) : Nat := items.countP (·.kind = kind)

/-- The bits that the items of a kind declare, each under the state in force at it. -/
def declared (kind : Kind) (items : List Item) : Nat :=
  ∑ k ∈ Finset.range items.length,
    if (items[k]?).map Item.kind = some kind then (inForce (items.take k)).bits else 0

/-- Item `k` is a collection inside no other. -/
def TopLevel (items : List Item) (k : Nat) : Prop :=
  (items[k]?).map Item.kind = some .collection ∧
    tally .collection (items.take k) = tally .endCollection (items.take k)

/-- The bits that the items of a kind declare inside a collection. -/
def declaredInside (kind : Kind) (items : List Item) : Nat :=
  ∑ k ∈ Finset.range items.length,
    if (items[k]?).map Item.kind = some kind ∧
      tally .endCollection (items.take k) < tally .collection (items.take k)
    then (inForce (items.take k)).bits else 0

/-- The limits on the values of one item. -/
def Item.Limited (item : Item) : Prop :=
  (item.kind = .usagePage → item.value ≤ 65535) ∧ (item.kind = .reportSize → item.value ≤ 64) ∧
    (item.kind = .reportCount → item.value ≤ 512)

/-- The items that close a `close` are never ahead of those that open an `opening`,
    and at most eight are open. -/
def Nested (opening close : Kind) (items : List Item) : Prop :=
  ∀ k, tally close (items.take k) ≤ tally opening (items.take k) ∧
    tally opening (items.take k) ≤ tally close (items.take k) + 8

/-- An application collection, under the usage page of the Ledger. -/
def Application (items : List Item) (k : Nat) : Prop :=
  (items[k]?).map Item.value = some 1 ∧ (inForce (items.take k)).page = some 0xffa0

/-- There is one collection inside no other, and it is the application. -/
def Single (items : List Item) : Prop :=
  ∃ k, TopLevel items k ∧ Application items k ∧ ∀ k', TopLevel items k' → k' = k

/-- One application collection that declares 512 bits of input and of output. -/
@[mk_iff]
structure LedgerShape (items : List Item) : Prop where
  limited : ∀ item ∈ items, item.Limited
  noReportId : ∀ item ∈ items, item.kind ≠ .reportId
  nested : Nested .collection .endCollection items
  balanced : tally .collection items = tally .endCollection items
  saved : Nested .push .pop items
  restored : tally .push items = tally .pop items
  single : Single items
  input : declaredInside .input items = 512
  output : declaredInside .output items = 512

/-- What the check asks for besides the shape: push, pop and end collection carry
    no data, and every input or output item stands in a collection and declares
    some bits. -/
structure Strict (items : List Item) : Prop where
  bare : ∀ item ∈ items, item.kind = .push ∨ item.kind = .pop ∨ item.kind = .endCollection →
    item.data = []
  inside : ∀ k, (items[k]?).map Item.kind = some .input ∨ (items[k]?).map Item.kind = some .output →
    tally .endCollection (items.take k) < tally .collection (items.take k) ∧
      0 < (inForce (items.take k)).bits

/-! ## One item more -/

theorem tally_concat (kind : Kind) (items : List Item) (item : Item) :
    tally kind (items ++ [item]) = tally kind items + if item.kind = kind then 1 else 0 := by
  rw [tally, List.countP_append, List.countP_singleton]
  simp [tally]

theorem globals_concat (items : List Item) (item : Item) :
    globals (items ++ [item]) = Global.next (globals items) item := by
  rw [globals, List.foldl_append]
  rfl

theorem declared_concat (kind : Kind) (items : List Item) (item : Item) :
    declared kind (items ++ [item]) =
      declared kind items + if item.kind = kind then (inForce items).bits else 0 := by
  rw [declared, List.length_append, List.length_singleton, Finset.sum_range_succ]
  congr 1
  · apply Finset.sum_congr rfl
    intro k hk
    have hlt := Finset.mem_range.mp hk
    rw [List.getElem?_append_left hlt, List.take_append_of_le_length (Nat.le_of_lt hlt)]
  · rw [List.getElem?_concat_length, List.take_left]
    simp

/-- A statement about each position, with one item more. -/
theorem forall_concat {P : List Item → Option Item → Prop} (hnone : ∀ items, P items none)
    (items : List Item) (item : Item) :
    (∀ k, P ((items ++ [item]).take k) (items ++ [item])[k]?) ↔
      (∀ k, P (items.take k) items[k]?) ∧ P items (some item) := by
  constructor
  · intro h
    refine ⟨fun k => ?_, ?_⟩
    · by_cases hlt : k < items.length
      · have hk := h k
        rwa [List.getElem?_append_left hlt, List.take_append_of_le_length (Nat.le_of_lt hlt)] at hk
      · rw [List.getElem?_eq_none (Nat.le_of_not_lt hlt)]
        exact hnone _
    · have hlast := h items.length
      rwa [List.getElem?_concat_length, List.take_left] at hlast
  · rintro ⟨h, hlast⟩ k
    rcases Nat.lt_trichotomy k items.length with hlt | rfl | hgt
    · rw [List.getElem?_append_left hlt, List.take_append_of_le_length (Nat.le_of_lt hlt)]
      exact h k
    · rw [List.getElem?_concat_length, List.take_left]
      exact hlast
    · rw [List.getElem?_eq_none (by simp; omega)]
      exact hnone _

theorem topLevel_concat {items : List Item} {item : Item} {k : Nat} :
    TopLevel (items ++ [item]) k ↔ TopLevel items k ∨
      k = items.length ∧ item.kind = .collection ∧
        tally .collection items = tally .endCollection items := by
  rcases Nat.lt_trichotomy k items.length with hlt | rfl | hgt
  · rw [TopLevel, List.getElem?_append_left hlt,
      List.take_append_of_le_length (Nat.le_of_lt hlt)]
    simp [TopLevel, Nat.ne_of_lt hlt]
  · rw [TopLevel, List.getElem?_concat_length, List.take_left]
    simp [TopLevel]
  · rw [TopLevel, TopLevel, List.getElem?_eq_none (by simp; omega),
      List.getElem?_eq_none (Nat.le_of_lt hgt)]
    simp [Nat.ne_of_gt hgt]

theorem TopLevel.lt {items : List Item} {k : Nat} (h : TopLevel items k) : k < items.length := by
  by_contra hge
  rw [TopLevel, List.getElem?_eq_none (Nat.le_of_not_lt hge)] at h
  exact absurd h.1 (by simp)

theorem application_concat_lt {items : List Item} {item : Item} {k : Nat}
    (hlt : k < items.length) : Application (items ++ [item]) k ↔ Application items k := by
  rw [Application, List.getElem?_append_left hlt,
    List.take_append_of_le_length (Nat.le_of_lt hlt), Application]

theorem application_concat_last {items : List Item} {item : Item} :
    Application (items ++ [item]) items.length ↔
      item.value = 1 ∧ (inForce items).page = some 0xffa0 := by
  rw [Application, List.getElem?_concat_length, List.take_left]
  simp

theorem nested_concat {opening close : Kind} {items : List Item} {item : Item} :
    Nested opening close (items ++ [item]) ↔ Nested opening close items ∧
      tally close (items ++ [item]) ≤ tally opening (items ++ [item]) ∧
      tally opening (items ++ [item]) ≤ tally close (items ++ [item]) + 8 := by
  constructor
  · intro h
    refine ⟨fun k => ?_, ?_⟩
    · have hk := h (min k items.length)
      rw [List.take_append_of_le_length (Nat.min_le_right ..)] at hk
      rwa [← List.take_take, List.take_length] at hk
    · have hall := h (items ++ [item]).length
      rwa [List.take_length] at hall
  · rintro ⟨h, hall⟩ k
    by_cases hle : k ≤ items.length
    · rw [List.take_append_of_le_length hle]
      exact h k
    · rw [List.take_of_length_le (by simp; omega)]
      exact hall

/-! ## What holds of every part of a descriptor -/

/-- The conditions of the shape that a descriptor's beginnings meet too. -/
structure Sound (items : List Item) : Prop extends Strict items where
  limited : ∀ item ∈ items, item.Limited
  noReportId : ∀ item ∈ items, item.kind ≠ .reportId
  nested : Nested .collection .endCollection items
  saved : Nested .push .pop items
  single : ∀ k, TopLevel items k → Application items k ∧ ∀ k', TopLevel items k' → k' = k
  input : declared .input items ≤ 512
  output : declared .output items ≤ 512

/-- The conditions on one item after others. -/
@[mk_iff]
structure Fits (items : List Item) (item : Item) : Prop where
  bare : item.kind = .push ∨ item.kind = .pop ∨ item.kind = .endCollection → item.data = []
  inside : item.kind = .input ∨ item.kind = .output →
    tally .endCollection items < tally .collection items ∧ 0 < (inForce items).bits
  limited : item.Limited
  noReportId : item.kind ≠ .reportId
  nested : (item.kind = .endCollection → tally .endCollection items < tally .collection items) ∧
    (item.kind = .collection → tally .collection items < tally .endCollection items + 8)
  saved : (item.kind = .pop → tally .pop items < tally .push items) ∧
    (item.kind = .push → tally .push items < tally .pop items + 8)
  single : item.kind = .collection → tally .collection items = tally .endCollection items →
    (∀ k, ¬ TopLevel items k) ∧ item.value = 1 ∧ (inForce items).page = some 0xffa0
  input : item.kind = .input → declared .input items + (inForce items).bits ≤ 512
  output : item.kind = .output → declared .output items + (inForce items).bits ≤ 512

theorem nested_step {opening close : Kind} (hne : opening ≠ close) {items : List Item}
    {item : Item} :
    Nested opening close (items ++ [item]) ↔ Nested opening close items ∧
      (item.kind = close → tally close items < tally opening items) ∧
      (item.kind = opening → tally opening items < tally close items + 8) := by
  rw [nested_concat, tally_concat, tally_concat]
  refine and_congr_right fun h => ?_
  have hall := h items.length
  rw [List.take_length] at hall
  by_cases hclose : item.kind = close
  · have hopening : item.kind ≠ opening := fun h => hne (h.symm.trans hclose)
    rw [if_pos hclose, if_neg hopening]
    refine ⟨fun _ => ⟨fun _ => by omega, fun h => absurd h hopening⟩, fun ⟨hlast, _⟩ => ?_⟩
    have hlt := hlast hclose
    omega
  · by_cases hopening : item.kind = opening
    · rw [if_neg hclose, if_pos hopening]
      refine ⟨fun _ => ⟨fun h => absurd h hclose, fun _ => by omega⟩, fun ⟨_, hlast⟩ => ?_⟩
      have hlt := hlast hopening
      omega
    · rw [if_neg hclose, if_neg hopening]
      exact ⟨fun _ => ⟨fun h => absurd h hclose, fun h => absurd h hopening⟩, fun _ => hall⟩

theorem single_step {items : List Item} {item : Item} :
    (∀ k, TopLevel (items ++ [item]) k → Application (items ++ [item]) k ∧
      ∀ k', TopLevel (items ++ [item]) k' → k' = k) ↔
    (∀ k, TopLevel items k → Application items k ∧ ∀ k', TopLevel items k' → k' = k) ∧
      (item.kind = .collection → tally .collection items = tally .endCollection items →
        (∀ k, ¬ TopLevel items k) ∧ item.value = 1 ∧ (inForce items).page = some 0xffa0) := by
  constructor
  · intro h
    refine ⟨fun k hk => ?_, fun hkind hlevel => ?_⟩
    · obtain ⟨happlication, hunique⟩ := h k (topLevel_concat.mpr (.inl hk))
      exact ⟨(application_concat_lt hk.lt).mp happlication,
        fun k' hk' => hunique k' (topLevel_concat.mpr (.inl hk'))⟩
    · obtain ⟨happlication, hunique⟩ :=
        h items.length (topLevel_concat.mpr (.inr ⟨rfl, hkind, hlevel⟩))
      refine ⟨fun k hk => ?_, application_concat_last.mp happlication⟩
      exact Nat.ne_of_lt hk.lt (hunique k (topLevel_concat.mpr (.inl hk)))
  · rintro ⟨h, hlast⟩ k hk
    rcases topLevel_concat.mp hk with hk | ⟨rfl, hkind, hlevel⟩
    · refine ⟨(application_concat_lt hk.lt).mpr (h k hk).1, fun k' hk' => ?_⟩
      rcases topLevel_concat.mp hk' with hk' | ⟨-, hkind, hlevel⟩
      · exact (h k hk).2 k' hk'
      · exact absurd hk ((hlast hkind hlevel).1 k)
    · obtain ⟨hnone, hvalue⟩ := hlast hkind hlevel
      refine ⟨application_concat_last.mpr hvalue, fun k' hk' => ?_⟩
      rcases topLevel_concat.mp hk' with hk' | ⟨heq, -⟩
      · exact absurd hk' (hnone k')
      · exact heq

theorem declared_step {kind : Kind} {items : List Item} {item : Item} :
    declared kind (items ++ [item]) ≤ 512 ↔ declared kind items ≤ 512 ∧
      (item.kind = kind → declared kind items + (inForce items).bits ≤ 512) := by
  rw [declared_concat]
  by_cases hkind : item.kind = kind
  · simp only [hkind, if_pos, forall_const]
    omega
  · simp only [hkind, if_false, false_implies, and_true]
    rfl

theorem inside_step {items : List Item} {item : Item} :
    (∀ k, (((items ++ [item])[k]?).map Item.kind = some .input ∨
        ((items ++ [item])[k]?).map Item.kind = some .output) →
      tally .endCollection ((items ++ [item]).take k) < tally .collection ((items ++ [item]).take k) ∧
        0 < (inForce ((items ++ [item]).take k)).bits) ↔
    (∀ k, ((items[k]?).map Item.kind = some .input ∨ (items[k]?).map Item.kind = some .output) →
      tally .endCollection (items.take k) < tally .collection (items.take k) ∧
        0 < (inForce (items.take k)).bits) ∧
      (item.kind = .input ∨ item.kind = .output →
        tally .endCollection items < tally .collection items ∧ 0 < (inForce items).bits) := by
  have h := forall_concat (P := fun before here =>
    (here.map Item.kind = some .input ∨ here.map Item.kind = some .output) →
      tally .endCollection before < tally .collection before ∧ 0 < (inForce before).bits)
    (fun _ h => by simp at h) items item
  simpa using h

theorem sound_nil : Sound [] where
  bare := fun _ h => by cases h
  inside := fun _ h => by simp at h
  limited := fun _ h => by cases h
  noReportId := fun _ h => by cases h
  nested := fun k => by simp [tally]
  saved := fun k => by simp [tally]
  single := fun k h => absurd h.lt (Nat.not_lt_zero k)
  input := Nat.zero_le _
  output := Nat.zero_le _

theorem sound_concat {items : List Item} {item : Item} :
    Sound (items ++ [item]) ↔ Sound items ∧ Fits items item := by
  constructor
  · intro h
    obtain ⟨hbare, hbare'⟩ := List.forall_mem_append.mp h.bare
    obtain ⟨hlimited, hlimited'⟩ := List.forall_mem_append.mp h.limited
    obtain ⟨hid, hid'⟩ := List.forall_mem_append.mp h.noReportId
    obtain ⟨hinside, hinside'⟩ := inside_step.mp h.inside
    obtain ⟨hnested, hnested'⟩ := (nested_step (by decide)).mp h.nested
    obtain ⟨hsaved, hsaved'⟩ := (nested_step (by decide)).mp h.saved
    obtain ⟨hsingle, hsingle'⟩ := single_step.mp h.single
    obtain ⟨hinput, hinput'⟩ := declared_step.mp h.input
    obtain ⟨houtput, houtput'⟩ := declared_step.mp h.output
    exact ⟨⟨⟨hbare, hinside⟩, hlimited, hid, hnested, hsaved, hsingle, hinput, houtput⟩,
      ⟨List.forall_mem_singleton.mp hbare', hinside', List.forall_mem_singleton.mp hlimited',
        hid' item (List.mem_singleton_self item), hnested', hsaved', hsingle', hinput', houtput'⟩⟩
  · rintro ⟨h, hfits⟩
    exact ⟨⟨List.forall_mem_append.mpr ⟨h.bare, List.forall_mem_singleton.mpr hfits.bare⟩,
        inside_step.mpr ⟨h.inside, hfits.inside⟩⟩,
      List.forall_mem_append.mpr ⟨h.limited, List.forall_mem_singleton.mpr hfits.limited⟩,
      List.forall_mem_append.mpr ⟨h.noReportId, fun _ hlast =>
        List.mem_singleton.mp hlast ▸ hfits.noReportId⟩,
      (nested_step (by decide)).mpr ⟨h.nested, hfits.nested⟩,
      (nested_step (by decide)).mpr ⟨h.saved, hfits.saved⟩,
      single_step.mpr ⟨h.single, hfits.single⟩, declared_step.mpr ⟨h.input, hfits.input⟩,
      declared_step.mpr ⟨h.output, hfits.output⟩⟩

/-! ## The check, item by item -/

/-- The item, by its kind. -/
theorem State.item_kind (state : State) (item : Item) :
    state.item item.type item.tag item.data.length item.value =
      match item.kind with
      | .usagePage =>
          if item.value > 65535 then none else some { state with page := int item.value }
      | .reportSize =>
          if item.value > 64 then none else some { state with reportSize := int item.value }
      | .reportId => none
      | .reportCount =>
          if item.value > 512 then none else some { state with reportCount := int item.value }
      | .push =>
          if item.data.length ≠ 0 ∨ state.globals.length ≥ 8 then none
          else some { state with
            globals := (state.page, state.reportSize, state.reportCount) :: state.globals }
      | .pop => if item.data.length ≠ 0 then none else state.pop
      | .input => state.data 8
      | .output => state.data 9
      | .collection => state.collection item.value
      | .endCollection =>
          if item.data.length ≠ 0 ∨ int (state.depth - 1) < 0 then none
          else some { state with depth := int (state.depth - 1) }
      | .other => some state := by
  generalize hkind : item.kind = kind
  rw [Item.kind] at hkind
  generalize item.type = type at hkind ⊢
  generalize item.tag = tag at hkind ⊢
  split at hkind <;> subst hkind
  case h_11 husage hsize hid hcount hpush hpop hinput houtput hcollection hend =>
    have hne (a b : Nat) (h : type = a → tag = b → False) : ¬ (type = a ∧ tag = b) :=
      fun hab => h hab.1 hab.2
    have hdata : ¬ (type = 0 ∧ (tag = 8 ∨ tag = 9)) := fun hab =>
      hab.2.elim (hinput hab.1) (houtput hab.1)
    rw [State.item, if_neg (hne _ _ husage), if_neg (hne _ _ hsize), if_neg (hne _ _ hid),
      if_neg (hne _ _ hcount), if_neg (hne _ _ hpush), if_neg (hne _ _ hpop), if_neg hdata,
      if_neg (hne _ _ hcollection), if_neg (hne _ _ hend)]
  all_goals
    rw [State.item]
    repeat rw [if_neg (by decide)]
    rw [if_pos (by decide)]

/-- What fits, by the kind of the item. -/
theorem fits_kind {items : List Item} {item : Item} :
    Fits items item ↔
      match item.kind with
      | .usagePage => item.value ≤ 65535
      | .reportSize => item.value ≤ 64
      | .reportId => False
      | .reportCount => item.value ≤ 512
      | .push => item.data = [] ∧ tally .push items < tally .pop items + 8
      | .pop => item.data = [] ∧ tally .pop items < tally .push items
      | .input => (tally .endCollection items < tally .collection items ∧
          0 < (inForce items).bits) ∧ declared .input items + (inForce items).bits ≤ 512
      | .output => (tally .endCollection items < tally .collection items ∧
          0 < (inForce items).bits) ∧ declared .output items + (inForce items).bits ≤ 512
      | .collection => tally .collection items < tally .endCollection items + 8 ∧
          (tally .collection items = tally .endCollection items →
            (∀ k, ¬ TopLevel items k) ∧ item.value = 1 ∧ (inForce items).page = some 0xffa0)
      | .endCollection => item.data = [] ∧
          tally .endCollection items < tally .collection items
      | .other => True := by
  rw [fits_iff]
  cases hkind : item.kind <;> simp [Item.Limited, hkind]

/-- The variables of the check for a global state. -/
def Global.triple (g : Global) : Int × Int × Int :=
  (g.page.elim (-1) Int.ofNat, g.reportSize, g.reportCount)

/-- The variables of the check after items. -/
structure Tracks (items : List Item) (state : State) : Prop where
  current : (state.page, state.reportSize, state.reportCount) = (inForce items).triple
  globals : state.globals = (globals items).2.map Global.triple
  pushed : (Descriptor.globals items).2.length + tally .pop items = tally .push items
  depth : state.depth = (tally .collection items : Int) - tally .endCollection items
  ledger : state.ledger = true ↔ ∃ k, TopLevel items k
  input : state.inputBits = declared .input items
  output : state.outputBits = declared .output items
  bounded : ∀ g ∈ (Descriptor.globals items).1 :: (Descriptor.globals items).2,
    g.reportSize ≤ 64 ∧ g.reportCount ≤ 512

theorem tracks_nil : Tracks [] {} where
  current := rfl
  globals := rfl
  pushed := rfl
  depth := rfl
  ledger := ⟨fun h => (by cases h), fun ⟨k, h⟩ => absurd h.lt (Nat.not_lt_zero k)⟩
  input := rfl
  output := rfl
  bounded := by simp [Descriptor.globals]

theorem int_of_lt {n : Int} (hlo : -2 ^ 31 ≤ n) (hhi : n < 2 ^ 31) : int n = n := by
  rw [int, Int.bmod_def]
  split <;> omega

/-- An item that changes neither the totals nor the nesting. -/
theorem Tracks.global {items : List Item} {item : Item} {state : State} (h : Tracks items state)
    (hkind : item.kind ∉ [Kind.push, .pop, .input, .output, .collection, .endCollection])
    {page reportSize reportCount : Int} {g : Global}
    (hnext : Global.next (Descriptor.globals items) item = (g, (Descriptor.globals items).2))
    (hg : (page, reportSize, reportCount) = g.triple)
    (hbounded : g.reportSize ≤ 64 ∧ g.reportCount ≤ 512) :
    Tracks (items ++ [item]) { state with page, reportSize, reportCount } := by
  simp only [List.mem_cons, List.not_mem_nil, or_false, not_or] at hkind
  obtain ⟨hpush, hpop, hinput, houtput, hcollection, hend⟩ := hkind
  constructor
  · rw [inForce, globals_concat, hnext]
    exact hg
  · rw [globals_concat, hnext]
    exact h.globals
  · rw [globals_concat, hnext, tally_concat, tally_concat, if_neg hpush, if_neg hpop]
    exact h.pushed
  · rw [tally_concat, tally_concat, if_neg hcollection, if_neg hend]
    exact h.depth
  · simp only [topLevel_concat, hcollection, false_and, and_false, or_false]
    exact h.ledger
  · rw [declared_concat, if_neg hinput]
    exact h.input
  · rw [declared_concat, if_neg houtput]
    exact h.output
  · rw [globals_concat, hnext]
    exact List.forall_mem_cons.mpr ⟨hbounded, (List.forall_mem_cons.mp h.bounded).2⟩

/-- What the check does with an item that fits, and with one that does not. -/
def Steps (items : List Item) (state : State) (item : Item) : Prop :=
  (Fits items item → ∃ state',
    state.item item.type item.tag item.data.length item.value = some state' ∧
      Tracks (items ++ [item]) state') ∧
  (¬ Fits items item → state.item item.type item.tag item.data.length item.value = none)

section
variable {items : List Item} {item : Item} {state : State}

theorem steps_of {c : Prop} [Decidable c] {next : State}
    (hfits : Fits items item ↔ ¬ c)
    (hitem : state.item item.type item.tag item.data.length item.value =
      if c then none else some next)
    (hnext : Fits items item → Tracks (items ++ [item]) next) : Steps items state item := by
  rw [Steps, hitem, hfits]
  refine ⟨fun hc => ⟨next, if_neg hc, hnext (hfits.mpr hc)⟩, fun hc => if_pos (not_not.mp hc)⟩

theorem steps_usagePage (h : Tracks items state) (hkind : item.kind = .usagePage) :
    Steps items state item := by
  have hitem := state.item_kind item
  have hfits := @fits_kind items item
  simp only [hkind] at hitem hfits
  refine steps_of (hfits.trans Nat.not_lt.symm) hitem fun hfit => ?_
  have hvalue := hfits.mp hfit
  have hcurrent := h.current
  simp only [Global.triple, Prod.mk.injEq] at hcurrent
  refine h.global (g := { inForce items with page := some item.value }) (by simp [hkind])
    (by rw [Global.next, hkind]; rfl) ?_
    (List.forall_mem_cons.mp h.bounded).1
  rw [int_of_lt (by omega) (by omega), hcurrent.2.1, hcurrent.2.2]
  rfl

theorem steps_reportSize (h : Tracks items state) (hkind : item.kind = .reportSize) :
    Steps items state item := by
  have hitem := state.item_kind item
  have hfits := @fits_kind items item
  simp only [hkind] at hitem hfits
  refine steps_of (hfits.trans Nat.not_lt.symm) hitem fun hfit => ?_
  have hvalue := hfits.mp hfit
  have hcurrent := h.current
  simp only [Global.triple, Prod.mk.injEq] at hcurrent
  refine h.global (g := { inForce items with reportSize := item.value }) (by simp [hkind])
    (by rw [Global.next, hkind]; rfl) ?_
    ⟨hvalue, (List.forall_mem_cons.mp h.bounded).1.2⟩
  rw [int_of_lt (by omega) (by omega), hcurrent.1, hcurrent.2.2]
  rfl

theorem steps_reportCount (h : Tracks items state) (hkind : item.kind = .reportCount) :
    Steps items state item := by
  have hitem := state.item_kind item
  have hfits := @fits_kind items item
  simp only [hkind] at hitem hfits
  refine steps_of (hfits.trans Nat.not_lt.symm) hitem fun hfit => ?_
  have hvalue := hfits.mp hfit
  have hcurrent := h.current
  simp only [Global.triple, Prod.mk.injEq] at hcurrent
  refine h.global (g := { inForce items with reportCount := item.value }) (by simp [hkind])
    (by rw [Global.next, hkind]; rfl) ?_
    ⟨(List.forall_mem_cons.mp h.bounded).1.1, hvalue⟩
  rw [int_of_lt (by omega) (by omega), hcurrent.1, hcurrent.2.1]
  rfl

theorem steps_other (h : Tracks items state) (hkind : item.kind = .other) :
    Steps items state item := by
  have hitem := state.item_kind item
  have hfits := @fits_kind items item
  simp only [hkind] at hitem hfits
  refine steps_of (c := False) (hfits.trans not_false_iff.symm) hitem fun _ => ?_
  exact h.global (g := inForce items) (by simp [hkind]) (by rw [Global.next, hkind]; rfl) h.current
    (List.forall_mem_cons.mp h.bounded).1

theorem steps_push (h : Tracks items state) (hkind : item.kind = .push) :
    Steps items state item := by
  have hitem := state.item_kind item
  have hfits := @fits_kind items item
  simp only [hkind] at hitem hfits
  have hpushed := h.pushed
  have hlength : state.globals.length = (globals items).2.length := by
    rw [h.globals, List.length_map]
  refine steps_of ?_ hitem fun _ => ?_
  · rw [hfits, not_or, not_not, List.length_eq_zero_iff, hlength]
    exact and_congr_right fun _ => by omega
  · have hnext : Global.next (globals items) item =
        ((globals items).1, (globals items).1 :: (globals items).2) := by
      rw [Global.next, hkind]
    refine ⟨?_, ?_, ?_, ?_, ?_, ?_, ?_, ?_⟩
    · rw [inForce, globals_concat, hnext]
      exact h.current
    · rw [globals_concat, hnext, List.map_cons, ← h.globals]
      exact congrArg (· :: state.globals) h.current
    · rw [globals_concat, hnext, tally_concat, tally_concat, hkind]
      simp only [List.length_cons, reduceCtorEq, if_false, if_true]
      omega
    · rw [tally_concat, tally_concat, hkind]
      exact h.depth
    · simp only [topLevel_concat, hkind, reduceCtorEq, false_and, and_false, or_false]
      exact h.ledger
    · rw [declared_concat, hkind]
      exact h.input
    · rw [declared_concat, hkind]
      exact h.output
    · rw [globals_concat, hnext]
      exact List.forall_mem_cons.mpr ⟨(List.forall_mem_cons.mp h.bounded).1, h.bounded⟩

theorem steps_pop (h : Tracks items state) (hkind : item.kind = .pop) :
    Steps items state item := by
  have hitem := state.item_kind item
  have hfits := @fits_kind items item
  simp only [hkind] at hitem hfits
  have hpushed := h.pushed
  have hglobals := h.globals
  rw [Steps, hitem, hfits, ← List.length_eq_zero_iff]
  by_cases hdata : item.data.length = 0
  · rw [if_neg (not_not.mpr hdata)]
    rcases hsaved : (globals items).2 with _ | ⟨g, saved⟩
    · rw [hsaved] at hpushed hglobals
      refine ⟨fun hfit => ?_, fun _ => by rw [State.pop, hglobals]; rfl⟩
      simp only [List.length_nil] at hpushed
      omega
    · rw [hsaved] at hpushed hglobals
      rw [List.length_cons] at hpushed
      refine ⟨fun _ => ?_, fun hfit => absurd ⟨hdata, by omega⟩ hfit⟩
      rw [State.pop, hglobals]
      refine ⟨_, rfl, ?_⟩
      have hnext : Global.next (globals items) item = (g, saved) := by
        rw [Global.next, hkind, hsaved]
        rfl
      have hbounded := h.bounded
      rw [hsaved] at hbounded
      refine ⟨?_, ?_, ?_, ?_, ?_, ?_, ?_, ?_⟩
      · rw [inForce, globals_concat, hnext]
        rfl
      · rw [globals_concat, hnext]
      · rw [globals_concat, hnext, tally_concat, tally_concat, hkind]
        simp only [reduceCtorEq, if_false, if_true]
        omega
      · rw [tally_concat, tally_concat, hkind]
        exact h.depth
      · simp only [topLevel_concat, hkind, reduceCtorEq, false_and, and_false, or_false]
        exact h.ledger
      · rw [declared_concat, hkind]
        exact h.input
      · rw [declared_concat, hkind]
        exact h.output
      · rw [globals_concat, hnext]
        exact (List.forall_mem_cons.mp hbounded).2
  · rw [if_pos hdata]
    exact ⟨fun hfit => absurd hfit.1 hdata, fun _ => rfl⟩

/-- The product of two items under the limits is far from the end of an `Int`. -/
theorem Tracks.bits (h : Tracks items state) :
    int (state.reportSize * state.reportCount) = (inForce items).bits ∧
      (inForce items).bits ≤ 32768 ∧
      (state.reportSize = 0 ∨ state.reportCount = 0 ↔ ¬ 0 < (inForce items).bits) := by
  obtain ⟨hsize, hcount⟩ := (List.forall_mem_cons.mp h.bounded).1
  have hcurrent := h.current
  simp only [Global.triple, Prod.mk.injEq] at hcurrent
  have hle : (inForce items).bits ≤ 64 * 512 := Nat.mul_le_mul hsize hcount
  refine ⟨?_, hle, ?_⟩
  · rw [hcurrent.2.1, hcurrent.2.2, ← Nat.cast_mul]
    exact int_of_lt (by omega) (by change ((inForce items).bits : Int) < _; omega)
  · rw [hcurrent.2.1, hcurrent.2.2, Nat.not_lt, Nat.le_zero, Global.bits, Nat.mul_eq_zero]
    omega

/-- Where the nesting was never negative, the depth is that of open collections. -/
theorem Tracks.depth_eq_zero (h : Tracks items state) (hs : Sound items) :
    state.depth = 0 ↔ ¬ tally .endCollection items < tally .collection items := by
  have hnested := (hs.nested items.length).1
  rw [List.take_length] at hnested
  rw [h.depth]
  omega

theorem Tracks.data_input (h : Tracks items state) (hs : Sound items) :
    state.data 8 =
      if ¬ ((tally .endCollection items < tally .collection items ∧ 0 < (inForce items).bits) ∧
        declared .input items + (inForce items).bits ≤ 512) then none
      else some { state with
        inputBits := ((declared .input items + (inForce items).bits : Nat) : Int) } := by
  obtain ⟨hbits, hle, hzero⟩ := h.bits
  have hinput := hs.input
  have houtput := hs.output
  have htotal : int (state.inputBits + (inForce items).bits) =
      ((declared .input items + (inForce items).bits : Nat) : Int) := by
    rw [h.input, ← Nat.cast_add]
    exact int_of_lt (by omega) (by omega)
  have hinside : (state.depth = 0 ∨ state.reportSize = 0 ∨ state.reportCount = 0) ↔
      ¬ (tally .endCollection items < tally .collection items ∧ 0 < (inForce items).bits) := by
    rw [h.depth_eq_zero hs, hzero, not_and_or]
  rw [State.data]
  by_cases hin : tally .endCollection items < tally .collection items ∧ 0 < (inForce items).bits
  · rw [if_neg fun hout => hinside.mp hout hin]
    simp only [hbits, htotal, h.output, if_true]
    by_cases hfull : declared .input items + (inForce items).bits ≤ 512
    · rw [if_neg (by omega), if_neg (not_not.mpr ⟨hin, hfull⟩)]
    · rw [if_pos (by omega), if_pos fun hall => hfull hall.2]
  · rw [if_pos (hinside.mpr hin), if_pos fun hall => hin hall.1]

theorem Tracks.data_output (h : Tracks items state) (hs : Sound items) :
    state.data 9 =
      if ¬ ((tally .endCollection items < tally .collection items ∧ 0 < (inForce items).bits) ∧
        declared .output items + (inForce items).bits ≤ 512) then none
      else some { state with
        outputBits := ((declared .output items + (inForce items).bits : Nat) : Int) } := by
  obtain ⟨hbits, hle, hzero⟩ := h.bits
  have hinput := hs.input
  have houtput := hs.output
  have htotal : int (state.outputBits + (inForce items).bits) =
      ((declared .output items + (inForce items).bits : Nat) : Int) := by
    rw [h.output, ← Nat.cast_add]
    exact int_of_lt (by omega) (by omega)
  have hinside : (state.depth = 0 ∨ state.reportSize = 0 ∨ state.reportCount = 0) ↔
      ¬ (tally .endCollection items < tally .collection items ∧ 0 < (inForce items).bits) := by
    rw [h.depth_eq_zero hs, hzero, not_and_or]
  rw [State.data]
  by_cases hin : tally .endCollection items < tally .collection items ∧ 0 < (inForce items).bits
  · have hnine : ¬ (9 = 8) := by decide
    rw [if_neg fun hout => hinside.mp hout hin]
    simp only [hbits, htotal, h.input, hnine, if_false]
    by_cases hfull : declared .output items + (inForce items).bits ≤ 512
    · rw [if_neg (by omega), if_neg (not_not.mpr ⟨hin, hfull⟩)]
    · rw [if_pos (by omega), if_pos fun hall => hfull hall.2]
  · rw [if_pos (hinside.mpr hin), if_pos fun hall => hin hall.1]

/-- An item that leaves the global state and the nesting. -/
theorem Tracks.totals (h : Tracks items state)
    (hkind : item.kind = .input ∨ item.kind = .output) {inputBits outputBits : Int}
    (hinput : inputBits = declared .input (items ++ [item]))
    (houtput : outputBits = declared .output (items ++ [item])) :
    Tracks (items ++ [item]) { state with inputBits, outputBits } := by
  have hnext : Descriptor.globals (items ++ [item]) = Descriptor.globals items := by
    rw [globals_concat, Global.next]
    rcases hkind with hkind | hkind <;> rw [hkind]
  have htally (kind : Kind) (hne : kind ≠ .input) (hne' : kind ≠ .output) :
      tally kind (items ++ [item]) = tally kind items := by
    rw [tally_concat, if_neg, Nat.add_zero]
    rcases hkind with hkind | hkind <;> rw [hkind]
    · exact hne.symm
    · exact hne'.symm
  have hcollection : item.kind ≠ .collection := by
    rcases hkind with hkind | hkind <;> simp [hkind]
  refine ⟨?_, ?_, ?_, ?_, ?_, hinput, houtput, ?_⟩
  · rw [inForce, hnext]
    exact h.current
  · rw [hnext]
    exact h.globals
  · rw [hnext, htally _ (by decide) (by decide), htally _ (by decide) (by decide)]
    exact h.pushed
  · rw [htally _ (by decide) (by decide), htally _ (by decide) (by decide)]
    exact h.depth
  · simp only [topLevel_concat, hcollection, false_and, and_false, or_false]
    exact h.ledger
  · rw [hnext]
    exact h.bounded

theorem steps_input (h : Tracks items state) (hs : Sound items) (hkind : item.kind = .input) :
    Steps items state item := by
  have hitem := state.item_kind item
  have hfits := @fits_kind items item
  simp only [hkind] at hitem hfits
  refine steps_of (hfits.trans not_not.symm) (hitem.trans (h.data_input hs)) fun _ => ?_
  refine h.totals (.inl hkind) ?_ ?_
  · rw [declared_concat, if_pos hkind]
  · rw [declared_concat, hkind]
    exact h.output

theorem steps_output (h : Tracks items state) (hs : Sound items) (hkind : item.kind = .output) :
    Steps items state item := by
  have hitem := state.item_kind item
  have hfits := @fits_kind items item
  simp only [hkind] at hitem hfits
  refine steps_of (hfits.trans not_not.symm) (hitem.trans (h.data_output hs)) fun _ => ?_
  refine h.totals (.inr hkind) ?_ ?_
  · rw [declared_concat, hkind]
    exact h.input
  · rw [declared_concat, if_pos hkind]

/-- An item that opens or closes a collection. -/
theorem Tracks.nesting (h : Tracks items state)
    (hkind : item.kind = .collection ∨ item.kind = .endCollection) {depth : Int} {ledger : Bool}
    (hdepth : depth = (tally .collection (items ++ [item]) : Int) -
      tally .endCollection (items ++ [item]))
    (hledger : ledger = true ↔ ∃ k, TopLevel (items ++ [item]) k) :
    Tracks (items ++ [item]) { state with depth, ledger } := by
  have hnext : Descriptor.globals (items ++ [item]) = Descriptor.globals items := by
    rw [globals_concat, Global.next]
    rcases hkind with hkind | hkind <;> rw [hkind]
  refine ⟨?_, ?_, ?_, hdepth, hledger, ?_, ?_, ?_⟩
  · rw [inForce, hnext]
    exact h.current
  · rw [hnext]
    exact h.globals
  · rw [hnext, tally_concat, tally_concat]
    rcases hkind with hkind | hkind <;> rw [hkind] <;> exact h.pushed
  · rw [declared_concat]
    rcases hkind with hkind | hkind <;> rw [hkind] <;> exact h.input
  · rw [declared_concat]
    rcases hkind with hkind | hkind <;> rw [hkind] <;> exact h.output
  · rw [hnext]
    exact h.bounded

theorem steps_endCollection (h : Tracks items state) (hs : Sound items)
    (hkind : item.kind = .endCollection) : Steps items state item := by
  have hitem := state.item_kind item
  have hfits := @fits_kind items item
  simp only [hkind] at hitem hfits
  have hdepth := h.depth
  have hnested := hs.nested items.length
  rw [List.take_length] at hnested
  have hless : int (state.depth - 1) = state.depth - 1 := int_of_lt (by omega) (by omega)
  rw [hless] at hitem
  refine steps_of ?_ hitem fun _ => ?_
  · rw [hfits, not_or, not_not, List.length_eq_zero_iff]
    exact and_congr_right fun _ => by omega
  · refine h.nesting (.inr hkind) ?_ ?_
    · rw [tally_concat, tally_concat, hkind]
      simp only [reduceCtorEq, if_false, if_true]
      omega
    · simp only [topLevel_concat, hkind, reduceCtorEq, false_and, and_false, or_false]
      exact h.ledger

theorem steps_collection (h : Tracks items state) (hs : Sound items)
    (hkind : item.kind = .collection) : Steps items state item := by
  have hitem := state.item_kind item
  have hfits := @fits_kind items item
  simp only [hkind] at hitem hfits
  have hdepth := h.depth
  have hnested := hs.nested items.length
  rw [List.take_length] at hnested
  have hmore : int (state.depth + 1) = state.depth + 1 := int_of_lt (by omega) (by omega)
  have hpage : state.page ≠ 0xffa0 ↔ (inForce items).page ≠ some 0xffa0 := by
    have hcurrent := h.current
    simp only [Global.triple, Prod.mk.injEq] at hcurrent
    rw [hcurrent.1]
    rcases (inForce items).page with _ | page
    · simp
    · simp only [Option.elim_some, Int.ofNat_eq_natCast, ne_eq, Option.some.injEq]
      omega
  have hlevel : state.depth = 0 ↔
      tally .collection items = tally .endCollection items := by omega
  rw [Steps, hitem, hfits, State.collection, ← hlevel]
  by_cases htop : state.depth = 0
  · by_cases hbad : state.ledger = true ∨ item.value ≠ 1 ∨ state.page ≠ 0xffa0
    · rw [if_pos ⟨htop, hbad⟩]
      refine ⟨fun hfit => ?_, fun _ => rfl⟩
      obtain ⟨hnone, hvalue, hpageEq⟩ := hfit.2 htop
      rcases hbad with hledger | hbad | hbad
      · obtain ⟨k, hk⟩ := h.ledger.mp hledger
        exact absurd hk (hnone k)
      · exact absurd hvalue hbad
      · exact absurd hpageEq (hpage.mp hbad)
    · rw [if_neg fun hall => hbad hall.2]
      obtain ⟨hledger, hvalue, hpageEq⟩ :
          ¬ state.ledger = true ∧ item.value = 1 ∧ (inForce items).page = some 0xffa0 := by
        rw [not_or, not_or, not_not, hpage, not_not] at hbad
        exact hbad
      simp only [htop, if_true]
      refine ⟨fun _ => ⟨_, rfl, h.nesting (.inl hkind) ?_ ?_⟩, fun hfit => ?_⟩
      · have hone : int (0 + 1) = 1 := rfl
        rw [tally_concat, tally_concat, hkind, hlevel.mp htop, hone]
        simp only [reduceCtorEq, if_false, if_true]
        omega
      · refine ⟨fun _ => ⟨items.length, topLevel_concat.mpr ?_⟩, fun _ => rfl⟩
        exact .inr ⟨rfl, hkind, hlevel.mp htop⟩
      · refine absurd ⟨by omega, fun _ => ⟨fun k hk => ?_, hvalue, hpageEq⟩⟩ hfit
        exact hledger (h.ledger.mpr ⟨k, hk⟩)
  · rw [if_neg fun hall => htop hall.1]
    simp only [htop, if_false, hmore]
    by_cases hdeep : state.depth + 1 > 8
    · rw [if_pos hdeep]
      exact ⟨fun hfit => by omega, fun _ => rfl⟩
    · rw [if_neg hdeep]
      refine ⟨fun _ => ⟨_, rfl, h.nesting (.inl hkind) ?_ ?_⟩, fun hfit => ?_⟩
      · rw [tally_concat, tally_concat, hkind]
        simp only [reduceCtorEq, if_false, if_true]
        omega
      · simp only [topLevel_concat, ← hlevel, htop, and_false, or_false]
        exact h.ledger
      · exact absurd ⟨by omega, fun hzero => hzero.elim⟩ hfit

theorem steps_reportId (hkind : item.kind = .reportId) : Steps items state item := by
  have hitem := state.item_kind item
  have hfits := @fits_kind items item
  simp only [hkind] at hitem hfits
  exact ⟨fun hfit => (hfits.mp hfit).elim, fun _ => hitem⟩

/-- One item, of whatever kind. -/
theorem steps (h : Tracks items state) (hs : Sound items) (item : Item) :
    Steps items state item := by
  cases hkind : item.kind with
  | usagePage => exact steps_usagePage h hkind
  | reportSize => exact steps_reportSize h hkind
  | reportId => exact steps_reportId hkind
  | reportCount => exact steps_reportCount h hkind
  | push => exact steps_push h hkind
  | pop => exact steps_pop h hkind
  | input => exact steps_input h hs hkind
  | output => exact steps_output h hs hkind
  | collection => exact steps_collection h hs hkind
  | endCollection => exact steps_endCollection h hs hkind
  | other => exact steps_other h hkind

end

/-! ## The whole check -/

theorem sound_of_append {items later : List Item} (h : Sound (items ++ later)) : Sound items := by
  induction later using List.reverseRecOn with
  | nil => rwa [List.append_nil] at h
  | append_singleton later item ih =>
      rw [← List.append_assoc] at h
      exact ih (sound_concat.mp h).1

/-- Where every input and output item stands in a collection, the totals agree. -/
theorem declared_inside {items : List Item} (h : Strict items) {kind : Kind}
    (hkind : kind = .input ∨ kind = .output) : declaredInside kind items = declared kind items := by
  apply Finset.sum_congr rfl
  intro k _
  by_cases hhere : (items[k]?).map Item.kind = some kind
  · have hinside := h.inside k
      (hkind.imp (fun heq => hhere.trans (congrArg some heq)) fun heq =>
        hhere.trans (congrArg some heq))
    rw [if_pos ⟨hhere, hinside.1⟩, if_pos hhere]
  · rw [if_neg fun hboth => hhere hboth.1, if_neg hhere]

theorem sound_of_shape {items : List Item} (h : LedgerShape items) (hstrict : Strict items) :
    Sound items := by
  obtain ⟨k, hk, happlication, hunique⟩ := h.single
  refine ⟨hstrict, h.limited, h.noReportId, h.nested, h.saved, fun k' hk' => ?_,
    ((declared_inside hstrict (.inl rfl)).symm.trans h.input).le,
    ((declared_inside hstrict (.inr rfl)).symm.trans h.output).le⟩
  rw [hunique k' hk']
  exact ⟨happlication, hunique⟩

/-- What is checked at the end. -/
theorem accepts_iff {items : List Item} {state : State} (h : Tracks items state)
    (hs : Sound items) : state.accepts = true ↔ LedgerShape items ∧ Strict items := by
  have hsaved := hs.saved items.length
  have hnested := hs.nested items.length
  rw [List.take_length] at hsaved hnested
  have hpushed := h.pushed
  have hdepth : state.depth = 0 ↔ tally .collection items = tally .endCollection items := by
    rw [h.depth]
    omega
  have hglobals : state.globals = [] ↔ tally .push items = tally .pop items := by
    rw [h.globals, List.map_eq_nil_iff, ← List.length_eq_zero_iff]
    omega
  have hinput : state.inputBits = 512 ↔ declaredInside .input items = 512 := by
    rw [h.input, declared_inside hs.toStrict (.inl rfl)]
    omega
  have houtput : state.outputBits = 512 ↔ declaredInside .output items = 512 := by
    rw [h.output, declared_inside hs.toStrict (.inr rfl)]
    omega
  simp only [State.accepts, Bool.and_eq_true, beq_iff_eq, List.isEmpty_iff, h.ledger, hdepth,
    hglobals, hinput, houtput]
  constructor
  · rintro ⟨⟨⟨⟨⟨k, hk⟩, hbalanced⟩, hrestored⟩, hin⟩, hout⟩
    obtain ⟨happlication, hunique⟩ := hs.single k hk
    exact ⟨⟨hs.limited, hs.noReportId, hs.nested, hbalanced, hs.saved, hrestored,
      ⟨k, hk, happlication, hunique⟩, hin, hout⟩, hs.toStrict⟩
  · rintro ⟨hshape, -⟩
    obtain ⟨k, hk, -⟩ := hshape.single
    exact ⟨⟨⟨⟨⟨k, hk⟩, hshape.balanced⟩, hshape.restored⟩, hshape.input⟩, hshape.output⟩

/-- A descriptor as its items. -/
def Spells (bytes : Bytes) (items : List Item) : Prop := bytes = (items.map Item.bytes).flatten

theorem spells_nil {items : List Item} : Spells [] items ↔ items = [] := by
  constructor
  · intro h
    cases items with
    | nil => rfl
    | cons item items => cases h
  · rintro rfl
    rfl

theorem spells_cons {lead : UInt8} {rest : Bytes} {items : List Item} :
    Spells (lead :: rest) items ↔ ∃ item later, items = item :: later ∧ item.lead = lead ∧
      item.data = rest.take (dataSize lead.toNat) ∧
      Spells (rest.drop (dataSize lead.toNat)) later := by
  constructor
  · intro h
    cases items with
    | nil => cases h
    | cons item later =>
        rw [Spells, List.map_cons, List.flatten_cons, Item.bytes, List.cons_append] at h
        injection h with hlead hrest
        refine ⟨item, later, rfl, hlead.symm, ?_, ?_⟩
        · rw [hrest, hlead, ← item.complete, List.take_left]
        · rw [Spells, hrest, hlead, ← item.complete, List.drop_left]
  · rintro ⟨item, later, rfl, rfl, hdata, hlater⟩
    rw [Spells, List.map_cons, List.flatten_cons, Item.bytes, hdata, ← hlater, List.cons_append,
      List.take_append_drop]

theorem spells_unique {bytes : Bytes} {items items' : List Item} (h : Spells bytes items)
    (h' : Spells bytes items') : items = items' := by
  induction items generalizing bytes items' with
  | nil =>
      have hnil : bytes = [] := h
      rw [hnil] at h'
      exact (spells_nil.mp h').symm
  | cons item items ih =>
      obtain ⟨rest, rfl⟩ : ∃ rest, bytes = item.lead :: rest := ⟨_, h⟩
      obtain ⟨first, later, heq, -, hdata, hlater⟩ := spells_cons.mp h
      obtain ⟨first', later', rfl, hlead', hdata', hlater'⟩ := spells_cons.mp h'
      injection heq with hfirst hitems
      subst hfirst hitems
      rw [ih hlater hlater']
      congr 1
      cases item
      cases first'
      cases hlead'
      cases hdata.trans hdata'.symm
      rfl

/-- The data of an item are its bytes, little endian. -/
theorem readValue_eq (bytes : Bytes) (offset : Nat) {size : Nat}
    (h : offset + size ≤ bytes.length) :
    readValue bytes offset size =
      some (Nat.ofDigits 256 (((bytes.drop offset).take size).map UInt8.toNat)) := by
  induction size with
  | zero => rfl
  | succ size ih =>
      have hlt : offset + size < bytes.length := by omega
      have hbyte : (bytes.drop offset)[size]? = some bytes[offset + size] := by
        rw [List.getElem?_drop, List.getElem?_eq_getElem hlt]
      have hlength : (((bytes.drop offset).take size).map UInt8.toNat).length = size := by
        rw [List.length_map, List.length_take, List.length_drop]
        omega
      -- What is read so far stays below the next byte.
      have hbelow : Nat.ofDigits 256 (((bytes.drop offset).take size).map UInt8.toNat) <
          2 ^ (8 * size) := by
        have hdigits := Nat.ofDigits_lt_base_pow_length (b := 256)
          (l := ((bytes.drop offset).take size).map UInt8.toNat) (by decide) (by
            intro digit hdigit
            obtain ⟨byte, -, rfl⟩ := List.mem_map.mp hdigit
            exact byte.toNat_lt)
        rw [hlength] at hdigits
        rwa [Nat.pow_mul]
      have hprevious := ih (by omega)
      rw [readValue] at hprevious ⊢
      rw [List.range_succ, List.foldlM_append, hprevious]
      simp only [List.foldlM_cons, List.foldlM_nil, List.getElem?_eq_getElem hlt, Option.bind_eq_bind,
        Option.bind_some, Option.pure_def]
      rw [List.take_add_one, hbyte, Option.toList_some, List.map_append, List.map_singleton,
        Nat.ofDigits_append, hlength, Nat.ofDigits_singleton, Nat.or_comm,
        ← Nat.shiftLeft_add_eq_or_of_lt hbelow, Nat.shiftLeft_eq, Nat.pow_mul, Nat.add_comm,
        Nat.mul_comm (bytes[offset + size].toNat)]

/-- The first item of what is left, when there is a complete short one. -/
theorem first_item {bytes : Bytes} {offset : Nat} (hlt : offset < bytes.length)
    (hshort : bytes[offset].toNat ≠ 254)
    (hcomplete : offset + 1 + dataSize bytes[offset].toNat ≤ bytes.length) :
    ∃ item : Item, item.lead = bytes[offset] ∧
      item.data = (bytes.drop (offset + 1)).take (dataSize bytes[offset].toNat) ∧
      ∀ items, Spells (bytes.drop offset) items ↔ ∃ later, items = item :: later ∧
        Spells (bytes.drop (offset + 1 + dataSize bytes[offset].toNat)) later := by
  have hlength : ((bytes.drop (offset + 1)).take (dataSize bytes[offset].toNat)).length =
      dataSize bytes[offset].toNat := by
    rw [List.length_take, List.length_drop]
    omega
  refine ⟨⟨bytes[offset], _, hshort, hlength⟩, rfl, rfl, fun items => ?_⟩
  rw [List.drop_eq_getElem_cons hlt, spells_cons, List.drop_drop]
  constructor
  · rintro ⟨item, later, rfl, hlead, hdata, hlater⟩
    refine ⟨later, ?_, hlater⟩
    congr 1
    cases item
    cases hlead
    cases hdata
    rfl
  · rintro ⟨later, rfl, hlater⟩
    exact ⟨_, later, rfl, rfl, rfl, hlater⟩

/-- The loop from any place: it ends inside the bytes, and it accepts what
    completes the items before to the shape. -/
theorem scan_spec (bytes : Bytes) (offset : Nat) {items : List Item} {state : State}
    (h : Tracks items state) (hs : Sound items) :
    ∃ accepted, scan bytes offset state = some accepted ∧ (accepted = true ↔
      ∃ later, Spells (bytes.drop offset) later ∧
        LedgerShape (items ++ later) ∧ Strict (items ++ later)) := by
  induction hleft : bytes.length - offset using Nat.strong_induction_on
    generalizing offset items state with
  | _ left ih =>
      rw [scan]
      by_cases hlt : offset < bytes.length
      · rw [if_pos hlt, List.getElem?_eq_getElem hlt]
        simp only [Option.map_some, Option.bind_eq_bind, Option.bind_some]
        by_cases hlong : bytes[offset].toNat = 254
        · -- Every item is short.
          rw [if_pos hlong]
          refine ⟨false, rfl, ⟨fun hfalse => (by cases hfalse), ?_⟩⟩
          rintro ⟨later, hspells, -⟩
          rw [List.drop_eq_getElem_cons hlt, spells_cons] at hspells
          obtain ⟨item, -, -, hlead, -⟩ := hspells
          exact absurd hlong (hlead ▸ item.short)
        rw [if_neg hlong]
        by_cases hcut : offset + 1 + dataSize bytes[offset].toNat > bytes.length
        · -- Every item is complete.
          rw [if_pos hcut]
          refine ⟨false, rfl, ⟨fun hfalse => (by cases hfalse), ?_⟩⟩
          rintro ⟨later, hspells, -⟩
          rw [List.drop_eq_getElem_cons hlt, spells_cons] at hspells
          obtain ⟨item, -, -, hlead, hdata, -⟩ := hspells
          have hcomplete := congrArg List.length hdata
          rw [item.complete, hlead, List.length_take, List.length_drop] at hcomplete
          omega
        rw [if_neg hcut]
        have hfirst := first_item hlt hlong (Nat.not_lt.mp hcut)
        obtain ⟨item, hlead, hdata, hspells⟩ := hfirst
        have hvalue := readValue_eq bytes (offset + 1) (Nat.not_lt.mp hcut)
        rw [← hdata] at hvalue
        rw [hvalue]
        simp only [Option.bind_some]
        obtain ⟨hfit, hunfit⟩ := steps h hs item
        rw [← hlead, ← item.complete]
        rw [← hlead, ← item.complete] at hspells
        change (Fits items item → ∃ state', state.item (item.lead.toNat >>> 2 &&& 3)
          (item.lead.toNat >>> 4) item.data.length
          (Nat.ofDigits 256 (item.data.map UInt8.toNat)) = some state' ∧ _) at hfit
        change (¬ Fits items item → state.item (item.lead.toNat >>> 2 &&& 3)
          (item.lead.toNat >>> 4) item.data.length
          (Nat.ofDigits 256 (item.data.map UInt8.toNat)) = none) at hunfit
        by_cases hfits : Fits items item
        · obtain ⟨state', hstate, htracks⟩ := hfit hfits
          rw [hstate]
          obtain ⟨accepted, hscan, haccepted⟩ := ih _ (by omega)
            (offset + 1 + item.data.length) htracks (sound_concat.mpr ⟨hs, hfits⟩) rfl
          refine ⟨accepted, hscan, haccepted.trans ⟨?_, ?_⟩⟩
          · rintro ⟨later, hlater, hshape⟩
            rw [List.append_assoc, List.singleton_append] at hshape
            exact ⟨item :: later, (hspells _).mpr ⟨later, rfl, hlater⟩, hshape⟩
          · rintro ⟨all, hall, hshape⟩
            obtain ⟨later, rfl, hlater⟩ := (hspells _).mp hall
            rw [← List.singleton_append, ← List.append_assoc] at hshape
            exact ⟨later, hlater, hshape⟩
        · rw [hunfit hfits]
          refine ⟨false, rfl, ⟨fun hfalse => (by cases hfalse), ?_⟩⟩
          rintro ⟨all, hall, hshape, hstrict⟩
          obtain ⟨later, rfl, -⟩ := (hspells _).mp hall
          have hsound := sound_of_shape hshape hstrict
          rw [← List.singleton_append, ← List.append_assoc] at hsound
          exact absurd (sound_concat.mp (sound_of_append hsound)).2 hfits
      · rw [if_neg hlt]
        refine ⟨state.accepts, rfl, (accepts_iff h hs).trans ?_⟩
        rw [List.drop_of_length_le (Nat.not_lt.mp hlt)]
        constructor
        · intro hshape
          exact ⟨[], rfl, by rwa [List.append_nil]⟩
        · rintro ⟨later, hlater, hshape⟩
          rw [spells_nil.mp hlater, List.append_nil] at hshape
          exact hshape

/-- The check ends inside the bytes, and accepts exactly the shape. -/
theorem descriptor_check_exact (bytes : Bytes) :
    ∃ accepted, isLedgerHidDescriptor bytes = some accepted ∧ (accepted = true ↔
      1 ≤ bytes.length ∧ bytes.length ≤ 1024 ∧
        ∃ items, Spells bytes items ∧ LedgerShape items ∧ Strict items) := by
  rw [isLedgerHidDescriptor]
  by_cases hlength : bytes.isEmpty = true ∨ bytes.length > 1024
  · rw [if_pos hlength]
    refine ⟨false, rfl, ⟨fun hfalse => (by cases hfalse), ?_⟩⟩
    rintro ⟨hmin, hmax, -⟩
    rcases hlength with hempty | hlong
    · rw [List.isEmpty_iff.mp hempty] at hmin
      cases hmin
    · omega
  · rw [if_neg hlength]
    rw [not_or, List.isEmpty_iff, ← List.length_eq_zero_iff] at hlength
    obtain ⟨accepted, hscan, haccepted⟩ := scan_spec bytes 0 tracks_nil sound_nil
    refine ⟨accepted, hscan, haccepted.trans ?_⟩
    constructor
    · intro hitems
      exact ⟨by omega, by omega, hitems⟩
    · exact fun hitems => hitems.2.2

/-! ## What the shape alone leaves open -/

theorem nested_iff_range {opening close : Kind} {items : List Item} :
    (∀ k ∈ List.range (items.length + 1),
      tally close (items.take k) ≤ tally opening (items.take k) ∧
        tally opening (items.take k) ≤ tally close (items.take k) + 8) ↔
      Nested opening close items := by
  refine ⟨fun h k => ?_, fun h k _ => h k⟩
  by_cases hlt : k < items.length + 1
  · exact h k (List.mem_range.mpr hlt)
  · have hall := h items.length (List.mem_range.mpr (Nat.lt_succ_self _))
    have htake : items.take k = items := List.take_of_length_le (by omega)
    rwa [List.take_length, ← htake] at hall

theorem single_iff_range {items : List Item} :
    (∃ k ∈ List.range items.length, TopLevel items k ∧ Application items k ∧
      ∀ k' ∈ List.range items.length, TopLevel items k' → k' = k) ↔ Single items := by
  constructor
  · rintro ⟨k, -, hk, happlication, hunique⟩
    exact ⟨k, hk, happlication, fun k' hk' => hunique k' (List.mem_range.mpr hk'.lt) hk'⟩
  · rintro ⟨k, hk, happlication, hunique⟩
    exact ⟨k, List.mem_range.mpr hk.lt, hk, happlication, fun k' _ => hunique k'⟩

instance (items : List Item) (k : Nat) : Decidable (TopLevel items k) :=
  inferInstanceAs (Decidable (_ ∧ _))

instance (items : List Item) (k : Nat) : Decidable (Application items k) :=
  inferInstanceAs (Decidable (_ ∧ _))

instance (item : Item) : Decidable item.Limited :=
  inferInstanceAs (Decidable (_ ∧ _ ∧ _))

instance (opening close : Kind) (items : List Item) : Decidable (Nested opening close items) :=
  decidable_of_iff _ nested_iff_range

instance (items : List Item) : Decidable (Single items) :=
  decidable_of_iff _ single_iff_range

instance (items : List Item) : Decidable (LedgerShape items) :=
  decidable_of_iff _ (ledgerShape_iff items).symm

theorem refused_of_not_strict {items : List Item} (h : ¬ Strict items) :
    isLedgerHidDescriptor (items.map Item.bytes).flatten = some false := by
  rw [isLedgerHidDescriptor]
  split
  · rfl
  · obtain ⟨accepted, hscan, haccepted⟩ :=
      scan_spec (items.map Item.bytes).flatten 0 tracks_nil sound_nil
    rw [hscan, Option.some.injEq, ← Bool.not_eq_true, haccepted]
    rintro ⟨later, hspells, -, hstrict⟩
    exact h (spells_unique hspells rfl ▸ hstrict)

/-- The report descriptor of a Ledger, its collection left open. -/
def openItems : List Item :=
  [⟨0x06, [0xa0, 0xff], by decide, by decide⟩, ⟨0xa1, [0x01], by decide, by decide⟩,
    ⟨0x75, [0x08], by decide, by decide⟩, ⟨0x95, [0x40], by decide, by decide⟩,
    ⟨0x81, [0x08], by decide, by decide⟩, ⟨0x91, [0x08], by decide, by decide⟩]

def endItem : Item := ⟨0xc0, [], by decide, by decide⟩

/-- An end collection that carries a byte. -/
def longEnd : List Item := openItems ++ [⟨0xc1, [0x00], by decide, by decide⟩]

/-- One more input item that declares nothing. -/
def emptyInput : List Item :=
  openItems ++ [⟨0x95, [0x00], by decide, by decide⟩, ⟨0x81, [0x08], by decide, by decide⟩, endItem]

/-- One more input item, outside the collection. -/
def looseInput : List Item := openItems ++ [endItem, ⟨0x81, [0x08], by decide, by decide⟩]

theorem shapes_refused :
    (LedgerShape longEnd ∧ isLedgerHidDescriptor (longEnd.map Item.bytes).flatten = some false) ∧
    (LedgerShape emptyInput ∧
      isLedgerHidDescriptor (emptyInput.map Item.bytes).flatten = some false) ∧
    (LedgerShape looseInput ∧
      isLedgerHidDescriptor (looseInput.map Item.bytes).flatten = some false) := by
  refine ⟨⟨by decide, refused_of_not_strict fun h => ?_⟩,
    ⟨by decide, refused_of_not_strict fun h => ?_⟩, ⟨by decide, refused_of_not_strict fun h => ?_⟩⟩
  · exact absurd (h.bare _ (List.mem_append_right _ (List.mem_singleton_self _)) (by decide))
      (by decide)
  · exact absurd (h.inside 7 (by decide)).2 (by decide)
  · exact absurd (h.inside 7 (by decide)).1 (by decide)

end Descriptor
end Usb
end Tundra
