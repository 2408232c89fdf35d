/-
  Tundra.Spellings

  Labels and freezes are rows under the text of a reference, and the parsers
  accept several texts for one output, transaction or address: the digits of an
  id and the letters of an address in either case.  `coins` and `activity` look
  a row up under one of them, the text the wallet itself writes (`canonical`).

  Every accepted edit is a list of assignments to entities.  `Follows` says that
  the entities have the assigned values afterwards, in whatever spelling they
  were named; `Settles` says, of the references and of the state before, when
  they do.
-/

import Tundra.Separation

namespace Tundra
namespace Spellings

open Checked Relational Engine Signing Drafts Effects Tundra.System Separation

/-- The crates, with transaction ids that read back from the text they are written as. -/
structure LabelEnv (State Wallet Scan : Type) extends Env State Wallet Scan where
  parseTxid_display : ∀ txid, parseTxid (displayTxid txid) = some txid

variable {State Wallet Scan : Type} (env : LabelEnv State Wallet Scan)

/-! ## Entities -/

/-- What a reference names. -/
inductive Entity where
  | output (op : OutPoint)
  | tx (txid : Txid)
  | addr (script : Script)
  deriving DecidableEq

def Entity.kind : Entity → LabelKind
  | .output _ => .output
  | .tx _ => .tx
  | .addr _ => .addr

/-- The entity a text spells on a network. -/
def spelled (network : Network) (kind : LabelKind) (reference : String) : Option Entity :=
  match kind with
  | .output => (env.parseOutPoint reference).map .output
  | .tx => (env.parseTxid reference).map .tx
  | .addr => ((env.parseAddress reference).bind (fun require => require network)).map .addr

/-- The text the wallet writes for an entity and looks its rows up under.  No
    list of the wallet shows the label of an address. -/
def canonical : Entity → Option String
  | .output op => some (env.displayOutPoint op)
  | .tx txid => some (env.displayTxid txid)
  | .addr _ => none

/-! ## Edits -/

inductive Edit where
  | setLabel (kind reference label : String)
  | setFrozen (reference : String) (frozen : Bool)
  | editCoins (references : List String) (label : Option String) (frozen : Option Bool)
  | importLabels (payload : String)

/-- The database an edit commits. -/
def Edit.apply (db : Db State) (id : String) : Edit → Result (Db State)
  | .setLabel kind reference label =>
      (Engine.setLabel env.toEnv db id kind reference label).map Prod.snd
  | .setFrozen reference frozen => (Engine.setFrozen env.toEnv db id reference frozen).map Prod.snd
  | .editCoins references label frozen =>
      (Engine.editCoins env.toEnv db id references label frozen).map Prod.snd
  | .importLabels payload => (Engine.importLabels env.toEnv db id payload true).map Prod.snd

/-- The values an edit gives to the entity of a reference, and the text it
    writes them under. -/
structure Assignment where
  kind : LabelKind
  reference : String
  written : String
  label : Option String
  frozen : Option Bool

/-- The assignments of an edit.  A label file assigns through the records that
    match the wallet. -/
def Edit.assignments (db : Db State) (id : String) : Edit → Result (List Assignment)
  | .setLabel kind reference label => do
      let kind ← okOr (LabelKind.parse kind) .notFound
      .ok [{ kind, reference, written := reference, label := some label, frozen := none }]
  | .setFrozen reference frozen => do
      let op ← outpoint env.toEnv reference
      .ok [{ kind := .output
             reference
             written := env.displayOutPoint op
             label := none
             frozen := some frozen }]
  | .editCoins references label frozen =>
      .ok (references.map (fun reference =>
        { kind := .output, reference, written := reference, label, frozen }))
  | .importLabels payload => do
      let (records, _) ← Labels.parseLabels env.toEnv payload
      let l ← load env.toEnv db id
      let origin ← Descriptors.labelOrigin env.toEnv (env.publicDescriptor l.wallet .external)
      .ok ((records.filter (recordMatches env.toEnv l.wallet origin)).map (fun r =>
        { kind := r.kind
          reference := r.reference
          written := r.reference
          label := r.label
          frozen := r.spendable.map (fun s => !s) }))

/-! ## What the wallet shows -/

section Shown

variable (db : Db State) (id : String) (network : Network)

/-- `coins` and `activity` show the label wherever they show the entity. -/
def ShowsLabel (label : String) : Entity → Prop
  | .output op => ∀ cs, coins env.toEnv db id = .ok cs →
      ∀ c ∈ cs, c.outpoint = env.displayOutPoint op → c.label = label
  | .tx txid => ∀ rows, activity env.toEnv db id = .ok rows →
      ∀ r ∈ rows, r.txid = env.displayTxid txid → r.label = label
  | .addr _ => True

/-- `coins` shows the output as frozen, or as not frozen. -/
def ShowsFrozen (op : OutPoint) (frozen : Bool) : Prop :=
  ∀ cs, coins env.toEnv db id = .ok cs →
    ∀ c ∈ cs, c.outpoint = env.displayOutPoint op → (c.status = .frozen ↔ frozen = true)

/-- No draft the wallet can create spends the output. -/
def NeverSpent (op : OutPoint) : Prop :=
  ∀ request seed now out, request.walletId = id →
    createDraft env.toEnv db request seed now = .ok out →
    env.displayOutPoint op ∉ out.1.inputs.map ReviewedInput.outpoint

/-- Every row of the entity, but that of one text, has the label. -/
def OnlyLabel (e : Entity) (label : String) (but : Option String) : Prop :=
  ∀ reference, spelled env network e.kind reference = some e → some reference ≠ but →
    ∀ label', db.labels[(id, e.kind, reference)]? = some label' → label' = label

/-- No text of the output, but one, has a freeze. -/
def NoFreeze (op : OutPoint) (but : Option String) : Prop :=
  ∀ reference, env.parseOutPoint reference = some op → some reference ≠ but →
    db.freezes[(id, reference)]? = none

end Shown

/-- The entities have the values they were given: the wallet shows them, no row
    of another spelling says otherwise, and no entity was given two values. -/
structure Follows (db : Db State) (id : String) (network : Network) (as : List Assignment) :
    Prop where
  distinct : (as.map (fun a => spelled env network a.kind a.reference)).Nodup
  label : ∀ a ∈ as, ∀ e, spelled env network a.kind a.reference = some e →
    ∀ label, a.label = some label →
    ShowsLabel env db id label e ∧ OnlyLabel env db id network e label none
  frozen : ∀ a ∈ as, ∀ op, spelled env network a.kind a.reference = some (.output op) →
    a.frozen = some true → ShowsFrozen env db id op true ∧ NeverSpent env db id op
  unfrozen : ∀ a ∈ as, ∀ op, spelled env network a.kind a.reference = some (.output op) →
    a.frozen = some false → ShowsFrozen env db id op false ∧ NoFreeze env db id op none

/-- In the state before: no two references name one entity, and each is written
    as the wallet writes it or changes nothing that the wallet shows, while no
    third spelling has a row with another value. -/
structure Settles (db : Db State) (id : String) (network : Network) (as : List Assignment) :
    Prop where
  distinct : (as.map (fun a => spelled env network a.kind a.reference)).Nodup
  label : ∀ a ∈ as, ∀ e, spelled env network a.kind a.reference = some e →
    ∀ label, a.label = some label →
    (canonical env e = some a.written ∨ ShowsLabel env db id label e) ∧
    OnlyLabel env db id network e label (some a.written)
  frozen : ∀ a ∈ as, ∀ op, spelled env network a.kind a.reference = some (.output op) →
    a.frozen = some true → a.written = env.displayOutPoint op ∨ ShowsFrozen env db id op true
  unfrozen : ∀ a ∈ as, ∀ op, spelled env network a.kind a.reference = some (.output op) →
    a.frozen = some false →
    (a.written = env.displayOutPoint op ∨ ShowsFrozen env db id op false) ∧
    NoFreeze env db id op (some a.written)

/-! ## Writing assignments -/

/-- The rows of one assignment. -/
def write (id : String) (db : Db State) (a : Assignment) : Db State :=
  let db := match a.label with
    | some label => db.putLabel id a.kind a.written label
    | none => db
  match a.frozen with
  | some frozen => db.setFreeze id a.written frozen
  | none => db

section Write

variable {db : Db State} {id : String}

theorem write_wallets (a : Assignment) : (write id db a).wallets = db.wallets := by
  obtain ⟨kind, reference, written, label, frozen⟩ := a
  cases label <;> cases frozen <;> rfl

theorem foldl_write_wallets (as : List Assignment) :
    (as.foldl (write id) db).wallets = db.wallets := by
  induction as generalizing db with
  | nil => rfl
  | cons a as ih => rw [List.foldl_cons, ih, write_wallets]

theorem write_labels (a : Assignment) (kind : LabelKind) (reference : String) :
    (write id db a).labels[(id, kind, reference)]? =
      if a.label ≠ none ∧ (a.kind, a.written) = (kind, reference) then a.label
      else db.labels[(id, kind, reference)]? := by
  have hfreeze : (write id db a).labels = (match a.label with
      | some label => db.putLabel id a.kind a.written label
      | none => db).labels := by
    unfold write
    cases a.frozen <;> rfl
  rw [hfreeze]
  cases hlabel : a.label with
  | none => simp
  | some label =>
      show (db.labels.insert (id, a.kind, a.written) label)[(id, kind, reference)]? = _
      rw [Table.get_insert]
      simp [Prod.mk.injEq]

theorem write_freezes (a : Assignment) (reference : String) :
    (write id db a).freezes[(id, reference)]? =
      if a.frozen ≠ none ∧ a.written = reference then
        if a.frozen = some true then some () else none
      else db.freezes[(id, reference)]? := by
  have hlabel : (match a.label with
      | some label => db.putLabel id a.kind a.written label
      | none => db).freezes = db.freezes := by
    cases a.label <;> rfl
  unfold write
  cases hfrozen : a.frozen with
  | none => simp [hlabel]
  | some frozen =>
      cases frozen with
      | false =>
          simp only [Db.setFreeze, Bool.false_eq_true, if_false, Table.get_erase, hlabel]
          simp [Prod.mk.injEq]
      | true =>
          simp only [Db.setFreeze, if_true, Table.get_insertIfNew, hlabel]
          by_cases hreference : a.written = reference
          · subst hreference
            cases hrow : db.freezes[(id, a.written)]? <;> simp
          · simp [Prod.mk.injEq, hreference]

/-- A label no assignment is written under is kept. -/
theorem foldl_write_labels_ne {as : List Assignment} {kind : LabelKind} {reference : String}
    (h : ∀ a ∈ as, a.label ≠ none → (a.kind, a.written) ≠ (kind, reference)) :
    (as.foldl (write id) db).labels[(id, kind, reference)]? =
      db.labels[(id, kind, reference)]? := by
  induction as generalizing db with
  | nil => rfl
  | cons a as ih =>
      obtain ⟨hfirst, hrest⟩ := List.forall_mem_cons.mp h
      rw [List.foldl_cons, ih hrest, write_labels, if_neg fun hk => hfirst hk.1 hk.2]

theorem foldl_write_freezes_ne {as : List Assignment} {reference : String}
    (h : ∀ a ∈ as, a.frozen ≠ none → a.written ≠ reference) :
    (as.foldl (write id) db).freezes[(id, reference)]? = db.freezes[(id, reference)]? := by
  induction as generalizing db with
  | nil => rfl
  | cons a as ih =>
      obtain ⟨hfirst, hrest⟩ := List.forall_mem_cons.mp h
      rw [List.foldl_cons, ih hrest, write_freezes, if_neg fun hk => hfirst hk.1 hk.2]

/-- An assigned label is the row of its text, when no two texts are the same. -/
theorem foldl_write_labels {as : List Assignment}
    (hnodup : (as.map (fun a => (a.kind, a.written))).Nodup) {a : Assignment} (ha : a ∈ as)
    {label : String} (hlabel : a.label = some label) :
    (as.foldl (write id) db).labels[(id, a.kind, a.written)]? = some label := by
  induction as generalizing db with
  | nil => cases ha
  | cons b as ih =>
      rw [List.map_cons, List.nodup_cons] at hnodup
      rw [List.foldl_cons]
      rcases List.mem_cons.mp ha with rfl | hin
      · rw [foldl_write_labels_ne fun b hb _ heq => hnodup.1 (heq ▸ List.mem_map_of_mem hb),
          write_labels, if_pos ⟨by simp [hlabel], rfl⟩, hlabel]
      · exact ih hnodup.2 hin

theorem foldl_write_freezes {as : List Assignment}
    (hnodup : (as.map (fun a => (a.kind, a.written))).Nodup)
    (hkind : ∀ a ∈ as, a.frozen ≠ none → a.kind = .output) {a : Assignment} (ha : a ∈ as)
    {frozen : Bool} (hfrozen : a.frozen = some frozen) :
    (as.foldl (write id) db).freezes[(id, a.written)]? = if frozen then some () else none := by
  induction as generalizing db with
  | nil => cases ha
  | cons b as ih =>
      rw [List.map_cons, List.nodup_cons] at hnodup
      obtain ⟨hb, hrest⟩ := List.forall_mem_cons.mp hkind
      rw [List.foldl_cons]
      rcases List.mem_cons.mp ha with rfl | hin
      · have hne : ∀ b ∈ as, b.frozen ≠ none → b.written ≠ a.written := by
          intro b hb' hbf heq
          refine hnodup.1 ?_
          rw [hb (by simp [hfrozen]), ← hrest b hb' hbf, ← heq]
          exact List.mem_map_of_mem hb'
        rw [foldl_write_freezes_ne hne, write_freezes, if_pos ⟨by simp [hfrozen], rfl⟩, hfrozen]
        cases frozen <;> rfl
      · exact ih hnodup.2 hrest hin

end Write

/-! ## Accepted edits -/

/-- What an accepted edit has done: its assignments, each under a text that
    spells the entity its reference spells, and no two under one text. -/
structure Accepted (db db' : Db State) (id : String) (l : Loaded State Wallet)
    (as : List Assignment) : Prop where
  loaded : load env.toEnv db id = .ok l
  result : db' = as.foldl (write id) db
  texts : (as.map (fun a => (a.kind, a.written))).Nodup
  entity : ∀ a ∈ as, ∃ e, spelled env (env.walletNetwork l.wallet) a.kind a.reference = some e ∧
    spelled env (env.walletNetwork l.wallet) a.kind a.written = some e
  outputs : ∀ a ∈ as, a.frozen ≠ none → a.kind = .output

/-- The assignment of a record. -/
def ofRecord (r : Labels.LabelRecord) : Assignment where
  kind := r.kind
  reference := r.reference
  written := r.reference
  label := r.label
  frozen := r.spendable.map (fun s => !s)

section Accepted

variable {env} {db db' : Db State} {id : String}

theorem spelled_of_known {w : Wallet} {kind : LabelKind} {reference : String}
    (h : knownReference env.toEnv w kind reference = true) :
    ∃ e, spelled env (env.walletNetwork w) kind reference = some e := by
  cases kind with
  | output =>
      obtain ⟨op, hop, _⟩ := (Option.any_eq_true ..).mp h
      exact ⟨.output op, by rw [spelled, hop, Option.map_some]⟩
  | tx =>
      obtain ⟨txid, htxid, _⟩ := (Option.any_eq_true ..).mp h
      exact ⟨.tx txid, by rw [spelled, htxid, Option.map_some]⟩
  | addr =>
      obtain ⟨script, hscript, _⟩ := (Option.any_eq_true ..).mp h
      exact ⟨.addr script, by rw [spelled, hscript, Option.map_some]⟩

theorem applyRecord_write (r : Labels.LabelRecord) :
    (applyRecord true db id r).2 = write id db (ofRecord r) := by
  obtain ⟨kind, reference, label, spendable, origin⟩ := r
  cases label <;> cases spendable <;> rfl

/-- The records that match are written one after the other, each under a new text. -/
theorem importRecords_write {env : Env State Wallet Scan} {w : Wallet} {origin : String}
    {records : List Labels.LabelRecord} {seen : List (LabelKind × String)}
    {preview : Labels.LabelPreview} {out : Labels.LabelPreview × Db State}
    (h : importRecords env true id w origin records seen preview db = .ok out) :
    let matching := (records.filter (recordMatches env w origin)).map ofRecord
    out.2 = matching.foldl (write id) db ∧ (matching.map (fun a => (a.kind, a.written))).Nodup ∧
      ∀ a ∈ matching, (a.kind, a.written) ∉ seen := by
  induction records generalizing seen preview db with
  | nil =>
      cases h
      exact ⟨rfl, List.nodup_nil, by simp⟩
  | cons r rest ih =>
      unfold importRecords at h
      split_ifs at h with hmatch
      · simp only [bind_eq_ok, require_eq_ok, exists_unit] at h
        obtain ⟨hnew, h⟩ := h
        obtain ⟨hout, hnodup, hseen⟩ := ih h
        simp only [List.filter_cons_of_pos hmatch, List.map_cons, List.foldl_cons]
        refine ⟨?_, List.nodup_cons.mpr ⟨?_, hnodup⟩, List.forall_mem_cons.mpr ⟨hnew, ?_⟩⟩
        · rw [hout, applyRecord_write]
        · intro hin
          obtain ⟨a, ha, heq⟩ := List.mem_map.mp hin
          exact hseen a ha (heq ▸ List.mem_cons_self ..)
        · exact fun a ha hin => hseen a ha (List.mem_cons_of_mem _ hin)
      · simp only [List.filter_cons_of_neg hmatch]
        exact ih h

theorem accepted_importLabels {payload : String} {out : Labels.LabelPreview × Db State}
    (h : Engine.importLabels env.toEnv db id payload true = .ok out) :
    ∃ l as, (Edit.importLabels payload).assignments env db id = .ok as ∧
      Accepted env db out.2 id l as := by
  simp only [Engine.importLabels, bind_eq_ok, Prod.exists, Except.ok.injEq, if_true] at h
  obtain ⟨records, skipped, hparse, l, hload, origin, horigin, preview, db', hrecords, rfl⟩ := h
  obtain ⟨hout, hnodup, _⟩ := importRecords_write hrecords
  refine ⟨l, (records.filter (recordMatches env.toEnv l.wallet origin)).map ofRecord, ?_,
    hload, hout, hnodup, ?_, ?_⟩
  · simp only [Edit.assignments, hparse, hload, horigin, ok_bind]
    rfl
  · intro a ha
    obtain ⟨r, hr, rfl⟩ := List.mem_map.mp ha
    have hmatch := (List.mem_filter.mp hr).2
    simp only [recordMatches, Bool.and_eq_true] at hmatch
    obtain ⟨e, he⟩ := spelled_of_known hmatch.2
    exact ⟨e, he, he⟩
  · intro a ha hfrozen
    obtain ⟨r, hr, rfl⟩ := List.mem_map.mp ha
    refine (Labels.parseLabels_recordOk env.toEnv hparse r (List.mem_filter.mp hr).1).spendable ?_
    intro hnone
    exact hfrozen (by rw [ofRecord, hnone]; rfl)

theorem accepted_editCoins {references : List String} {label : Option String}
    {frozen : Option Bool} {out : Unit × Db State}
    (h : Engine.editCoins env.toEnv db id references label frozen = .ok out) :
    ∃ l as, (Edit.editCoins references label frozen).assignments env db id = .ok as ∧
      Accepted env db out.2 id l as := by
  have hout := editCoins_eq_ok env.toEnv h
  obtain ⟨l, hload, hnodup, hknown⟩ : ∃ l, load env.toEnv db id = .ok l ∧ references.Nodup ∧
      ∀ reference ∈ references, reference ∈
        (env.listUnspent l.wallet).map (fun c => env.displayOutPoint c.outpoint) := by
    cases label <;>
      simp only [Engine.editCoins, bind_eq_ok, require_eq_ok, exists_unit, Except.ok.injEq] at h
    · obtain ⟨_, _, l, hload, hnodup, hknown, rfl⟩ := h
      exact ⟨l, hload, hnodup, hknown⟩
    · obtain ⟨_, _, l, hload, hnodup, hknown, rfl⟩ := h
      exact ⟨l, hload, hnodup, hknown⟩
  let as : List Assignment := references.map (fun reference =>
    { kind := .output, reference, written := reference, label, frozen })
  refine ⟨l, as, rfl, hload, ?_, ?_, ?_, ?_⟩
  · have hwrite : ∀ (references : List String) (db : Db State),
        references.foldl (editCoin id label frozen) db = (references.map (fun reference =>
          ({ kind := .output, reference, written := reference, label, frozen } :
            Assignment))).foldl (write id) db := by
      intro references
      induction references with
      | nil => exact fun _ => rfl
      | cons reference references ih =>
          intro db
          rw [List.foldl_cons, ih, List.map_cons, List.foldl_cons]
          cases label <;> cases frozen <;> rfl
    rw [hout, hwrite]
  · have hkeys : as.map (fun a => (a.kind, a.written)) =
        references.map (fun reference => (LabelKind.output, reference)) := by
      rw [List.map_map]
      rfl
    rw [hkeys]
    exact hnodup.map fun a b heq => (Prod.mk.inj heq).2
  · intro a ha
    obtain ⟨reference, hreference, rfl⟩ := List.mem_map.mp ha
    obtain ⟨c, _, rfl⟩ := List.mem_map.mp (hknown reference hreference)
    have hspelled : spelled env (env.walletNetwork l.wallet) .output
        (env.displayOutPoint c.outpoint) = some (.output c.outpoint) := by
      rw [spelled, env.parseOutPoint_display, Option.map_some]
    exact ⟨.output c.outpoint, hspelled, hspelled⟩
  · intro a ha _
    obtain ⟨reference, _, rfl⟩ := List.mem_map.mp ha
    rfl

/-- Every accepted edit writes its assignments. -/
theorem accepted_apply {edit : Edit} (h : edit.apply env db id = .ok db') :
    ∃ l as, edit.assignments env db id = .ok as ∧ Accepted env db db' id l as := by
  have hsnd : ∀ {α : Type} {res : Result (α × Db State)},
      res.map Prod.snd = .ok db' → ∃ out, res = .ok out ∧ out.2 = db' := by
    intro α res hres
    cases res with
    | error e => cases hres
    | ok out => exact ⟨out, rfl, by simpa [Except.map] using hres⟩
  cases edit with
  | setLabel kind reference label =>
      obtain ⟨out, hout, rfl⟩ := hsnd h
      simp only [Engine.setLabel, bind_eq_ok, exists_unit, okOr_eq_ok, require_eq_ok,
        Except.ok.injEq] at hout
      obtain ⟨_, l, hload, kind', hkind, hknown, rfl⟩ := hout
      obtain ⟨e, he⟩ := spelled_of_known hknown
      let a : Assignment :=
        { kind := kind', reference, written := reference, label := some label, frozen := none }
      have hkeys : ([a].map (fun a => (a.kind, a.written))).Nodup := List.nodup_singleton _
      refine ⟨l, [a], by rw [Edit.assignments, hkind, okOr, ok_bind], hload, rfl, hkeys,
        List.forall_mem_singleton.mpr ⟨e, he, he⟩, List.forall_mem_singleton.mpr fun hk => ?_⟩
      exact absurd rfl hk
  | setFrozen reference frozen =>
      obtain ⟨out, hout, rfl⟩ := hsnd h
      simp only [Engine.setFrozen, bind_eq_ok, exists_unit, require_eq_ok, Except.ok.injEq] at hout
      obtain ⟨op, hop, l, hload, _, rfl⟩ := hout
      have hparse : env.parseOutPoint reference = some op := by
        simpa only [outpoint, okOr_eq_ok] using hop
      let a : Assignment :=
        { kind := .output
          reference
          written := env.displayOutPoint op
          label := none
          frozen := some frozen }
      have hkeys : ([a].map (fun a => (a.kind, a.written))).Nodup := List.nodup_singleton _
      refine ⟨l, [a], by rw [Edit.assignments, hop, ok_bind], hload, rfl, hkeys,
        List.forall_mem_singleton.mpr ⟨.output op, ?_, ?_⟩, List.forall_mem_singleton.mpr fun _ => rfl⟩
      · rw [spelled, hparse, Option.map_some]
      · rw [spelled, env.parseOutPoint_display, Option.map_some]
  | editCoins references label frozen =>
      obtain ⟨out, hout, rfl⟩ := hsnd h
      exact accepted_editCoins hout
  | importLabels payload =>
      obtain ⟨out, hout, rfl⟩ := hsnd h
      exact accepted_importLabels hout

end Accepted

/-! ## What is shown depends on the canonical rows -/

section Shown

variable {env} {db db' : Db State} {id : String}

/-- `coins` lists the output. -/
def Listed (env : LabelEnv State Wallet Scan) (db : Db State) (id : String) (op : OutPoint) : Prop :=
  ∃ cs, coins env.toEnv db id = .ok cs ∧ ∃ c ∈ cs, c.outpoint = env.displayOutPoint op

/-- `activity` lists the transaction. -/
def InHistory (env : LabelEnv State Wallet Scan) (db : Db State) (id : String) (txid : Txid) :
    Prop :=
  ∃ rows, activity env.toEnv db id = .ok rows ∧ ∃ r ∈ rows, r.txid = env.displayTxid txid

theorem coins_fields {cs : List Coin} (h : coins env.toEnv db id = .ok cs) {c : Coin}
    (hc : c ∈ cs) :
    c.label = getLabel db id .output c.outpoint ∧
      (c.status = .frozen ↔ db.isFrozen id c.outpoint = true) := by
  simp only [coins, bind_eq_ok] at h
  obtain ⟨l, _, hcs⟩ := h
  obtain ⟨u, _, hcoin⟩ := walletCoins_mem env.toEnv hcs hc
  obtain ⟨houtpoint, _, hlabel, hstatus⟩ := coinOf_fields env.toEnv hcoin
  refine ⟨by rw [hlabel, houtpoint], ?_⟩
  rw [hstatus, houtpoint, coinStatus]
  split_ifs <;> simp_all

theorem activity_label {rows : List Activity} (h : activity env.toEnv db id = .ok rows)
    {r : Activity} (hr : r ∈ rows) : r.label = getLabel db id .tx r.txid := by
  simp only [activity, bind_eq_ok, Except.ok.injEq] at h
  obtain ⟨l, _, rfl⟩ := h
  obtain ⟨t, _, rfl⟩ := List.mem_map.mp hr
  rfl

theorem showsLabel_output {op : OutPoint} {label : String} :
    ShowsLabel env db id label (.output op) ↔
      (Listed env db id op → getLabel db id .output (env.displayOutPoint op) = label) := by
  refine ⟨fun h => ?_, fun h cs hcs c hc hname => ?_⟩
  · rintro ⟨cs, hcs, c, hc, hname⟩
    rw [← hname, ← (coins_fields hcs hc).1]
    exact h cs hcs c hc hname
  · rw [(coins_fields hcs hc).1, hname]
    exact h ⟨cs, hcs, c, hc, hname⟩

theorem showsLabel_tx {txid : Txid} {label : String} :
    ShowsLabel env db id label (.tx txid) ↔
      (InHistory env db id txid → getLabel db id .tx (env.displayTxid txid) = label) := by
  refine ⟨fun h => ?_, fun h rows hrows r hr hname => ?_⟩
  · rintro ⟨rows, hrows, r, hr, hname⟩
    rw [← hname, ← activity_label hrows hr]
    exact h rows hrows r hr hname
  · rw [activity_label hrows hr, hname]
    exact h ⟨rows, hrows, r, hr, hname⟩

theorem showsFrozen_iff {op : OutPoint} {frozen : Bool} :
    ShowsFrozen env db id op frozen ↔
      (Listed env db id op →
        (db.isFrozen id (env.displayOutPoint op) = true ↔ frozen = true)) := by
  refine ⟨fun h => ?_, fun h cs hcs c hc hname => ?_⟩
  · rintro ⟨cs, hcs, c, hc, hname⟩
    rw [← hname, ← (coins_fields hcs hc).2]
    exact h cs hcs c hc hname
  · rw [(coins_fields hcs hc).2, hname]
    exact h ⟨cs, hcs, c, hc, hname⟩

theorem load_congr (h : db'.wallets = db.wallets) : load env.toEnv db' id = load env.toEnv db id := by
  rw [load, load, h]

/-- Which coins are listed does not depend on labels and freezes. -/
theorem listed_congr (h : db'.wallets = db.wallets) {op : OutPoint} :
    Listed env db' id op ↔ Listed env db id op := by
  suffices hone : ∀ {db db' : Db State}, db'.wallets = db.wallets →
      Listed env db id op → Listed env db' id op from ⟨hone h.symm, hone h⟩
  rintro db db' h ⟨cs, hcs, c, hc, hname⟩
  simp only [coins, bind_eq_ok] at hcs
  obtain ⟨l, hload, hcs⟩ := hcs
  obtain ⟨u, hu, hcoin⟩ := walletCoins_mem env.toEnv hcs hc
  have hall : ∀ {us : List LocalOutput} {out : List Coin},
      List.Forall₂ (fun u c => coinOf env.toEnv db id l.wallet u = .ok c) us out →
      ∃ out', List.Forall₂ (fun u c => coinOf env.toEnv db' id l.wallet u = .ok c) us out' := by
    intro us out hout
    induction hout with
    | nil => exact ⟨[], .nil⟩
    | @cons u c us out hu _ ih =>
        obtain ⟨out', hout'⟩ := ih
        simp only [coinOf, bind_eq_ok, Except.ok.injEq] at hu
        obtain ⟨address, haddress, _⟩ := hu
        exact ⟨_ :: out', .cons (by rw [coinOf, haddress, ok_bind]) hout'⟩
  have hcs' := hcs
  simp only [walletCoins, bind_eq_ok, Except.ok.injEq, mapM_eq_ok] at hcs'
  obtain ⟨out, hout, _⟩ := hcs'
  obtain ⟨out', hout'⟩ := hall hout
  have hcoins : walletCoins env.toEnv db' id l.wallet =
      .ok (out'.insertionSort (fun a b => a.outpoint ≤ b.outpoint)) := by
    rw [walletCoins, mapM_eq_ok.mpr hout', ok_bind]
  obtain ⟨i, hi, rfl⟩ := List.getElem_of_mem hu
  have hi' : i < out'.length := hout'.length_eq ▸ hi
  refine ⟨_, by rw [coins, load_congr h, hload, ok_bind, hcoins], out'[i],
    (List.mem_insertionSort _).mpr (List.getElem_mem hi'), ?_⟩
  have hsame : out'[i].outpoint = _ := (coinOf_fields env.toEnv (hout'.get hi hi')).1
  exact hsame.trans ((coinOf_fields env.toEnv hcoin).1.symm.trans hname)

theorem inHistory_congr (h : db'.wallets = db.wallets) {txid : Txid} :
    InHistory env db' id txid ↔ InHistory env db id txid := by
  suffices hone : ∀ {db db' : Db State}, db'.wallets = db.wallets →
      InHistory env db id txid → InHistory env db' id txid from ⟨hone h.symm, hone h⟩
  rintro db db' h ⟨rows, hrows, r, hr, hname⟩
  simp only [activity, bind_eq_ok, Except.ok.injEq] at hrows
  obtain ⟨l, hload, rfl⟩ := hrows
  obtain ⟨t, ht, rfl⟩ := List.mem_map.mp hr
  exact ⟨_, by rw [activity, load_congr h, hload, ok_bind], _, List.mem_map_of_mem ht, hname⟩

/-- The inputs of a new draft are available coins. -/
theorem createDraft_inputs {request : DraftRequest} {seed now : Nat} {out : DraftReview × Db State}
    (h : createDraft env.toEnv db request seed now = .ok out) {reference : String}
    (hin : reference ∈ out.1.inputs.map ReviewedInput.outpoint) :
    ∃ cs, coins env.toEnv db request.walletId = .ok cs ∧
      ∃ c ∈ cs, c.outpoint = reference ∧ c.status = .available := by
  simp only [createDraft, planDraft, bind_eq_ok, exists_unit, Prod.exists, Except.ok.injEq,
    Prod.mk.injEq] at h
  obtain ⟨_, _, l, hload, _, _, _, review, _, hplan, _, _, _, _, rfl⟩ := h
  obtain ⟨cs, hcs, _, _, _, _, _, _, _, _, _, _, _, _, _, inputs, hinputs, _, _, _, _, _, _, _, rfl, _⟩ :=
    hplan
  obtain ⟨input, hmem, rfl⟩ := List.mem_map.mp hin
  obtain ⟨i, hi, rfl⟩ := List.getElem_of_mem hmem
  have hall := mapM_eq_ok.mp hinputs
  have hreview := hall.get (hall.length_eq ▸ hi) hi
  simp only [reviewInput, bind_eq_ok, okOr_eq_ok, Except.ok.injEq, List.get_eq_getElem] at hreview
  obtain ⟨c, hfind, heq⟩ := hreview
  have hc := List.mem_of_find?_eq_some hfind
  have hname := List.find?_some hfind
  simp only [List.mem_filter, decide_eq_true_eq] at hc hname
  refine ⟨cs, by rw [coins, hload, ok_bind, hcs], c, hc.1, ?_, hc.2⟩
  rw [hname, ← heq]

/-- An output that is shown as frozen is never spent. -/
theorem neverSpent_of_shown {op : OutPoint} (h : ShowsFrozen env db id op true) :
    NeverSpent env db id op := by
  intro request seed now out hwallet hout hin
  obtain ⟨cs, hcs, c, hc, hname, hstatus⟩ := createDraft_inputs hout hin
  rw [hwallet] at hcs
  have hfrozen := (h cs hcs c hc hname).mpr rfl
  rw [hstatus] at hfrozen
  cases hfrozen

end Shown

/-! ## When an edit follows its entities -/

theorem spelled_kind {network : Network} {kind : LabelKind} {reference : String} {e : Entity}
    (h : spelled env network kind reference = some e) : e.kind = kind := by
  cases kind <;>
    · simp only [spelled, Option.map_eq_some_iff] at h
      obtain ⟨_, _, rfl⟩ := h
      rfl

theorem spelled_output {network : Network} {kind : LabelKind} {reference : String} {op : OutPoint} :
    spelled env network kind reference = some (.output op) ↔
      kind = .output ∧ env.parseOutPoint reference = some op := by
  cases kind with
  | output => simp [spelled]
  | tx => simp [spelled]
  | addr =>
      refine ⟨fun h => ?_, fun h => absurd h.1 (by decide)⟩
      obtain ⟨script, _, heq⟩ := Option.map_eq_some_iff.mp h
      cases heq

/-- The canonical text of an entity spells it. -/
theorem spelled_canonical {network : Network} {e : Entity} {text : String}
    (h : canonical env e = some text) : spelled env network e.kind text = some e := by
  cases e with
  | output op =>
      cases h
      rw [Entity.kind, spelled, env.parseOutPoint_display, Option.map_some]
  | tx txid =>
      cases h
      rw [Entity.kind, spelled, env.parseTxid_display, Option.map_some]
  | addr script => cases h

section Follow

variable {env} {db db' : Db State} {id : String} {l : Loaded State Wallet} {as : List Assignment}

/-- The entities of the assignments differ. -/
abbrev Distinct (env : LabelEnv State Wallet Scan) (network : Network) (as : List Assignment) :
    Prop :=
  (as.map (fun a => spelled env network a.kind a.reference)).Nodup

/-- An assignment written under a spelling of an entity is the one that names it. -/
theorem Accepted.eq_of_spelled (h : Accepted env db db' id l as)
    (hdistinct : Distinct env (env.walletNetwork l.wallet) as) {a b : Assignment} (ha : a ∈ as)
    (hb : b ∈ as) {e : Entity}
    (he : spelled env (env.walletNetwork l.wallet) a.kind a.reference = some e)
    (hwritten : spelled env (env.walletNetwork l.wallet) b.kind b.written = some e) : b = a := by
  obtain ⟨e', hreference, hsame⟩ := h.entity b hb
  rw [hwritten, Option.some.injEq] at hsame
  subst hsame
  exact List.inj_on_of_nodup_map hdistinct hb ha (hreference.trans he.symm)

/-- The rows of an entity after an edit: its own assignment writes one text. -/
theorem Accepted.labels (h : Accepted env db db' id l as)
    (hdistinct : Distinct env (env.walletNetwork l.wallet) as) {a : Assignment} (ha : a ∈ as)
    {e : Entity} (he : spelled env (env.walletNetwork l.wallet) a.kind a.reference = some e)
    {label : String} (hlabel : a.label = some label) {reference : String}
    (hspells : spelled env (env.walletNetwork l.wallet) e.kind reference = some e) :
    db'.labels[(id, e.kind, reference)]? =
      if reference = a.written then some label else db.labels[(id, e.kind, reference)]? := by
  rw [h.result, spelled_kind env he]
  rw [spelled_kind env he] at hspells
  split_ifs with hwritten
  · rw [hwritten]
    exact foldl_write_labels h.texts ha hlabel
  · refine foldl_write_labels_ne fun b hb _ heq => ?_
    obtain ⟨hkind, hreference⟩ := Prod.mk.inj heq
    have hba : b = a := h.eq_of_spelled hdistinct ha hb he (by rw [hkind, hreference]; exact hspells)
    exact hwritten (by rw [← hreference, hba])

theorem Accepted.freezes (h : Accepted env db db' id l as)
    (hdistinct : Distinct env (env.walletNetwork l.wallet) as) {a : Assignment} (ha : a ∈ as)
    {op : OutPoint}
    (he : spelled env (env.walletNetwork l.wallet) a.kind a.reference = some (.output op))
    {frozen : Bool} (hfrozen : a.frozen = some frozen) {reference : String}
    (hspells : env.parseOutPoint reference = some op) :
    db'.freezes[(id, reference)]? =
      if reference = a.written then (if frozen then some () else none)
      else db.freezes[(id, reference)]? := by
  rw [h.result]
  split_ifs with hwritten htrue
  · rw [hwritten, foldl_write_freezes h.texts h.outputs ha hfrozen, if_pos htrue]
  · rw [hwritten, foldl_write_freezes h.texts h.outputs ha hfrozen, if_neg htrue]
  · refine foldl_write_freezes_ne fun b hb hbf heq => ?_
    have hba : b = a := h.eq_of_spelled hdistinct ha hb he
      ((spelled_output env).mpr ⟨h.outputs b hb hbf, by rw [heq]; exact hspells⟩)
    exact hwritten (by rw [← heq, hba])

theorem Accepted.wallets (h : Accepted env db db' id l as) : db'.wallets = db.wallets := by
  rw [h.result, foldl_write_wallets]

/-- The label shown is the assigned one exactly when it is written under the
    canonical text, or was shown before. -/
theorem Accepted.showsLabel_iff (h : Accepted env db db' id l as)
    (hdistinct : Distinct env (env.walletNetwork l.wallet) as) {a : Assignment} (ha : a ∈ as)
    {e : Entity} (he : spelled env (env.walletNetwork l.wallet) a.kind a.reference = some e)
    {label : String} (hlabel : a.label = some label) :
    ShowsLabel env db' id label e ↔
      canonical env e = some a.written ∨ ShowsLabel env db id label e := by
  cases e with
  | addr script => exact ⟨fun h => .inr h, fun _ => trivial⟩
  | output op =>
      have hrow := h.labels hdistinct ha he hlabel (spelled_canonical env (by rfl))
      simp only [canonical, Option.some.injEq, showsLabel_output, listed_congr h.wallets, getLabel]
      change db'.labels[(id, LabelKind.output, env.displayOutPoint op)]? = _ at hrow
      rw [hrow]
      split_ifs with hwritten
      · simp [hwritten]
      · simp [hwritten, Entity.kind]
  | tx txid =>
      have hrow := h.labels hdistinct ha he hlabel (spelled_canonical env (by rfl))
      simp only [canonical, Option.some.injEq, showsLabel_tx, inHistory_congr h.wallets, getLabel]
      change db'.labels[(id, LabelKind.tx, env.displayTxid txid)]? = _ at hrow
      rw [hrow]
      split_ifs with hwritten
      · simp [hwritten]
      · simp [hwritten, Entity.kind]

theorem Accepted.onlyLabel_iff (h : Accepted env db db' id l as)
    (hdistinct : Distinct env (env.walletNetwork l.wallet) as) {a : Assignment} (ha : a ∈ as)
    {e : Entity} (he : spelled env (env.walletNetwork l.wallet) a.kind a.reference = some e)
    {label : String} (hlabel : a.label = some label) :
    OnlyLabel env db' id (env.walletNetwork l.wallet) e label none ↔
      OnlyLabel env db id (env.walletNetwork l.wallet) e label (some a.written) := by
  refine forall_congr' fun reference => forall_congr' fun hspells => ?_
  rw [h.labels hdistinct ha he hlabel hspells]
  by_cases hwritten : reference = a.written
  · simp [hwritten, eq_comm]
  · simp [hwritten]

theorem Accepted.showsFrozen_iff (h : Accepted env db db' id l as)
    (hdistinct : Distinct env (env.walletNetwork l.wallet) as) {a : Assignment} (ha : a ∈ as)
    {op : OutPoint}
    (he : spelled env (env.walletNetwork l.wallet) a.kind a.reference = some (.output op))
    {frozen : Bool} (hfrozen : a.frozen = some frozen) :
    ShowsFrozen env db' id op frozen ↔
      a.written = env.displayOutPoint op ∨ ShowsFrozen env db id op frozen := by
  have hrow := h.freezes hdistinct ha he hfrozen (env.parseOutPoint_display op)
  simp only [Spellings.showsFrozen_iff, listed_congr h.wallets, Db.isFrozen]
  rw [hrow]
  split_ifs with hwritten htrue
  · simp [hwritten, htrue]
  · simp [hwritten, htrue]
  · simp [Ne.symm hwritten]

theorem Accepted.noFreeze_iff (h : Accepted env db db' id l as)
    (hdistinct : Distinct env (env.walletNetwork l.wallet) as) {a : Assignment} (ha : a ∈ as)
    {op : OutPoint}
    (he : spelled env (env.walletNetwork l.wallet) a.kind a.reference = some (.output op))
    (hfrozen : a.frozen = some false) :
    NoFreeze env db' id op none ↔ NoFreeze env db id op (some a.written) := by
  refine forall_congr' fun reference => forall_congr' fun hspells => ?_
  rw [h.freezes hdistinct ha he hfrozen hspells]
  by_cases hwritten : reference = a.written
  · simp [hwritten]
  · simp [hwritten]

end Follow

/-- An accepted edit gives its entities the assigned values exactly when its
    references settle: each is the text the wallet writes for its entity, or
    what the wallet shows is the assigned value already; no other spelling holds
    another value; and no two references name one entity. -/
theorem apply_follows_iff {db db' : Db State} {id : String} {edit : Edit}
    (h : edit.apply env db id = .ok db') :
    ∃ l as, load env.toEnv db id = .ok l ∧ edit.assignments env db id = .ok as ∧
      (Follows env db' id (env.walletNetwork l.wallet) as ↔
        Settles env db id (env.walletNetwork l.wallet) as) := by
  obtain ⟨l, as, has, haccepted⟩ := accepted_apply h
  refine ⟨l, as, haccepted.loaded, has, fun hf => ?_, fun hs => ?_⟩
  · refine ⟨hf.distinct, ?_, ?_, ?_⟩
    · intro a ha e he label hlabel
      obtain ⟨hshows, honly⟩ := hf.label a ha e he label hlabel
      exact ⟨(haccepted.showsLabel_iff hf.distinct ha he hlabel).mp hshows,
        (haccepted.onlyLabel_iff hf.distinct ha he hlabel).mp honly⟩
    · intro a ha op he hfrozen
      exact (haccepted.showsFrozen_iff hf.distinct ha he hfrozen).mp (hf.frozen a ha op he hfrozen).1
    · intro a ha op he hfrozen
      obtain ⟨hshows, hnone⟩ := hf.unfrozen a ha op he hfrozen
      exact ⟨(haccepted.showsFrozen_iff hf.distinct ha he hfrozen).mp hshows,
        (haccepted.noFreeze_iff hf.distinct ha he hfrozen).mp hnone⟩
  · refine ⟨hs.distinct, ?_, ?_, ?_⟩
    · intro a ha e he label hlabel
      obtain ⟨hshows, honly⟩ := hs.label a ha e he label hlabel
      exact ⟨(haccepted.showsLabel_iff hs.distinct ha he hlabel).mpr hshows,
        (haccepted.onlyLabel_iff hs.distinct ha he hlabel).mpr honly⟩
    · intro a ha op he hfrozen
      have hshows := (haccepted.showsFrozen_iff hs.distinct ha he hfrozen).mpr
        (hs.frozen a ha op he hfrozen)
      exact ⟨hshows, neverSpent_of_shown hshows⟩
    · intro a ha op he hfrozen
      obtain ⟨hshows, hnone⟩ := hs.unfrozen a ha op he hfrozen
      exact ⟨(haccepted.showsFrozen_iff hs.distinct ha he hfrozen).mpr hshows,
        (haccepted.noFreeze_iff hs.distinct ha he hfrozen).mpr hnone⟩

end Spellings
end Tundra
