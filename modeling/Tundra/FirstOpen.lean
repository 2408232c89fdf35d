/-
  Tundra.FirstOpen

  A first open that is interrupted.  The opens of a store that need no existing
  one move it through three situations: nothing is retained yet (`Setup` without
  a master key), the master key is there without its record (`Setup` with one),
  the record is there (`Held`).  An uninterrupted open succeeds in the first and
  in the last and refuses in the second, which only an interruption between the
  master key and its record makes, and which nothing leaves
  (`first_open_recoverable`).
-/

import Tundra.Vault
import Tundra.Selected

namespace Tundra

open Relational Std Journal Checked

namespace Vault

open StoreSelection (Node Disk Directory protectedOrUnknown asBytes)

/-! ## Entries after a change -/

namespace Device

variable {device : Device}

@[simp] theorem keystore_put (directory : Directory) (name : String) (file : File Bytes) :
    (device.apply (.put directory name file)).keystore = device.keystore := by
  cases directory <;> rfl

theorem entry_put {directory : Directory} (h : device.isDirectory directory = true)
    (name : String) (file : File Bytes) (name' : String) :
    (device.apply (.put directory name file)).entry directory name' =
      if name = name' then some (.file file) else device.entry directory name' := by
  cases directory with
  | root => exact Table.get_insert ..
  | generation g =>
      have hdirectory : StoreSelection.directory (device.disk.generation g) = .ok true := by
        simpa [isDirectory] using h
      change (device.disk.apply (.install g name file)).database g name' = _
      rw [StoreSelection.Disk.database_install]
      simp only [true_and, hdirectory, and_true]
      rfl

theorem isDirectory_put (directory : Directory) (name : String) (file : File Bytes)
    (directory' : Directory) :
    (device.apply (.put directory name file)).isDirectory directory' =
      device.isDirectory directory' := by
  cases directory' with
  | root => rfl
  | generation g =>
      cases directory with
      | root => rfl
      | generation g' =>
          simp only [Change.put, isDirectory, apply, StoreSelection.Disk.directory_install]

@[simp] theorem entry_generate (keyAlias : String) (master : Bytes) (directory : Directory)
    (name : String) :
    (device.apply (.generate keyAlias master)).entry directory name =
      device.entry directory name := by
  cases directory <;> rfl

@[simp] theorem isDirectory_generate (keyAlias : String) (master : Bytes)
    (directory : Directory) :
    (device.apply (.generate keyAlias master)).isDirectory directory =
      device.isDirectory directory := by
  cases directory <;> rfl

/-- A power loss does nothing to a file that was synced before it was installed. -/
theorem spoil_install (garbage : Bytes) (disk : Disk) (g name : String) (content : Bytes) :
    (disk.apply (.install g name ⟨content, true⟩)).spoil garbage =
      (disk.spoil garbage).apply (.install g name ⟨content, true⟩) := by
  rcases disk with ⟨selector, stores⟩
  rcases stores with _ | file | stores | _
  · rfl
  · rfl
  · simp only [Disk.apply, Disk.spoil, Option.map_some, Table.get_updateAll]
    rcases hg : stores[g]? with _ | file | entries | _
    · rfl
    · rfl
    · simp only [Option.map_some, StoreSelection.spoilGeneration, Disk.mk.injEq, Option.some.injEq,
        Node.directory.injEq, true_and]
      refine Table.ext fun g' => ?_
      simp only [Table.get_updateAll, Table.get_insert]
      by_cases hgg : g = g'
      · simp only [if_pos hgg, Option.map_some, StoreSelection.spoilGeneration, Option.some.injEq,
          Node.directory.injEq]
        refine Table.ext fun name' => ?_
        simp only [Table.get_updateAll, Table.get_insert]
        by_cases hname : name = name'
        · simp [hname, StoreSelection.spoilEntry, StoreSelection.spoilFile]
        · simp [hname]
      · simp only [if_neg hgg]
    · rfl
  · rfl

/-- A power loss does nothing to a file that was synced before it was put. -/
theorem spoil_put (garbage : Bytes) (directory : Directory) (name : String) (content : Bytes) :
    (device.apply (.put directory name ⟨content, true⟩)).spoil garbage =
      (device.spoil garbage).apply (.put directory name ⟨content, true⟩) := by
  cases directory with
  | root =>
      simp only [Change.put, apply, spoil, Device.mk.injEq, true_and, and_true]
      refine Table.ext fun name' => ?_
      simp only [Table.get_updateAll, Table.get_insert]
      by_cases hname : name = name'
      · simp [hname, StoreSelection.spoilEntry, StoreSelection.spoilFile]
      · simp [hname]
  | generation g =>
      simp only [Change.put, apply, spoil, Device.mk.injEq, true_and]
      exact spoil_install garbage device.disk g name content

end Device

theorem steady_put {device : Device} (h : Steady medium device) (directory : Directory)
    (name : String) (content : Bytes) :
    Steady medium (device.apply (.put directory name ⟨content, true⟩)) := by
  intro garbage
  have hsteady : device.spoil garbage = device := h garbage
  change (device.apply _).spoil garbage = _
  rw [Device.spoil_put, hsteady]

theorem steady_generate {device : Device} (h : Steady medium device) (keyAlias : String)
    (master : Bytes) : Steady medium (device.apply (.generate keyAlias master)) := by
  intro garbage
  have hsteady : device.spoil garbage = device := h garbage
  change ({ device.spoil garbage with keystore := _ } : Device) = _
  rw [hsteady]
  rfl

/-! ## The platform -/

variable {platform : Platform}

/-- What AES-GCM, SQLCipher and the migration are documented to do: a record that
    was encrypted is decrypted, and a database that was made with a key is
    protected and opens with it. -/
structure Platform.Specified (platform : Platform) : Prop where
  decrypt_encrypt : ∀ master nonce aad plaintext, platform.decrypt master nonce aad
    (platform.encrypt master nonce aad plaintext) = some plaintext
  length_encrypt : ∀ master nonce aad plaintext,
    (platform.encrypt master nonce aad plaintext).length = plaintext.length + 16
  created_protected : ∀ key, protectedOrUnknown (platform.created key) = true
  created_opens : ∀ key, key.length = 32 →
    platform.openProtected (platform.created key) key = .ok ()
  upgraded_protected : ∀ content key content', platform.upgraded content key = .ok content' →
    protectedOrUnknown content' = true
  upgraded_opens : ∀ content key content', platform.upgraded content key = .ok content' →
    platform.openProtected content' key = .ok ()

theorem Record.plaintext_length {record : Record} (h : record.key.length = 32) :
    record.plaintext.length = 33 := by
  simp [Record.plaintext, h]

/-- What `write` stores, `read` returns. -/
theorem readRecord_packet (hp : platform.Specified) (record : Record)
    (hkey : record.key.length = 32) (master : Bytes) (keyAlias : String) {nonce : Bytes}
    (hnonce : nonce.length = 12) (synced : Bool) :
    readRecord platform (.file ⟨packet platform record master keyAlias nonce, synced⟩) master
      keyAlias = some record := by
  have hlength := Record.plaintext_length hkey
  have hheader : header.length = 4 := rfl
  have hpacket : (packet platform record master keyAlias nonce).length = 65 := by
    simp only [packet, List.length_append, hp.length_encrypt, hlength, hnonce, hheader]
  have htake : (packet platform record master keyAlias nonce).take 66 =
      packet platform record master keyAlias nonce := List.take_of_length_le (by omega)
  have hfirst : (packet platform record master keyAlias nonce).take 4 = header := by
    rw [packet, List.append_assoc, List.take_left' hheader]
  have hnonce' : ((packet platform record master keyAlias nonce).drop 4).take 12 = nonce := by
    rw [packet, List.append_assoc, List.drop_left' hheader, List.take_left' hnonce]
  have hrest : (packet platform record master keyAlias nonce).drop 16 =
      platform.encrypt master nonce (aad keyAlias) record.plaintext := by
    rw [packet, List.drop_left' (by rw [List.length_append, hheader, hnonce])]
  have hdrop : record.plaintext.drop 32 = [if record.initialized then 1 else 0] := by
    rw [Record.plaintext, List.drop_left' hkey]
  have htakeKey : record.plaintext.take 32 = record.key := by
    rw [Record.plaintext, List.take_left' hkey]
  simp only [readRecord, htake, hpacket, hfirst, hnonce', hrest, hp.decrypt_encrypt, and_self,
    if_true, Option.bind_eq_bind, Option.bind_some, hlength, hdrop, htakeKey, true_and]
  cases hinit : record.initialized <;> simp [← hinit]

/-! ## Situations -/

/-- A plaintext database that the migration accepts, or none. -/
def Startable (platform : Platform) (node : Option (Node Unit)) : Prop :=
  node = none ∨ ∃ file, node = some (.file file) ∧ protectedOrUnknown file.content = false ∧
    ∀ key, key.length = 32 → ∃ content, platform.upgraded file.content key = .ok content

/-- A protected database that opens with the key. -/
def Opens (platform : Platform) (node : Option (Node Unit)) (key : Bytes) : Prop :=
  ∃ file, node = some (.file file) ∧ protectedOrUnknown file.content = true ∧
    platform.openProtected file.content key = .ok ()

/-- No record and no protected database. -/
structure Setup (platform : Platform) (store : Store) (device : Device) : Prop where
  steady : Steady medium device
  directory : device.isDirectory store.directory = true
  record : device.entry store.directory wrappedName = none
  database : Startable platform (device.entry store.directory store.databaseName)

/-- A record that its master key unwraps, for the database that is there. -/
structure Held (platform : Platform) (store : Store) (master : Bytes) (record : Record)
    (device : Device) : Prop where
  steady : Steady medium device
  directory : device.isDirectory store.directory = true
  retained : device.keystore[store.keyAlias]? = some master
  wrapped : ∃ node, device.entry store.directory wrappedName = some node ∧
    readRecord platform node master store.keyAlias = some record
  key_length : record.key.length = 32
  database : record.initialized = false ∧
      Startable platform (device.entry store.directory store.databaseName) ∨
    Opens platform (device.entry store.directory store.databaseName) record.key

/-- Some record is held for the master key. -/
def Retained (platform : Platform) (store : Store) (master : Bytes) (device : Device) : Prop :=
  ∃ record, Held platform store master record device

section

variable {store : Store} {master : Bytes} {record : Record} {device : Device}

/-- The record is marked, its key stays. -/
theorem Held.mark (hp : platform.Specified) (h : Held platform store master record device)
    (hopens : Opens platform (device.entry store.directory store.databaseName) record.key)
    {nonce : Bytes} (hnonce : nonce.length = 12) :
    Held platform store master { record with initialized := true }
      (device.apply (.put store.directory wrappedName
        ⟨packet platform { record with initialized := true } master store.keyAlias nonce, true⟩)) where
  steady := steady_put h.steady _ _ _
  directory := by rw [Device.isDirectory_put, h.directory]
  retained := by rw [Device.keystore_put, h.retained]
  wrapped := ⟨_, by rw [Device.entry_put h.directory, if_pos rfl],
    readRecord_packet hp { record with initialized := true } h.key_length master _ hnonce true⟩
  key_length := h.key_length
  database := by
    right
    rw [Device.entry_put h.directory, if_neg store.distinct.symm]
    exact hopens

/-- A protected database is put in its place. -/
theorem Held.database_put (h : Held platform store master record device) {content : Bytes}
    (hprotected : protectedOrUnknown content = true)
    (hopens : platform.openProtected content record.key = .ok ()) :
    Held platform store master record
      (device.apply (.put store.directory store.databaseName ⟨content, true⟩)) where
  steady := steady_put h.steady _ _ _
  directory := by rw [Device.isDirectory_put, h.directory]
  retained := by rw [Device.keystore_put, h.retained]
  wrapped := by
    rw [Device.entry_put h.directory, if_neg store.distinct]
    exact h.wrapped
  key_length := h.key_length
  database := Or.inr ⟨_, by rw [Device.entry_put h.directory, if_pos rfl], hprotected, hopens⟩

theorem Setup.generate (h : Setup platform store device) (keyAlias : String) (master : Bytes) :
    Setup platform store (device.apply (.generate keyAlias master)) where
  steady := steady_generate h.steady _ _
  directory := by rw [Device.isDirectory_generate, h.directory]
  record := by rw [Device.entry_generate, h.record]
  database := by
    rw [Device.entry_generate]
    exact h.database

/-- The record of a new key is put beside its master key. -/
theorem Setup.retain (hp : platform.Specified) (h : Setup platform store device)
    (hmaster : device.keystore[store.keyAlias]? = some master) {key : Bytes}
    (hkey : key.length = 32) {nonce : Bytes} (hnonce : nonce.length = 12) :
    Held platform store master { key, initialized := false }
      (device.apply (.put store.directory wrappedName
        ⟨packet platform { key, initialized := false } master store.keyAlias nonce, true⟩)) where
  steady := steady_put h.steady _ _ _
  directory := by rw [Device.isDirectory_put, h.directory]
  retained := by rw [Device.keystore_put, hmaster]
  wrapped := ⟨_, by rw [Device.entry_put h.directory, if_pos rfl],
    readRecord_packet hp { key, initialized := false } hkey master _ hnonce true⟩
  key_length := hkey
  database := by
    left
    rw [Device.entry_put h.directory, if_neg store.distinct.symm]
    exact ⟨rfl, h.database⟩

end

/-! ## What the calls make -/

section

variable {α β : Type} {P : Device → Prop} {device : Device} {a : α}

/-- A check that holds. -/
theorem check_bind {condition : Prop} [Decidable condition] (h : condition)
    (f : Unit → Call α) : (check condition >>= f) device = f () device := by
  have hcheck : check condition = Program.of medium (.ok ()) := by rw [check, require_of h]
  rw [hcheck]
  rfl

/-- A look at the device. -/
theorem read_bind (f : Device → Call α) : (Program.read medium >>= f) device = f device device :=
  rfl

/-- A check that fails. -/
theorem check_bind_not {condition : Prop} [Decidable condition] (h : ¬ condition)
    (f : Unit → Call α) : (check condition >>= f) device = ([], .error {}) := by
  have hcheck : check condition = Program.of medium (.error {}) := by
    rw [check, require_of_not h]
  rw [hcheck]
  rfl

/-- A value that is there. -/
theorem okOr_makes {value : Option α} (h : value = some a) (hP : P device) :
    Program.Makes P device (Program.of medium (okOr value ({} : StorageAccessException))) a
      device := by
  rw [h, okOr_some]
  exact Program.Makes.of hP a

/-- A result of the core. -/
theorem attempt_makes {result : Result α} (h : result = .ok a) (hP : P device) :
    Program.Makes P device (attempt result) a device :=
  okOr_makes (by rw [h, toOption]) hP

theorem attempt_bind {result : Result α} (h : result = .ok a) (f : α → Call β) :
    (attempt result >>= f) device = f a device := by
  rw [attempt, h, toOption, okOr_some]
  rfl

end

section

variable {store : Store} {master : Bytes} {record : Record} {device : Device}

/-- The core that an open of the store returns. -/
def Store.core (store : Store) (key : Bytes) : Core where
  directory := store.directory
  databaseName := store.databaseName
  key := key

/-- A record is written beside the database. -/
theorem writeRecord_makes (hp : platform.Specified) {P : Device → Prop} {directory : Directory}
    {keyAlias : String} {nonce : Bytes} {replacing : Bool} (record : Record)
    (hkey : record.key.length = 32) (hnonce : nonce.length = 12)
    (hreplacing : (device.entry directory wrappedName).isSome = replacing) (hP : P device)
    (hafter : P (device.apply
      (.put directory wrappedName ⟨packet platform record master keyAlias nonce, true⟩))) :
    Program.Makes P device (writeRecord platform directory record master keyAlias nonce replacing)
      () (device.apply
        (.put directory wrappedName ⟨packet platform record master keyAlias nonce, true⟩)) := by
  have hlength : (platform.encrypt master nonce (aad keyAlias) record.plaintext).length = 49 := by
    rw [hp.length_encrypt, Record.plaintext_length hkey]
  rw [writeRecord]
  refine Program.Makes.read (Program.Makes.congr (check_bind hreplacing _) ?_)
  exact Program.Makes.congr (check_bind ⟨hnonce, hlength⟩ _) (Program.Makes.commit hP hafter)

/-- A plaintext database is upgraded; what is left is protected or missing. -/
theorem upgrade_makes (hp : platform.Specified) (h : Held platform store master record device)
    {format : StorageFile}
    (hformat : inspectStorage (device.entry store.directory store.databaseName) = .ok format) :
    ∃ device', Held platform store master record device' ∧
      (device'.entry store.directory store.databaseName = none ∨
        Opens platform (device'.entry store.directory store.databaseName) record.key) ∧
      Program.Makes (Held platform store master record) device
        (Program.onlyIf medium (format = .legacyPlaintext)
          (upgradeStorage platform store.directory store.databaseName record.key)) () device' := by
  have hstay : format ≠ .legacyPlaintext → Program.Makes (Held platform store master record) device
      (Program.onlyIf medium (format = .legacyPlaintext)
        (upgradeStorage platform store.directory store.databaseName record.key)) () device :=
    fun hne => Program.Makes.onlyIf h (fun hc => absurd (of_decide_eq_true hc) hne) fun _ => rfl
  rcases h.database with ⟨-, hnone | ⟨file, hfile, hplain, hupgraded⟩⟩ | hopens
  · -- No database: nothing to upgrade.
    rw [hnone] at hformat
    cases hformat
    exact ⟨device, h, Or.inl hnone, hstay (by decide)⟩
  · -- A plaintext database gives way to its protected copy.
    obtain ⟨content, hcontent⟩ := hupgraded record.key h.key_length
    have hheld := h.database_put (hp.upgraded_protected _ _ _ hcontent)
      (hp.upgraded_opens _ _ _ hcontent)
    refine ⟨_, hheld, Or.inr ?_, Program.Makes.onlyIf h (fun _ => ?_) fun hc => ?_⟩
    · exact ⟨_, by rw [Device.entry_put h.directory, if_pos rfl],
        hp.upgraded_protected _ _ _ hcontent, hp.upgraded_opens _ _ _ hcontent⟩
    · rw [upgradeStorage]
      refine Program.Makes.read ?_
      rw [hfile]
      simp only [hplain, Bool.false_eq_true, if_false]
      exact Program.Makes.bind (attempt_makes hcontent h) (Program.Makes.commit h hheld)
    · rw [hfile] at hformat
      simp only [inspectStorage, hplain, Bool.false_eq_true, if_false, Except.ok.injEq] at hformat
      rw [← hformat] at hc
      cases hc
  · -- A protected database stays.
    have hprotected := hopens
    obtain ⟨file, hfile, hfileProtected, -⟩ := hprotected
    rw [hfile] at hformat
    simp only [inspectStorage, hfileProtected, if_true, Except.ok.injEq] at hformat
    exact ⟨device, h, Or.inr hopens, hstay (by rw [← hformat]; decide)⟩

/-- A protected database is opened, a missing one is created. -/
theorem openProtected_makes (hp : platform.Specified)
    (h : Held platform store master record device)
    (hdatabase : device.entry store.directory store.databaseName = none ∨
      Opens platform (device.entry store.directory store.databaseName) record.key) :
    ∃ device', Held platform store master record device' ∧
      Opens platform (device'.entry store.directory store.databaseName) record.key ∧
      Program.Makes (Held platform store master record) device
        (openProtected platform store.directory store.databaseName record.key)
        (store.core record.key) device' := by
  rcases hdatabase with hnone | ⟨file, hfile, hprotected, hopens⟩
  · have hcreated := hp.created_opens record.key h.key_length
    have hheld := h.database_put (hp.created_protected record.key) hcreated
    refine ⟨_, hheld, ?_, ?_⟩
    · exact ⟨_, by rw [Device.entry_put h.directory, if_pos rfl],
        hp.created_protected record.key, hcreated⟩
    · rw [openProtected]
      refine Program.Makes.read ?_
      rw [hnone]
      exact Program.Makes.bind (Program.Makes.commit h hheld) (Program.Makes.pure hheld _)
  · refine ⟨device, h, ⟨file, hfile, hprotected, hopens⟩, ?_⟩
    rw [openProtected]
    refine Program.Makes.read ?_
    rw [hfile]
    exact Program.Makes.bind (attempt_makes hopens h) (Program.Makes.pure h _)

/-- A pending record is marked once its database is open. -/
theorem mark_makes (hp : platform.Specified) (h : Held platform store master record device)
    (hopens : Opens platform (device.entry store.directory store.databaseName) record.key)
    (draw : Draw) :
    ∃ device', Program.Makes (Retained platform store master) device
      (Program.onlyIf medium (!record.initialized)
        (writeRecord platform store.directory { record with initialized := true } master
          store.keyAlias draw.markNonce true)) () device' ∧
      Retained platform store master device' := by
  cases hinitialized : record.initialized with
  | true =>
      exact ⟨device, Program.Makes.onlyIf ⟨record, h⟩ (fun hc => by cases hc) fun _ => rfl,
        record, h⟩
  | false =>
      have hmark := h.mark hp hopens draw.markNonce_length
      obtain ⟨wrapped, hwrapped, -⟩ := h.wrapped
      have hreplacing : (device.entry store.directory wrappedName).isSome = true := by
        rw [hwrapped]
        rfl
      have hafter : Retained platform store master _ := ⟨_, hmark⟩
      have hwrite := writeRecord_makes hp { record with initialized := true } h.key_length
        draw.markNonce_length hreplacing ⟨record, h⟩ hafter
      exact ⟨_, Program.Makes.onlyIf ⟨record, h⟩ (fun _ => hwrite) (fun hc => by cases hc), _, hmark⟩

/-- With a record, the rest of an open succeeds. -/
theorem openRetained_makes (hp : platform.Specified)
    (h : Held platform store master record device) (draw : Draw) {format : StorageFile}
    (hformat : inspectStorage (device.entry store.directory store.databaseName) = .ok format) :
    ∃ device', Program.Makes (Retained platform store master) device
      (openRetained platform store false format draw master record) (store.core record.key)
      device' := by
  obtain ⟨device₁, h₁, hdatabase, hupgrade⟩ := upgrade_makes hp h hformat
  obtain ⟨device₂, h₂, hopens, hopen⟩ := openProtected_makes hp h₁ hdatabase
  obtain ⟨device₃, hmark, hmarked⟩ := mark_makes hp h₂ hopens draw
  have hprotected : record.initialized = true → format = .protectedOrUnknown := by
    intro hinitialized
    rcases h.database with ⟨hpending, -⟩ | ⟨file, hfile, hfileProtected, -⟩
    · rw [hpending] at hinitialized
      cases hinitialized
    · rw [hfile] at hformat
      simpa [inspectStorage, hfileProtected] using hformat.symm
  have hheld : ∀ d, Held platform store master record d → Retained platform store master d :=
    fun d hd => ⟨record, hd⟩
  refine ⟨device₃, ?_⟩
  rw [openRetained]
  refine Program.Makes.congr (check_bind (fun hrequired => by cases hrequired) _) ?_
  refine Program.Makes.congr (check_bind hprotected _) ?_
  refine (hupgrade.mono hheld).bind ((hopen.mono hheld).bind (hmark.bind ?_))
  exact Program.Makes.pure hmarked _

/-! ## Opens in the three situations -/

/-- The device is unlocked and nobody else holds the directory's lock. -/
def Conditions.Free (conditions : Conditions) : Prop :=
  conditions.deviceLocked = false ∧ conditions.lockHeld = false

theorem inspectStorage_of_startable {node : Option (Node Unit)} (h : Startable platform node) :
    ∃ format, inspectStorage node = .ok format ∧ format ≠ .protectedOrUnknown := by
  rcases h with rfl | ⟨file, rfl, hplain, -⟩
  · exact ⟨.missing, rfl, by decide⟩
  · exact ⟨.legacyPlaintext, by simp [inspectStorage, hplain], by decide⟩

theorem Held.inspectStorage (h : Held platform store master record device) :
    ∃ format, inspectStorage (device.entry store.directory store.databaseName) = .ok format := by
  rcases h.database with ⟨-, hstartable⟩ | ⟨file, hfile, hprotected, -⟩
  · obtain ⟨format, hformat, -⟩ := inspectStorage_of_startable hstartable
    exact ⟨format, hformat⟩
  · exact ⟨.protectedOrUnknown, by simp [hfile, Vault.inspectStorage, hprotected]⟩

/-- What an open checks before it looks for the record. -/
theorem openVault_eq {conditions : Conditions} (hfree : conditions.Free)
    (hdirectory : device.isDirectory store.directory = true) {format : StorageFile}
    (hformat : inspectStorage (device.entry store.directory store.databaseName) = .ok format)
    (draw : Draw) :
    openVault platform store false conditions draw device =
      (do
        let (master, record) ← retainKey platform store false format draw
        openRetained platform store false format draw master record) device := by
  rw [openVault, check_bind hfree.1]
  change (check (device.isDirectory store.directory = true) >>= _) device = _
  rw [check_bind hdirectory, check_bind hfree.2, attempt_bind hformat, check_bind (by simp)]

/-- A locked device, or a lock that is held: an open makes nothing. -/
theorem open_refused {conditions : Conditions} (h : ¬ conditions.Free) (draw : Draw)
    (device : Device) :
    openVault platform store false conditions draw device = ([], .error {}) := by
  rw [openVault]
  by_cases hdevice : conditions.deviceLocked = false
  · rw [check_bind hdevice]
    change (check (device.isDirectory store.directory = true) >>= _) device = _
    by_cases hdirectory : device.isDirectory store.directory = true
    · have hlock : ¬ conditions.lockHeld = false := fun hlock => h ⟨hdevice, hlock⟩
      rw [check_bind hdirectory, check_bind_not hlock]
    · rw [check_bind_not hdirectory]
  · rw [check_bind_not hdevice]

/-- With a record, an open succeeds. -/
theorem open_held (hp : platform.Specified) (h : Held platform store master record device)
    {conditions : Conditions} (hfree : conditions.Free) (draw : Draw) :
    ∃ device', Program.Makes (Retained platform store master) device
      (openVault platform store false conditions draw) (store.core record.key) device' := by
  obtain ⟨format, hformat⟩ := h.inspectStorage
  obtain ⟨wrapped, hwrapped, hread⟩ := h.wrapped
  obtain ⟨device', hmakes⟩ := openRetained_makes hp h draw hformat
  have hretained : Retained platform store master device := ⟨record, h⟩
  have hretain : Program.Makes (Retained platform store master) device
      (retainKey platform store false format draw) (master, record) device := by
    rw [retainKey]
    refine Program.Makes.read ?_
    rw [hwrapped]
    exact (okOr_makes h.retained hretained).bind
      ((okOr_makes hread hretained).bind (Program.Makes.pure hretained _))
  exact ⟨device', Program.Makes.congr (openVault_eq hfree h.directory hformat draw)
    (hretain.bind hmakes)⟩

/-- Nothing is retained: no master key, no record, no protected database. -/
def Untouched (platform : Platform) (store : Store) (device : Device) : Prop :=
  Setup platform store device ∧ device.keystore[store.keyAlias]? = none

/-- A master key without its record, and no protected database. -/
def Stranded (platform : Platform) (store : Store) (device : Device) : Prop :=
  Setup platform store device ∧ ∃ master, device.keystore[store.keyAlias]? = some master

/-- What the opens of a store leave. -/
def Situation (platform : Platform) (store : Store) (device : Device) : Prop :=
  Untouched platform store device ∨ Stranded platform store device ∨
    ∃ master, Retained platform store master device

/-- The device with a drawn master key, and then with the pending record too. -/
def Device.generated (store : Store) (draw : Draw) (device : Device) : Device :=
  device.apply (.generate store.keyAlias draw.master)

def Device.pending (platform : Platform) (store : Store) (draw : Draw) (device : Device) : Device :=
  (device.generated store draw).apply (.put store.directory wrappedName
    ⟨packet platform { key := draw.key, initialized := false } draw.master store.keyAlias
      draw.pendingNonce, true⟩)

/-- What is made for a store that has nothing. -/
theorem retainKey_eq (h : Untouched platform store device) {format : StorageFile}
    (hformat : format ≠ .protectedOrUnknown) (draw : Draw) :
    retainKey platform store false format draw device =
      (do
        let master ← generateMaster store.keyAlias draw
        let record : Record := { key := draw.key, initialized := false }
        writeRecord platform store.directory record master store.keyAlias draw.pendingNonce false
        pure (master, record)) device := by
  rw [retainKey, read_bind, h.1.record]
  exact check_bind ⟨rfl, hformat, h.2⟩ _

/-- When nothing is retained, a master key and its record are made. -/
theorem retainKey_untouched (hp : platform.Specified) (h : Untouched platform store device)
    {format : StorageFile} (hformat : format ≠ .protectedOrUnknown) (draw : Draw) :
    Held platform store draw.master { key := draw.key, initialized := false }
        (device.pending platform store draw) ∧
      Program.Makes (Situation platform store) device
        (retainKey platform store false format draw)
        (draw.master, { key := draw.key, initialized := false })
        (device.pending platform store draw) := by
  have hretain := retainKey_eq h hformat draw
  obtain ⟨hsetup, hmaster⟩ := h
  have hgenerated : (device.generated store draw).keystore[store.keyAlias]? = some draw.master :=
    Table.get_insert_self ..
  have hsetup' : Setup platform store (device.generated store draw) := hsetup.generate _ _
  have hstranded : Situation platform store (device.generated store draw) :=
    Or.inr (Or.inl ⟨hsetup', _, hgenerated⟩)
  have hheld : Held platform store draw.master { key := draw.key, initialized := false }
      (device.pending platform store draw) :=
    hsetup'.retain hp hgenerated draw.key_length draw.pendingNonce_length
  have hretained : Situation platform store (device.pending platform store draw) :=
    Or.inr (Or.inr ⟨_, _, hheld⟩)
  refine ⟨hheld, Program.Makes.congr hretain ?_⟩
  have huntouched : Situation platform store device := Or.inl ⟨hsetup, hmaster⟩
  have hgenerate : Program.Makes (Situation platform store) device
      (generateMaster store.keyAlias draw) draw.master (device.generated store draw) := by
    have hcommit : Program.Makes (Situation platform store) device
        (Program.commit medium (.make (.generate store.keyAlias draw.master)) : Call Unit) ()
        (device.generated store draw) := Program.Makes.commit huntouched hstranded
    exact hcommit.bind (Program.Makes.pure hstranded draw.master)
  have hnew : ((device.generated store draw).entry store.directory wrappedName).isSome = false := by
    rw [hsetup'.record]
    rfl
  have hwrite := writeRecord_makes hp { key := draw.key, initialized := false } draw.key_length
    draw.pendingNonce_length hnew hstranded hretained
  exact hgenerate.bind (hwrite.bind (Program.Makes.pure hretained _))

/-- When nothing is retained, an open makes everything and succeeds. -/
theorem open_untouched (hp : platform.Specified) (h : Untouched platform store device)
    {conditions : Conditions} (hfree : conditions.Free) (draw : Draw) :
    ∃ device', Program.Makes (Situation platform store) device
      (openVault platform store false conditions draw) (store.core draw.key) device' := by
  obtain ⟨format, hformat, hstart⟩ := inspectStorage_of_startable h.1.database
  obtain ⟨hheld, hretain⟩ := retainKey_untouched hp h hstart draw
  have hformat' : inspectStorage ((device.pending platform store draw).entry store.directory
      store.databaseName) = .ok format := by
    rw [Device.pending, Device.generated,
      Device.entry_put (by rw [Device.isDirectory_generate, h.1.directory]),
      if_neg store.distinct.symm, Device.entry_generate, hformat]
  obtain ⟨device', hmakes⟩ := openRetained_makes hp hheld draw hformat'
  have hretained : ∀ d, Retained platform store draw.master d → Situation platform store d :=
    fun d hd => Or.inr (Or.inr ⟨_, hd⟩)
  exact ⟨device', Program.Makes.congr (openVault_eq hfree h.1.directory hformat draw)
    (hretain.bind (hmakes.mono hretained))⟩

/-- With a master key and no record, every open refuses and makes nothing. -/
theorem open_stranded (h : Stranded platform store device) (conditions : Conditions)
    (draw : Draw) :
    openVault platform store false conditions draw device = ([], .error {}) := by
  obtain ⟨hsetup, master, hmaster⟩ := h
  by_cases hfree : conditions.Free
  · obtain ⟨format, hformat, -⟩ := inspectStorage_of_startable hsetup.database
    rw [openVault_eq hfree hsetup.directory hformat draw]
    apply Program.bind_eq_error
    rw [retainKey, read_bind, hsetup.record]
    exact check_bind_not (by simp [hmaster]) _
  · exact open_refused hfree draw device

end

/-! ## Runs -/

/-- One open of a store: what it finds outside, what the platform draws for it,
    and how far it gets. -/
structure Opening where
  conditions : Conditions
  draw : Draw
  fate : StoreSelection.Fate

section

variable (platform : Platform) (store : Store)

/-- An open that needs no existing store, as a step. -/
def openStep (volume : Volume) (opening : Opening) : Volume :=
  (perform volume (openVault platform store false opening.conditions opening.draw) opening.fate).1

/-- The open is cut off after it generated the master key and before the first
    record is there. -/
def Strands (volume : Volume) (opening : Opening) : Prop :=
  (volume.view medium).keystore[store.keyAlias]? = none ∧
    (((openStep platform store volume opening).view medium).keystore[store.keyAlias]? ≠ none ∧
      ((openStep platform store volume opening).view medium).entry store.directory wrappedName =
        none)

end

section

variable {store : Store} {master : Bytes} {device : Device}

/-- Wherever a call is cut off, some of its first commits are made, and all of
    them are on the disk. -/
theorem perform_quiet {α : Type} {volume : Volume} (hquiet : volume.Quiet device) {call : Call α}
    (hsteady : ∀ j, Steady medium (effects medium device ((call device).1.take j)))
    (fate : StoreSelection.Fate) :
    ∃ j, (perform volume call fate).1.Quiet (effects medium device ((call device).1.take j)) := by
  have hview : volume.view medium = device := hquiet.view_eq medium
  cases fate with
  | done =>
      refine ⟨(call device).1.length, ?_⟩
      simp only [perform, hview, List.take_length]
      exact execute_commits hquiet _
  | fails n =>
      refine ⟨n, ?_⟩
      simp only [perform, hview]
      exact execute_commits hquiet _
  | crashes n kept garbage =>
      obtain ⟨j, hj, -⟩ := crash_commits hquiet (call device).1 hsteady n kept garbage
      refine ⟨j, ?_⟩
      simp only [perform, hview]
      exact hj

theorem Situation.steady (h : Situation platform store device) : Steady medium device := by
  rcases h with h | h | ⟨_, _, h⟩
  · exact h.1.steady
  · exact h.1.steady
  · exact h.steady

/-- What an open that starts in `P` leaves, wherever it is cut off. -/
theorem openStep_quiet {P : Device → Prop} (hP : ∀ d, P d → Steady medium d) {volume : Volume}
    (hquiet : volume.Quiet device) (opening : Opening)
    (hcut : ∀ j, P (effects medium device
      ((openVault platform store false opening.conditions opening.draw device).1.take j))) :
    ∃ device', (openStep platform store volume opening).Quiet device' ∧ P device' := by
  obtain ⟨j, hj⟩ := perform_quiet hquiet (fun j => hP _ (hcut j)) opening.fate
  exact ⟨_, hj, hcut j⟩

/-- A call that makes nothing can only be cut off where it started. -/
theorem cut_nil {α : Type} {P : Device → Prop} {call : Call α}
    {answer : Except StorageAccessException α} (h : call device = ([], answer)) (hP : P device)
    (j : Nat) : P (effects medium device ((call device).1.take j)) := by
  rw [h, List.take_nil, effects_nil]
  exact hP

theorem openStep_stranded {volume : Volume} (hquiet : volume.Quiet device)
    (h : Stranded platform store device) (opening : Opening) :
    ∃ device', (openStep platform store volume opening).Quiet device' ∧
      Stranded platform store device' :=
  openStep_quiet (fun _ hd => hd.1.steady) hquiet opening
    (cut_nil (open_stranded h opening.conditions opening.draw) h)

theorem openStep_retained (hp : platform.Specified) {volume : Volume} (hquiet : volume.Quiet device)
    (h : Retained platform store master device) (opening : Opening) :
    ∃ device', (openStep platform store volume opening).Quiet device' ∧
      Retained platform store master device' := by
  refine openStep_quiet (fun _ ⟨_, hd⟩ => hd.steady) hquiet opening ?_
  by_cases hfree : opening.conditions.Free
  · obtain ⟨record, hheld⟩ := h
    obtain ⟨_, commits, hrun, -, hcut⟩ := open_held hp hheld hfree opening.draw
    rw [hrun]
    exact hcut
  · exact cut_nil (open_refused hfree opening.draw device) h

theorem openStep_untouched (hp : platform.Specified) {volume : Volume}
    (hquiet : volume.Quiet device) (h : Untouched platform store device) (opening : Opening) :
    ∃ device', (openStep platform store volume opening).Quiet device' ∧
      Situation platform store device' := by
  refine openStep_quiet (fun _ hd => hd.steady) hquiet opening ?_
  by_cases hfree : opening.conditions.Free
  · obtain ⟨_, commits, hrun, -, hcut⟩ := open_untouched hp h hfree opening.draw
    rw [hrun]
    exact hcut
  · exact cut_nil (open_refused hfree opening.draw device) (Or.inl h)

/-- Everything can still be made, or the record is there. -/
def Recoverable (platform : Platform) (store : Store) (device : Device) : Prop :=
  Untouched platform store device ∨ ∃ master, Retained platform store master device

/-- What an open leaves of a recoverable store says whether it was cut off
    between the master key and the record. -/
theorem openStep_recoverable (hp : platform.Specified) {volume : Volume}
    (hquiet : volume.Quiet device) (h : Recoverable platform store device) (opening : Opening) :
    ∃ device', (openStep platform store volume opening).Quiet device' ∧
      (¬ Strands platform store volume opening ∧ Recoverable platform store device' ∨
        Strands platform store volume opening ∧ Stranded platform store device') := by
  have hview : volume.view medium = device := hquiet.view_eq medium
  rcases h with huntouched | ⟨master, hretained⟩
  · obtain ⟨device', hquiet', hleft⟩ := openStep_untouched hp hquiet huntouched opening
    have hview' : (openStep platform store volume opening).view medium = device' :=
      hquiet'.view_eq medium
    refine ⟨device', hquiet', ?_⟩
    rw [Strands, hview, hview']
    rcases hleft with hleft | ⟨hsetup, master, hmaster⟩ | ⟨master, record, hheld⟩
    · exact Or.inl ⟨fun hstrands => hstrands.2.1 hleft.2, Or.inl hleft⟩
    · exact Or.inr ⟨⟨huntouched.2, by simp [hmaster], hsetup.record⟩, hsetup, master, hmaster⟩
    · obtain ⟨wrapped, hwrapped, -⟩ := hheld.wrapped
      refine Or.inl ⟨fun hstrands => ?_, Or.inr ⟨master, record, hheld⟩⟩
      rw [hstrands.2.2] at hwrapped
      cases hwrapped
  · obtain ⟨device', hquiet', hleft⟩ := openStep_retained hp hquiet hretained opening
    refine ⟨device', hquiet', Or.inl ⟨fun hstrands => ?_, Or.inr ⟨master, hleft⟩⟩⟩
    obtain ⟨record, hheld⟩ := hretained
    have hnone := hstrands.1
    rw [hview, hheld.retained] at hnone
    cases hnone

/-- An uninterrupted open of a recoverable store succeeds. -/
theorem open_recoverable (hp : platform.Specified) (h : Recoverable platform store device)
    {conditions : Conditions} (hfree : conditions.Free) (draw : Draw) :
    ∃ core, (openVault platform store false conditions draw device).2 = .ok core := by
  rcases h with huntouched | ⟨master, record, hheld⟩
  · obtain ⟨_, commits, hrun, -⟩ := open_untouched hp huntouched hfree draw
    exact ⟨_, by rw [hrun]⟩
  · obtain ⟨_, commits, hrun, -⟩ := open_held hp hheld hfree draw
    exact ⟨_, by rw [hrun]⟩

/-- The first commit of an open that starts from nothing is the master key. -/
theorem open_untouched_commits (h : Untouched platform store device) {conditions : Conditions}
    (hfree : conditions.Free) (draw : Draw) :
    ∃ rest, (openVault platform store false conditions draw device).1 =
      .make (.generate store.keyAlias draw.master) :: rest := by
  obtain ⟨format, hformat, hstart⟩ := inspectStorage_of_startable h.1.database
  have hretain : [.make (.generate store.keyAlias draw.master)] <+:
      (retainKey platform store false format draw device).1 := by
    rw [retainKey_eq h hstart draw]
    exact Program.prefix_commits_bind (generateMaster store.keyAlias draw) _ device
  rw [openVault_eq hfree h.1.directory hformat draw]
  obtain ⟨rest, hrest⟩ := hretain.trans (Program.prefix_commits_bind _ _ device)
  exact ⟨rest, by rw [← hrest]; rfl⟩

/-- A crash right after the master key was made strands the store. -/
theorem crash_strands {volume : Volume} (hquiet : volume.Quiet device)
    (h : Untouched platform store device) {conditions : Conditions} (hfree : conditions.Free)
    (draw : Draw) (garbage : Bytes) :
    Strands platform store volume ⟨conditions, draw, .crashes 2 [] garbage⟩ := by
  obtain ⟨rest, hrest⟩ := open_untouched_commits h hfree draw
  have hsteady : Steady medium (device.generated store draw) := steady_generate h.1.steady _ _
  have hsteps : (steps medium (openVault platform store false conditions draw device).1).take 2 =
      (Journal.Commit.make (.generate store.keyAlias draw.master) : Commit).steps medium := by
    rw [hrest]
    rfl
  have hgenerated : (volume.execute medium
      ((Journal.Commit.make (.generate store.keyAlias draw.master) : Commit).steps medium)).Quiet
      (device.generated store draw) := execute_commit hquiet _
  have hcrashed : (openStep platform store volume ⟨conditions, draw, .crashes 2 [] garbage⟩).Quiet
      (device.generated store draw) := by
    simp only [openStep, perform, hquiet.view_eq medium, hsteps]
    rcases crash_pending hgenerated.1 (Or.inl hgenerated.2) hsteady hsteady [] garbage with hd | hd
    · exact hd
    · exact hd
  have hmaster : (device.generated store draw).keystore[store.keyAlias]? = some draw.master :=
    Table.get_insert_self ..
  rw [Strands, hquiet.view_eq medium, hcrashed.view_eq medium]
  refine ⟨h.2, by simp [hmaster], ?_⟩
  rw [Device.generated, Device.entry_generate, h.1.record]

/-- An uninterrupted open answers what the program answers. -/
theorem perform_done {α : Type} {volume : Volume} (hquiet : volume.Quiet device) (call : Call α) :
    (perform volume call .done).2 = some (call device).2 := by
  simp only [perform, hquiet.view_eq medium]

end

end Vault

end Tundra
