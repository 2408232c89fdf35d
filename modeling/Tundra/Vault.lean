/-
  Tundra.Vault

  Android's retention of the storage key (`StorageVault.kt`).  The database key
  of a store is kept in the file `storage-key.v1` of its directory, wrapped by a
  master key that never leaves the Keystore.  Opening a store makes what is
  missing in a fixed order: the master key, the wrapped record, the protected
  database, the mark that says the database was opened with that key.

  A call is a program over the Keystore, the files of the application's
  directory and the restored stores below it; as in `StoreSelection`, its steps
  are grouped into commits and it can be cut off after any step.
-/

import Tundra.StoreSelection

namespace Tundra

open Relational Std Journal Checked

namespace Vault

open StoreSelection (Node Disk Directory protectedOrUnknown asBytes)

/-! ## The device -/

/-- The Keystore's keys by alias, the files of the application's directory, and
    its selector and restored stores. -/
structure Device where
  keystore : Table String Bytes
  root : Table String (Node Unit)
  disk : Disk

/-- A change of the Keystore or of directory entries. -/
inductive Change where
  | generate (keyAlias : String) (master : Bytes)
  | root (name : String) (file : File Bytes)
  | disk (change : StoreSelection.Change)

/-- A directory that is synced.  The Keystore makes its own changes durable. -/
inductive Home where
  | keystore
  | files (home : StoreSelection.Home)
  deriving DecidableEq

def Change.home : Change → Home
  | .generate _ _ => .keystore
  | .root _ _ => .files .root
  | .disk change => .files change.home

namespace Device

def apply (device : Device) : Change → Device
  | .generate keyAlias master => { device with keystore := device.keystore.insert keyAlias master }
  | .root name file => { device with root := device.root.insert name (.file file) }
  | .disk change => { device with disk := device.disk.apply change }

/-- After a power loss a file that was not synced has any content. -/
def spoil (garbage : Bytes) (device : Device) : Device where
  keystore := device.keystore
  root := device.root.updateAll fun _ => StoreSelection.spoilEntry garbage
  disk := device.disk.spoil garbage

/-- An entry of a store's directory. -/
def entry (device : Device) (directory : Directory) (name : String) : Option (Node Unit) :=
  match directory with
  | .root => device.root[name]?
  | .generation generation => device.disk.database generation name

/-- `isDirectory`; the application's directory always exists. -/
def isDirectory (device : Device) : Directory → Bool
  | .root => true
  | .generation generation =>
      StoreSelection.directory (device.disk.generation generation) = .ok true

end Device

/-- The change that puts a file into a store's directory. -/
def Change.put (directory : Directory) (name : String) (file : File Bytes) : Change :=
  match directory with
  | .root => .root name file
  | .generation generation => .disk (.install generation name file)

/-- The Keystore and the file system. -/
def medium : Medium Bytes Device Change Home where
  apply := Device.apply
  home := Change.home
  spoil := Device.spoil

/-- Every exception leaves the vault as this one. -/
structure StorageAccessException where
  message : String :=
    "Wallet storage is unavailable. Existing files were retained; unlock the device or use recovery."
  deriving DecidableEq, Repr

abbrev Commit := Journal.Commit Bytes Change Home

/-- A call, as the program of its commits. -/
abbrev Call (α : Type) := Program medium StorageAccessException α

/-- `check`. -/
def check (condition : Prop) [Decidable condition] : Call Unit :=
  Program.of medium (require condition {})

/-- A call into the core, whose errors become the vault's exception. -/
def attempt {α : Type} (result : Result α) : Call α :=
  Program.of medium (okOr (toOption result) {})

/-! ## The platform -/

/-- What AES-GCM with a Keystore key, SQLCipher and the migration of a plaintext
    database compute. -/
structure Platform extends StoreSelection.Platform where
  /-- `doFinal` in `ENCRYPT_MODE`: master key, nonce, associated data, plaintext. -/
  encrypt : Bytes → Bytes → Bytes → Bytes → Bytes
  /-- `doFinal` in `DECRYPT_MODE`. -/
  decrypt : Bytes → Bytes → Bytes → Bytes → Option Bytes
  /-- The database that opening a missing file with a key creates. -/
  created : Bytes → Bytes
  /-- The protected copy of a plaintext database. -/
  upgraded : Bytes → Bytes → Result Bytes

/-- What the platform draws for one call: a master key, a storage key, and the
    nonces of the two records the call can write. -/
structure Draw where
  master : Bytes
  key : Bytes
  pendingNonce : Bytes
  markNonce : Bytes
  key_length : key.length = 32
  pendingNonce_length : pendingNonce.length = 12
  markNonce_length : markNonce.length = 12

/-! ## Records -/

/-- A storage key, and whether its database was opened with it. -/
structure Record where
  key : Bytes
  initialized : Bool
  deriving DecidableEq, Repr

def header : Bytes := [0x54, 0x44, 0x53, 1]

/-- The associated data of an alias' records. -/
def aad (keyAlias : String) : Bytes := asBytes ("Tundra storage wrapper v1:" ++ keyAlias)

def Record.plaintext (record : Record) : Bytes :=
  record.key ++ [if record.initialized then 1 else 0]

variable (platform : Platform)

/-- The content of `storage-key.v1`. -/
def packet (record : Record) (master : Bytes) (keyAlias : String) (nonce : Bytes) : Bytes :=
  header ++ nonce ++ platform.encrypt master nonce (aad keyAlias) record.plaintext

/-- `read`: four header bytes, twelve bytes of nonce, and the plaintext of 33
    bytes with its tag of 16. -/
def readRecord (node : Node Unit) (master : Bytes) (keyAlias : String) : Option Record :=
  match node with
  | .file file =>
      let bytes := file.content.take 66
      if bytes.length = 65 ∧ bytes.take 4 = header then do
        let plaintext ← platform.decrypt master ((bytes.drop 4).take 12) (aad keyAlias) (bytes.drop 16)
        if plaintext.length = 33 ∧ (plaintext.drop 32 = [0] ∨ plaintext.drop 32 = [1]) then
          some { key := plaintext.take 32, initialized := plaintext.drop 32 = [1] }
        else none
      else none
  | _ => none

def wrappedName : String := "storage-key.v1"

/-- `write`: the record under its name, synced. -/
def writeRecord (directory : Directory) (record : Record) (master : Bytes) (keyAlias : String)
    (nonce : Bytes) (replacing : Bool) : Call Unit := do
  check (((← Program.read medium).entry directory wrappedName).isSome = replacing)
  let ciphertext := platform.encrypt master nonce (aad keyAlias) record.plaintext
  check (nonce.length = 12 ∧ ciphertext.length = 49)
  Program.commit medium
    (.replace (packet platform record master keyAlias nonce) (.put directory wrappedName))

/-! ## Databases -/

inductive StorageFile where
  | missing
  | legacyPlaintext
  | protectedOrUnknown
  deriving DecidableEq, Repr

/-- `inspectStorage`, of an entry. -/
def inspectStorage : Option (Node Unit) → Result StorageFile
  | none => .ok .missing
  | some (.file file) =>
      .ok (if protectedOrUnknown file.content then .protectedOrUnknown else .legacyPlaintext)
  | some _ => .error .storage

/-- `upgradeStorage`: a verified protected copy takes the database's place. -/
def upgradeStorage (directory : Directory) (name : String) (key : Bytes) : Call Unit := do
  match (← Program.read medium).entry directory name with
  | some (.file file) =>
      if protectedOrUnknown file.content then attempt (platform.openProtected file.content key)
      else do
        let content ← attempt (platform.upgraded file.content key)
        Program.commit medium (.replace content (.put directory name))
  | some _ => attempt (.error .storage)
  | none => attempt (.error .notFound)

/-- A core with an open database. -/
structure Core where
  directory : Directory
  databaseName : String
  key : Bytes
  deriving DecidableEq, Repr

/-- `Tundra.openProtected`: a missing database is created, in one step. -/
def openProtected (directory : Directory) (name : String) (key : Bytes) : Call Core := do
  match (← Program.read medium).entry directory name with
  | some (.file file) => attempt (platform.openProtected file.content key)
  | some _ => attempt (.error .storageLocked)
  | none => Program.commit medium (.replace (platform.created key) (.put directory name))
  pure { directory, databaseName := name, key }

/-! ## Opening a store -/

/-- A store's directory with the names that its calls use; its database and its
    record are two files. -/
structure Store where
  directory : Directory
  keyAlias : String
  databaseName : String := "tundra.sqlite"
  distinct : databaseName ≠ wrappedName := by decide

/-- What a call finds outside the storage: the device is locked, another process
    holds the file lock of the directory. -/
structure Conditions where
  deviceLocked : Bool := false
  lockHeld : Bool := false
  deriving DecidableEq, Repr

def generateMaster (keyAlias : String) (draw : Draw) : Call Bytes := do
  Program.commit medium (.make (.generate keyAlias draw.master))
  pure draw.master

/-- The master key and the record of a store: read, or made for a store that has
    neither a protected database nor a master key. -/
def retainKey (store : Store) (requireExisting : Bool) (format : StorageFile) (draw : Draw) :
    Call (Bytes × Record) := do
  let device ← Program.read medium
  match device.entry store.directory wrappedName with
  | some wrapped => do
      let master ← Program.of medium (okOr device.keystore[store.keyAlias]? {})
      let record ← Program.of medium (okOr (readRecord platform wrapped master store.keyAlias) {})
      pure (master, record)
  | none => do
      -- A lost key must never authorize a fresh empty wallet database.
      check (requireExisting = false ∧ format ≠ .protectedOrUnknown ∧
        device.keystore[store.keyAlias]? = none)
      let master ← generateMaster store.keyAlias draw
      let record : Record := { key := draw.key, initialized := false }
      writeRecord platform store.directory record master store.keyAlias draw.pendingNonce false
      pure (master, record)

/-- The part of `open` that has the record: the database is upgraded or created
    where it must be, and then the record says so. -/
def openRetained (store : Store) (requireExisting : Bool) (format : StorageFile) (draw : Draw)
    (master : Bytes) (record : Record) : Call Core := do
  check (requireExisting = true → record.initialized = true)
  check (record.initialized = true → format = .protectedOrUnknown)
  Program.onlyIf medium (format = .legacyPlaintext)
    (upgradeStorage platform store.directory store.databaseName record.key)
  let core ← openProtected platform store.directory store.databaseName record.key
  -- The pending and the initialized record retain the same key.
  Program.onlyIf medium (!record.initialized)
    (writeRecord platform store.directory { record with initialized := true } master
      store.keyAlias draw.markNonce true)
  pure core

/-- `open`. -/
def openVault (store : Store) (requireExisting : Bool) (conditions : Conditions) (draw : Draw) :
    Call Core := do
  check (conditions.deviceLocked = false)
  let device ← Program.read medium
  check (device.isDirectory store.directory = true)
  check (conditions.lockHeld = false)
  let format ← attempt (inspectStorage (device.entry store.directory store.databaseName))
  check (requireExisting = true → format = .protectedOrUnknown)
  let (master, record) ← retainKey platform store requireExisting format draw
  openRetained platform store requireExisting format draw master record

/-! ## Runs -/

abbrev Volume := Journal.Volume Bytes Device Change

/-- The volume after a call and its answer; a crash answers nothing. -/
def perform {α : Type} (volume : Volume) (call : Call α) :
    StoreSelection.Fate → Volume × Option (Except StorageAccessException α)
  | .done =>
      let (commits, answer) := call (volume.view medium)
      (volume.execute medium (steps medium commits), some answer)
  | .fails n =>
      let commits := (call (volume.view medium)).1
      (volume.execute medium (steps medium (commits.take n)), some (.error {}))
  | .crashes n kept garbage =>
      let commits := (call (volume.view medium)).1
      ((volume.execute medium ((steps medium commits).take n)).crash medium kept garbage, none)

end Vault

end Tundra
