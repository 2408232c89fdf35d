/-
  Tundra.Backup

  Portable encrypted snapshots (`backup.rs`).  A file is a SQLCipher database
  under a key, with its pragmas, schema and rows, or some other file.  Export
  copies the live database into a new file and validates the copy; restore
  validates a backup, suspends a copy of its rows and installs the result at a
  destination that does not exist.  Disk errors are left out: SQLCipher
  reproduces the rows it is given.
-/

import Tundra.Recovery

namespace Tundra
namespace Backup

open Checked Relational Engine

variable {State Wallet Scan : Type} (env : Env State Wallet Scan)

def maxBytes : Nat := 256 * 1024 * 1024

def maxStateBytes : Nat := 16 * 1024 * 1024

def applicationId : Nat := 0x54444231

def schemaVersion : Nat := 8

structure BackupSummary where
  createdAt : Nat
  wallets : List WalletSummary
  drafts : Nat
  submissions : Nat
  deriving DecidableEq, Repr

/-! ## Files -/

/-- What a SQLCipher file holds. -/
structure Image (State : Type) where
  applicationId : Nat
  userVersion : Nat
  schema : List SchemaRow
  /-- `cipher_integrity_check` and `integrity_check` report nothing. -/
  pagesIntact : Bool
  /-- `created_at` of the manifest's row. -/
  manifest : Option Nat
  db : Db State
  deriving DecidableEq

inductive File (State : Type) where
  | database (key : String) (size : Nat) (image : Image State)
  | other
  deriving DecidableEq

/-- The files by canonical path. -/
structure FileSystem (State : Type) where
  files : Table String (File State)
  /-- `canonical_path`: `none` when the parent cannot be resolved. -/
  canonicalize : String → Option String
  /-- Paths whose lock another session holds. -/
  locked : List String

def passwordKey (password : String) : Result String := do
  require (16 ≤ password.length ∧ password.utf8ByteSize ≤ 1024 ∧
    ∀ c ∈ password.toList, isControl c = false) (.invalidInput
      "backup password must contain at least 16 characters and at most 1024 UTF-8 bytes, without control characters")
  .ok ("Tundra backup v1:" ++ password)

def validateKeyPath (path : String) (storageKey : Bytes) : Result Unit :=
  require (storageKey.length = 32 ∧ path ≠ "" ∧ path ≠ ":memory:")
    (.invalidInput "protected storage")

def hexDigit (n : Nat) : Char :=
  if n < 10 then Char.ofNat (48 + n) else Char.ofNat (87 + n)

/-- `storage::raw_key`: the 32 bytes as a SQLCipher raw key. -/
def rawKey (storageKey : Bytes) : String :=
  "x'" ++ String.ofList (storageKey.flatMap (fun b => [hexDigit (b.toNat / 16), hexDigit (b.toNat % 16)]))
    ++ "'"

/-- Whole pages, within the size bound. -/
def WholePages (size : Nat) : Prop :=
  4096 ≤ size ∧ size ≤ maxBytes ∧ size % 4096 = 0

instance (size : Nat) : Decidable (WholePages size) := by
  unfold WholePages
  infer_instance

/-- No journal of an interrupted writer stands beside the file. -/
def NoJournals (fs : FileSystem State) (path : String) : Prop :=
  ∀ suffix ∈ ["-wal", "-shm", "-journal"], (fs.files[path ++ suffix]?).isNone = true

instance (fs : FileSystem State) (path : String) : Decidable (NoJournals fs path) := by
  unfold NoJournals
  infer_instance

/-- Open a file read-only as a snapshot; a wrong key reads no page. -/
def openFile (file : Option (File State)) (key : String) : Result (Image State) :=
  match file with
  | some (.database fileKey size image) => do
      require (WholePages size) .storageLocked
      require (fileKey = key) .storageLocked
      .ok image
  | _ => .error .storageLocked

/-- `open_snapshot`: a standalone file, opened with its key. -/
def openSnapshot (fs : FileSystem State) (path key : String) : Result (Image State) := do
  require (NoJournals fs path) .storageLocked
  openFile fs.files[path]? key

/-! ## Validation -/

/-- The schema of a file, when it is small enough to compare. -/
def boundedSchema (rows : List SchemaRow) : Result (List SchemaRow) := do
  require (rows.length ≤ 128 ∧ ∀ row ∈ rows, (row.sql.map String.length).getD 0 ≤ 65536 ∧
    row.name.length ≤ 128 ∧ row.tableName.length ≤ 128) .corruptState
  .ok rows

def integrity (image : Image State) : Result Unit :=
  require (image.pagesIntact = true ∧ image.db.ForeignKeys) .corruptState

/-- A draft with more than 64 attempts. -/
def excessiveAttempts (db : Db State) : Bool :=
  db.broadcastAttempts.anyRow (fun _ a =>
    64 < (Broadcast.attempts db a.walletId a.draftId).length)

/-- Check the public descriptors of a wallet before its snapshot is loaded. -/
def validateWallet (db : Db State) (id : String) (row : WalletRow State) : Result WalletSummary := do
  let state ← okOr (env.parseJson (env.stateJson row.state)) .corruptState
  let external ← okOr ((state.get "descriptor").bind Json.asStr) .corruptState
  let internal ← okOr ((state.get "change_descriptor").bind Json.asStr) .corruptState
  require (external.utf8ByteSize ≤ 16384 ∧ internal.utf8ByteSize ≤ 16384) .corruptState
  let network ← Network.parse row.network
  let preview ← Descriptors.previewImport env (env.descriptorPairJson external internal) network
  let loaded ← load env db id
  require (trim loaded.summary.name ≠ "" ∧
    ∀ c ∈ loaded.summary.name.toList, isControl c = false) .corruptState
  require (preview.policy = loaded.summary.policy) .corruptState
  .ok { loaded.summary with syncedAt := none }

/-- The wallets by creation time and id. -/
def walletRows (db : Db State) : List (String × WalletRow State) :=
  db.wallets.toList.insertionSort (fun a b => a.2.createdAt ≤ b.2.createdAt)

def validate (image : Image State) : Result BackupSummary := do
  require (image.applicationId = applicationId ∧ 7 ≤ image.userVersion ∧
    image.userVersion ≤ schemaVersion) .corruptState
  let found ← boundedSchema image.schema
  let expected ← boundedSchema (env.schemaRows image.userVersion)
  require (found = expected) .corruptState
  integrity image
  let createdAt ← okOr image.manifest .storage
  require (image.db.wallets.size ≤ 1000) .corruptState
  require (image.db.drafts.size ≤ 10000 ∧ excessiveAttempts image.db = false) .corruptState
  require (image.db.wallets.anyRow (fun _ row =>
    maxStateBytes < (env.stateJson row.state).utf8ByteSize) = false) .corruptState
  let wallets ← (walletRows image.db).mapM (fun row => validateWallet env image.db row.1 row.2)
  .ok
    { createdAt
      wallets
      drafts := image.db.drafts.size
      submissions := image.db.broadcastAttempts.size }

def inspectBackup (fs : FileSystem State) (path password : String) : Result BackupSummary := do
  let key ← passwordKey password
  let path ← okOr (fs.canonicalize path) .storage
  let image ← openSnapshot fs path key
  validate env image

/-! ## Restore -/

/-- `schema.sql` on the copied rows: a version 7 backup has no recovery tables. -/
def migrate (version : Nat) (db : Db State) : Db State :=
  if version = 7 then { db with recoveredSubmissions := ∅, recoveryHolds := ∅ } else db

/-- The store a restore installs for an accepted image. -/
def restoredImage (image : Image State) (db : Db State) : Image State :=
  { image with
    applicationId := 0
    userVersion := schemaVersion
    schema := image.schema.filter (fun row => row.tableName ≠ "backup_manifest")
    pagesIntact := true
    manifest := none
    db }

inductive RestoreStep where
  | copied
  | verified
  | installed
  deriving DecidableEq, Repr

/-- The rows of an accepted image, suspended and checked in their new file. -/
def restoreImage (image : Image State) (boundary : RestoreStep → Result Unit) :
    Result (BackupSummary × Image State) := do
  let summary ← validate env image
  let db ← Recovery.suspend env (migrate image.userVersion image.db)
  boundary .copied
  let output := restoredImage image db
  integrity output
  require (output.db.wallets.anyRow (fun _ row => row.syncedAt ≠ none) = false) .corruptState
  checkAll (fun (wallet : WalletSummary) => do
    let _ ← load env output.db wallet.id) summary.wallets
  boundary .verified
  .ok (summary, output)

/-- Everything a restore does before it installs a file. -/
def prepareRestore (fs : FileSystem State) (source destination password : String)
    (storageKey : Bytes) (boundary : RestoreStep → Result Unit) :
    Result (BackupSummary × String × Image State) := do
  validateKeyPath destination storageKey
  let key ← passwordKey password
  let source ← okOr (fs.canonicalize source) .storage
  let destination ← okOr (fs.canonicalize destination) .storage
  require (destination ∉ fs.locked) .storageBusy
  require (fs.files[destination]? = none) .alreadyExists
  let image ← openSnapshot fs source key
  let (summary, output) ← restoreImage env image boundary
  .ok (summary, destination, output)

/-- `restore_snapshot`: nothing is installed unless every check has passed. -/
def restoreSnapshot (fs : FileSystem State) (source destination password : String)
    (storageKey : Bytes) (size : Nat) (boundary : RestoreStep → Result Unit) :
    Result BackupSummary × FileSystem State :=
  match prepareRestore env fs source destination password storageKey boundary with
  | .error e => (.error e, fs)
  | .ok (summary, destination, image) =>
      ((do
          boundary .installed
          .ok summary),
        { fs with
          files := fs.files.insert destination (.database (rawKey storageKey) size image) })

/-- `restore_backup`; `size` is the size of the file SQLCipher writes. -/
def restoreBackup (fs : FileSystem State) (source destination password : String)
    (storageKey : Bytes) (size : Nat) : Result BackupSummary × FileSystem State :=
  restoreSnapshot env fs source destination password storageKey size (fun _ => .ok ())

/-! ## Export -/

/-- The image of a live database with its manifest. -/
def exportedImage (db : Db State) (now : Nat) : Image State where
  applicationId := applicationId
  userVersion := schemaVersion
  schema := env.schemaRows schemaVersion
  pagesIntact := true
  manifest := some now
  db := db

/-- `export_backup` to a path that does not exist. -/
def exportBackup (db : Db State) (fs : FileSystem State) (path password : String)
    (size now : Nat) : Result (BackupSummary × FileSystem State) := do
  let key ← passwordKey password
  let path ← okOr (fs.canonicalize path) .storage
  require (fs.files[path]? = none) .alreadyExists
  -- the copy is validated under a temporary name, which has no journals
  let output := File.database key size (exportedImage env db now)
  let image ← openFile (some output) key
  let summary ← validate env image
  .ok (summary, { fs with files := fs.files.insert path output })

end Backup
end Tundra
