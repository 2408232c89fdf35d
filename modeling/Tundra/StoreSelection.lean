/-
  Tundra.StoreSelection

  Which store the native application opens (`store_selection.rs`): the selector
  file in the application's directory, the generations below `restored-stores`,
  and the recovery attempts that make a generation, restore a backup into it
  and select it.

  A call is a program over the directory entries and files it can change.  Its
  steps are grouped into commits, each ending with the sync of its directory,
  and it can be cut off after any step.
-/

import Tundra.Error
import Tundra.Bitcoin
import Tundra.Lib.Journal

namespace Tundra

open Relational Std Journal Checked

namespace StoreSelection

/-! ## The directories -/

/-- What `symlink_metadata` finds under a name. -/
inductive Node (α : Type) where
  | file (file : File Bytes)
  | directory (entries : α)
  | other

/-- The files of a generation, by name. -/
abbrev Generation := Table String (Node Unit)

/-- The application's directory: the entries `active-store.v1` and
    `restored-stores`. -/
structure Disk where
  selector : Option (Node Unit)
  stores : Option (Node (Table String (Node Generation)))

namespace Disk

/-- The entry of a generation in `restored-stores`. -/
def generation (disk : Disk) (name : String) : Option (Node Generation) :=
  match disk.stores with
  | some (.directory stores) => stores[name]?
  | _ => none

/-- An entry of a generation. -/
def database (disk : Disk) (generation name : String) : Option (Node Unit) :=
  match disk.generation generation with
  | some (.directory entries) => entries[name]?
  | _ => none

end Disk

/-- A change of directory entries. -/
inductive Change where
  | selector (file : File Bytes)
  | createStores
  | createGeneration (generation : String)
  | install (generation name : String) (file : File Bytes)

/-- A directory that is synced. -/
inductive Home where
  | root
  | stores
  | generation (name : String)
  deriving DecidableEq

def Change.home : Change → Home
  | .selector _ => .root
  | .createStores => .root
  | .createGeneration _ => .stores
  | .install generation _ _ => .generation generation

def Disk.apply (disk : Disk) : Change → Disk
  | .selector file => { disk with selector := some (.file file) }
  | .createStores => { disk with stores := some (.directory ∅) }
  | .createGeneration generation =>
      match disk.stores with
      | some (.directory stores) =>
          { disk with stores := some (.directory (stores.insert generation (.directory ∅))) }
      | _ => disk
  | .install generation name file =>
      match disk.stores with
      | some (.directory stores) =>
          match stores[generation]? with
          | some (.directory entries) =>
              let entries := entries.insert name (.file file)
              { disk with stores := some (.directory (stores.insert generation (.directory entries))) }
          | _ => disk
      | _ => disk

def spoilFile (garbage : Bytes) (file : File Bytes) : File Bytes :=
  if file.synced then file else ⟨garbage, true⟩

def spoilEntry {α : Type} (garbage : Bytes) : Node α → Node α
  | .file file => .file (spoilFile garbage file)
  | node => node

def spoilGeneration (garbage : Bytes) : Node Generation → Node Generation
  | .directory entries => .directory (entries.updateAll fun _ => spoilEntry garbage)
  | node => spoilEntry garbage node

/-- After a power loss a file that was not synced has any content. -/
def Disk.spoil (garbage : Bytes) (disk : Disk) : Disk where
  selector := disk.selector.map (spoilEntry garbage)
  stores := disk.stores.map fun
    | .directory stores => .directory (stores.updateAll fun _ => spoilGeneration garbage)
    | node => spoilEntry garbage node

/-- The file system below the application's directory. -/
def medium : Medium Bytes Disk Change Home where
  apply := Disk.apply
  home := Change.home
  spoil := Disk.spoil

/-! ## Reading the selection -/

inductive Directory where
  | root
  | generation (name : String)
  deriving DecidableEq, Repr

structure StorageLocation where
  generation : String
  directory : Directory
  requireExisting : Bool
  deriving DecidableEq, Repr

def header : String := "Tundra store v1\n"

def regular {α : Type} : Option (Node α) → Result Bool
  | some (.file _) => .ok true
  | some _ => .error .storage
  | none => .ok false

def directory {α : Type} : Option (Node α) → Result Bool
  | some (.directory _) => .ok true
  | some _ => .error .storage
  | none => .ok false

def isAsciiAlphanumeric (b : UInt8) : Bool :=
  (48 ≤ b && b ≤ 57) || (65 ≤ b && b ≤ 90) || (97 ≤ b && b ≤ 122)

/-- `String::as_bytes`. -/
def asBytes (value : String) : Bytes := value.toByteArray.data.toList

def validGeneration (value : String) : Bool :=
  (asBytes value).length = 22 && (asBytes "store-").isPrefixOf (asBytes value) &&
    ((asBytes value).drop 6).all isAsciiAlphanumeric

/-- `strip_prefix(HEADER)` and then `strip_suffix('\n')`. -/
def stripSelection (value : String) : Option String :=
  if header.toList <+: value.toList then
    let rest := value.toList.drop header.toList.length
    if rest.getLast? = some '\n' then some (String.ofList rest.dropLast) else none
  else none

/-- The generation that the selector's content names. -/
def parseSelection (content : Bytes) : Result String := do
  let value ← okOr (String.fromUTF8? ⟨(content.take 65).toArray⟩) .storageLocked
  okOr (stripSelection value) .storageLocked

/-- The directory of a named generation. -/
def locate (disk : Disk) (generation : String) : Result StorageLocation :=
  if generation = "default" then
    .ok { generation, directory := .root, requireExisting := true }
  else if validGeneration generation then do
    require ((← directory disk.stores) = true) .storageLocked
    require ((← directory (disk.generation generation)) = true) .storageLocked
    .ok { generation, directory := .generation generation, requireExisting := true }
  else .error .storageLocked

def readSelection (disk : Disk) : Result StorageLocation :=
  match disk.selector with
  | some (.file file) => do locate disk (← parseSelection file.content)
  | some _ => .error .storage
  | none => do
      -- Evidence of any prior recovery prevents fallback to a new empty default.
      require ((← directory disk.stores) = false) .storageLocked
      .ok { generation := "default", directory := .root, requireExisting := false }

/-! ## Calls -/

abbrev Commit := Journal.Commit Bytes Change Home

/-- A call, as the program of its commits. -/
abbrev Call (α : Type) := Program medium Error α

def writeSelection (generation : String) : Call Unit := do
  -- A corrupt regular selector can be replaced; anything else never is.
  let _ ← Program.of medium (regular (← Program.read medium).selector)
  Program.commit medium (.replace (asBytes (header ++ generation ++ "\n")) .selector)

/-- A recovery attempt (`StorageRestore`), while it is alive. -/
structure Attempt where
  generation : String
  databaseName : String
  key : Option Bytes := none
  activated : Bool := false

/-- The names `begin` accepts. -/
def validDatabaseName (name : String) : Bool :=
  !(asBytes name).isEmpty && (asBytes name).length ≤ 64 && name ≠ "." && name ≠ ".." &&
    (asBytes name).all fun b => isAsciiAlphanumeric b || (asBytes "._-").contains b

/-- `tempdir_in` with a name that `suffix` completes. -/
def createCandidate (suffix : String) : Call String := do
  let generation := "store-" ++ suffix
  Program.of medium (require (((← Program.read medium).generation generation).isNone = true) .storage)
  Program.commit medium (.make (.createGeneration generation))
  pure generation

/-- Everything up to `Boundary::Anchored`; does `restored-stores` exist? -/
def anchor (databaseName : String) : Call Bool := do
  Program.of medium (require (validDatabaseName databaseName = true) (.invalidInput "storage name"))
  let storesExist ← Program.of medium (directory (← Program.read medium).stores)
  let selected ← Program.of medium (regular (← Program.read medium).selector)
  Program.onlyIf medium (!selected && !storesExist) (writeSelection "default")
  pure storesExist

/-- From there to `Boundary::Allocated`: a directory for the candidate. -/
def allocate (databaseName suffix : String) (storesExist : Bool) : Call Attempt := do
  Program.onlyIf medium (!storesExist) (Program.commit medium (.make .createStores))
  let generation ← createCandidate suffix
  Program.of medium (require (validGeneration generation = true) .storage)
  pure { generation, databaseName }

def beginAt (databaseName suffix : String) : Call Attempt := do
  let storesExist ← anchor databaseName
  allocate databaseName suffix storesExist

/-- What SQLCipher and the backup format decide: the database file that
    `restore_backup` writes for a backup, and whether a file opens with a key and
    lists its wallets. -/
structure Platform where
  restored : Bytes → String → Bytes → Result Bytes
  openProtected : Bytes → Bytes → Result Unit

variable (platform : Platform)

/-- `restore_backup` into the attempt's directory. -/
def restoreBackupInto (attempt : Attempt) (source : Bytes) (password : String) (key : Bytes) :
    Call Unit := do
  Program.of medium (require (key.length = 32) (.invalidInput "protected storage"))
  Program.of medium (require (directory ((← Program.read medium).generation attempt.generation) = .ok true) .storage)
  Program.of medium (require (((← Program.read medium).database attempt.generation attempt.databaseName).isNone = true)
    .alreadyExists)
  let content ← Program.of medium (platform.restored source password key)
  Program.commit medium (.replace content (.install attempt.generation attempt.databaseName))

def restore (attempt : Attempt) (source : Bytes) (password : String) (key : Bytes) :
    Call Attempt := do
  Program.of medium (require (attempt.key = none ∧ attempt.activated = false) .storage)
  restoreBackupInto platform attempt source password key
  pure { attempt with key := some key }

/-- `storage_format` is `ProtectedOrUnknown`. -/
def protectedOrUnknown (content : Bytes) : Bool :=
  content.take 16 ≠ asBytes "SQLite format 3\x00"

/-- The checks of `activate_at`: the database opens with the key retained. -/
def verify (disk : Disk) (attempt : Attempt) : Result Unit := do
  require (attempt.activated = false) .storage
  let key ← okOr attempt.key .storage
  require ((← directory (disk.generation attempt.generation)) = true) .storageLocked
  match disk.database attempt.generation attempt.databaseName with
  | some (.file file) =>
      require (protectedOrUnknown file.content = true) .storageLocked
      platform.openProtected file.content key
  | some _ => .error .storage
  | none => .error .storageLocked

def activateAt (attempt : Attempt) : Call Attempt := do
  Program.of medium (verify platform (← Program.read medium) attempt)
  Program.commit medium (.barrier (.generation attempt.generation))
  writeSelection attempt.generation
  pure { attempt with key := none, activated := true }

/-! ## Runs -/

/-- How far a call gets: to its end, to an error before the commit of this
    number, or to a crash after this number of steps that keeps some of the
    unsynced entries.  A process that is killed keeps all of them. -/
inductive Fate where
  | done
  | fails (commits : Nat)
  | crashes (steps : Nat) (kept : List Bool) (garbage : Bytes)

abbrev Volume := Journal.Volume Bytes Disk Change

/-- The volume after a call and its answer; a crash answers nothing. -/
def perform {α : Type} (volume : Volume) (call : Call α) : Fate → Volume × Option (Result α)
  | .done =>
      let (commits, answer) := call (volume.view medium)
      (volume.execute medium (steps medium commits), some answer)
  | .fails n =>
      let commits := (call (volume.view medium)).1
      (volume.execute medium (steps medium (commits.take n)), some (.error .storage))
  | .crashes n kept garbage =>
      let commits := (call (volume.view medium)).1
      ((volume.execute medium ((steps medium commits).take n)).crash medium kept garbage, none)

/-- Does the call that starts with `anchor` get past it? -/
def Fate.passes (commits : List Commit) : Fate → Bool
  | .done => true
  | .fails n => commits.length ≤ n
  | .crashes n _ _ => (steps medium commits).length ≤ n

/-- What an observer notes about the latest attempt: the selection when it
    began, its generation, whether its restore succeeded, and whether its
    database was verified after that. -/
structure Record where
  before : Result StorageLocation
  generation : Option String := none
  restored : Bool := false
  verified : Bool := false

/-- The volume, the attempt that holds the lock, the latest attempt's record,
    and whether some `begin` passed its anchor step. -/
structure World where
  volume : Volume
  attempt : Option Attempt := none
  latest : Option Record := none
  anchored : Bool := false

/-- The next `read_selection`. -/
def World.selection (world : World) : Result StorageLocation :=
  readSelection (world.volume.view medium)

inductive Op where
  | begin (databaseName suffix : String) (fate : Fate)
  | restore (source : Bytes) (password : String) (key : Bytes) (fate : Fate)
  | activate (fate : Fate)
  | drop
  /-- Somebody removes a generation's file or puts another in its place, while
      the selector does not name the generation. -/
  | disturb (generation name : String) (content : Option Bytes)

/-- The answer of a call that was made and not interrupted. -/
def succeeded {α : Type} : Option (Result α) → Option α
  | some (.ok a) => some a
  | _ => none

/-- The attempt after a call on it: changed when the call succeeded, gone after
    a crash. -/
def afterCall (attempt : Attempt) : Option (Result Attempt) → Option Attempt
  | some (.ok attempt) => some attempt
  | some (.error _) => some attempt
  | none => none

def Disk.disturb (disk : Disk) (generation name : String) (content : Option Bytes) : Disk :=
  match disk.stores with
  | some (.directory stores) =>
      match stores[generation]? with
      | some (.directory entries) =>
          let entries := match content with
            | some content => entries.insert name (.file ⟨content, true⟩)
            | none => entries.erase name
          { disk with stores := some (.directory (stores.insert generation (.directory entries))) }
      | _ => disk
  | _ => disk

def step (world : World) : Op → World
  | .begin databaseName suffix fate =>
      match world.attempt with
      | some _ => world
      | none =>
          let (volume, answer) := perform world.volume (beginAt databaseName suffix) fate
          let attempt := succeeded answer
          let (commits, reached) := anchor databaseName (world.volume.view medium)
          { volume, attempt
            latest := some { before := world.selection, generation := attempt.map (·.generation) }
            anchored := world.anchored || (reached.isOk && fate.passes commits) }
  | .restore source password key fate =>
      match world.attempt with
      | none => world
      | some attempt =>
          let (volume, answer) :=
            perform world.volume (restore platform attempt source password key) fate
          { world with
            volume, attempt := afterCall attempt answer
            latest := world.latest.map fun record =>
              { record with restored := record.restored || (succeeded answer).isSome } }
  | .activate fate =>
      match world.attempt with
      | none => world
      | some attempt =>
          let (volume, answer) := perform world.volume (activateAt platform attempt) fate
          let passed := (verify platform (world.volume.view medium) attempt).isOk
          { world with
            volume, attempt := afterCall attempt answer
            latest := world.latest.map fun record =>
              { record with verified := record.verified || passed } }
  | .drop => { world with attempt := none }
  | .disturb generation name content =>
      if world.selection.toOption.any (fun location => location.generation = generation) then world
      else
        let disk := (world.volume.view medium).disturb generation name content
        { world with volume := ⟨disk, [], none⟩ }

end StoreSelection

end Tundra
