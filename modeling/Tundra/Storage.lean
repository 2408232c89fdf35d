/-
  Tundra.Storage

  The upgrade of a plaintext store to a protected one (`storage.rs`).  The
  store's WAL is taken into its file, an encrypted copy is written to a temporary
  file, opened with the key and checked, and renamed to the store's place.

  A call can be cut off after any step, by an error or because the process is
  killed, and then its change of the directory is seen but may still be lost; a
  later power loss keeps any of the changes that were not synced.  Calls with any
  keys follow one another on what is left.
-/

import Tundra.StoreSelection
import Tundra.Lib.Transition
import Mathlib.Data.List.Induction

namespace Tundra
namespace Storage

open Relational Journal Checked
open StoreSelection (Node protectedOrUnknown spoilEntry)

/-! ## The disk -/

/-- The entry at the store's path, and its WAL. -/
structure Disk where
  store : Option (Node Unit)
  wal : Option Bytes

inductive Change where
  /-- SQLite's own change, all or nothing: the WAL is gone, its rows are in the file. -/
  | checkpoint (content : Bytes)
  | persist (file : File Bytes)

inductive Home where
  | parent
  deriving DecidableEq

def Disk.apply (disk : Disk) : Change → Disk
  | .checkpoint content => { store := some (.file ⟨content, true⟩), wal := none }
  | .persist file => { disk with store := some (.file file) }

/-- After a power loss a file that was not synced has any content. -/
def Disk.spoil (garbage : Bytes) (disk : Disk) : Disk :=
  { disk with store := disk.store.map (spoilEntry garbage) }

def medium : Medium Bytes Disk Change Home where
  apply := Disk.apply
  home _ := .parent
  spoil := Disk.spoil

abbrev Volume := Journal.Volume Bytes Disk Change

abbrev Call (α : Type) := Program medium Error α

/-! ## SQLCipher -/

/-- The rows of a database, and its `user_version`. -/
structure Database (Rows : Type) where
  rows : Rows
  userVersion : Int

/-- What SQLite and SQLCipher do with a database's file. -/
structure SqlCipher (Rows : Type) where
  /-- What a connection with a key, or without one, reads in a file and its WAL. -/
  read : Option Bytes → Bytes → Option Bytes → Option (Database Rows)
  /-- `PRAGMA journal_mode=DELETE`; a handle that holds the WAL prevents it. -/
  checkpoint : Bytes → Option Bytes → Result Bytes
  /-- A new database under a key, with its salt. -/
  write : Database Rows → Bytes → Bytes → Result Bytes
  /-- `integrity`. -/
  integrity : Bytes → Bytes → Result Unit

/-- `sqlcipher_export` copies a schema and its rows. -/
def sqlcipherExport {Rows : Type} (database : Database Rows) : Database Rows :=
  { database with userVersion := 0 }

/-- What the two document: taking the WAL in changes no row, a database reads
    what was written to it, with its own key and no other, and a salt is not the
    header of a plaintext file. -/
structure SqlCipher.Documented {Rows : Type} (cipher : SqlCipher Rows) : Prop where
  checkpoint_read : ∀ {file file' : Bytes} {wal : Option Bytes},
    cipher.checkpoint file wal = .ok file' → cipher.read none file' none = cipher.read none file wal
  checkpoint_format : ∀ {file file' : Bytes} {wal : Option Bytes},
    cipher.checkpoint file wal = .ok file' → protectedOrUnknown file = false →
      protectedOrUnknown file' = false
  write_read : ∀ {database : Database Rows} {key salt copy : Bytes},
    cipher.write database key salt = .ok copy → cipher.read (some key) copy none = some database
  write_format : ∀ {database : Database Rows} {key salt copy : Bytes},
    cipher.write database key salt = .ok copy → protectedOrUnknown copy = true
  other_key : ∀ {database : Database Rows} {key key' salt copy : Bytes},
    cipher.write database key salt = .ok copy → key' ≠ key → cipher.read (some key') copy none = none

/-! ## The functions of the source -/

inductive StorageFormat where
  | missing
  | plaintext
  | protectedOrUnknown
  deriving DecidableEq, Repr

/-- A format hint, never proof that a database is valid. -/
def storageFormat (disk : Disk) : Result StorageFormat :=
  match disk.store with
  | some (.file file) =>
      .ok (if protectedOrUnknown file.content then .protectedOrUnknown else .plaintext)
  | some _ => .error .storage
  | none => .ok .missing

/-- The bytes at the store's path. -/
def Disk.content (disk : Disk) : Bytes :=
  match disk.store with
  | some (.file file) => file.content
  | _ => []

def validateKeyPath (key : Bytes) : Result Unit :=
  require (key.length = 32) (.invalidInput "protected storage")

section Functions

variable {Rows : Type} (cipher : SqlCipher Rows)

/-- `open_protected`, on a file that exists. -/
def openProtected (file : Bytes) (wal : Option Bytes) (key : Bytes) : Result (Database Rows) := do
  validateKeyPath key
  require (16 ≤ file.length) .storageLocked
  okOr (cipher.read (some key) file wal) .storageLocked

/-- The transaction on the attached copy. -/
def protectedCopy (database : Database Rows) (key salt : Bytes) : Result Bytes :=
  let copy := sqlcipherExport database
  cipher.write { copy with userVersion := database.userVersion } key salt

/-- The copy opens with the key, is whole, and has the version. -/
def verifyCopy (copy key : Bytes) (version : Int) : Result Unit := do
  let verified ← openProtected cipher copy none key
  cipher.integrity copy key
  require (verified.userVersion = version) .corruptState

/-- `migrate`, once the store is found to be plaintext. -/
def protect (file : Bytes) (wal : Option Bytes) (key salt : Bytes) : Call Unit := do
  let file ← Program.of medium (cipher.checkpoint file wal)
  Program.commit medium (.make (.checkpoint file))
  let source ← Program.of medium (okOr (cipher.read none file none) .storage)
  Program.of medium (require (1 ≤ source.userVersion ∧ source.userVersion ≤ 8) .corruptState)
  let copy ← Program.of medium (protectedCopy cipher source key salt)
  Program.of medium (verifyCopy cipher copy key source.userVersion)
  Program.commit medium (.replace copy .persist)

/-- `migrate`, under the exclusive lock. -/
def migrate (key salt : Bytes) : Call Unit := do
  Program.of medium (validateKeyPath key)
  let disk ← Program.read medium
  match ← Program.of medium (storageFormat disk) with
  | .missing => Program.of medium (.error .notFound)
  | .protectedOrUnknown => do
      let _ ← Program.of medium (openProtected cipher disk.content disk.wal key)
      pure ()
  | .plaintext => protect cipher disk.content disk.wal key salt

end Functions

/-! ## Runs -/

inductive Event where
  /-- A call, whole or cut off after a number of steps. -/
  | migrate (key salt : Bytes) (stop : Option Nat)
  | powerLoss (kept : List Bool) (garbage : Bytes)

section Runs

variable {Rows : Type} (cipher : SqlCipher Rows)

def step (volume : Volume) : Event → Volume
  | .migrate key salt stop =>
      let steps := steps medium (migrate cipher key salt (volume.view medium)).1
      volume.execute medium (steps.take (stop.getD steps.length))
  | .powerLoss kept garbage => volume.crash medium kept garbage

def run (volume : Volume) (events : List Event) : Volume := Transition.run (step cipher) volume events

/-- What a call answers when it is not cut off. -/
def answer (volume : Volume) (key salt : Bytes) : Result Unit :=
  (migrate cipher key salt (volume.view medium)).2

/-! ## What a disk holds -/

/-- A plaintext file that holds a database. -/
structure PlainFile (database : Database Rows) (file : Bytes) (wal : Option Bytes) : Prop where
  format : protectedOrUnknown file = false
  read : cipher.read none file wal = some database

/-- An encrypted file that holds a database, under one key. -/
structure ProtectedFile (database : Database Rows) (key file : Bytes) : Prop where
  format : protectedOrUnknown file = true
  size : 16 ≤ file.length
  keySize : key.length = 32
  read : cipher.read (some key) file none = some database
  other : ∀ key', key' ≠ key → cipher.read (some key') file none = none

def Plain (database : Database Rows) (disk : Disk) : Prop :=
  ∃ file, disk.store = some (.file ⟨file, true⟩) ∧ PlainFile cipher database file disk.wal

def Protected (database : Database Rows) (key : Bytes) (disk : Disk) : Prop :=
  ∃ file, disk.store = some (.file ⟨file, true⟩) ∧ disk.wal = none ∧
    ProtectedFile cipher database key file

/-- The database is there: in plaintext, or under a key of these calls. -/
def Holds (database : Database Rows) (events : List Event) (disk : Disk) : Prop :=
  Plain cipher database disk ∨ ∃ key salt stop, .migrate key salt stop ∈ events ∧
    Protected cipher database key disk

/-- The changes that are on their way before a copy is renamed. -/
def Checkpoints (database : Database Rows) (pending : List Change) : Prop :=
  ∀ e ∈ pending, ∃ file, e = .checkpoint file ∧ PlainFile cipher database file none

/-- The states of a volume between calls: plaintext, with nothing but SQLite's
    changes on their way; the renamed copy on its way; or the copy on the disk. -/
inductive Kept (database : Database Rows) (events : List Event) (volume : Volume) : Prop where
  | plain (durable : Plain cipher database volume.durable)
      (pending : Checkpoints cipher database volume.pending)
  | renamed (key salt copy : Bytes) (stop : Option Nat) (used : .migrate key salt stop ∈ events)
      (durable : Plain cipher database volume.durable) (wal : volume.durable.wal = none)
      (pending : volume.pending = [.persist ⟨copy, true⟩])
      (copied : ProtectedFile cipher database key copy)
  | replaced (key salt : Bytes) (stop : Option Nat) (used : .migrate key salt stop ∈ events)
      (durable : Protected cipher database key volume.durable) (pending : volume.pending = [])

end Runs

/-! ## One call -/

section Calls

variable {Rows : Type} {cipher : SqlCipher Rows} {database : Database Rows} {disk : Disk}
  {file key salt : Bytes} {wal : Option Bytes}

/-- What a call makes of a plaintext store. -/
inductive Protecting (cipher : SqlCipher Rows) (database : Database Rows) (key : Bytes) :
    List (Commit Bytes Change Home) × Result Unit → Prop where
  | refused (e : Error) : Protecting cipher database key ([], .error e)
  | checkpointed (file : Bytes) (plain : PlainFile cipher database file none) (e : Error) :
      Protecting cipher database key ([.make (.checkpoint file)], .error e)
  | replaced (file copy : Bytes) (plain : PlainFile cipher database file none)
      (copied : ProtectedFile cipher database key copy) :
      Protecting cipher database key
        ([.make (.checkpoint file), .replace copy .persist], .ok ())

/-- A copy that is verified holds the database, under its key alone. -/
theorem copy_protected (hc : cipher.Documented) {copy : Bytes} {version : Int}
    (hcopy : protectedCopy cipher database key salt = .ok copy)
    (hverify : verifyCopy cipher copy key version = .ok ()) :
    ProtectedFile cipher database key copy := by
  simp only [verifyCopy, openProtected, validateKeyPath, bind_eq_ok, require_eq_ok, exists_unit,
    okOr_eq_ok] at hverify
  obtain ⟨_, ⟨hkey, hsize, -⟩, -⟩ := hverify
  have hwrite : cipher.write database key salt = .ok copy := hcopy
  exact
    { format := hc.write_format hwrite
      size := hsize
      keySize := hkey
      read := hc.write_read hwrite
      other := fun _ hne => hc.other_key hwrite hne }

theorem protect_cases (hc : cipher.Documented) (hplain : PlainFile cipher database file wal) :
    Protecting cipher database key (protect cipher file wal key salt disk) := by
  rw [protect]
  cases hcheckpoint : cipher.checkpoint file wal with
  | error e => exact .refused e
  | ok file' =>
      have hread : cipher.read none file' none = some database :=
        (hc.checkpoint_read hcheckpoint).trans hplain.read
      have hplain' : PlainFile cipher database file' none :=
        { format := hc.checkpoint_format hcheckpoint hplain.format, read := hread }
      rw [Program.of_ok_bind, Program.commit_bind, hread, okOr, Program.of_ok_bind]
      -- every check after the checkpoint answers an error or goes on
      cases hversion : require (1 ≤ database.userVersion ∧ database.userVersion ≤ 8)
        Error.corruptState with
      | error e => exact .checkpointed file' hplain' e
      | ok _ =>
          rw [Program.of_ok_bind]
          cases hcopy : protectedCopy cipher database key salt with
          | error e => exact .checkpointed file' hplain' e
          | ok copy =>
              rw [Program.of_ok_bind]
              cases hverify : verifyCopy cipher copy key database.userVersion with
              | error e => exact .checkpointed file' hplain' e
              | ok _ => exact .replaced file' copy hplain' (copy_protected hc hcopy hverify)

/-- What has to go well for a plaintext store to be protected. -/
structure Upgrades (cipher : SqlCipher Rows) (database : Database Rows) (disk : Disk)
    (key salt : Bytes) : Prop where
  keySize : key.length = 32
  version : 1 ≤ database.userVersion ∧ database.userVersion ≤ 8
  checkpoint : ∃ file, cipher.checkpoint disk.content disk.wal = .ok file
  copy : ∃ copy, cipher.write database key salt = .ok copy ∧ 16 ≤ copy.length ∧
    cipher.integrity copy key = .ok ()

/-- A copy of the database that is long enough and whole is verified. -/
theorem verifyCopy_iff (hc : cipher.Documented) {copy : Bytes}
    (hwrite : cipher.write database key salt = .ok copy) :
    verifyCopy cipher copy key database.userVersion = .ok () ↔
      key.length = 32 ∧ 16 ≤ copy.length ∧ cipher.integrity copy key = .ok () := by
  have hread := hc.write_read hwrite
  simp only [verifyCopy, openProtected, validateKeyPath, bind_eq_ok, require_eq_ok, exists_unit,
    okOr_eq_ok, hread]
  constructor
  · rintro ⟨_, ⟨hkey, hsize, -⟩, hintegrity, -⟩
    exact ⟨hkey, hsize, hintegrity⟩
  · rintro ⟨hkey, hsize, hintegrity⟩
    exact ⟨database, ⟨hkey, hsize, rfl⟩, hintegrity, rfl⟩

theorem migrate_plain (hc : cipher.Documented) (h : Plain cipher database disk) :
    Protecting cipher database key (migrate cipher key salt disk) := by
  obtain ⟨file, hstore, hplain⟩ := h
  have hformat : storageFormat disk = .ok .plaintext := by
    rw [storageFormat, hstore]
    dsimp only
    rw [hplain.format]
    rfl
  have hcontent : disk.content = file := by rw [Disk.content, hstore]
  rw [migrate]
  cases hkey : validateKeyPath key with
  | error e => exact .refused e
  | ok _ =>
      rw [Program.of_ok_bind, Program.read_bind, hformat, Program.of_ok_bind, hcontent]
      exact protect_cases hc hplain

theorem protect_ok (hc : cipher.Documented) (hplain : PlainFile cipher database file wal) :
    (protect cipher file wal key salt disk).2 = .ok () ↔
      ∃ file', cipher.checkpoint file wal = .ok file' ∧
        (1 ≤ database.userVersion ∧ database.userVersion ≤ 8) ∧
        ∃ copy, cipher.write database key salt = .ok copy ∧ key.length = 32 ∧
          16 ≤ copy.length ∧ cipher.integrity copy key = .ok () := by
  rw [protect, Program.of_bind_answer]
  refine exists_congr fun file' => and_congr_right fun hcheckpoint => ?_
  have hread : cipher.read none file' none = some database :=
    (hc.checkpoint_read hcheckpoint).trans hplain.read
  rw [Program.commit_bind, hread, okOr, Program.of_ok_bind, Program.of_bind_answer, exists_unit,
    require_eq_ok]
  refine and_congr_right fun _ => ?_
  rw [Program.of_bind_answer]
  refine exists_congr fun copy => and_congr_right fun hwrite => ?_
  rw [Program.of_bind_answer, exists_unit, verifyCopy_iff hc hwrite]
  exact and_iff_left rfl

theorem migrate_plain_ok (hc : cipher.Documented) (h : Plain cipher database disk) :
    (migrate cipher key salt disk).2 = .ok () ↔ Upgrades cipher database disk key salt := by
  obtain ⟨file, hstore, hplain⟩ := h
  have hformat : storageFormat disk = .ok .plaintext := by
    rw [storageFormat, hstore]
    dsimp only
    rw [hplain.format]
    rfl
  have hcontent : disk.content = file := by rw [Disk.content, hstore]
  rw [migrate, Program.of_bind_answer, exists_unit, Program.read_bind, hformat, Program.of_ok_bind,
    hcontent, protect_ok hc hplain, validateKeyPath, require_eq_ok]
  constructor
  · rintro ⟨hkey, file', hcheckpoint, hversion, copy, hwrite, -, hsize, hintegrity⟩
    exact ⟨hkey, hversion, ⟨file', hcontent ▸ hcheckpoint⟩, copy, hwrite, hsize, hintegrity⟩
  · rintro ⟨hkey, hversion, ⟨file', hcheckpoint⟩, copy, hwrite, hsize, hintegrity⟩
    exact ⟨hkey, file', hcontent ▸ hcheckpoint, hversion, copy, hwrite, hkey, hsize, hintegrity⟩

/-- A protected store is opened, and is left as it is. -/
theorem migrate_protected {key' : Bytes} (h : Protected cipher database key' disk) :
    migrate cipher key salt disk =
      ([], if key.length = 32 then if key = key' then .ok () else .error .storageLocked
        else .error (.invalidInput "protected storage")) := by
  obtain ⟨file, hstore, hwal, hfile⟩ := h
  have hformat : storageFormat disk = .ok .protectedOrUnknown := by
    rw [storageFormat, hstore]
    dsimp only
    rw [hfile.format]
    rfl
  have hcontent : disk.content = file := by rw [Disk.content, hstore]
  rw [migrate]
  by_cases hkey : key.length = 32
  · have hvalid : validateKeyPath key = .ok () := require_of hkey
    rw [hvalid, if_pos hkey, Program.of_ok_bind, Program.read_bind, hformat, Program.of_ok_bind,
      hcontent, hwal]
    by_cases hsame : key = key'
    · have hopen : openProtected cipher file none key = .ok database := by
        rw [openProtected, hvalid, ok_bind, require_of hfile.size, ok_bind, hsame, hfile.read, okOr]
      rw [hopen, if_pos hsame]
      rfl
    · have hopen : openProtected cipher file none key = .error .storageLocked := by
        rw [openProtected, hvalid, ok_bind, require_of hfile.size, ok_bind, hfile.other key hsame,
          okOr]
      rw [hopen, if_neg hsame]
      rfl
  · have hinvalid : validateKeyPath key = .error (.invalidInput "protected storage") :=
      require_of_not hkey
    rw [hinvalid, if_neg hkey]
    rfl

end Calls

/-! ## One step of a call -/

section Steps

variable {Rows : Type} {cipher : SqlCipher Rows} {database : Database Rows} {volume : Volume}
  {events : List Event}

/-- Whichever of them reach the disk, it stays plaintext. -/
theorem plain_foldl {pending : List Change} (h : Checkpoints cipher database pending) {disk : Disk}
    (hdisk : Plain cipher database disk) :
    Plain cipher database (pending.foldl medium.apply disk) := by
  induction pending generalizing disk with
  | nil => exact hdisk
  | cons e pending ih =>
      obtain ⟨file, rfl, hfile⟩ := h e List.mem_cons_self
      exact ih (fun e he => h e (List.mem_cons_of_mem _ he)) ⟨file, rfl, hfile⟩

theorem step_sync (volume : Volume) (k : Home) :
    volume.step medium (.syncDirectory k) =
      { volume with durable := volume.view medium, pending := [] } := by
  cases k
  simp [Volume.step, Volume.view, medium]

/-- The view once a checkpoint is the last of the changes. -/
theorem view_checkpoint (volume : Volume) (file : Bytes) :
    (volume.step medium (.change (.checkpoint file))).view medium =
      { store := some (.file ⟨file, true⟩), wal := none } := by
  rw [Volume.step, Volume.view, List.foldl_append]
  rfl

/-- The disk of a checkpoint that is synced. -/
def settled (file : Bytes) : Disk := { store := some (.file ⟨file, true⟩), wal := none }

theorem plain_settled {file : Bytes} (h : PlainFile cipher database file none) :
    Plain cipher database (settled file) := ⟨file, rfl, h⟩

/-- The first commit of a call, whole. -/
theorem execute_checkpoint (volume : Volume) (file : Bytes) :
    volume.execute medium (Commit.steps medium (.make (.checkpoint file))) =
      { volume with durable := settled file, pending := [] } := by
  have hexecute : volume.execute medium (Commit.steps medium (.make (.checkpoint file))) =
      (volume.step medium (.change (.checkpoint file))).step medium (.syncDirectory .parent) := rfl
  rw [hexecute, step_sync, view_checkpoint]
  rfl

/-- The first commit of a call, cut off anywhere. -/
theorem kept_checkpoint (durable : Plain cipher database volume.durable)
    (pending : Checkpoints cipher database volume.pending) {file : Bytes}
    (hfile : PlainFile cipher database file none) (n : Nat) :
    Kept cipher database events (volume.execute medium
      ((Commit.steps medium (.make (.checkpoint file))).take n)) := by
  rcases n with _ | _ | n
  · exact .plain durable pending
  · refine .plain durable fun e he => ?_
    rcases List.mem_append.mp he with he | he
    · exact pending e he
    · exact ⟨file, List.mem_singleton.mp he, hfile⟩
  · rw [List.take_of_length_le (Nat.le_add_left 2 n), execute_checkpoint]
    exact .plain (plain_settled hfile) fun e he => absurd he List.not_mem_nil

/-- The second commit, after the first one, cut off anywhere. -/
theorem kept_persist {file copy key salt : Bytes} {stop : Option Nat}
    (used : .migrate key salt stop ∈ events) (hdurable : volume.durable = settled file)
    (hpending : volume.pending = []) (hfile : PlainFile cipher database file none)
    (hcopy : ProtectedFile cipher database key copy) (n : Nat) :
    Kept cipher database events (volume.execute medium
      ((Commit.steps medium (.replace copy .persist)).take n)) := by
  have hplain : Plain cipher database volume.durable := by
    rw [hdurable]
    exact plain_settled hfile
  have hnone : Checkpoints cipher database volume.pending := by
    rw [hpending]
    exact fun e he => absurd he List.not_mem_nil
  have hrename : ((({ volume with temp := some ⟨copy, true⟩ } : Volume).step medium
      (.rename .persist)) : Volume) =
        { volume with pending := [.persist ⟨copy, true⟩], temp := none } := by
    rw [Volume.step, hpending]
    rfl
  rcases n with _ | _ | _ | _ | n
  · exact .plain hplain hnone
  · exact .plain hplain hnone
  · exact .plain hplain hnone
  · have hexecute : volume.execute medium
        ((Commit.steps medium (.replace copy .persist)).take 3) =
        ({ volume with temp := some ⟨copy, true⟩ } : Volume).step medium (.rename .persist) := rfl
    rw [hexecute, hrename]
    exact .renamed key salt copy stop used hplain (by rw [hdurable]; rfl) rfl hcopy
  · have hexecute : volume.execute medium
        ((Commit.steps medium (.replace copy .persist)).take (n + 4)) =
        (({ volume with temp := some ⟨copy, true⟩ } : Volume).step medium (.rename .persist)).step
          medium (.syncDirectory .parent) := by
      rw [List.take_of_length_le (Nat.le_add_left 4 n)]
      rfl
    rw [hexecute, hrename, step_sync]
    refine .replaced key salt stop used ⟨copy, ?_, ?_, hcopy⟩ rfl
    · rfl
    · show volume.durable.wal = none
      rw [hdurable]
      rfl

theorem Kept.mono {events' : List Event} (h : Kept cipher database events volume)
    (hsub : events ⊆ events') : Kept cipher database events' volume := by
  cases h with
  | plain durable pending => exact .plain durable pending
  | renamed key salt copy stop used durable wal pending copied =>
      exact .renamed key salt copy stop (hsub used) durable wal pending copied
  | replaced key salt stop used durable pending =>
      exact .replaced key salt stop (hsub used) durable pending

/-- What the next call finds. -/
theorem Kept.view (h : Kept cipher database events volume) :
    Checkpoints cipher database volume.pending ∧ Plain cipher database volume.durable ∧
      Plain cipher database (volume.view medium) ∨
    ∃ key salt stop, .migrate key salt stop ∈ events ∧
      Protected cipher database key (volume.view medium) := by
  cases h with
  | plain durable pending => exact .inl ⟨pending, durable, plain_foldl pending durable⟩
  | renamed key salt copy stop used durable wal pending copied =>
      refine .inr ⟨key, salt, stop, used, copy, ?_, ?_, copied⟩
      · rw [Volume.view, pending]
        rfl
      · rw [Volume.view, pending]
        exact wal
  | replaced key salt stop used durable pending =>
      refine .inr ⟨key, salt, stop, used, ?_⟩
      rw [Volume.view, pending]
      exact durable

theorem kept_migrate (hc : cipher.Documented) (h : Kept cipher database events volume)
    {key salt : Bytes} {stop : Option Nat} (used : .migrate key salt stop ∈ events) :
    Kept cipher database events (step cipher volume (.migrate key salt stop)) := by
  rw [step]
  generalize hn : stop.getD
    (steps medium (migrate cipher key salt (volume.view medium)).1).length = n
  rcases h.view with ⟨pending, durable, hview⟩ | ⟨key', _, _, -, hview⟩
  · have hmigrate : Protecting cipher database key (migrate cipher key salt (volume.view medium)) :=
      migrate_plain hc hview
    rcases hrun : migrate cipher key salt (volume.view medium) with ⟨commits, result⟩
    rw [hrun] at hmigrate
    cases hmigrate with
    | refused e =>
        have hnone : (steps medium ([] : List (Commit Bytes Change Home))).take n = [] :=
          List.take_nil
        rw [hnone]
        exact h
    | checkpointed file plain e =>
        have hone : steps medium [.make (.checkpoint file)] =
            Commit.steps medium (.make (.checkpoint file)) := rfl
        rw [hone]
        exact kept_checkpoint durable pending plain n
    | replaced file copy plain copied =>
        have htwo : steps medium [.make (.checkpoint file), .replace copy .persist] =
            Commit.steps medium (.make (.checkpoint file)) ++
              Commit.steps medium (.replace copy .persist) := rfl
        rw [htwo, List.take_append, Volume.execute_append]
        by_cases hfirst : 2 ≤ n
        · have hall : (Commit.steps medium (.make (.checkpoint file))).take n =
              Commit.steps medium (.make (.checkpoint file)) := List.take_of_length_le hfirst
          rw [hall, execute_checkpoint]
          exact kept_persist used rfl rfl plain copied _
        · have hnone : (Commit.steps medium (.replace copy .persist)).take
              (n - (Commit.steps medium (.make (.checkpoint file))).length) = [] := by
            have hzero : n - (Commit.steps medium (.make (.checkpoint file))).length = 0 := by
              show n - 2 = 0
              omega
            rw [hzero, List.take_zero]
          rw [hnone]
          exact kept_checkpoint durable pending plain n
  · rw [migrate_protected hview]
    have hnone : (steps medium ([] : List (Commit Bytes Change Home))).take n = [] := List.take_nil
    rw [hnone]
    exact h

theorem Checkpoints.survivors {pending : List Change} (h : Checkpoints cipher database pending)
    (kept : List Bool) : Checkpoints cipher database (Volume.survivors kept pending) := by
  intro e he
  exact h e ((survivors_sublist kept pending).subset he)

/-- A synced store is not spoiled. -/
theorem spoil_synced {disk : Disk} {file : Bytes} (h : disk.store = some (.file ⟨file, true⟩))
    (garbage : Bytes) : disk.spoil garbage = disk := by
  rw [Disk.spoil, h]
  cases disk
  cases h
  rfl

theorem kept_powerLoss (h : Kept cipher database events volume) (kept : List Bool)
    (garbage : Bytes) : Kept cipher database events (volume.crash medium kept garbage) := by
  have hcrash : (volume.crash medium kept garbage).durable =
      ((Volume.survivors kept volume.pending).foldl medium.apply volume.durable).spoil garbage := rfl
  cases h with
  | plain durable pending =>
      have hplain := plain_foldl (pending.survivors kept) durable
      obtain ⟨file, hstore, -⟩ := id hplain
      rw [spoil_synced hstore] at hcrash
      refine .plain ?_ fun e he => absurd he List.not_mem_nil
      rw [hcrash]
      exact hplain
  | renamed key salt copy stop used durable wal pending copied =>
      rw [pending] at hcrash
      rcases survivors_singleton kept (Change.persist ⟨copy, true⟩) with hnone | hsome
      · obtain ⟨file, hstore, -⟩ := id durable
        rw [hnone, List.foldl_nil, spoil_synced hstore] at hcrash
        refine .plain ?_ fun e he => absurd he List.not_mem_nil
        rw [hcrash]
        exact durable
      · have hspoil : ((medium.apply volume.durable (.persist ⟨copy, true⟩)).spoil garbage) =
            medium.apply volume.durable (.persist ⟨copy, true⟩) := spoil_synced rfl garbage
        rw [hsome, List.foldl_cons, List.foldl_nil, hspoil] at hcrash
        refine .replaced key salt stop used ?_ rfl
        rw [hcrash]
        exact ⟨copy, rfl, wal, copied⟩
  | replaced key salt stop used durable pending =>
      have hnone : Volume.survivors kept volume.pending = [] :=
        List.sublist_nil.mp (pending ▸ survivors_sublist kept volume.pending)
      obtain ⟨file, hstore, -⟩ := id durable
      rw [hnone, List.foldl_nil, spoil_synced hstore] at hcrash
      refine .replaced key salt stop used ?_ rfl
      rw [hcrash]
      exact durable

theorem kept_step (hc : cipher.Documented) (h : Kept cipher database events volume) (event : Event) :
    Kept cipher database (events ++ [event]) (step cipher volume event) := by
  have h' := h.mono (List.subset_append_left events [event])
  cases event with
  | migrate key salt stop =>
      exact kept_migrate hc h' (List.mem_append_right _ (List.mem_singleton.mpr rfl))
  | powerLoss kept garbage => exact kept_powerLoss h' kept garbage

theorem kept_run (hc : cipher.Documented) {disk : Disk} (hquiet : volume.Quiet disk)
    (hdisk : Plain cipher database disk) (events : List Event) :
    Kept cipher database events (run cipher volume events) := by
  induction events using List.reverseRecOn with
  | nil =>
      refine .plain (hquiet.1 ▸ hdisk) fun e he => ?_
      rw [run, Transition.run_nil, hquiet.2] at he
      exact absurd he List.not_mem_nil
  | append_singleton events event ih =>
      rw [run, Transition.run_concat]
      exact kept_step hc ih event

end Steps

/-! ## Every run -/

section Results

variable {Rows : Type} {cipher : SqlCipher Rows} {database : Database Rows} {volume : Volume}
  {disk : Disk}

/-- Wherever calls are cut off and whenever the power is lost, the store's path
    holds the whole database, in plaintext or under the key of one of the calls:
    for the running system, and on the disk after a further power loss. -/
theorem migration_keeps_database (hc : cipher.Documented) (hquiet : volume.Quiet disk)
    (hdisk : Plain cipher database disk) (events : List Event) :
    Holds cipher database events ((run cipher volume events).view medium) ∧
    ∀ kept garbage, Holds cipher database events
      ((run cipher volume events).crash medium kept garbage).durable := by
  have hkept := kept_run hc hquiet hdisk events
  have hholds : ∀ {volume : Volume}, Kept cipher database events volume →
      Holds cipher database events (volume.view medium) := by
    intro volume h
    rcases h.view with ⟨-, -, hview⟩ | ⟨key, salt, stop, used, hview⟩
    · exact .inl hview
    · exact .inr ⟨key, salt, stop, used, hview⟩
  refine ⟨hholds hkept, fun kept garbage => ?_⟩
  -- after a power loss nothing is on its way, and the view is the disk
  have hview : ((run cipher volume events).crash medium kept garbage).view medium =
      ((run cipher volume events).crash medium kept garbage).durable := rfl
  rw [← hview]
  exact hholds (kept_powerLoss hkept kept garbage)

/-- A call that is not cut off, whatever is still on its way.  A protected store
    opens with its own key, refuses every other one, and is left as it is.  A
    plaintext store is protected, all of it on the disk, exactly when nothing
    outside the call goes wrong, and otherwise stays plaintext. -/
theorem migration_answers (hc : cipher.Documented) (volume : Volume) (key salt : Bytes) :
    (∀ key', Protected cipher database key' (volume.view medium) →
      step cipher volume (.migrate key salt none) = volume ∧
      answer cipher volume key salt =
        if key.length = 32 then if key = key' then .ok () else .error .storageLocked
        else .error (.invalidInput "protected storage")) ∧
    (Plain cipher database (volume.view medium) →
      (answer cipher volume key salt = .ok () ↔
        Upgrades cipher database (volume.view medium) key salt) ∧
      (answer cipher volume key salt = .ok () → ∃ disk,
        (step cipher volume (.migrate key salt none)).Quiet disk ∧
          Protected cipher database key disk) ∧
      (answer cipher volume key salt ≠ .ok () →
        Plain cipher database ((step cipher volume (.migrate key salt none)).view medium))) := by
  have hwhole : step cipher volume (.migrate key salt none) =
      volume.execute medium (steps medium (migrate cipher key salt (volume.view medium)).1) := by
    rw [step, Option.getD_none, List.take_length]
  have hmigrate : Plain cipher database (volume.view medium) →
      Protecting cipher database key (migrate cipher key salt (volume.view medium)) :=
    migrate_plain hc
  rw [answer, hwhole]
  refine ⟨fun key' hprotected => ?_, fun hplain => ⟨migrate_plain_ok hc hplain, ?_, ?_⟩⟩
  · rw [migrate_protected hprotected]
    exact ⟨rfl, rfl⟩
  · intro hanswer
    rcases hrun : migrate cipher key salt (volume.view medium) with ⟨commits, result⟩
    have hcase := hmigrate hplain
    rw [hrun] at hcase hanswer
    cases hcase with
    | refused e => cases hanswer
    | checkpointed file plain e => cases hanswer
    | replaced file copy plain copied =>
        have hsplit : steps medium [.make (.checkpoint file), .replace copy .persist] =
            Commit.steps medium (.make (.checkpoint file)) ++
              Commit.steps medium (.replace copy .persist) := rfl
        have hquiet' : ({ volume with durable := settled file, pending := [] } : Volume).Quiet
            (settled file) := ⟨rfl, rfl⟩
        rw [hsplit, Volume.execute_append, execute_checkpoint]
        exact ⟨_, execute_commit hquiet' (.replace copy .persist), copy, rfl, rfl, copied⟩
  · intro hanswer
    rcases hrun : migrate cipher key salt (volume.view medium) with ⟨commits, result⟩
    have hcase := hmigrate hplain
    rw [hrun] at hcase hanswer
    cases hcase with
    | refused e => exact hplain
    | checkpointed file plain e =>
        have hone : steps medium [.make (.checkpoint file)] =
            Commit.steps medium (.make (.checkpoint file)) := rfl
        rw [hone, execute_checkpoint]
        exact plain_settled plain
    | replaced file copy plain copied => exact absurd rfl hanswer

end Results

end Storage
end Tundra
