/-
  Tundra.Fixture.Cipher

  A small database format in the place of SQLCipher's: a plaintext file is the
  header, a version and its rows; an encrypted one a salt, its key, a version and
  its rows.
-/

import Tundra.Storage

namespace Tundra
namespace Fixture

open Journal Checked Storage
open StoreSelection (Node protectedOrUnknown asBytes)

def sqliteHeader : Bytes := asBytes "SQLite format 3\x00"

theorem length_sqliteHeader : sqliteHeader.length = 16 := by
  decide

/-- A version and the rows behind it. -/
def cipherBody : Bytes → Option (Database Bytes)
  | version :: rows => some { rows, userVersion := version.toNat }
  | [] => none

def smallCipher : SqlCipher Bytes where
  read key file wal :=
    match key with
    | none =>
        if file.take 16 = sqliteHeader then
          (cipherBody (file.drop 16)).map fun database =>
            { database with rows := wal.getD database.rows }
        else none
    | some key =>
        if (file.drop 16).take 32 = key then cipherBody (file.drop 48) else none
  checkpoint file wal :=
    if 17 ≤ file.length then .ok (file.take 17 ++ wal.getD (file.drop 17)) else .error .storage
  write database key salt :=
    if key.length = 32 ∧ salt.length = 16 ∧ salt ≠ sqliteHeader ∧ 0 ≤ database.userVersion ∧
        database.userVersion < 256 then
      .ok (salt ++ (key ++ UInt8.ofNat database.userVersion.toNat :: database.rows))
    else .error .storage
  integrity _ _ := .ok ()

section

variable {database : Database Bytes} {file file' key salt copy : Bytes} {wal : Option Bytes}

/-- A written file: its size, and the parts that are read. -/
theorem write_ok (h : smallCipher.write database key salt = .ok copy) :
    copy.take 16 = salt ∧ salt ≠ sqliteHeader ∧ (copy.drop 16).take 32 = key ∧
      cipherBody (copy.drop 48) = some database := by
  simp only [smallCipher] at h
  split_ifs at h with hfits
  obtain ⟨hkey, hsalt, hheader, hlow, hhigh⟩ := hfits
  obtain rfl := Except.ok.inj h
  have hversion : database.userVersion.toNat < 256 := by omega
  have hbyte : (UInt8.ofNat database.userVersion.toNat).toNat = database.userVersion.toNat :=
    UInt8.toNat_ofNat_of_lt' hversion
  have hdrop : (salt ++ (key ++ UInt8.ofNat database.userVersion.toNat :: database.rows)).drop 16 =
      key ++ UInt8.ofNat database.userVersion.toNat :: database.rows :=
    List.drop_left' hsalt
  refine ⟨List.take_left' hsalt, hheader, ?_, ?_⟩
  · rw [hdrop]
    exact List.take_left' hkey
  · have hbody : (salt ++ (key ++ UInt8.ofNat database.userVersion.toNat :: database.rows)).drop 48 =
        UInt8.ofNat database.userVersion.toNat :: database.rows := by
      rw [← List.drop_drop (i := 32) (j := 16), hdrop]
      exact List.drop_left' hkey
    rw [hbody, cipherBody, hbyte, Int.toNat_of_nonneg hlow]

theorem checkpoint_ok (h : smallCipher.checkpoint file wal = .ok file') :
    17 ≤ file.length ∧ file' = file.take 17 ++ wal.getD (file.drop 17) := by
  simp only [smallCipher] at h
  split_ifs at h with hsize
  exact ⟨hsize, (Except.ok.inj h).symm⟩

/-- A file of at least 17 bytes, at its version. -/
theorem split_version (h : 17 ≤ file.length) : ∃ version rows,
    file.drop 16 = version :: rows ∧ file.drop 17 = rows ∧
      file.take 17 = file.take 16 ++ [version] := by
  have hlength : (file.drop 16).length ≠ 0 := by
    rw [List.length_drop]
    omega
  obtain ⟨version, rows, hdrop⟩ := List.exists_cons_of_length_pos (Nat.pos_of_ne_zero hlength)
  have hrows : file.drop 17 = rows := by
    rw [← List.drop_drop (i := 1) (j := 16), hdrop]
    rfl
  refine ⟨version, rows, hdrop, hrows, ?_⟩
  rw [List.take_add (i := 16) (j := 1), hdrop]
  rfl

theorem smallCipher_documented : smallCipher.Documented where
  checkpoint_read := by
    intro file file' wal h
    obtain ⟨hsize, rfl⟩ := checkpoint_ok h
    obtain ⟨version, rows, hdrop, hrows, htake⟩ := split_version hsize
    have hlength : (file.take 16).length = 16 := List.length_take_of_le (by omega)
    have htake' : (file.take 17 ++ wal.getD (file.drop 17)).take 16 = file.take 16 := by
      rw [htake, List.append_assoc]
      exact List.take_left' hlength
    have hdrop' : (file.take 17 ++ wal.getD (file.drop 17)).drop 16 =
        version :: wal.getD rows := by
      rw [htake, List.append_assoc, hrows]
      exact List.drop_left' hlength
    simp only [smallCipher, htake', hdrop', hdrop, cipherBody, Option.map_some, Option.getD_none]
  checkpoint_format := by
    intro file file' wal h hformat
    obtain ⟨hsize, rfl⟩ := checkpoint_ok h
    have htake : (file.take 17 ++ wal.getD (file.drop 17)).take 16 = file.take 16 := by
      rw [List.take_append_of_le_length (by rw [List.length_take]; omega), List.take_take]
      rfl
    rw [protectedOrUnknown, htake]
    exact hformat
  write_read h := by
    obtain ⟨-, -, hkey, hbody⟩ := write_ok h
    exact (if_pos hkey).trans hbody
  write_format h := by
    obtain ⟨hsalt, hheader, -, -⟩ := write_ok h
    exact decide_eq_true (fun heq => hheader (hsalt.symm.trans heq))
  other_key h hne := by
    obtain ⟨-, -, hkey, -⟩ := write_ok h
    exact if_neg fun heq => hne (heq.symm.trans hkey)

end

/-! ## An upgrade that is cut off and made again -/

def firstKey : Bytes := List.replicate 32 1

def secondKey : Bytes := List.replicate 32 2

def salt : Bytes := List.replicate 16 0xff

/-- Version 8, a row, and another one in the WAL. -/
def plainDisk : Disk where
  store := some (.file ⟨sqliteHeader ++ [8, 42], true⟩)
  wal := some [42, 43]

def plainVolume : Storage.Volume where
  durable := plainDisk
  pending := []
  temp := none

def plainDatabase : Database Bytes where
  rows := [42, 43]
  userVersion := 8

theorem plainDisk_plain : Plain smallCipher plainDatabase plainDisk :=
  ⟨_, rfl, by decide, rfl⟩

/-- The first call is killed after its rename, the power loss undoes it, and the
    second one has another key. -/
def upgradeEvents : List Event :=
  [.migrate firstKey salt (some 5), .powerLoss [] [], .migrate secondKey salt none]

theorem migration_keeps_database_upgrade :
    Storage.Holds smallCipher plainDatabase upgradeEvents
      ((Storage.run smallCipher plainVolume upgradeEvents).view medium) :=
  (migration_keeps_database smallCipher_documented ⟨rfl, rfl⟩ plainDisk_plain upgradeEvents).1

/-- The first of these calls, had it not been cut off. -/
theorem migration_answers_upgrade : Storage.answer smallCipher plainVolume firstKey salt = .ok () ∧
    ∃ disk, (Storage.step smallCipher plainVolume (.migrate firstKey salt none)).Quiet disk ∧
      Protected smallCipher plainDatabase firstKey disk := by
  obtain ⟨-, hplain⟩ := @migration_answers _ smallCipher plainDatabase smallCipher_documented
    plainVolume firstKey salt
  obtain ⟨hiff, hdone, -⟩ := hplain plainDisk_plain
  have hok := hiff.mpr
    { keySize := by decide
      version := by decide
      checkpoint := ⟨_, rfl⟩
      copy := ⟨_, rfl, by decide, rfl⟩ }
  exact ⟨hok, hdone hok⟩

end Fixture
end Tundra
