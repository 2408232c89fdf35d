/-
  Tundra.Selected

  Store selection is safe under crashes.  Every commit of a recovery attempt
  leaves the selection as it was, apart from marking the default store as one
  that must exist, until the last commit of `activate` selects the attempt's
  generation, whose database was verified just before (`Safe`, one lemma for each
  kind of commit).  The rules of `Journal.Program` carry this to every point at
  which a call can be cut off, and the run rule to every sequence of calls and
  crashes (`run_selection_safe`).
-/

import Tundra.StoreSelection
import Tundra.Lib.Transition

namespace Tundra

open Relational Std Journal Checked

namespace StoreSelection

/-! ## Entries after a change -/

namespace Disk

theorem generation_createGeneration {disk : Disk} {stores : Table String (Node Generation)}
    (h : disk.stores = some (.directory stores)) (g name : String) :
    (disk.apply (.createGeneration g)).generation name =
      if g = name then some (.directory ∅) else disk.generation name := by
  simp only [apply, h, generation]
  exact Table.get_insert ..

theorem apply_createGeneration_of_ne {disk : Disk}
    (h : ∀ stores, disk.stores ≠ some (.directory stores)) (g : String) :
    disk.apply (.createGeneration g) = disk := by
  rcases hstores : disk.stores with _ | _ | stores | _
  · simp only [apply, hstores]
  · simp only [apply, hstores]
  · exact absurd hstores (h stores)
  · simp only [apply, hstores]

/-- A new generation is empty, and nothing else changes. -/
theorem database_createGeneration {disk : Disk} {g : String} (hnew : disk.generation g = none)
    (name entry : String) :
    (disk.apply (.createGeneration g)).database name entry = disk.database name entry := by
  by_cases h : ∃ stores, disk.stores = some (.directory stores)
  · obtain ⟨stores, hstores⟩ := h
    simp only [database, generation_createGeneration hstores]
    by_cases hname : g = name
    · rw [if_pos hname, ← hname, hnew]
      exact ExtTreeMap.getElem?_empty
    · rw [if_neg hname]
  · rw [apply_createGeneration_of_ne (fun stores hs => h ⟨stores, hs⟩)]

/-- An install adds an entry to a generation, or finds none. -/
theorem apply_install (disk : Disk) (g name : String) (file : File Bytes) :
    disk.apply (.install g name file) = disk ∨
      ∃ (stores : Table String (Node Generation)) (entries : Generation),
        disk.stores = some (.directory stores) ∧
        disk.apply (.install g name file) = { disk with
          stores :=
            some (.directory (stores.insert g (.directory (entries.insert name (.file file))))) } := by
  rcases hstores : disk.stores with _ | _ | stores | _
  · exact Or.inl (by simp only [apply, hstores])
  · exact Or.inl (by simp only [apply, hstores])
  · rcases hg : stores[g]? with _ | _ | entries | _
    · exact Or.inl (by simp only [apply, hstores, hg])
    · exact Or.inl (by simp only [apply, hstores, hg])
    · exact Or.inr ⟨stores, entries, rfl, by simp only [apply, hstores, hg]⟩
    · exact Or.inl (by simp only [apply, hstores, hg])
  · exact Or.inl (by simp only [apply, hstores])

/-- An install changes the entry it names. -/
theorem database_install (disk : Disk) (g name : String) (file : File Bytes) (g' name' : String) :
    (disk.apply (.install g name file)).database g' name' =
      if (g = g' ∧ name = name') ∧ directory (disk.generation g) = .ok true
      then some (.file file) else disk.database g' name' := by
  rcases hstores : disk.stores with _ | _ | stores | _
  all_goals simp only [apply, hstores, database, generation, directory]
  · simp
  · simp
  · rcases hg : stores[g]? with _ | _ | entries | _
    all_goals simp only [hstores]
    · simp
    · simp
    · simp only [Table.get_insert]
      by_cases hgg : g = g'
      · subst hgg
        simp only [if_true, true_and, and_true, hg, Table.get_insert]
      · simp [hgg]
    · simp
  · simp

/-- An install makes no directory and removes none. -/
theorem directory_install (disk : Disk) (g name : String) (file : File Bytes) (g' : String) :
    directory ((disk.apply (.install g name file)).generation g') =
      directory (disk.generation g') := by
  rcases hstores : disk.stores with _ | _ | stores | _
  all_goals simp only [apply, hstores, generation]
  rcases hg : stores[g]? with _ | _ | entries | _
  all_goals simp only [hstores]
  simp only [Table.get_insert]
  by_cases hgg : g = g'
  · subst hgg
    simp only [if_true, hg, directory]
  · rw [if_neg hgg]

end Disk

/-! ## The selector's text -/

theorem length_asBytes_append (s t : String) :
    (asBytes (s ++ t)).length = (asBytes s).length + (asBytes t).length := by
  simp [asBytes, String.toByteArray_append]

theorem fromUTF8_asBytes (s : String) : String.fromUTF8? ⟨(asBytes s).toArray⟩ = some s := by
  have hbytes : (⟨(asBytes s).toArray⟩ : ByteArray) = s.toByteArray := by
    simp [asBytes]
  rw [hbytes, String.fromUTF8?, dif_pos]
  rfl

theorem stripSelection_text (generation : String) :
    stripSelection (header ++ generation ++ "\n") = some generation := by
  have hchars : (header ++ generation ++ "\n").toList =
      header.toList ++ (generation.toList ++ ['\n']) := by
    rw [String.toList_append, String.toList_append, List.append_assoc]
    rfl
  have hrest : (header ++ generation ++ "\n").toList.drop header.toList.length =
      generation.toList ++ ['\n'] := by
    rw [hchars, List.drop_left]
  simp only [stripSelection, hrest]
  rw [if_pos (by rw [hchars]; exact List.prefix_append ..), List.getLast?_concat, if_pos rfl,
    List.dropLast_concat, String.ofList_toList]

/-- What `write_selection` writes names its generation. -/
theorem parseSelection_text {generation : String} (h : (asBytes generation).length ≤ 48) :
    parseSelection (asBytes (header ++ generation ++ "\n")) = .ok generation := by
  have hheader : (asBytes header).length = 16 := by decide
  have hnewline : (asBytes "\n").length = 1 := by decide
  have hlength : (asBytes (header ++ generation ++ "\n")).length ≤ 65 := by
    rw [length_asBytes_append, length_asBytes_append]
    omega
  rw [parseSelection, List.take_of_length_le hlength, fromUTF8_asBytes, okOr_some, ok_bind,
    stripSelection_text, okOr_some]

theorem length_of_validGeneration {generation : String} (h : validGeneration generation = true) :
    (asBytes generation).length = 22 := by
  simp only [validGeneration, Bool.and_eq_true, decide_eq_true_eq] at h
  exact h.1.1

theorem default_not_valid : validGeneration "default" = false := by decide

/-! ## Sound directories -/

/-- The selector is a file that names a generation. -/
def Named (disk : Disk) (generation : String) : Prop :=
  ∃ file, disk.selector = some (.file file) ∧ parseSelection file.content = .ok generation

theorem Named.inj {disk : Disk} {g g' : String} (h : Named disk g) (h' : Named disk g') :
    g = g' := by
  obtain ⟨file, hfile, hg⟩ := h
  obtain ⟨file', hfile', hg'⟩ := h'
  rw [hfile] at hfile'
  cases hfile'
  rw [hg] at hg'
  exact Except.ok.inj hg'

/-- A generation with a database that opens and lists its wallets. -/
def Complete (platform : Platform) (disk : Disk) (generation : String) : Prop :=
  ∃ name file key, disk.database generation name = some (.file file) ∧
    platform.openProtected file.content key = .ok ()

/-- Every file is synced. -/
structure Synced (disk : Disk) : Prop where
  selector : ∀ file, disk.selector = some (.file file) → file.synced = true
  stores : ∀ file, disk.stores = some (.file file) → file.synced = true
  generation : ∀ g file, disk.generation g = some (.file file) → file.synced = true
  database : ∀ g name file, disk.database g name = some (.file file) → file.synced = true

/-- The directory as this module leaves it: nothing waits for a sync, and a
    restored generation is named only if its database is there and complete. -/
structure Sound (platform : Platform) (disk : Disk) : Prop where
  synced : Synced disk
  complete : ∀ g, Named disk g → validGeneration g = true → Complete platform disk g

/-- A selector or a stores directory: `begin` is past its anchor. -/
def Anchored (disk : Disk) : Prop := disk.selector ≠ none ∨ disk.stores ≠ none

/-- The default store of a new installation. -/
def fresh : StorageLocation where
  generation := "default"
  directory := .root
  requireExisting := false

/-- The default store once it must exist. -/
def retained : StorageLocation where
  generation := "default"
  directory := .root
  requireExisting := true

/-- A restored generation. -/
def restoredAt (generation : String) : StorageLocation where
  generation
  directory := .generation generation
  requireExisting := true

/-- The same selection, up to whether the default store must exist. -/
def Kept (before after : Result StorageLocation) : Prop :=
  after = before ∨ before = .ok fresh ∧ after = .ok retained

theorem Kept.refl (selection : Result StorageLocation) : Kept selection selection := Or.inl rfl

theorem Kept.trans {a b d : Result StorageLocation} (h : Kept a b) (h' : Kept b d) : Kept a d := by
  rcases h with rfl | ⟨rfl, rfl⟩
  · exact h'
  · rcases h' with rfl | ⟨hfresh, -⟩
    · exact Or.inr ⟨rfl, rfl⟩
    · cases hfresh

theorem Kept.restoredAt {g : String} {selection : Result StorageLocation}
    (h : Kept (.ok (restoredAt g)) selection) : selection = .ok (restoredAt g) := by
  rcases h with h | ⟨hfresh, -⟩
  · exact h
  · cases hfresh

/-- A file system whose files are all synced loses no content. -/
theorem Synced.steady {disk : Disk} (h : Synced disk) : Steady medium disk := by
  intro garbage
  have hfile : ∀ file : File Bytes, file.synced = true → spoilFile garbage file = file :=
    fun file hs => by rw [spoilFile, if_pos hs]
  have hselector : disk.selector.map (spoilEntry garbage) = disk.selector := by
    rcases hs : disk.selector with _ | file | _ | _
    · rfl
    · rw [Option.map_some, spoilEntry, hfile file (h.selector file hs)]
    · rfl
    · rfl
  rcases disk with ⟨selector, stores⟩
  simp only [medium, Disk.spoil, Disk.mk.injEq] at hselector ⊢
  refine ⟨hselector, ?_⟩
  rcases hs : stores with _ | file | stores | _
  · rfl
  · rw [Option.map_some]
    simp only [spoilEntry]
    rw [hfile file (h.stores file (by rw [hs]))]
  · subst hs
    rw [Option.map_some]
    refine congrArg _ (congrArg _ (Table.ext fun g => ?_))
    rw [Table.get_updateAll]
    rcases hg : stores[g]? with _ | file | entries | _
    · rfl
    · rw [Option.map_some, spoilGeneration, spoilEntry, hfile file (h.generation g file hg)]
      exact fun _ hdir => by cases hdir
    · rw [Option.map_some, spoilGeneration]
      refine congrArg _ (congrArg _ (Table.ext fun name => ?_))
      rw [Table.get_updateAll]
      rcases hname : entries[name]? with _ | file | _ | _
      · rfl
      · have hsynced : file.synced = true := by
          apply h.database g name file
          simp only [Disk.database, Disk.generation, hg, hname]
        rw [Option.map_some, spoilEntry, hfile file hsynced]
      · rfl
      · rfl
    · rfl
  · rfl

/-! ## What is read -/

theorem directory_eq_true {α : Type} {node : Option (Node α)} :
    directory node = .ok true ↔ ∃ entries, node = some (.directory entries) := by
  rcases node with _ | _ | entries | _ <;> simp [directory]

theorem directory_of_database {disk : Disk} {g name : String} {node : Node Unit}
    (h : disk.database g name = some node) :
    directory disk.stores = .ok true ∧ directory (disk.generation g) = .ok true := by
  rcases hstores : disk.stores with _ | _ | stores | _
  · simp [Disk.database, Disk.generation, hstores] at h
  · simp [Disk.database, Disk.generation, hstores] at h
  · refine ⟨rfl, ?_⟩
    rcases hg : disk.generation g with _ | _ | entries | _
    · simp [Disk.database, hg] at h
    · simp [Disk.database, hg] at h
    · rfl
    · simp [Disk.database, hg] at h
  · simp [Disk.database, Disk.generation, hstores] at h

theorem Complete.directory {platform : Platform} {disk : Disk} {g : String}
    (h : Complete platform disk g) : directory disk.stores = .ok true ∧
      StoreSelection.directory (disk.generation g) = .ok true := by
  obtain ⟨name, file, key, hdatabase, -⟩ := h
  exact directory_of_database hdatabase

theorem locate_default (disk : Disk) : locate disk "default" = .ok retained := rfl

theorem locate_of_complete {platform : Platform} {disk : Disk} {g : String}
    (hvalid : validGeneration g = true) (h : Complete platform disk g) :
    locate disk g = .ok (restoredAt g) := by
  have hne : g ≠ "default" := by
    intro hg
    rw [hg, default_not_valid] at hvalid
    cases hvalid
  obtain ⟨hstores, hgeneration⟩ := h.directory
  simp only [locate, if_neg hne, if_pos hvalid, hstores, hgeneration, ok_bind, require_of]
  rfl

/-- A location is the default store's, or that of a valid generation whose
    directory exists. -/
theorem locate_eq_ok {disk : Disk} {g : String} {location : StorageLocation}
    (h : locate disk g = .ok location) :
    (g = "default" ∧ location = retained) ∨
      (validGeneration g = true ∧ location = restoredAt g) := by
  rw [locate] at h
  by_cases hg : g = "default"
  · rw [if_pos hg] at h
    subst hg
    exact Or.inl ⟨rfl, (Except.ok.inj h).symm⟩
  · rw [if_neg hg] at h
    by_cases hvalid : validGeneration g = true
    · rw [if_pos hvalid] at h
      simp only [bind_eq_ok] at h
      obtain ⟨_, -, _, -, _, -, _, -, h⟩ := h
      exact Or.inr ⟨hvalid, (Except.ok.inj h).symm⟩
    · rw [if_neg hvalid] at h
      cases h

theorem readSelection_of_named {disk : Disk} {g : String} (h : Named disk g) :
    readSelection disk = locate disk g := by
  obtain ⟨file, hfile, hg⟩ := h
  simp only [readSelection, hfile, hg, ok_bind]

theorem readSelection_of_new {disk : Disk} (hselector : disk.selector = none)
    (hstores : disk.stores = none) : readSelection disk = .ok fresh := by
  simp only [readSelection, hselector, hstores, directory, ok_bind, require_of]
  rfl

/-- A successful reading: a new installation, or a selector whose text names the
    location. -/
theorem readSelection_eq_ok {disk : Disk} {location : StorageLocation}
    (h : readSelection disk = .ok location) :
    (¬ Anchored disk ∧ location = fresh) ∨
      ∃ g, Named disk g ∧ ((g = "default" ∧ location = retained) ∨
        (validGeneration g = true ∧ location = restoredAt g)) := by
  rcases hselector : disk.selector with _ | file | _ | _
  · rw [readSelection, hselector] at h
    simp only [bind_eq_ok, require_eq_ok, Except.ok.injEq] at h
    obtain ⟨exists_, hexists, _, hnone, rfl⟩ := h
    refine Or.inl ⟨?_, rfl⟩
    rintro (hs | hs)
    · exact hs hselector
    · rcases hstores : disk.stores with _ | _ | _ | _
      · exact hs hstores
      · simp [hstores, directory] at hexists
      · simp only [hstores, directory, Except.ok.injEq] at hexists
        rw [← hexists] at hnone
        cases hnone
      · simp [hstores, directory] at hexists
  · rw [readSelection, hselector] at h
    simp only [bind_eq_ok] at h
    obtain ⟨g, hg, hlocate⟩ := h
    exact Or.inr ⟨g, ⟨file, hselector, hg⟩, locate_eq_ok hlocate⟩
  · rw [readSelection, hselector] at h
    cases h
  · rw [readSelection, hselector] at h
    cases h

/-! ## What a commit does to the selection -/

/-- From a sound disk to a sound disk, with the selection kept or moved to a
    generation that may be selected. -/
def Safe (platform : Platform) (goal : String → Prop) (disk disk' : Disk) : Prop :=
  Sound platform disk → Sound platform disk' ∧ (Anchored disk → Anchored disk') ∧
    (Kept (readSelection disk) (readSelection disk') ∨
      ∃ g, goal g ∧ readSelection disk' = .ok (restoredAt g))

section

variable {platform : Platform} {goal : String → Prop}

theorem Safe.refl (disk : Disk) : Safe platform goal disk disk :=
  fun h => ⟨h, fun ha => ha, Or.inl (Kept.refl _)⟩

theorem Safe.trans (a b d : Disk) (h : Safe platform goal a b) (h' : Safe platform goal b d) :
    Safe platform goal a d := by
  intro ha
  obtain ⟨hb, hanchored, hread⟩ := h ha
  obtain ⟨hd, hanchored', hread'⟩ := h' hb
  refine ⟨hd, fun h => hanchored' (hanchored h), ?_⟩
  rcases hread' with hkept' | hmoved
  · rcases hread with hkept | ⟨g, hg, hmoved⟩
    · exact Or.inl (hkept.trans hkept')
    · rw [hmoved] at hkept'
      exact Or.inr ⟨g, hg, hkept'.restoredAt⟩
  · exact Or.inr hmoved

/-- Databases are only added: what was complete stays complete. -/
theorem Complete.mono {disk disk' : Disk} {g : String} (h : Complete platform disk g)
    (hkeep : ∀ name node, disk.database g name = some node → disk'.database g name = some node) :
    Complete platform disk' g := by
  obtain ⟨name, file, key, hdatabase, hopens⟩ := h
  exact ⟨name, file, key, hkeep name _ hdatabase, hopens⟩

/-- A change that leaves the selector, and every database of a named
    generation, keeps the selection. -/
theorem Safe.of_selector {disk disk' : Disk} (hselector : disk'.selector = disk.selector)
    (hsynced : Synced disk → Synced disk') (hstores : disk.stores ≠ none → disk'.stores ≠ none)
    (hkeep : ∀ g name node, Named disk g → disk.database g name = some node →
      disk'.database g name = some node)
    (hread : Sound platform disk → readSelection disk' = readSelection disk) :
    Safe platform goal disk disk' := by
  intro h
  have hnamed : ∀ g, Named disk' g → Named disk g := by
    rintro g ⟨file, hfile, hg⟩
    rw [hselector] at hfile
    exact ⟨file, hfile, hg⟩
  refine ⟨⟨hsynced h.synced, fun g hg hvalid => ?_⟩, ?_, Or.inl (Or.inl (hread h))⟩
  · exact (h.complete g (hnamed g hg) hvalid).mono fun name node => hkeep g name node (hnamed g hg)
  · rintro (hs | hs)
    · exact Or.inl (by rw [hselector]; exact hs)
    · exact Or.inr (hstores hs)

/-- The selection depends on the selector, the stores directory and the
    directory of the generation it names. -/
theorem readSelection_congr {disk disk' : Disk} (hselector : disk'.selector = disk.selector)
    (hstores : directory disk'.stores = directory disk.stores)
    (hgeneration : ∀ g, Named disk g → validGeneration g = true →
      directory (disk'.generation g) = directory (disk.generation g)) :
    readSelection disk' = readSelection disk := by
  have hlocate : ∀ g, Named disk g → locate disk' g = locate disk g := by
    intro g hg
    rw [locate, locate]
    by_cases hd : g = "default"
    · rw [if_pos hd, if_pos hd]
    · rw [if_neg hd, if_neg hd]
      by_cases hvalid : validGeneration g = true
      · rw [if_pos hvalid, if_pos hvalid, hstores, hgeneration g hg hvalid]
      · rw [if_neg hvalid, if_neg hvalid]
  rw [readSelection, readSelection, hselector, hstores]
  rcases hs : disk.selector with _ | file | _ | _
  · rfl
  · simp only
    rcases hg : parseSelection file.content with e | g
    · rfl
    · rw [ok_bind, ok_bind]
      exact hlocate g ⟨file, hs, hg⟩
  · rfl
  · rfl

/-- The anchor: the default store must exist from now on. -/
theorem safe_anchor {disk : Disk} (hselector : disk.selector = none) (hstores : disk.stores = none) :
    Safe platform goal disk
      (disk.apply (.selector ⟨asBytes (header ++ "default" ++ "\n"), true⟩)) := by
  intro h
  have hnamed : Named (disk.apply (.selector ⟨asBytes (header ++ "default" ++ "\n"), true⟩))
      "default" := ⟨_, rfl, parseSelection_text (by decide)⟩
  refine ⟨⟨?_, ?_⟩, fun _ => Or.inl (by simp [Disk.apply]), Or.inl (Or.inr ⟨?_, ?_⟩)⟩
  · refine ⟨?_, h.synced.stores, h.synced.generation, h.synced.database⟩
    intro file hfile
    cases hfile
    rfl
  · intro g hg hvalid
    rw [hg.inj hnamed, default_not_valid] at hvalid
    cases hvalid
  · exact readSelection_of_new hselector hstores
  · rw [readSelection_of_named hnamed, locate_default]

/-- An empty stores directory, once there is a selector. -/
theorem safe_createStores {disk : Disk} (hselector : disk.selector ≠ none)
    (hstores : disk.stores = none) :
    Safe platform goal disk (disk.apply .createStores) := by
  have hempty : ∀ g, (disk.apply .createStores).generation g = none := fun g =>
    ExtTreeMap.getElem?_empty
  have hnone : ∀ g, disk.generation g = none := fun g => by rw [Disk.generation, hstores]
  refine Safe.of_selector rfl ?_ (fun _ => by simp [Disk.apply]) ?_ ?_
  · intro h
    refine ⟨h.selector, ?_, ?_, ?_⟩
    · intro file hfile
      cases hfile
    · intro g file hfile
      rw [hempty g] at hfile
      cases hfile
    · intro g name file hfile
      rw [Disk.database, hempty g] at hfile
      cases hfile
  · intro g name node _ hdatabase
    rw [Disk.database, hnone g] at hdatabase
    cases hdatabase
  · intro h
    -- A selector that named a generation would have a complete database below.
    have hno : ∀ g, Named disk g → validGeneration g ≠ true := by
      intro g hg hvalid
      have hdir := (h.complete g hg hvalid).directory.1
      rw [hstores] at hdir
      cases hdir
    rw [readSelection, readSelection]
    rcases hs : disk.selector with _ | file | _ | _
    · exact absurd hs hselector
    · have hs' : (disk.apply .createStores).selector = some (.file file) := hs
      simp only [hs']
      rcases hg : parseSelection file.content with e | g
      · rfl
      · have hinvalid := hno g ⟨file, hs, hg⟩
        rw [ok_bind, ok_bind, locate, locate, if_neg hinvalid, if_neg hinvalid]
    · have hs' : (disk.apply .createStores).selector = some (.directory ()) := hs
      simp only [hs']
    · have hs' : (disk.apply .createStores).selector = some .other := hs
      simp only [hs']

theorem directory_createGeneration (disk : Disk) (g : String) :
    directory (disk.apply (.createGeneration g)).stores = directory disk.stores := by
  rcases hstores : disk.stores with _ | _ | _ | _ <;> simp [Disk.apply, hstores, directory]

/-- A new, empty generation. -/
theorem safe_createGeneration {disk : Disk} {g : String} (hnew : disk.generation g = none) :
    Safe platform goal disk (disk.apply (.createGeneration g)) := by
  have hselector : (disk.apply (.createGeneration g)).selector = disk.selector := by
    rcases hstores : disk.stores with _ | _ | _ | _ <;> simp [Disk.apply, hstores]
  have hgeneration : ∀ g', (disk.apply (.createGeneration g)).generation g' = disk.generation g' ∨
      g' = g ∧ (disk.apply (.createGeneration g)).generation g' = some (.directory ∅) := by
    intro g'
    by_cases h : ∃ stores, disk.stores = some (.directory stores)
    · obtain ⟨stores, hstores⟩ := h
      rw [Disk.generation_createGeneration hstores]
      by_cases hg : g = g'
      · exact Or.inr ⟨hg.symm, if_pos hg⟩
      · exact Or.inl (if_neg hg)
    · rw [Disk.apply_createGeneration_of_ne fun stores hs => h ⟨stores, hs⟩]
      exact Or.inl rfl
  refine Safe.of_selector hselector ?_ ?_ ?_ ?_
  · intro h
    refine ⟨by rw [hselector]; exact h.selector, ?_, ?_, ?_⟩
    · intro file hfile
      rcases hstores : disk.stores with _ | file' | _ | _
      · simp [Disk.apply, hstores] at hfile
      · simp only [Disk.apply, hstores] at hfile
        exact h.stores file (by rw [hstores, hfile])
      · simp [Disk.apply, hstores] at hfile
      · simp [Disk.apply, hstores] at hfile
    · intro g' file hfile
      rcases hgeneration g' with hg' | ⟨-, hg'⟩
      · exact h.generation g' file (by rw [← hg']; exact hfile)
      · rw [hg'] at hfile
        cases hfile
    · intro g' name file hfile
      rw [Disk.database_createGeneration hnew] at hfile
      exact h.database g' name file hfile
  · intro hne
    rcases hstores : disk.stores with _ | _ | _ | _
    · exact absurd hstores hne
    · simp [Disk.apply, hstores]
    · simp [Disk.apply, hstores]
    · simp [Disk.apply, hstores]
  · intro g' name node _ hdatabase
    rw [Disk.database_createGeneration hnew]
    exact hdatabase
  · intro h
    refine readSelection_congr hselector (directory_createGeneration disk g) ?_
    intro g' hg' hvalid
    rcases hgeneration g' with hsame | ⟨rfl, -⟩
    · rw [hsame]
    · -- The named generation exists, the new one did not.
      have hdir := (h.complete g' hg' hvalid).directory.2
      rw [hnew] at hdir
      cases hdir

/-- A restored database under a free name. -/
theorem safe_install {disk : Disk} {g name : String} {content : Bytes}
    (hfree : disk.database g name = none) :
    Safe platform goal disk (disk.apply (.install g name ⟨content, true⟩)) := by
  have hselector : (disk.apply (.install g name ⟨content, true⟩)).selector = disk.selector := by
    simp only [Disk.apply]
    split
    · split <;> rfl
    · rfl
  have hstores : directory (disk.apply (.install g name ⟨content, true⟩)).stores =
      directory disk.stores := by
    rcases hs : disk.stores with _ | _ | stores | _
    all_goals simp only [Disk.apply, hs]
    split <;> simp only [hs, directory]
  have hdatabase : ∀ g' name' node, disk.database g' name' = some node →
      (disk.apply (.install g name ⟨content, true⟩)).database g' name' = some node := by
    intro g' name' node hnode
    rw [Disk.database_install, if_neg]
    · exact hnode
    · rintro ⟨⟨rfl, rfl⟩, -⟩
      rw [hfree] at hnode
      cases hnode
  refine Safe.of_selector hselector ?_ ?_ (fun g' name' node _ => hdatabase g' name' node) ?_
  · intro h
    refine ⟨by rw [hselector]; exact h.selector, ?_, ?_, ?_⟩
    · intro file hfile
      rcases Disk.apply_install disk g name ⟨content, true⟩ with hsame | ⟨_, _, _, hnew⟩
      · exact h.stores file (by rw [← hsame]; exact hfile)
      · rw [hnew] at hfile
        cases hfile
    · intro g' file hfile
      rcases Disk.apply_install disk g name ⟨content, true⟩ with hsame | ⟨stores, entries, hs, hnew⟩
      · exact h.generation g' file (by rw [← hsame]; exact hfile)
      · apply h.generation g' file
        simp only [hnew, Disk.generation, Table.get_insert] at hfile
        simp only [Disk.generation, hs]
        by_cases hg : g = g'
        · rw [if_pos hg] at hfile
          cases hfile
        · rw [if_neg hg] at hfile
          exact hfile
    · intro g' name' file hfile
      rw [Disk.database_install] at hfile
      split at hfile
      · cases hfile
        rfl
      · exact h.database g' name' file hfile
  · intro hne hnone
    rcases Disk.apply_install disk g name ⟨content, true⟩ with hsame | ⟨_, _, _, hnew⟩
    · exact hne (by rw [← hsame]; exact hnone)
    · rw [hnew] at hnone
      cases hnone
  · intro _
    exact readSelection_congr hselector hstores fun g' _ _ =>
      Disk.directory_install disk g name _ g'

/-- The attempt's generation is selected, when its database is complete. -/
theorem safe_select {disk : Disk} {g : String} (hgoal : goal g) (hvalid : validGeneration g = true)
    (hcomplete : Complete platform disk g) :
    Safe platform goal disk
      (disk.apply (.selector ⟨asBytes (header ++ g ++ "\n"), true⟩)) := by
  intro h
  have hlength := length_of_validGeneration hvalid
  have hnamed : Named (disk.apply (.selector ⟨asBytes (header ++ g ++ "\n"), true⟩)) g :=
    ⟨_, rfl, parseSelection_text (by omega)⟩
  have hcomplete' : Complete platform
      (disk.apply (.selector ⟨asBytes (header ++ g ++ "\n"), true⟩)) g := hcomplete
  refine ⟨⟨?_, ?_⟩, fun _ => Or.inl (by simp [Disk.apply]), Or.inr ⟨g, hgoal, ?_⟩⟩
  · refine ⟨?_, h.synced.stores, h.synced.generation, h.synced.database⟩
    intro file hfile
    cases hfile
    rfl
  · intro g' hg' _
    rw [hg'.inj hnamed]
    exact hcomplete'
  · rw [readSelection_of_named hnamed, locate_of_complete hvalid hcomplete']

/-! ## Calls -/

/-- A commit's effect is what its rule for `Safe` is about. -/
theorem writeSelection_holds (generation : String) {P : Disk → Prop}
    (heffect : ∀ disk, P disk → Safe platform goal disk
      (disk.apply (.selector ⟨asBytes (header ++ generation ++ "\n"), true⟩)))
    (Q : Unit → Disk → Prop)
    (hpost : ∀ disk, P disk →
      Q () (disk.apply (.selector ⟨asBytes (header ++ generation ++ "\n"), true⟩))) :
    Program.Holds (Safe platform goal) P (writeSelection generation) Q := by
  refine Program.Holds.bind Safe.trans (Program.Holds.read Safe.refl) fun disk => ?_
  refine Program.Holds.bind Safe.trans (Program.Holds.of Safe.refl _) fun _ => ?_
  exact Program.Holds.commit Safe.refl (fun d hd => heffect d hd.2.2) fun d hd => hpost d hd.2.2

/-- Past the anchor there is a selector, or there are restored stores already. -/
theorem anchor_holds (databaseName : String) :
    Program.Holds (Safe platform goal) (fun _ => True) (anchor databaseName)
      (fun storesExist disk => Anchored disk ∧
        (storesExist = false → disk.selector ≠ none ∧ disk.stores = none)) := by
  refine Program.Holds.bind Safe.trans (Program.Holds.of Safe.refl _) fun _ => ?_
  refine Program.Holds.bind Safe.trans (Program.Holds.read Safe.refl) fun disk => ?_
  refine Program.Holds.bind Safe.trans (Program.Holds.of Safe.refl _) fun storesExist => ?_
  refine Program.Holds.bind Safe.trans (Program.Holds.read Safe.refl) fun disk' => ?_
  refine Program.Holds.bind Safe.trans (Program.Holds.of Safe.refl _) fun selected => ?_
  have hnone : ∀ {α : Type} {node : Option (Node α)}, directory node = .ok false → node = none := by
    intro α node h
    rcases node with _ | _ | _ | _
    · rfl
    all_goals simp [directory] at h
  have hmissing : ∀ {node : Option (Node Unit)}, regular node = .ok false → node = none := by
    intro node h
    rcases node with _ | _ | _ | _
    · rfl
    all_goals simp [regular] at h
  have hsome : ∀ {node : Option (Node Unit)}, regular node = .ok true → node ≠ none := by
    rintro _ h rfl
    simp [regular] at h
  refine Program.Holds.bind Safe.trans (Q := fun _ d => Anchored d ∧
    (storesExist = false → d.selector ≠ none ∧ d.stores = none)) ?_ fun _ => ?_
  · refine Program.Holds.onlyIf Safe.refl (writeSelection_holds _ ?_ _ ?_) ?_
    · rintro d ⟨hb, hselected, rfl, hexists, rfl, -⟩
      simp only [Bool.and_eq_true, Bool.not_eq_true'] at hb
      rw [hb.1] at hselected
      rw [hb.2] at hexists
      exact safe_anchor (hmissing hselected) (hnone hexists)
    · rintro d ⟨hb, hselected, rfl, hexists, rfl, -⟩
      simp only [Bool.and_eq_true, Bool.not_eq_true'] at hb
      rw [hb.2] at hexists
      have hselector : ∀ (d : Disk) file, (d.apply (.selector file)).selector ≠ none := by
        simp [Disk.apply]
      exact ⟨Or.inl (hselector _ _), fun _ => ⟨hselector _ _, hnone hexists⟩⟩
    · rintro d hb ⟨hselected, rfl, hexists, rfl, -⟩
      simp only [Bool.and_eq_false_iff, Bool.not_eq_false'] at hb
      refine ⟨?_, ?_⟩
      · rcases hb with hb | hb
        · rw [hb] at hselected
          exact Or.inl (hsome hselected)
        · rw [hb] at hexists
          obtain ⟨entries, hentries⟩ := directory_eq_true.mp hexists
          exact Or.inr (by rw [hentries]; simp)
      · intro hstores
        rw [hstores] at hexists hb
        rcases hb with hb | hb
        · rw [hb] at hselected
          exact ⟨hsome hselected, hnone hexists⟩
        · cases hb
  · exact (Program.Holds.pure Safe.refl storesExist).mono (fun _ hd => hd) fun a d h =>
      ⟨h.2.1, fun ha => h.2.2 (by rw [← h.1]; exact ha)⟩

/-- Past the anchor, `begin` keeps the selection at every point, and its
    generation has a valid name. -/
theorem allocate_holds (databaseName suffix : String) (storesExist : Bool) :
    Program.Holds (Safe platform goal)
      (fun disk => Anchored disk ∧
        (storesExist = false → disk.selector ≠ none ∧ disk.stores = none))
      (allocate databaseName suffix storesExist)
      (fun attempt _ => attempt.key = none ∧ validGeneration attempt.generation = true) := by
  refine Program.Holds.bind Safe.trans (Q := fun _ _ => True) ?_ fun _ => ?_
  · refine Program.Holds.onlyIf Safe.refl (Program.Holds.commit Safe.refl ?_ ?_) ?_
    · rintro d ⟨hb, -, hmissing⟩
      obtain ⟨hselector, hstores⟩ := hmissing (by simpa using hb)
      exact safe_createStores hselector hstores
    · exact fun _ _ => trivial
    · exact fun _ _ _ => trivial
  · refine Program.Holds.bind Safe.trans (Q := fun _ _ => True) ?_ fun generation => ?_
    · refine Program.Holds.bind Safe.trans (Program.Holds.read Safe.refl) fun disk => ?_
      refine Program.Holds.bind Safe.trans (Program.Holds.of Safe.refl _) fun _ => ?_
      refine Program.Holds.bind Safe.trans (Q := fun _ _ => True)
        (Program.Holds.commit Safe.refl ?_ fun _ _ => trivial) fun _ => ?_
      · rintro d ⟨hfree, rfl, -⟩
        simp only [require_eq_ok, Option.isNone_iff_eq_none] at hfree
        exact safe_createGeneration hfree
      · exact (Program.Holds.pure Safe.refl _).mono (fun _ hd => hd) fun _ _ _ => trivial
    · refine Program.Holds.bind Safe.trans (Program.Holds.of Safe.refl _) fun _ => ?_
      refine (Program.Holds.pure Safe.refl _).mono (fun _ hd => hd) ?_
      rintro attempt d ⟨rfl, hvalid, -⟩
      simp only [require_eq_ok] at hvalid
      exact ⟨rfl, hvalid⟩

theorem beginAt_holds (databaseName suffix : String) :
    Program.Holds (Safe platform goal) (fun _ => True) (beginAt databaseName suffix)
      (fun attempt _ => attempt.key = none ∧ validGeneration attempt.generation = true) :=
  Program.Holds.bind Safe.trans (anchor_holds databaseName)
    fun storesExist => allocate_holds databaseName suffix storesExist

/-- `restore` keeps the selection at every point. -/
theorem restore_holds (attempt : Attempt) (source : Bytes) (password : String) (key : Bytes) :
    Program.Holds (Safe platform goal) (fun _ => True)
      (restore platform attempt source password key)
      (fun attempt' _ => attempt' = { attempt with key := some key }) := by
  refine Program.Holds.bind Safe.trans (Program.Holds.of Safe.refl _) fun _ => ?_
  refine Program.Holds.bind Safe.trans (Q := fun _ _ => True) ?_ fun _ => ?_
  · refine Program.Holds.bind Safe.trans (Program.Holds.of Safe.refl _) fun _ => ?_
    refine Program.Holds.bind Safe.trans (Program.Holds.read Safe.refl) fun disk => ?_
    refine Program.Holds.bind Safe.trans (Program.Holds.of Safe.refl _) fun _ => ?_
    refine Program.Holds.bind Safe.trans (Program.Holds.read Safe.refl) fun disk' => ?_
    refine Program.Holds.bind Safe.trans (Program.Holds.of Safe.refl _) fun _ => ?_
    refine Program.Holds.bind Safe.trans (Program.Holds.of Safe.refl _) fun content => ?_
    refine Program.Holds.commit Safe.refl ?_ fun _ _ => trivial
    rintro d ⟨-, hfree, rfl, -⟩
    simp only [require_eq_ok, Option.isNone_iff_eq_none] at hfree
    exact safe_install hfree
  · exact (Program.Holds.pure Safe.refl _).mono (fun _ hd => hd) fun _ _ h => h.1

/-- A verified attempt's generation is complete. -/
theorem complete_of_verify {disk : Disk} {attempt : Attempt}
    (h : verify platform disk attempt = .ok ()) :
    Complete platform disk attempt.generation ∧ ∃ key, attempt.key = some key := by
  rw [verify] at h
  simp only [bind_eq_ok, okOr_eq_ok] at h
  obtain ⟨_, -, key, hkey, _, -, _, -, h⟩ := h
  refine ⟨?_, key, hkey⟩
  rcases hdatabase : disk.database attempt.generation attempt.databaseName with _ | file | _ | _
  · simp [hdatabase] at h
  · simp only [hdatabase, bind_eq_ok] at h
    obtain ⟨_, -, hopens⟩ := h
    exact ⟨attempt.databaseName, file, key, hdatabase, hopens⟩
  · simp [hdatabase] at h
  · simp [hdatabase] at h

/-- `activate` keeps the selection until its last commit selects the attempt's
    generation, verified before. -/
theorem activateAt_holds (attempt : Attempt) (disk : Disk)
    (hgoal : verify platform disk attempt = .ok () → goal attempt.generation)
    (hvalid : validGeneration attempt.generation = true) :
    Program.Holds (Safe platform goal) (fun d => d = disk) (activateAt platform attempt)
      (fun attempt' _ => attempt' = { attempt with key := none, activated := true }) := by
  refine Program.Holds.bind Safe.trans (Program.Holds.read Safe.refl) fun found => ?_
  refine Program.Holds.bind Safe.trans (Program.Holds.of Safe.refl _) fun _ => ?_
  refine Program.Holds.bind Safe.trans
    (Q := fun _ d => verify platform disk attempt = .ok () ∧ d = disk)
    (Program.Holds.commit Safe.refl (fun d _ => Safe.refl d) ?_) fun _ => ?_
  · rintro d ⟨hverified, rfl, rfl⟩
    exact ⟨hverified, rfl⟩
  refine Program.Holds.bind Safe.trans (Q := fun _ _ => True)
    (writeSelection_holds _ ?_ _ fun _ _ => trivial) fun _ => ?_
  · rintro d ⟨hverified, rfl⟩
    exact safe_select (hgoal hverified) hvalid (complete_of_verify hverified).1
  · exact (Program.Holds.pure Safe.refl _).mono (fun _ hd => hd) fun _ _ h => h.1

/-! ## Interrupted calls -/

/-- Wherever a call ends or is cut off, everything is on the disk, some of its
    first commits are made, and those that its fate is sure of are among them. -/
theorem perform_quiet {α : Type} {volume : Volume} {disk : Disk} (hquiet : volume.Quiet disk)
    (hsound : Sound platform disk) {call : Call α}
    (hcut : ∀ j, Safe platform goal disk (effects medium disk ((call disk).1.take j)))
    (fate : Fate) :
    ∃ j, (perform volume call fate).1.Quiet (effects medium disk ((call disk).1.take j)) ∧
      (∀ a, succeeded (perform volume call fate).2 = some a →
        (call disk).2 = .ok a ∧ (call disk).1.length ≤ j) ∧
      ∀ k, fate.passes ((call disk).1.take k) = true → k ≤ (call disk).1.length → k ≤ j := by
  have hview : volume.view medium = disk := hquiet.view_eq medium
  cases fate with
  | done =>
      simp only [perform, hview]
      refine ⟨(call disk).1.length, ?_, ?_, fun k _ hk => hk⟩
      · rw [List.take_length]
        exact execute_commits hquiet _
      · intro a ha
        rcases hanswer : (call disk).2 with e | a'
        · rw [hanswer] at ha
          cases ha
        · rw [hanswer] at ha
          cases ha
          exact ⟨rfl, Nat.le_refl _⟩
  | fails n =>
      simp only [perform, hview]
      refine ⟨n, execute_commits hquiet _, fun a ha => (by cases ha), fun k hpasses hk => ?_⟩
      simp only [Fate.passes, decide_eq_true_eq, List.length_take] at hpasses
      omega
  | crashes n kept garbage =>
      simp only [perform, hview]
      obtain ⟨j, hj, hle⟩ := crash_commits hquiet (call disk).1
        (fun j => ((hcut j) hsound).1.synced.steady) n kept garbage
      refine ⟨j, hj, fun a ha => (by cases ha), fun k hpasses hk => hle k ?_ hk⟩
      simpa only [Fate.passes, decide_eq_true_eq] using hpasses

/-- What a call's rule says of its disk, wherever it is cut off. -/
theorem perform_holds {α : Type} {volume : Volume} {disk : Disk} (hquiet : volume.Quiet disk)
    (hsound : Sound platform disk) {call : Call α} {P : Disk → Prop} {Q : α → Disk → Prop}
    (hcall : Program.Holds (Safe platform goal) P call Q) (hpre : P disk) (fate : Fate) :
    ∃ disk', (perform volume call fate).1.Quiet disk' ∧ Safe platform goal disk disk' ∧
      ∀ a, succeeded (perform volume call fate).2 = some a → Q a disk' := by
  obtain ⟨j, hj, hanswer, -⟩ := perform_quiet hquiet hsound (hcall.cut disk hpre) fate
  refine ⟨_, hj, hcall.cut disk hpre j, fun a ha => ?_⟩
  obtain ⟨hok, hlength⟩ := hanswer a ha
  rw [List.take_of_length_le hlength]
  exact hcall.post disk a hpre hok

/-- `begin` that gets past its anchor leaves the directory anchored. -/
theorem begin_anchored {volume : Volume} {disk disk' : Disk} (hquiet : volume.Quiet disk)
    (hsound : Sound platform disk) (databaseName suffix : String) (fate : Fate)
    (hdisk' : (perform volume (beginAt databaseName suffix) fate).1.Quiet disk')
    (hreached : ((anchor databaseName disk).2.isOk && fate.passes (anchor databaseName disk).1) =
      true) : Anchored disk' := by
  rw [Bool.and_eq_true] at hreached
  obtain ⟨hok, hpasses⟩ := hreached
  rcases hanswer : (anchor databaseName disk).2 with e | storesExist
  · rw [hanswer] at hok
    cases hok
  · have hcut := (@beginAt_holds platform (fun _ => False) databaseName suffix).cut disk trivial
    have hanchor := (@anchor_holds platform (fun _ => False) databaseName).post
      disk storesExist trivial hanswer
    have hcommits := Program.commits_bind (f := allocate databaseName suffix) hanswer
    obtain ⟨j, hj, -, hle⟩ := perform_quiet hquiet hsound hcut fate
    have hsame : disk' = effects medium disk ((beginAt databaseName suffix disk).1.take j) := by
      rw [← hdisk'.1, ← hj.1]
    change (beginAt databaseName suffix disk).1 = _ at hcommits
    have hlength : (anchor databaseName disk).1.length ≤ j := by
      apply hle
      · rw [hcommits, List.take_left]
        exact hpasses
      · rw [hcommits, List.length_append]
        omega
    -- What is made past the anchor starts from a directory that is anchored.
    have hmid := (hcut (anchor databaseName disk).1.length) hsound
    rw [hcommits, List.take_left] at hmid
    rw [hsame, hcommits, List.take_append, List.take_of_length_le hlength, effects_append]
    have hrest := (@allocate_holds platform (fun _ => False) databaseName suffix storesExist).cut
      _ hanchor (j - (anchor databaseName disk).1.length)
    exact (hrest hmid.1).2.1 hanchor.1

end

/-! ## Runs -/

/-- The selection the latest attempt leaves: the one before it, or its own
    generation, restored and then verified. -/
def Recovered (record : Record) (selection : Result StorageLocation) : Prop :=
  Kept record.before selection ∨
    (record.restored = true ∧ record.verified = true ∧
      ∃ g, record.generation = some g ∧ selection = .ok (restoredAt g))

/-- What holds between the calls of any run. -/
structure Inv (platform : Platform) (world : World) (disk : Disk) : Prop where
  quiet : world.volume.Quiet disk
  sound : Sound platform disk
  anchored : world.anchored = true → Anchored disk
  attempt : ∀ attempt, world.attempt = some attempt →
    validGeneration attempt.generation = true ∧ ∃ record, world.latest = some record ∧
      record.generation = some attempt.generation ∧ (attempt.key ≠ none → record.restored = true)
  latest : ∀ record, world.latest = some record → Recovered record (readSelection disk)

section

variable {platform : Platform} {world : World} {disk : Disk}

theorem Inv.selection_eq (h : Inv platform world disk) : world.selection = readSelection disk := by
  rw [World.selection, h.quiet.view_eq medium]

/-- A selection that is kept is as good for the record as the one before. -/
theorem Recovered.kept {record : Record} {selection selection' : Result StorageLocation}
    (h : Recovered record selection) (hkept : Kept selection selection') :
    Recovered record selection' := by
  rcases h with hbefore | ⟨hrestored, hverified, g, hg, rfl⟩
  · exact Or.inl (hbefore.trans hkept)
  · exact Or.inr ⟨hrestored, hverified, g, hg, hkept.restoredAt⟩

theorem Safe.kept {disk' : Disk} (h : Safe platform (fun _ => False) disk disk')
    (hsound : Sound platform disk) :
    Sound platform disk' ∧ (Anchored disk → Anchored disk') ∧
      Kept (readSelection disk) (readSelection disk') := by
  obtain ⟨hsound', hanchored, hkept | ⟨_, hfalse, -⟩⟩ := h hsound
  · exact ⟨hsound', hanchored, hkept⟩
  · exact hfalse.elim

theorem inv_begin (h : Inv platform world disk) (databaseName suffix : String) (fate : Fate) :
    ∃ disk', Inv platform (step platform world (.begin databaseName suffix fate)) disk' := by
  rcases hattempt : world.attempt with _ | attempt
  · obtain ⟨disk', hquiet, hsafe, hanswer⟩ := perform_holds h.quiet h.sound
      (@beginAt_holds platform (fun _ => False) databaseName suffix) trivial fate
    obtain ⟨hsound', hanchored, hkept⟩ := hsafe.kept h.sound
    refine ⟨disk', ?_⟩
    simp only [step, hattempt, h.quiet.view_eq medium]
    refine ⟨hquiet, hsound', ?_, ?_, ?_⟩
    · intro hflag
      rcases Bool.or_eq_true_iff.mp hflag with hbefore | hreached
      · exact hanchored (h.anchored hbefore)
      · exact begin_anchored h.quiet h.sound databaseName suffix fate hquiet hreached
    · intro attempt ha
      have ha' : succeeded (perform world.volume (beginAt databaseName suffix) fate).2 =
          some attempt := ha
      obtain ⟨hkey, hvalid⟩ := hanswer attempt ha'
      refine ⟨hvalid, _, rfl, ?_, fun hne => absurd hkey hne⟩
      rw [ha', Option.map_some]
    · intro record hrecord
      cases hrecord
      left
      simp only [h.selection_eq]
      exact hkept
  · refine ⟨disk, ?_⟩
    simp only [step, hattempt]
    exact h

theorem afterCall_eq_some {attempt attempt' : Attempt} {answer : Option (Result Attempt)}
    (h : afterCall attempt answer = some attempt') :
    succeeded answer = some attempt' ∨ succeeded answer = none ∧ attempt' = attempt := by
  rcases answer with _ | e | a
  · cases h
  · cases h
    exact Or.inr ⟨rfl, rfl⟩
  · cases h
    exact Or.inl rfl

theorem inv_restore (h : Inv platform world disk) (source : Bytes) (password : String) (key : Bytes)
    (fate : Fate) :
    ∃ disk', Inv platform (step platform world (.restore source password key fate)) disk' := by
  rcases hattempt : world.attempt with _ | attempt
  · refine ⟨disk, ?_⟩
    simp only [step, hattempt]
    exact h
  · obtain ⟨hvalid, record, hrecord, hgeneration, hrestored⟩ := h.attempt attempt hattempt
    obtain ⟨disk', hquiet, hsafe, hanswer⟩ := perform_holds h.quiet h.sound
      (@restore_holds platform (fun _ => False) attempt source password key) trivial fate
    obtain ⟨hsound', hanchored, hkept⟩ := hsafe.kept h.sound
    refine ⟨disk', ?_⟩
    simp only [step, hattempt, hrecord]
    refine ⟨hquiet, hsound', fun hflag => hanchored (h.anchored hflag), ?_, ?_⟩
    · intro attempt' ha
      rcases afterCall_eq_some ha with hok | ⟨hnone, rfl⟩
      · -- The key is kept by a restore that succeeded.
        rw [hanswer attempt' hok]
        refine ⟨hvalid, _, rfl, hgeneration, fun _ => ?_⟩
        rw [hok]
        simp
      · refine ⟨hvalid, _, rfl, hgeneration, fun hkey => ?_⟩
        show (record.restored || _) = true
        rw [hrestored hkey, Bool.true_or]
    · intro record' hrecord'
      cases hrecord'
      rcases (h.latest record hrecord).kept hkept with hbefore | ⟨hdone, hverified, hg⟩
      · exact Or.inl hbefore
      · refine Or.inr ⟨?_, hverified, hg⟩
        simp only [hdone, Bool.true_or]

theorem inv_activate (h : Inv platform world disk) (fate : Fate) :
    ∃ disk', Inv platform (step platform world (.activate fate)) disk' := by
  rcases hattempt : world.attempt with _ | attempt
  · refine ⟨disk, ?_⟩
    simp only [step, hattempt]
    exact h
  · obtain ⟨hvalid, record, hrecord, hgeneration, hrestored⟩ := h.attempt attempt hattempt
    -- The one generation that may be selected is the attempt's, if it is verified.
    obtain ⟨disk', hquiet, hsafe, hanswer⟩ := perform_holds h.quiet h.sound
      (@activateAt_holds platform
        (fun g => g = attempt.generation ∧ verify platform disk attempt = .ok ()) attempt disk
        (fun hverified => ⟨rfl, hverified⟩) hvalid) rfl fate
    obtain ⟨hsound', hanchored, hread⟩ := hsafe h.sound
    refine ⟨disk', ?_⟩
    simp only [step, hattempt, hrecord, h.quiet.view_eq medium]
    refine ⟨hquiet, hsound', fun hflag => hanchored (h.anchored hflag), ?_, ?_⟩
    · intro attempt' ha
      rcases afterCall_eq_some ha with hok | ⟨-, rfl⟩
      · rw [hanswer attempt' hok]
        exact ⟨hvalid, _, rfl, hgeneration, fun hkey => absurd rfl hkey⟩
      · exact ⟨hvalid, _, rfl, hgeneration, hrestored⟩
    · intro record' hrecord'
      cases hrecord'
      rcases hread with hkept | ⟨g, ⟨rfl, hverified⟩, hselected⟩
      · rcases (h.latest record hrecord).kept hkept with hbefore | ⟨hdone, hchecked, hg⟩
        · exact Or.inl hbefore
        · refine Or.inr ⟨hdone, ?_, hg⟩
          simp only [hchecked, Bool.true_or]
      · obtain ⟨key, hkey⟩ := (complete_of_verify hverified).2
        refine Or.inr ⟨hrestored (by rw [hkey]; simp), ?_, _, hgeneration, hselected⟩
        simp only [hverified, Except.isOk, Except.toBool, Bool.or_true]

theorem disturb_selector (disk : Disk) (g name : String) (content : Option Bytes) :
    (disk.disturb g name content).selector = disk.selector := by
  rcases hstores : disk.stores with _ | _ | stores | _
  all_goals simp only [Disk.disturb, hstores]
  split <;> rfl

theorem directory_disturb (disk : Disk) (g name : String) (content : Option Bytes) :
    directory (disk.disturb g name content).stores = directory disk.stores ∧
      ∀ g', directory ((disk.disturb g name content).generation g') =
        directory (disk.generation g') := by
  rcases hstores : disk.stores with _ | _ | stores | _
  all_goals simp only [Disk.disturb, hstores, Disk.generation, implies_true, and_self]
  rcases hg : stores[g]? with _ | _ | entries | _
  all_goals simp only [hstores, directory, implies_true, and_self, true_and]
  intro g'
  rw [Table.get_insert]
  by_cases hgg : g = g'
  · subst hgg
    rw [if_pos rfl, hg]
  · rw [if_neg hgg]

/-- Other generations are not disturbed. -/
theorem database_disturb_ne (disk : Disk) {g g' : String} (hne : g ≠ g') (name entry : String)
    (content : Option Bytes) :
    (disk.disturb g name content).database g' entry = disk.database g' entry := by
  rcases hstores : disk.stores with _ | _ | stores | _
  all_goals simp only [Disk.disturb, hstores, Disk.database, Disk.generation]
  rcases stores[g]? with _ | _ | entries | _
  all_goals simp only [hstores, Table.get_insert, if_neg hne]

theorem synced_disturb {disk : Disk} (h : Synced disk) (g name : String)
    (content : Option Bytes) : Synced (disk.disturb g name content) := by
  rcases hstores : disk.stores with _ | _ | stores | _
  all_goals simp only [Disk.disturb, hstores]
  · exact h
  · exact h
  · rcases hg : stores[g]? with _ | _ | entries | _
    · exact h
    · exact h
    · refine ⟨h.selector, fun _ hfile => (by cases hfile), ?_, ?_⟩
      · intro g' file hfile
        simp only [Disk.generation, Table.get_insert] at hfile
        by_cases hgg : g = g'
        · rw [if_pos hgg] at hfile
          cases hfile
        · rw [if_neg hgg] at hfile
          exact h.generation g' file (by simp only [Disk.generation, hstores, hfile])
      · intro g' entry file hfile
        simp only [Disk.database, Disk.generation, Table.get_insert] at hfile
        by_cases hgg : g = g'
        · subst hgg
          rw [if_pos rfl] at hfile
          have hold : ∀ file, entries[entry]? = some (.file file) → file.synced = true := by
            intro file hentry
            apply h.database g entry file
            simp only [Disk.database, Disk.generation, hstores, hg, hentry]
          rcases content with _ | content
          · simp only [Table.get_erase] at hfile
            split_ifs at hfile
            exact hold file hfile
          · simp only [Table.get_insert] at hfile
            split_ifs at hfile
            · cases hfile
              rfl
            · exact hold file hfile
        · rw [if_neg hgg] at hfile
          apply h.database g' entry file
          simp only [Disk.database, Disk.generation, hstores]
          exact hfile
    · exact h
  · exact h

theorem stores_disturb {disk : Disk} (h : disk.stores ≠ none) (g name : String)
    (content : Option Bytes) : (disk.disturb g name content).stores ≠ none := by
  rcases hstores : disk.stores with _ | _ | stores | _
  · exact absurd hstores h
  all_goals simp only [Disk.disturb, hstores]
  · exact fun hnone => by cases hnone
  · split
    · exact fun hnone => by cases hnone
    · rw [hstores]
      exact fun hnone => by cases hnone
  · exact fun hnone => by cases hnone

/-- While the selector does not name a generation, its files do not matter. -/
theorem inv_disturb (h : Inv platform world disk) (g name : String) (content : Option Bytes) :
    ∃ disk', Inv platform (step platform world (.disturb g name content)) disk' := by
  simp only [step]
  split_ifs with hnamed
  · exact ⟨disk, h⟩
  · rw [h.quiet.view_eq medium]
    have hread : readSelection (disk.disturb g name content) = readSelection disk :=
      readSelection_congr (disturb_selector disk g name content)
        (directory_disturb disk g name content).1
        fun g' _ _ => (directory_disturb disk g name content).2 g'
    have hsound : Sound platform (disk.disturb g name content) := by
      refine ⟨synced_disturb h.sound.synced g name content, ?_⟩
      rintro g' ⟨file, hfile, hg'⟩ hvalid
      rw [disturb_selector] at hfile
      have hcomplete := h.sound.complete g' ⟨file, hfile, hg'⟩ hvalid
      have hne : g ≠ g' := by
        rintro rfl
        rw [h.selection_eq, readSelection_of_named ⟨file, hfile, hg'⟩,
          locate_of_complete hvalid hcomplete] at hnamed
        exact hnamed (by simp [Except.toOption, restoredAt])
      refine hcomplete.mono fun entry node hentry => ?_
      rw [database_disturb_ne disk hne]
      exact hentry
    refine ⟨disk.disturb g name content, ⟨rfl, rfl⟩, hsound, fun hflag => ?_, h.attempt, ?_⟩
    · rcases h.anchored hflag with hs | hs
      · exact Or.inl (by rw [disturb_selector]; exact hs)
      · exact Or.inr (stores_disturb hs g name content)
    · intro record hrecord
      rw [hread]
      exact h.latest record hrecord

/-- One operation, whatever becomes of it. -/
theorem inv_step (h : Inv platform world disk) (op : Op) :
    ∃ disk', Inv platform (step platform world op) disk' := by
  cases op with
  | begin databaseName suffix fate => exact inv_begin h databaseName suffix fate
  | restore source password key fate => exact inv_restore h source password key fate
  | activate fate => exact inv_activate h fate
  | drop => exact ⟨disk, h.quiet, h.sound, h.anchored, fun _ ha => (by cases ha), h.latest⟩
  | disturb g name content => exact inv_disturb h g name content

end

/-- What the next `read_selection` may return. -/
structure SelectionSafe (platform : Platform) (world : World) : Prop where
  /-- The selection before the latest attempt or, if its restore had succeeded
      and its database was verified again, the attempt's generation. -/
  recovered : ∀ record, world.latest = some record → Recovered record world.selection
  /-- Past an anchor, never a default store that need not exist. -/
  anchored : world.anchored = true → ∀ location, world.selection = .ok location →
    location.requireExisting = true
  /-- Never a generation whose database is missing or partly restored. -/
  complete : ∀ location, world.selection = .ok location →
    location = fresh ∨ location = retained ∨
      location = restoredAt location.generation ∧
        Complete platform (world.volume.view medium) location.generation

/-- A directory whose selector is missing while restored stores exist, or does
    not hold the text of a default or valid generation, gives no store. -/
def FailsClosed (disk : Disk) : Prop :=
  (disk.selector = none → disk.stores ≠ none → ∃ e, readSelection disk = .error e) ∧
  ∀ node, disk.selector = some node →
    (∀ g synced, (g = "default" ∨ validGeneration g = true) →
      node ≠ .file ⟨asBytes (header ++ g ++ "\n"), synced⟩) →
    ∃ e, readSelection disk = .error e

/-- A selector that names a generation holds at most 65 bytes that are read, and
    among them the generation's text. -/
theorem take_of_parseSelection {content : Bytes} {generation : String}
    (h : parseSelection content = .ok generation) :
    content.take 65 = asBytes (header ++ generation ++ "\n") := by
  rw [parseSelection] at h
  simp only [bind_eq_ok, okOr_eq_ok] at h
  obtain ⟨value, hvalue, hstrip⟩ := h
  have hbytes : content.take 65 = asBytes value := by
    rw [String.fromUTF8?] at hvalue
    split_ifs at hvalue with hutf8
    rw [Option.some.injEq] at hvalue
    rw [← hvalue, asBytes]
    rfl
  have htext : value = header ++ generation ++ "\n" := by
    rw [stripSelection] at hstrip
    split_ifs at hstrip with hlead
    obtain ⟨rest, hrest⟩ := hlead
    rw [← hrest, List.drop_left] at hstrip
    simp only at hstrip
    split_ifs at hstrip with hlast
    rw [Option.some.injEq] at hstrip
    apply String.toList_inj.mp
    rw [String.toList_append, String.toList_append, ← hstrip, String.toList_ofList, ← hrest,
      List.append_assoc]
    congr 1
    exact (List.dropLast_append_getLast? _ hlast).symm
  rw [hbytes, htext]

/-- The text of a default or valid generation is shorter than what is read. -/
theorem content_of_parseSelection {content : Bytes} {generation : String}
    (h : parseSelection content = .ok generation)
    (hvalid : generation = "default" ∨ validGeneration generation = true) :
    content = asBytes (header ++ generation ++ "\n") := by
  have htake := take_of_parseSelection h
  have hheader : (asBytes header).length = 16 := by decide
  have hnewline : (asBytes "\n").length = 1 := by decide
  have hgeneration : (asBytes generation).length ≤ 22 := by
    rcases hvalid with rfl | hvalid
    · decide
    · exact (length_of_validGeneration hvalid).le
  have hlength : (content.take 65).length ≤ 39 := by
    rw [htake, length_asBytes_append, length_asBytes_append]
    omega
  rw [List.length_take] at hlength
  rw [← htake, List.take_of_length_le (by omega)]

theorem failsClosed (disk : Disk) : FailsClosed disk := by
  constructor
  · intro hselector hstores
    refine exists_error_of_ne_ok fun location hlocation => ?_
    rcases readSelection_eq_ok hlocation with ⟨hno, -⟩ | ⟨g, ⟨file, hfile, -⟩, -⟩
    · exact hno (Or.inr hstores)
    · rw [hselector] at hfile
      cases hfile
  · intro node hnode hmalformed
    refine exists_error_of_ne_ok fun location hlocation => ?_
    rcases readSelection_eq_ok hlocation with ⟨hno, -⟩ | ⟨g, ⟨file, hfile, hg⟩, hlocated⟩
    · exact hno (Or.inl (by rw [hnode]; simp))
    · rw [hnode, Option.some.injEq] at hfile
      have hvalid : g = "default" ∨ validGeneration g = true :=
        hlocated.imp (fun h => h.1) fun h => h.1
      apply hmalformed g file.synced hvalid
      rw [hfile, ← content_of_parseSelection hg hvalid]

/-! ## A first recovery -/

/-- A platform whose database files start with their key. -/
def keyedPlatform : Platform where
  restored source _ key := .ok (key ++ source)
  openProtected content key := require (key <+: content) .storageLocked

theorem sound_new (platform : Platform) : Sound platform { selector := none, stores := none } where
  synced := by
    constructor <;> (intros; simp_all [Disk.generation, Disk.database])
  complete g hg _ := by
    obtain ⟨file, hfile, -⟩ := hg
    cases hfile

/-- A new installation, a killed first attempt, and one that runs to its end. -/
def firstRecovery : List Op :=
  [.begin "wallet.sqlite" "0000000000000001" (.crashes 3 [true] []),
   .begin "wallet.sqlite" "0000000000000002" .done,
   .restore [1, 2, 3] "password" (List.replicate 32 7) .done,
   .activate .done]

/-- It ends with the second attempt's generation. -/
example : (Transition.run (step keyedPlatform)
    { volume := ⟨{ selector := none, stores := none }, [], none⟩ } firstRecovery).selection =
      .ok (restoredAt "store-0000000000000002") := by decide

end StoreSelection

end Tundra
