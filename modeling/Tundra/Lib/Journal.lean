/-
  Tundra.Lib.Journal

  Crash safety of a file system whose directory entries and file contents reach
  the disk only when they are synced.  A `Volume` is what is on the disk and the
  changes of entries that may still be lost; a power loss keeps any of them, in
  their order, and spoils the contents that were not synced.  A `Commit` is a
  group of steps that ends with the sync of its directory: wherever it is cut
  off, the disk afterwards is the one before it or the one after it
  (`crash_commit`), and a list of commits leaves what some of its first commits
  made (`crash_commits`).
-/

import Mathlib.Tactic.Common
import Mathlib.Tactic.IntervalCases

namespace Journal

/-- A regular file, and whether its content has reached the disk. -/
structure File (φ : Type _) where
  content : φ
  synced : Bool

/-- A file system: what a change of directory entries does to it, the directory
    the change belongs to, and what a power loss makes of contents that are not
    synced. -/
structure Medium (φ σ ε κ : Type _) where
  apply : σ → ε → σ
  home : ε → κ
  spoil : φ → σ → σ

/-- The disk, the changes of entries that are not on it yet (oldest first), and
    the temporary file being written. -/
structure Volume (φ σ ε : Type _) where
  durable : σ
  pending : List ε
  temp : Option (File φ)

/-- One file-system step. -/
inductive Step (φ ε κ : Type _) where
  /-- Write a new temporary file. -/
  | write (content : φ)
  /-- Sync the temporary file. -/
  | syncFile
  /-- Rename the temporary file to its place. -/
  | rename (place : File φ → ε)
  /-- Another change of entries. -/
  | change (e : ε)
  /-- Sync a directory. -/
  | syncDirectory (k : κ)

variable {φ σ ε κ : Type _} (m : Medium φ σ ε κ)

namespace Volume

/-- What the running system sees. -/
def view (v : Volume φ σ ε) : σ := v.pending.foldl m.apply v.durable

/-- One step. -/
def step [DecidableEq κ] (v : Volume φ σ ε) : Step φ ε κ → Volume φ σ ε
  | .write content => { v with temp := some ⟨content, false⟩ }
  | .syncFile => { v with temp := v.temp.map fun file => { file with synced := true } }
  | .rename place =>
      match v.temp with
      | some file => { v with pending := v.pending ++ [place file], temp := none }
      | none => v
  | .change e => { v with pending := v.pending ++ [e] }
  | .syncDirectory k =>
      { v with
        durable := (v.pending.filter fun e => m.home e = k).foldl m.apply v.durable
        pending := v.pending.filter fun e => m.home e ≠ k }

def execute [DecidableEq κ] (v : Volume φ σ ε) (steps : List (Step φ ε κ)) : Volume φ σ ε :=
  steps.foldl (step m) v

/-- The changes that a power loss keeps; one without a mark is lost. -/
def survivors : List Bool → List ε → List ε
  | true :: kept, e :: pending => e :: survivors kept pending
  | false :: kept, _ :: pending => survivors kept pending
  | _, _ => []

/-- A power loss. -/
def crash (v : Volume φ σ ε) (kept : List Bool) (garbage : φ) : Volume φ σ ε where
  durable := m.spoil garbage ((survivors kept v.pending).foldl m.apply v.durable)
  pending := []
  temp := none

/-- Everything is on the disk, and the disk is `d`. -/
def Quiet (v : Volume φ σ ε) (d : σ) : Prop := v.durable = d ∧ v.pending = []

theorem Quiet.view_eq {v : Volume φ σ ε} {d : σ} (h : v.Quiet d) : v.view m = d := by
  obtain ⟨rfl, hpending⟩ := h
  rw [view, hpending, List.foldl_nil]

theorem execute_append [DecidableEq κ] (v : Volume φ σ ε) (steps steps' : List (Step φ ε κ)) :
    v.execute m (steps ++ steps') = (v.execute m steps).execute m steps' :=
  List.foldl_append ..

end Volume

/-- A disk without contents that a power loss would spoil. -/
def Steady (d : σ) : Prop := ∀ garbage, m.spoil garbage d = d

/-- A group of steps that changes at most one entry and then syncs it. -/
inductive Commit (φ ε κ : Type _) where
  /-- A synced file under its name. -/
  | replace (content : φ) (place : File φ → ε)
  /-- A new entry. -/
  | make (e : ε)
  /-- Only a sync. -/
  | barrier (k : κ)

namespace Commit

/-- The steps of a commit, in their order. -/
def steps : Commit φ ε κ → List (Step φ ε κ)
  | replace content place =>
      [.write content, .syncFile, .rename place, .syncDirectory (m.home (place ⟨content, true⟩))]
  | make e => [.change e, .syncDirectory (m.home e)]
  | barrier k => [.syncDirectory k]

/-- What a finished commit leaves on the disk. -/
def effect (d : σ) : Commit φ ε κ → σ
  | replace content place => m.apply d (place ⟨content, true⟩)
  | make e => m.apply d e
  | barrier _ => d

end Commit

/-- The steps of several commits. -/
def steps (commits : List (Commit φ ε κ)) : List (Step φ ε κ) := commits.flatMap (·.steps m)

/-- What several finished commits leave on the disk. -/
def effects (d : σ) (commits : List (Commit φ ε κ)) : σ := commits.foldl (Commit.effect m) d

@[simp] theorem effects_nil (d : σ) : effects m d ([] : List (Commit φ ε κ)) = d := rfl

@[simp] theorem effects_cons (d : σ) (commit : Commit φ ε κ) (commits : List (Commit φ ε κ)) :
    effects m d (commit :: commits) = effects m (commit.effect m d) commits := rfl

theorem effects_append (d : σ) (commits commits' : List (Commit φ ε κ)) :
    effects m d (commits ++ commits') = effects m (effects m d commits) commits' :=
  List.foldl_append ..

section

variable {m} [DecidableEq κ]

/-- A commit that is not cut off leaves its effect, all of it on the disk. -/
theorem execute_commit {v : Volume φ σ ε} {d : σ} (hv : v.Quiet d) (commit : Commit φ ε κ) :
    (v.execute m (commit.steps m)).Quiet (commit.effect m d) := by
  obtain ⟨rfl, hpending⟩ := hv
  cases commit <;>
    simp [Volume.execute, Volume.step, Commit.steps, Commit.effect, Volume.Quiet, hpending]

theorem execute_commits {v : Volume φ σ ε} {d : σ} (hv : v.Quiet d)
    (commits : List (Commit φ ε κ)) :
    (v.execute m (steps m commits)).Quiet (effects m d commits) := by
  induction commits generalizing v d with
  | nil => exact hv
  | cons commit commits ih =>
      have hsteps : steps m (commit :: commits) = commit.steps m ++ steps m commits :=
        List.flatMap_cons
      rw [hsteps, Volume.execute_append, effects_cons]
      exact ih (execute_commit hv commit)

end

section

variable {m}

/-- One change may survive or not. -/
theorem survivors_singleton (kept : List Bool) (e : ε) :
    Volume.survivors kept [e] = [] ∨ Volume.survivors kept [e] = [e] := by
  rcases kept with _ | ⟨_ | _, kept⟩
  · exact Or.inl rfl
  · left
    cases kept <;> simp [Volume.survivors]
  · right
    cases kept <;> simp [Volume.survivors]

/-- What survives is some of what was on its way, in its order. -/
theorem survivors_sublist (kept : List Bool) (pending : List ε) :
    (Volume.survivors kept pending).Sublist pending := by
  induction pending generalizing kept with
  | nil =>
      have hnil : Volume.survivors kept ([] : List ε) = [] := by
        rcases kept with _ | ⟨_ | _, _⟩ <;> rfl
      exact List.sublist_nil.mpr hnil
  | cons e pending ih =>
      rcases kept with _ | ⟨_ | _, kept⟩
      · exact List.nil_sublist _
      · exact (ih kept).cons e
      · exact (ih kept).cons_cons e

/-- A power loss on a volume that waits for one change at most. -/
theorem crash_pending {v : Volume φ σ ε} {d d' : σ} (hdurable : v.durable = d)
    (hpending : v.pending = [] ∨ ∃ e, v.pending = [e] ∧ m.apply d e = d') (hd : Steady m d)
    (hd' : Steady m d') (kept : List Bool) (garbage : φ) :
    (v.crash m kept garbage).Quiet d ∨ (v.crash m kept garbage).Quiet d' := by
  rcases hpending with hnone | ⟨e, hone, heffect⟩
  · left
    refine ⟨?_, rfl⟩
    have hkept : Volume.survivors kept v.pending = [] := by
      rw [hnone]
      rcases kept with _ | ⟨_ | _, _⟩ <;> rfl
    simp only [Volume.crash, hkept, List.foldl_nil, hdurable]
    exact hd garbage
  · rcases survivors_singleton kept e with hkept | hkept
    · left
      refine ⟨?_, rfl⟩
      simp only [Volume.crash, hone, hkept, List.foldl_nil, hdurable]
      exact hd garbage
    · right
      refine ⟨?_, rfl⟩
      simp only [Volume.crash, hone, hkept, List.foldl_cons, List.foldl_nil, hdurable, heffect]
      exact hd' garbage

variable [DecidableEq κ]

/-- Wherever a commit is cut off, a power loss leaves the disk before it or the
    disk after it. -/
theorem crash_commit {v : Volume φ σ ε} {d : σ} (hv : v.Quiet d) (commit : Commit φ ε κ)
    (hd : Steady m d) (hd' : Steady m (commit.effect m d)) (n : Nat) (kept : List Bool)
    (garbage : φ) :
    ((v.execute m ((commit.steps m).take n)).crash m kept garbage).Quiet d ∨
      ((v.execute m ((commit.steps m).take n)).crash m kept garbage).Quiet
        (commit.effect m d) := by
  -- Past the last step nothing is pending; before it, the change is or is not.
  by_cases hn : (commit.steps m).length ≤ n
  · rw [List.take_of_length_le hn]
    obtain ⟨hdurable, hpending⟩ := execute_commit hv commit
    rcases crash_pending hdurable (Or.inl hpending) hd' hd' kept garbage with h | h
    · exact Or.inr h
    · exact Or.inr h
  · obtain ⟨rfl, hpending⟩ := hv
    refine crash_pending ?_ ?_ hd hd' kept garbage
    · cases commit <;> simp only [Commit.steps, List.length_cons, List.length_nil] at hn
      · interval_cases n <;> simp [Volume.execute, Volume.step, Commit.steps]
      · interval_cases n <;> simp [Volume.execute, Volume.step, Commit.steps]
      · interval_cases n
        simp [Volume.execute]
    · cases commit <;> simp only [Commit.steps, List.length_cons, List.length_nil] at hn
      · interval_cases n <;>
          simp [Volume.execute, Volume.step, Commit.steps, Commit.effect, hpending]
      · interval_cases n <;>
          simp [Volume.execute, Volume.step, Commit.steps, Commit.effect, hpending]
      · interval_cases n
        simp [Volume.execute, hpending]

/-- Wherever a list of commits is cut off, a power loss leaves what some of its
    first commits made. -/
theorem crash_commits {v : Volume φ σ ε} {d : σ} (hv : v.Quiet d)
    (commits : List (Commit φ ε κ)) (hsteady : ∀ j, Steady m (effects m d (commits.take j)))
    (n : Nat) (kept : List Bool) (garbage : φ) :
    ∃ j, ((v.execute m ((steps m commits).take n)).crash m kept garbage).Quiet
        (effects m d (commits.take j)) ∧
      ∀ k, (steps m (commits.take k)).length ≤ n → k ≤ commits.length → k ≤ j := by
  induction commits generalizing v d n with
  | nil =>
      refine ⟨0, ?_, fun k _ hk => hk⟩
      rw [steps, List.flatMap_nil, List.take_nil]
      rcases crash_pending hv.1 (Or.inl hv.2) (hsteady 0) (hsteady 0) kept garbage with h | h
      · exact h
      · exact h
  | cons commit commits ih =>
      have hsteps : steps m (commit :: commits) = commit.steps m ++ steps m commits :=
        List.flatMap_cons
      have hfirst : Steady m (commit.effect m d) := by simpa using hsteady 1
      by_cases hn : (commit.steps m).length ≤ n
      · -- The first commit is finished: the rest starts from its effect.
        obtain ⟨j, hquiet, hle⟩ := ih (execute_commit hv commit)
          (fun j => by simpa using hsteady (j + 1)) (n - (commit.steps m).length)
        refine ⟨j + 1, ?_, ?_⟩
        · rw [hsteps, List.take_append, List.take_of_length_le hn, Volume.execute_append,
            List.take_succ_cons, effects_cons]
          exact hquiet
        · intro k hk hlength
          cases k with
          | zero => omega
          | succ k =>
              rw [List.take_succ_cons, steps, List.flatMap_cons, List.length_append] at hk
              have hrest : (steps m (commits.take k)).length ≤ n - (commit.steps m).length := by
                rw [steps]
                omega
              have hkj := hle k hrest (by simpa using hlength)
              omega
      · have htake : (steps m (commit :: commits)).take n = (commit.steps m).take n := by
          rw [hsteps, List.take_append_of_le_length (by omega)]
        have hzero : ∀ k, (steps m ((commit :: commits).take k)).length ≤ n → k = 0 := by
          intro k hk
          cases k with
          | zero => rfl
          | succ k =>
              rw [List.take_succ_cons, steps, List.flatMap_cons, List.length_append] at hk
              omega
        rw [htake]
        rcases crash_commit hv commit (hsteady 0) hfirst n kept garbage with h | h
        · exact ⟨0, h, fun k hk _ => (hzero k hk).le⟩
        · exact ⟨1, h, fun k hk _ => by rw [hzero k hk]; omega⟩

end

/-! ## Programs of commits -/

section

variable {φ σ ε κ error : Type} (m : Medium φ σ ε κ)

/-- A program: the commits it makes, in their order, and its answer, on the disk
    as it finds it. -/
def Program (_ : Medium φ σ ε κ) (error α : Type) := σ → List (Commit φ ε κ) × Except error α

namespace Program

variable {α β : Type}

def read : Program m error σ := fun d => ([], .ok d)

def of (answer : Except error α) : Program m error α := fun _ => ([], answer)

def commit (c : Commit φ ε κ) : Program m error Unit := fun _ => ([c], .ok ())

/-- The second program sees what the first one's commits made. -/
def bind (program : Program m error α) (f : α → Program m error β) : Program m error β := fun d =>
  match program d with
  | (commits, .error e) => (commits, .error e)
  | (commits, .ok a) =>
      let next := f a (effects m d commits)
      (commits ++ next.1, next.2)

instance : Monad (Program m error) where
  pure a := of m (.ok a)
  bind := bind m

def onlyIf (b : Bool) (program : Program m error Unit) : Program m error Unit :=
  if b then program else pure ()

variable {m}

/-- From a disk that satisfies `P`, every point at which the program can be cut
    off is related to its start, and its answer satisfies `Q`. -/
structure Holds (R : σ → σ → Prop) (P : σ → Prop) (program : Program m error α)
    (Q : α → σ → Prop) : Prop where
  cut : ∀ d, P d → ∀ j, R d (effects m d ((program d).1.take j))
  post : ∀ d a, P d → (program d).2 = .ok a → Q a (effects m d (program d).1)

variable {R : σ → σ → Prop} {P P' : σ → Prop} {Q Q' : α → σ → Prop}

/-- The rule of consequence. -/
theorem Holds.mono {program : Program m error α} (h : Holds R P program Q)
    (hpre : ∀ d, P' d → P d) (hpost : ∀ a d, Q a d → Q' a d) : Holds R P' program Q' where
  cut d hd := h.cut d (hpre d hd)
  post d a hd ha := hpost a _ (h.post d a (hpre d hd) ha)

/-- Reading changes nothing. -/
theorem Holds.read (hrefl : ∀ d, R d d) :
    Holds R P (Program.read m : Program m error σ) (fun a d => a = d ∧ P d) where
  cut d _ j := by
    simp only [Program.read, List.take_nil, effects_nil]
    exact hrefl d
  post d a hd ha := by
    cases ha
    exact ⟨rfl, hd⟩

/-- A check changes nothing. -/
theorem Holds.of (hrefl : ∀ d, R d d) (answer : Except error α) :
    Holds R P (Program.of m answer) (fun a d => answer = .ok a ∧ P d) where
  cut d _ j := by
    simp only [Program.of, List.take_nil, effects_nil]
    exact hrefl d
  post d a hd ha := ⟨ha, hd⟩

theorem Holds.pure (hrefl : ∀ d, R d d) (a : α) :
    Holds R P (pure a : Program m error α) (fun a' d => a' = a ∧ P d) :=
  (Holds.of hrefl (.ok a)).mono (fun _ hd => hd) fun _ _ h =>
    ⟨(Except.ok.inj h.1).symm, h.2⟩

/-- One commit: its effect is related to the disk before it. -/
theorem Holds.commit (hrefl : ∀ d, R d d) {c : Commit φ ε κ} {Q : Unit → σ → Prop}
    (heffect : ∀ d, P d → R d (c.effect m d)) (hpost : ∀ d, P d → Q () (c.effect m d)) :
    Holds R P (Program.commit m c : Program m error Unit) Q where
  cut d hd j := by
    cases j with
    | zero => exact hrefl d
    | succ j =>
        simp only [Program.commit, List.take_succ_cons, List.take_nil, effects_cons, effects_nil]
        exact heffect d hd
  post d _ hd _ := hpost d hd

/-- Sequencing, for a transitive relation. -/
theorem Holds.bind (htrans : ∀ d d' d'', R d d' → R d' d'' → R d d'')
    {program : Program m error α} {f : α → Program m error β} {S : β → σ → Prop}
    (h : Holds R P program Q) (hf : ∀ a, Holds R (Q a) (f a) S) :
    Holds R P (program >>= f) S where
  cut d hd j := by
    have hrel := h.cut d hd
    have hpost := fun a => h.post d a hd
    change R d (effects m d ((Program.bind m program f d).1.take j))
    rcases hrun : program d with ⟨commits, e | a⟩
    · simp only [Program.bind, hrun] at hrel ⊢
      exact hrel j
    · simp only [Program.bind, hrun] at hrel hpost ⊢
      rw [List.take_append, effects_append]
      by_cases hj : j ≤ commits.length
      · rw [Nat.sub_eq_zero_of_le hj, List.take_zero, effects_nil]
        exact hrel j
      · have hall : commits.take j = commits := List.take_of_length_le (by omega)
        have hfirst := hrel j
        rw [hall] at hfirst ⊢
        exact htrans _ _ _ hfirst ((hf a).cut _ (hpost a rfl) _)
  post d b hd hb := by
    have hpost := fun a => h.post d a hd
    change (Program.bind m program f d).2 = .ok b at hb
    change S b (effects m d (Program.bind m program f d).1)
    rcases hrun : program d with ⟨commits, e | a⟩
    · simp only [Program.bind, hrun] at hb
      cases hb
    · simp only [Program.bind, hrun] at hb hpost ⊢
      rw [effects_append]
      exact (hf a).post _ b (hpost a rfl) hb

theorem Holds.onlyIf (hrefl : ∀ d, R d d) {b : Bool} {program : Program m error Unit}
    {Q : Unit → σ → Prop} (h : Holds R (fun d => b = true ∧ P d) program Q)
    (hskip : ∀ d, b = false → P d → Q () d) : Holds R P (Program.onlyIf m b program) Q := by
  cases b with
  | true => exact h.mono (fun _ hd => ⟨rfl, hd⟩) fun _ _ hq => hq
  | false => exact (Holds.pure hrefl ()).mono (fun _ hd => hd) fun _ d hd => hskip d rfl hd.2

/-! ### Programs that succeed -/

/-- From `d` the program answers `a` and leaves `d'`, and wherever it is cut off
    the disk satisfies `P`. -/
def Makes (P : σ → Prop) (d : σ) (program : Program m error α) (a : α) (d' : σ) : Prop :=
  ∃ commits, program d = (commits, .ok a) ∧ effects m d commits = d' ∧
    ∀ j, P (effects m d (commits.take j))

variable {d d' d'' : σ} {a : α} {b : β} {program : Program m error α} {f : α → Program m error β}

theorem Makes.mono (h : Makes P d program a d') (hP : ∀ d, P d → P' d) :
    Makes P' d program a d' := by
  obtain ⟨commits, hrun, hafter, hcut⟩ := h
  exact ⟨commits, hrun, hafter, fun j => hP _ (hcut j)⟩

/-- Only what the program does on this disk matters. -/
theorem Makes.congr {program' : Program m error α} (hrun : program d = program' d)
    (h : Makes P d program' a d') : Makes P d program a d' := by
  rw [Makes, hrun]
  exact h

theorem Makes.of (hd : P d) (a : α) : Makes P d (Program.of m (.ok a) : Program m error α) a d :=
  ⟨[], rfl, rfl, fun j => by rw [List.take_nil, effects_nil]; exact hd⟩

theorem Makes.pure (hd : P d) (a : α) : Makes P d (pure a : Program m error α) a d :=
  Makes.of hd a

/-- What is read is the disk. -/
theorem Makes.read {f : σ → Program m error β} (h : Makes P d (f d) b d') :
    Makes P d (Program.read m >>= f) b d' := h

theorem Makes.commit {c : Commit φ ε κ} (hd : P d) (hc : P (c.effect m d)) :
    Makes P d (Program.commit m c : Program m error Unit) () (c.effect m d) := by
  refine ⟨[c], rfl, rfl, fun j => ?_⟩
  cases j with
  | zero => exact hd
  | succ j =>
      rw [List.take_succ_cons, List.take_nil, effects_cons, effects_nil]
      exact hc

theorem Makes.bind (h : Makes P d program a d') (hf : Makes P d' (f a) b d'') :
    Makes P d (program >>= f) b d'' := by
  obtain ⟨commits, hrun, rfl, hcut⟩ := h
  obtain ⟨commits', hrun', rfl, hcut'⟩ := hf
  refine ⟨commits ++ commits', ?_, effects_append .., fun j => ?_⟩
  · change Program.bind m program f d = _
    simp only [Program.bind, hrun, hrun']
  · rw [List.take_append, effects_append]
    by_cases hj : j ≤ commits.length
    · rw [Nat.sub_eq_zero_of_le hj, List.take_zero, effects_nil]
      exact hcut j
    · have hall : commits.take j = commits := List.take_of_length_le (by omega)
      rw [hall]
      exact hcut' _

/-- Nothing is made after an error. -/
theorem bind_eq_error {e : error} {commits : List (Commit φ ε κ)}
    (h : program d = (commits, .error e)) (f : α → Program m error β) :
    (program >>= f) d = (commits, .error e) := by
  change Program.bind m program f d = _
  simp only [Program.bind, h]

theorem Makes.onlyIf {c : Bool} {program : Program m error Unit} (hd : P d)
    (h : c = true → Makes P d program () d') (hskip : c = false → d' = d) :
    Makes P d (Program.onlyIf m c program) () d' := by
  cases c with
  | true => exact h rfl
  | false =>
      rw [hskip rfl]
      exact Makes.pure hd ()

theorem read_bind (f : σ → Program m error β) (d : σ) : (Program.read m >>= f) d = f d d := rfl

theorem of_ok_bind (a : α) (f : α → Program m error β) (d : σ) :
    (Program.of m (.ok a) >>= f) d = f a d := rfl

theorem of_error_bind (e : error) (f : α → Program m error β) (d : σ) :
    (Program.of m (.error e) >>= f) d = ([], .error e) := rfl

/-- The answer of a check and what follows it. -/
theorem of_bind_answer {answer : Except error α} {f : α → Program m error β} {d : σ} {b : β} :
    ((Program.of m answer >>= f) d).2 = .ok b ↔ ∃ a, answer = .ok a ∧ (f a d).2 = .ok b := by
  cases answer with
  | error e =>
      rw [of_error_bind]
      simp
  | ok a =>
      rw [of_ok_bind]
      simp

theorem commit_bind (c : Commit φ ε κ) (f : Unit → Program m error β) (d : σ) :
    (Program.commit m c >>= f) d =
      (c :: (f () (c.effect m d)).1, (f () (c.effect m d)).2) := rfl

/-- Of two programs in sequence, the first one's commits come first. -/
theorem commits_bind {program : Program m error α} {f : α → Program m error β} {d : σ} {a : α}
    (ha : (program d).2 = .ok a) :
    ((program >>= f) d).1 = (program d).1 ++ (f a (effects m d (program d).1)).1 := by
  change (Program.bind m program f d).1 = _
  rcases hrun : program d with ⟨commits, e | a'⟩
  · rw [hrun] at ha
    cases ha
  · rw [hrun] at ha
    cases ha
    simp only [Program.bind, hrun]

/-- The commits of a sequence start with those of its first program. -/
theorem prefix_commits_bind (program : Program m error α) (f : α → Program m error β) (d : σ) :
    (program d).1 <+: ((program >>= f) d).1 := by
  change _ <+: (Program.bind m program f d).1
  rcases hrun : program d with ⟨commits, e | a⟩
  · simp only [Program.bind, hrun, List.prefix_rfl]
  · simp only [Program.bind, hrun]
    exact List.prefix_append ..

end Program

end

end Journal
