/-
  Tundra.SyncProtocol

  The protocol between the callers of the sync operations and their workers.
  One invariant (`Inv`) ties the table of operations to the workers and to the
  committed transactions, and one relation (`Moves`) says what a step may do to
  an operation: nothing leaves a terminal phase.  Both follow from the two ways a
  step changes the core, a worker's stage and an operation's entry.
-/

import Tundra.Operations
import Mathlib.Data.List.Induction

namespace Tundra
namespace Operations

open Checked Relational Sync

variable {State Wallet Scan : Type} {env : Env State Wallet Scan}

/-- A worker that may still commit. -/
def Stage.active : Stage Scan → Bool
  | taken _ | scanning _ | scanned _ _ => true
  | _ => false

structure Inv (core : Core State Scan) : Prop where
  /-- Operations, workers and commits have numbers that were given out. -/
  entryBound : ∀ (id : Nat) (op : Operation), core.entries[id]? = some op → id ≤ core.nextOperation
  workerBound : ∀ (w : Nat) (worker : Worker Scan), core.workers[w]? = some worker →
    worker.operation ≤ core.nextOperation ∧ w < core.nextWorker
  committedBound : ∀ id ∈ core.committed, id ≤ core.nextOperation
  /-- A snapshot waits only in a prepared operation, which no worker has run. -/
  pending : ∀ (id : Nat) (op : Operation), core.entries[id]? = some op → op.pending ≠ none →
    op.progress.phase = .prepared ∧
      ∀ (w : Nat) (worker : Worker Scan), core.workers[w]? = some worker → worker.operation ≠ id
  single : ∀ (w w' : Nat) (worker worker' : Worker Scan), core.workers[w]? = some worker →
    core.workers[w']? = some worker' → worker.operation = worker'.operation → w = w'
  /-- The operation of an active worker is scanning, cancelled, or gone. -/
  active : ∀ (w : Nat) (worker : Worker Scan) (op : Operation),
    core.workers[w]? = some worker → worker.stage.active = true →
    core.entries[worker.operation]? = some op →
    op.progress.phase = .scanning ∨ op.progress.phase = .cancelled
  wallet : ∀ (id id' : Nat) (op op' : Operation),
    core.entries[id]? = some op → core.entries[id']? = some op' →
    op.progress.phase.terminal = false → op'.progress.phase.terminal = false →
    op.progress.walletId = op'.progress.walletId → id = id'
  committed : ∀ (id : Nat) (op : Operation), core.entries[id]? = some op →
    (id ∈ core.committed ↔ op.progress.phase = .complete)

/-- What a step may do to the operations and the committed transactions. -/
structure Moves (core core' : Core State Scan) : Prop where
  next : core.nextOperation ≤ core'.nextOperation
  entry : ∀ (id : Nat) (op' : Operation), core'.entries[id]? = some op' → core.nextOperation < id ∨
    ∃ op : Operation, core.entries[id]? = some op ∧
      (op.progress.phase.terminal = true → op'.progress.phase = op.progress.phase)
  committed : ∀ id, id ∈ core'.committed → id ∈ core.committed ∨ core'.phase id = some .complete
  kept : ∀ id ∈ core.committed, id ∈ core'.committed

theorem Moves.refl (core : Core State Scan) : Moves core core where
  next := Nat.le_refl _
  entry _ op' h := Or.inr ⟨op', h, fun _ => rfl⟩
  committed _ h := Or.inl h
  kept _ h := h

theorem inv_start (world : System.World State) : Inv ({ world } : Core State Scan) where
  entryBound _ _ h := by simp at h
  workerBound _ _ h := by simp at h
  committedBound _ h := by cases h
  pending _ _ h := by simp at h
  single _ _ _ _ h := by simp at h
  active _ _ _ h := by simp at h
  wallet _ _ _ _ h := by simp at h
  committed _ _ h := by simp at h

section

variable {core core' : Core State Scan}

/-- Nothing of the protocol depends on the store or on the calls in preparation. -/
theorem Inv.congr (h : Inv core) (hentries : core'.entries = core.entries)
    (hworkers : core'.workers = core.workers) (hnext : core.nextOperation ≤ core'.nextOperation)
    (hnextWorker : core'.nextWorker = core.nextWorker)
    (hcommitted : core'.committed = core.committed) : Inv core' := by
  constructor
  · rw [hentries]
    exact fun id op hop => (h.entryBound id op hop).trans hnext
  · rw [hworkers, hnextWorker]
    intro w worker hw
    obtain ⟨hop, hlt⟩ := h.workerBound w worker hw
    exact ⟨hop.trans hnext, hlt⟩
  · rw [hcommitted]
    exact fun id hid => (h.committedBound id hid).trans hnext
  · rw [hentries, hworkers]
    exact h.pending
  · rw [hworkers]
    exact h.single
  · rw [hentries, hworkers]
    exact h.active
  · rw [hentries]
    exact h.wallet
  · rw [hentries, hcommitted]
    exact h.committed

theorem Moves.congr (hentries : core'.entries = core.entries)
    (hnext : core.nextOperation ≤ core'.nextOperation)
    (hcommitted : core'.committed = core.committed) : Moves core core' where
  next := hnext
  entry id op' hop := Or.inr ⟨op', by rw [← hentries]; exact hop, fun _ => rfl⟩
  committed id hid := Or.inl (by rw [← hcommitted]; exact hid)
  kept id hid := by rw [hcommitted]; exact hid

/-- A worker goes on: an active stage follows an active stage. -/
theorem Inv.setStage (h : Inv core) {w : Nat} {worker : Worker Scan} {stage : Stage Scan}
    (hworker : core.workers[w]? = some worker)
    (hactive : stage.active = true → worker.stage.active = true) :
    Inv (core.setStage w worker stage) := by
  have hget : ∀ (w' : Nat) (worker' : Worker Scan),
      (core.setStage w worker stage).workers[w']? = some worker' →
      ∃ old : Worker Scan, core.workers[w']? = some old ∧ old.operation = worker'.operation ∧
        (worker'.stage.active = true → old.stage.active = true) := by
    intro w' worker' hw'
    simp only [Core.setStage, Table.get_insert] at hw'
    by_cases hww : w = w'
    · subst hww
      rw [if_pos rfl, Option.some.injEq] at hw'
      subst hw'
      exact ⟨worker, hworker, rfl, hactive⟩
    · rw [if_neg hww] at hw'
      exact ⟨worker', hw', rfl, fun ha => ha⟩
  constructor
  · exact h.entryBound
  · intro w' worker' hw'
    obtain ⟨old, hold, hop, -⟩ := hget w' worker' hw'
    have hbound := h.workerBound w' old hold
    rw [hop] at hbound
    exact hbound
  · exact h.committedBound
  · intro id op hop hpending
    obtain ⟨hphase, hno⟩ := h.pending id op hop hpending
    refine ⟨hphase, fun w' worker' hw' => ?_⟩
    obtain ⟨old, hold, hsame, -⟩ := hget w' worker' hw'
    rw [← hsame]
    exact hno w' old hold
  · intro w₁ w₂ worker₁ worker₂ h₁ h₂ hsame
    obtain ⟨old₁, hold₁, hop₁, -⟩ := hget w₁ worker₁ h₁
    obtain ⟨old₂, hold₂, hop₂, -⟩ := hget w₂ worker₂ h₂
    exact h.single w₁ w₂ old₁ old₂ hold₁ hold₂ (by rw [hop₁, hop₂, hsame])
  · intro w' worker' op hw' ha hop
    obtain ⟨old, hold, hsame, hold'⟩ := hget w' worker' hw'
    exact h.active w' old op hold (hold' ha) (by rw [hsame]; exact hop)
  · exact h.wallet
  · exact h.committed

theorem Moves.setStage (w : Nat) (worker : Worker Scan) (stage : Stage Scan) :
    Moves core (core.setStage w worker stage) :=
  Moves.congr rfl (Nat.le_refl _) rfl

/-- An operation that is not over yet gets a new entry. -/
structure Entered (core core' : Core State Scan) (id : Nat) (op op' : Operation) : Prop where
  entries : core'.entries = core.entries.insert id op'
  workers : core'.workers = core.workers
  next : core'.nextOperation = core.nextOperation
  nextWorker : core'.nextWorker = core.nextWorker
  committed : core'.committed =
    if op'.progress.phase = .complete then id :: core.committed else core.committed
  old : core.entries[id]? = some op
  walletId : op'.progress.walletId = op.progress.walletId
  running : op.progress.phase.terminal = false
  pending : op'.pending = none ∨ op'.pending = op.pending ∧ op'.progress.phase = op.progress.phase
  active : ∀ (w : Nat) (worker : Worker Scan),
    core.workers[w]? = some worker → worker.operation = id →
    worker.stage.active = true →
    op'.progress.phase = .scanning ∨ op'.progress.phase = .cancelled

theorem Entered.get {id : Nat} {op op' : Operation} (he : Entered core core' id op op')
    {id' : Nat} {entry : Operation} (hentry : core'.entries[id']? = some entry) :
    (id' = id ∧ entry = op') ∨ (id' ≠ id ∧ core.entries[id']? = some entry) := by
  rw [he.entries, Table.get_insert] at hentry
  by_cases hid : id = id'
  · rw [if_pos hid, Option.some.injEq] at hentry
    exact Or.inl ⟨hid.symm, hentry.symm⟩
  · rw [if_neg hid] at hentry
    exact Or.inr ⟨fun h => hid h.symm, hentry⟩

theorem Inv.enter (h : Inv core) {id : Nat} {op op' : Operation}
    (he : Entered core core' id op op') : Inv core' := by
  have hfresh : id ∉ core.committed := by
    intro hid
    have hphase := (h.committed id op he.old).mp hid
    have hrunning := he.running
    rw [hphase] at hrunning
    cases hrunning
  constructor
  · intro id' entry hentry
    rw [he.next]
    rcases he.get hentry with ⟨rfl, -⟩ | ⟨-, hold⟩
    · exact h.entryBound id' op he.old
    · exact h.entryBound id' entry hold
  · rw [he.workers, he.next, he.nextWorker]
    exact h.workerBound
  · intro id' hid'
    rw [he.committed] at hid'
    rw [he.next]
    split_ifs at hid'
    · rcases List.mem_cons.mp hid' with rfl | hid'
      · exact h.entryBound id' op he.old
      · exact h.committedBound id' hid'
    · exact h.committedBound id' hid'
  · intro id' entry hentry hpending
    rw [he.workers]
    rcases he.get hentry with ⟨rfl, rfl⟩ | ⟨-, hold⟩
    · rcases he.pending with hnone | ⟨hsame, hphase⟩
      · exact absurd hnone hpending
      · rw [hsame] at hpending
        rw [hphase]
        exact h.pending id' op he.old hpending
    · exact h.pending id' entry hold hpending
  · rw [he.workers]
    exact h.single
  · intro w worker entry hw ha hentry
    rw [he.workers] at hw
    rcases he.get hentry with ⟨hid, rfl⟩ | ⟨-, hold⟩
    · exact he.active w worker hw hid ha
    · exact h.active w worker entry hw ha hold
  · -- An operation that is not over was not over before the step.
    have hback : ∀ (id' : Nat) (entry : Operation), core'.entries[id']? = some entry →
        entry.progress.phase.terminal = false → ∃ old : Operation, core.entries[id']? = some old ∧
          old.progress.phase.terminal = false ∧ old.progress.walletId = entry.progress.walletId := by
      intro id' entry hentry hterm
      rcases he.get hentry with ⟨rfl, rfl⟩ | ⟨-, hold⟩
      · exact ⟨op, he.old, he.running, he.walletId.symm⟩
      · exact ⟨entry, hold, hterm, rfl⟩
    intro id₁ id₂ op₁ op₂ h₁ h₂ ht₁ ht₂ hwallet
    obtain ⟨old₁, hold₁, hr₁, hw₁⟩ := hback id₁ op₁ h₁ ht₁
    obtain ⟨old₂, hold₂, hr₂, hw₂⟩ := hback id₂ op₂ h₂ ht₂
    exact h.wallet id₁ id₂ old₁ old₂ hold₁ hold₂ hr₁ hr₂ (by rw [hw₁, hw₂, hwallet])
  · intro id' entry hentry
    rw [he.committed]
    rcases he.get hentry with ⟨rfl, rfl⟩ | ⟨hne, hold⟩
    · by_cases hcomplete : entry.progress.phase = .complete
      · rw [if_pos hcomplete]
        exact ⟨fun _ => hcomplete, fun _ => List.mem_cons_self⟩
      · rw [if_neg hcomplete]
        exact ⟨fun hid => absurd hid hfresh, fun hphase => absurd hphase hcomplete⟩
    · rw [← h.committed id' entry hold]
      split_ifs
      · exact ⟨fun hid => (List.mem_cons.mp hid).resolve_left hne, List.mem_cons_of_mem _⟩
      · exact Iff.rfl

theorem Moves.enter {id : Nat} {op op' : Operation} (he : Entered core core' id op op') :
    Moves core core' where
  next := he.next.ge
  entry id' entry hentry := by
    right
    rcases he.get hentry with ⟨rfl, rfl⟩ | ⟨-, hold⟩
    · refine ⟨op, he.old, fun hterm => ?_⟩
      rw [he.running] at hterm
      cases hterm
    · exact ⟨entry, hold, fun _ => rfl⟩
  committed id' hid' := by
    rw [he.committed] at hid'
    split_ifs at hid' with hcomplete
    · rcases List.mem_cons.mp hid' with rfl | hid'
      · right
        rw [Core.phase, he.entries, Table.get_insert_self, Option.map_some, hcomplete]
      · exact Or.inl hid'
    · exact Or.inl hid'
  kept id' hid' := by
    rw [he.committed]
    split_ifs
    · exact List.mem_cons_of_mem _ hid'
    · exact hid'

theorem Moves.trans {core₁ core₂ core₃ : Core State Scan} (h : Moves core₁ core₂)
    (hsame : core₂.committed = core₁.committed) (h' : Moves core₂ core₃) : Moves core₁ core₃ where
  next := h.next.trans h'.next
  entry id op hop := by
    rcases h'.entry id op hop with hnew | ⟨op₂, hop₂, hkeep₂⟩
    · exact Or.inl (Nat.lt_of_le_of_lt h.next hnew)
    · rcases h.entry id op₂ hop₂ with hnew | ⟨op₁, hop₁, hkeep₁⟩
      · exact Or.inl hnew
      · refine Or.inr ⟨op₁, hop₁, fun hterm => ?_⟩
        have hphase := hkeep₁ hterm
        rw [hkeep₂ (by rw [hphase]; exact hterm), hphase]
  committed id hid := by
    rw [← hsame]
    exact h'.committed id hid
  kept id hid := h'.kept id (h.kept id hid)

/-! ## Pruning and preparing -/

/-- Pruning drops finished operations and keeps the others. -/
theorem entries_prune {id : Nat} {op : Operation} (hop : core.prune.entries[id]? = some op) :
    core.entries[id]? = some op := by
  rw [Core.prune] at hop
  split_ifs at hop
  · exact (Table.get_deleteWhere_eq_some.mp hop).1
  · exact hop

theorem committed_prune : core.prune.committed = core.committed := by
  rw [Core.prune]
  split_ifs <;> rfl

theorem workers_prune : core.prune.workers = core.workers := by
  rw [Core.prune]
  split_ifs <;> rfl

theorem next_prune : core.prune.nextOperation = core.nextOperation ∧
    core.prune.nextWorker = core.nextWorker := by
  rw [Core.prune]
  split_ifs <;> exact ⟨rfl, rfl⟩

theorem inv_prune (h : Inv core) : Inv core.prune := by
  constructor
  · rw [next_prune.1]
    exact fun id op hop => h.entryBound id op (entries_prune hop)
  · rw [next_prune.1, next_prune.2, workers_prune]
    exact h.workerBound
  · rw [committed_prune, next_prune.1]
    exact h.committedBound
  · rw [workers_prune]
    exact fun id op hop => h.pending id op (entries_prune hop)
  · rw [workers_prune]
    exact h.single
  · rw [workers_prune]
    exact fun w worker op hw ha hop => h.active w worker op hw ha (entries_prune hop)
  · exact fun id id' op op' hop hop' =>
      h.wallet id id' op op' (entries_prune hop) (entries_prune hop')
  · rw [committed_prune]
    exact fun id op hop => h.committed id op (entries_prune hop)

theorem moves_prune : Moves core core.prune where
  next := next_prune.1.ge
  entry _ op hop := Or.inr ⟨op, entries_prune hop, fun _ => rfl⟩
  committed id hid := Or.inl (by rw [← committed_prune]; exact hid)
  kept id hid := by rw [committed_prune]; exact hid

/-- A new operation, of a wallet without one that is not over. -/
theorem inv_prepared (h : Inv core) {walletId : String} {snapshot : Snapshot}
    (hbusy : ∀ (id : Nat) (op : Operation), core.entries[id]? = some op →
      op.progress.phase.terminal = false → op.progress.walletId ≠ walletId) :
    Inv { core with
      entries := core.entries.insert (core.nextOperation + 1)
        { progress := { id := core.nextOperation + 1, walletId, phase := .prepared }
          pending := some snapshot }
      nextOperation := core.nextOperation + 1 } := by
  have hget : ∀ (id : Nat) (op : Operation),
      (core.entries.insert (core.nextOperation + 1)
        { progress := { id := core.nextOperation + 1, walletId, phase := .prepared }
          pending := some snapshot })[id]? = some op →
      (id = core.nextOperation + 1 ∧ op.progress.phase = .prepared ∧
        op.progress.walletId = walletId) ∨ core.entries[id]? = some op := by
    intro id op hop
    rw [Table.get_insert] at hop
    by_cases hid : core.nextOperation + 1 = id
    · rw [if_pos hid, Option.some.injEq] at hop
      subst hop
      exact Or.inl ⟨hid.symm, rfl, rfl⟩
    · rw [if_neg hid] at hop
      exact Or.inr hop
  constructor
  · intro id op hop
    rcases hget id op hop with ⟨rfl, -⟩ | hold
    · exact Nat.le_refl _
    · exact (h.entryBound id op hold).trans (Nat.le_succ _)
  · intro w worker hw
    obtain ⟨hop, hlt⟩ := h.workerBound w worker hw
    exact ⟨hop.trans (Nat.le_succ _), hlt⟩
  · exact fun id hid => (h.committedBound id hid).trans (Nat.le_succ _)
  · intro id op hop hpending
    rcases hget id op hop with ⟨rfl, hphase, -⟩ | hold
    · refine ⟨hphase, fun w worker hw hsame => ?_⟩
      have hbound := (h.workerBound w worker hw).1
      omega
    · exact h.pending id op hold hpending
  · exact h.single
  · intro w worker op hw ha hop
    rcases hget worker.operation op hop with ⟨hid, -⟩ | hold
    · have hbound := (h.workerBound w worker hw).1
      omega
    · exact h.active w worker op hw ha hold
  · intro id id' op op' hop hop' hterm hterm' hwallet
    rcases hget id op hop with ⟨rfl, -, hw⟩ | hold
    · rcases hget id' op' hop' with ⟨rfl, -⟩ | hold'
      · rfl
      · exact absurd (hwallet.symm.trans hw) (hbusy id' op' hold' hterm')
    · rcases hget id' op' hop' with ⟨rfl, -, hw'⟩ | hold'
      · exact absurd (hwallet.trans hw') (hbusy id op hold hterm)
      · exact h.wallet id id' op op' hold hold' hterm hterm' hwallet
  · intro id op hop
    rcases hget id op hop with ⟨rfl, hphase, -⟩ | hold
    · rw [hphase]
      refine ⟨fun hid => ?_, fun hcomplete => by cases hcomplete⟩
      have hbound := h.committedBound _ hid
      omega
    · exact h.committed id op hold

theorem moves_prepared {op : Operation} :
    Moves core { core with
      entries := core.entries.insert (core.nextOperation + 1) op
      nextOperation := core.nextOperation + 1 } where
  next := Nat.le_succ _
  entry id op' hop := by
    simp only [Table.get_insert] at hop
    by_cases hid : core.nextOperation + 1 = id
    · exact Or.inl (by omega)
    · rw [if_neg hid] at hop
      exact Or.inr ⟨op', hop, fun _ => rfl⟩
  committed _ hid := Or.inl hid
  kept _ hid := hid

theorem prepareEntry_ok (h : Inv core) (id : String) (snapshot : Snapshot) :
    Inv (core.prepareEntry id snapshot).1 ∧ Moves core (core.prepareEntry id snapshot).1 := by
  rw [Core.prepareEntry]
  split_ifs with hbusy
  · exact ⟨h, Moves.refl core⟩
  · have hfree : ∀ (id' : Nat) (op : Operation), core.prune.entries[id']? = some op →
        op.progress.phase.terminal = false → op.progress.walletId ≠ id := by
      intro id' op hop hterm hwallet
      apply hbusy
      refine Table.anyRow_eq_true.mpr ⟨id', op, entries_prune hop, ?_⟩
      simp [hwallet, hterm]
    simp only
    split_ifs
    · exact ⟨inv_prune h, moves_prune⟩
    · exact ⟨inv_prepared (inv_prune h) hfree, moves_prune.trans committed_prune moves_prepared⟩
    · exact ⟨inv_prune h, moves_prune⟩

/-! ## The callers' steps -/

theorem cancelSync_ok (h : Inv core) (id : Nat) :
    Inv (core.cancelSync id).1 ∧ Moves core (core.cancelSync id).1 := by
  rw [Core.cancelSync]
  rcases hop : core.entries[id]? with _ | op
  · exact ⟨h, Moves.refl core⟩
  · simp only
    by_cases hterm : op.progress.phase.terminal = true
    · rw [if_pos hterm]
      exact ⟨h, Moves.refl core⟩
    · rw [if_neg hterm]
      have he : Entered core { core with
          entries := core.entries.insert id
            { progress := { op.progress with phase := .cancelled }, pending := none } } id op
          { progress := { op.progress with phase := .cancelled }, pending := none } :=
        { entries := rfl, workers := rfl, next := rfl, nextWorker := rfl, committed := rfl
          old := hop, walletId := rfl, running := Bool.eq_false_iff.mpr hterm
          pending := Or.inl rfl, active := fun _ _ _ _ _ => Or.inr rfl }
      exact ⟨h.enter he, Moves.enter he⟩

/-- A run takes the snapshot, so no second worker can start. -/
theorem runSync_ok (h : Inv core) (id : Nat) :
    Inv (core.runSync id).1 ∧ Moves core (core.runSync id).1 := by
  rw [Core.runSync]
  rcases hop : core.entries[id]? with _ | op
  · exact ⟨h, Moves.refl core⟩
  · simp only
    by_cases hcancelled : op.progress.phase = .cancelled
    · rw [if_pos hcancelled]
      exact ⟨h, Moves.refl core⟩
    · rw [if_neg hcancelled]
      rcases hpending : op.pending with _ | snapshot
      · exact ⟨h, Moves.refl core⟩
      · obtain ⟨hphase, hno⟩ := h.pending id op hop (by rw [hpending]; simp)
        have he : Entered core { core with
            entries := core.entries.insert id
              { progress := { op.progress with phase := .scanning }, pending := none } } id op
            { progress := { op.progress with phase := .scanning }, pending := none } :=
          { entries := rfl, workers := rfl, next := rfl, nextWorker := rfl, committed := rfl
            old := hop, walletId := rfl, running := by rw [hphase]; rfl
            pending := Or.inl rfl, active := fun _ _ _ _ _ => Or.inl rfl }
        have hinv := h.enter he
        refine ⟨?_, (Moves.enter he).trans rfl (Moves.congr rfl (Nat.le_refl _) rfl)⟩
        have hget : ∀ (w : Nat) (worker : Worker Scan),
            (core.workers.insert core.nextWorker
              { operation := id, stage := .taken snapshot })[w]? = some worker →
            (w = core.nextWorker ∧ worker.operation = id) ∨ core.workers[w]? = some worker := by
          intro w worker hw
          rw [Table.get_insert] at hw
          by_cases hww : core.nextWorker = w
          · rw [if_pos hww, Option.some.injEq] at hw
            subst hw
            exact Or.inl ⟨hww.symm, rfl⟩
          · rw [if_neg hww] at hw
            exact Or.inr hw
        constructor
        · exact hinv.entryBound
        · intro w worker hw
          rcases hget w worker hw with ⟨rfl, hid⟩ | hold
          · rw [hid]
            exact ⟨h.entryBound id op hop, Nat.lt_succ_self _⟩
          · obtain ⟨hbound, hlt⟩ := h.workerBound w worker hold
            exact ⟨hbound, hlt.trans (Nat.lt_succ_self _)⟩
        · exact hinv.committedBound
        · intro id' entry hentry hwaiting
          obtain ⟨hprepared, hfree⟩ := hinv.pending id' entry hentry hwaiting
          refine ⟨hprepared, fun w worker hw hsame => ?_⟩
          rcases hget w worker hw with ⟨-, hid⟩ | hold
          · rcases he.get hentry with ⟨-, rfl⟩ | ⟨hne, -⟩
            · exact hwaiting rfl
            · exact hne (hsame.symm.trans hid)
          · exact hfree w worker hold hsame
        · intro w₁ w₂ worker₁ worker₂ h₁ h₂ hsame
          rcases hget w₁ worker₁ h₁ with ⟨rfl, hid₁⟩ | hold₁
          · rcases hget w₂ worker₂ h₂ with ⟨rfl, -⟩ | hold₂
            · rfl
            · exact absurd (hsame.symm.trans hid₁) (hno w₂ worker₂ hold₂)
          · rcases hget w₂ worker₂ h₂ with ⟨rfl, hid₂⟩ | hold₂
            · exact absurd (hsame.trans hid₂) (hno w₁ worker₁ hold₁)
            · exact h.single w₁ w₂ worker₁ worker₂ hold₁ hold₂ hsame
        · intro w worker entry hw ha hentry
          rcases hget w worker hw with ⟨-, hid⟩ | hold
          · rcases he.get hentry with ⟨-, rfl⟩ | ⟨hne, -⟩
            · exact Or.inl rfl
            · exact absurd hid hne
          · exact hinv.active w worker entry hold ha hentry
        · exact hinv.wallet
        · exact hinv.committed

/-! ## The workers' steps -/

theorem spawn_ok (h : Inv core) (w : Nat) (spawned : Bool) :
    Inv (core.spawn w spawned) ∧ Moves core (core.spawn w spawned) := by
  rw [Core.spawn]
  rcases hw : core.workers[w]? with _ | worker
  · exact ⟨h, Moves.refl core⟩
  · simp only
    rcases hstage : worker.stage with snapshot | _ | _ | _ | _ | _
    · exact ⟨h.setStage hw fun _ => by rw [hstage]; rfl, Moves.setStage w worker _⟩
    all_goals exact ⟨h, Moves.refl core⟩

theorem endScan_ok (h : Inv core) (w : Nat) (result : Result Scan) :
    Inv (core.endScan w result) ∧ Moves core (core.endScan w result) := by
  rw [Core.endScan]
  rcases hw : core.workers[w]? with _ | worker
  · exact ⟨h, Moves.refl core⟩
  · simp only
    rcases hstage : worker.stage with _ | _ | snapshot | _ | _ | _
    case scanning =>
      exact ⟨h.setStage hw fun _ => by rw [hstage]; rfl, Moves.setStage w worker _⟩
    all_goals exact ⟨h, Moves.refl core⟩

theorem abandon_ok (h : Inv core) (w : Nat) :
    Inv (core.abandon w) ∧ Moves core (core.abandon w) := by
  rw [Core.abandon]
  rcases hw : core.workers[w]? with _ | worker
  · exact ⟨h, Moves.refl core⟩
  · simp only
    rcases hstage : worker.stage with _ | _ | _ | _ | _ | _
    case unspawned =>
      have hdone : Inv (core.setStage w worker .done) := h.setStage hw fun ha => by cases ha
      obtain ⟨hinv, hmoves⟩ := cancelSync_ok hdone worker.operation
      exact ⟨hinv, (Moves.setStage w worker .done).trans rfl hmoves⟩
    all_goals exact ⟨h, Moves.refl core⟩

/-- The operation of an active worker, unless cancelled, is still running. -/
theorem Inv.running (h : Inv core) {w : Nat} {worker : Worker Scan} {op : Operation}
    (hw : core.workers[w]? = some worker) (ha : worker.stage.active = true)
    (hop : core.entries[worker.operation]? = some op) (hnot : op.progress.phase ≠ .cancelled) :
    op.progress.phase = .scanning ∧ op.pending = none := by
  refine ⟨(h.active w worker op hw ha hop).resolve_right hnot, ?_⟩
  by_contra hwaiting
  exact (h.pending _ op hop hwaiting).2 w worker hw rfl

theorem poll_ok (h : Inv core) (w : Nat) : Inv (core.poll w) ∧ Moves core (core.poll w) := by
  rw [Core.poll]
  rcases hw : core.workers[w]? with _ | worker
  · exact ⟨h, Moves.refl core⟩
  · simp only
    rcases hstage : worker.stage with _ | _ | snapshot | _ | _ | _
    case scanning =>
      simp only
      rcases hop : core.entries[worker.operation]? with _ | op
      · exact ⟨h.setStage hw (fun ha => by cases ha), Moves.setStage w worker _⟩
      · simp only
        by_cases hcancelled : op.progress.phase = .cancelled
        · rw [if_pos hcancelled]
          exact ⟨h.setStage hw (fun ha => by cases ha), Moves.setStage w worker _⟩
        · rw [if_neg hcancelled]
          have ha : worker.stage.active = true := by rw [hstage]; rfl
          obtain ⟨hphase, hnone⟩ := h.running hw ha hop hcancelled
          have he : Entered core { core with
              entries := core.entries.insert worker.operation
                { op with progress :=
                  { op.progress with scannedScripts := op.progress.scannedScripts + 1 } } }
              worker.operation op
              { op with progress :=
                { op.progress with scannedScripts := op.progress.scannedScripts + 1 } } :=
            { entries := rfl, workers := rfl, next := rfl, nextWorker := rfl
              committed := by rw [hphase]; rfl
              old := hop, walletId := rfl, running := by rw [hphase]; rfl
              pending := Or.inr ⟨rfl, rfl⟩, active := fun _ _ _ _ _ => Or.inl hphase }
          exact ⟨h.enter he, Moves.enter he⟩
    all_goals exact ⟨h, Moves.refl core⟩

/-- The last phase of a worker's operation: its worker is not active any more. -/
theorem entered_last (h : Inv core) {w : Nat} {worker : Worker Scan} {op : Operation}
    (stage : Stage Scan) (progress : SyncProgress) (core' : Core State Scan)
    (hw : core.workers[w]? = some worker) (hstage : stage.active = false)
    (hop : core.entries[worker.operation]? = some op)
    (hrunning : op.progress.phase.terminal = false)
    (hwallet : progress.walletId = op.progress.walletId)
    (hentries : core'.entries = core.entries.insert worker.operation { op with progress })
    (hworkers : core'.workers = (core.setStage w worker stage).workers)
    (hnext : core'.nextOperation = core.nextOperation)
    (hnextWorker : core'.nextWorker = core.nextWorker)
    (hcommitted : core'.committed =
      if progress.phase = .complete then worker.operation :: core.committed else core.committed) :
    Entered (core.setStage w worker stage) core' worker.operation op { op with progress } where
  entries := hentries
  workers := hworkers
  next := hnext
  nextWorker := hnextWorker
  committed := hcommitted
  old := hop
  walletId := hwallet
  running := hrunning
  pending := by
    left
    by_contra hwaiting
    exact (h.pending _ op hop hwaiting).2 w worker hw rfl
  active w' worker' hw' hsame ha := by
    simp only [Core.setStage, Table.get_insert] at hw'
    by_cases hww : w = w'
    · rw [if_pos hww, Option.some.injEq] at hw'
      subst hw'
      rw [hstage] at ha
      cases ha
    · rw [if_neg hww] at hw'
      exact absurd (h.single w w' worker worker' hw hw' hsame.symm) hww

theorem apply_ok (h : Inv core) (w now : Nat) (commits : Bool) :
    Inv (core.apply env w now commits) ∧ Moves core (core.apply env w now commits) := by
  rw [Core.apply]
  rcases hw : core.workers[w]? with _ | worker
  · exact ⟨h, Moves.refl core⟩
  · simp only
    rcases hstage : worker.stage with _ | _ | _ | ⟨snapshot, scan⟩ | _ | _
    case scanned =>
      simp only
      rcases hop : core.entries[worker.operation]? with _ | op
      · exact ⟨h.setStage hw (fun ha => by cases ha), Moves.setStage w worker _⟩
      · simp only
        by_cases hcancelled : op.progress.phase = .cancelled
        · rw [if_pos hcancelled]
          exact ⟨h.setStage hw (fun ha => by cases ha), Moves.setStage w worker _⟩
        · rw [if_neg hcancelled]
          have ha : worker.stage.active = true := by rw [hstage]; rfl
          obtain ⟨hphase, -⟩ := h.running hw ha hop hcancelled
          have hrunning : op.progress.phase.terminal = false := by rw [hphase]; rfl
          rcases commitSync env core.world.db op.progress.walletId snapshot scan now with
            e | ⟨_, db⟩
          · have hfailing : Inv (core.setStage w worker (.failing e)) :=
              h.setStage hw fun ha => by cases ha
            have he := entered_last h (.failing e) { op.progress with phase := .applying }
              { core.setStage w worker (.failing e) with
                entries := core.entries.insert worker.operation
                  { op with progress := { op.progress with phase := .applying } } }
              hw rfl hop hrunning rfl rfl rfl rfl rfl rfl
            exact ⟨hfailing.enter he, (Moves.setStage w worker _).trans rfl (Moves.enter he)⟩
          · cases commits with
            | false =>
                have hfailing : Inv (core.setStage w worker (.failing .storage)) :=
                  h.setStage hw fun ha => by cases ha
                have he := entered_last h (.failing .storage)
                  { op.progress with phase := .applying }
                  { core.setStage w worker (.failing .storage) with
                    entries := core.entries.insert worker.operation
                      { op with progress := { op.progress with phase := .applying } } }
                  hw rfl hop hrunning rfl rfl rfl rfl rfl rfl
                exact ⟨hfailing.enter he, (Moves.setStage w worker _).trans rfl (Moves.enter he)⟩
            | true =>
                have hdone : Inv (core.setStage w worker .done) :=
                  h.setStage hw fun ha => by cases ha
                have he := entered_last h .done { op.progress with phase := .complete }
                  { core.setStage w worker .done with
                    world := { core.world with db }
                    entries := core.entries.insert worker.operation
                      { op with progress := { op.progress with phase := .complete } }
                    committed := worker.operation :: core.committed }
                  hw rfl hop hrunning rfl rfl rfl rfl rfl rfl
                exact ⟨hdone.enter he, (Moves.setStage w worker _).trans rfl (Moves.enter he)⟩
    all_goals exact ⟨h, Moves.refl core⟩

theorem report_ok (h : Inv core) (w : Nat) : Inv (core.report w) ∧ Moves core (core.report w) := by
  rw [Core.report]
  rcases hw : core.workers[w]? with _ | worker
  · exact ⟨h, Moves.refl core⟩
  · simp only
    rcases hstage : worker.stage with _ | _ | _ | _ | error | _
    case failing =>
      have hdone : Inv (core.setStage w worker .done) := h.setStage hw fun ha => by cases ha
      have hmoves : Moves core (core.setStage w worker .done) := Moves.setStage w worker .done
      have hsame : (core.setStage w worker .done).entries = core.entries := rfl
      simp only [hsame]
      rcases hop : core.entries[worker.operation]? with _ | op
      · exact ⟨hdone, hmoves⟩
      · simp only
        by_cases hterm : op.progress.phase.terminal = true
        · rw [if_pos hterm]
          exact ⟨hdone, hmoves⟩
        · rw [if_neg hterm]
          have hphase : (if error = .cancelled then SyncPhase.cancelled else .failed) ≠ .complete := by
            split_ifs <;> simp
          have he := entered_last h .done
            { op.progress with
              phase := if error = .cancelled then SyncPhase.cancelled else .failed
              error := some error }
            { core.setStage w worker .done with
              entries := core.entries.insert worker.operation
                { op with progress :=
                  { op.progress with
                    phase := if error = .cancelled then SyncPhase.cancelled else .failed
                    error := some error } } }
            hw rfl hop (Bool.eq_false_iff.mpr hterm) rfl rfl rfl rfl rfl (if_neg hphase).symm
          exact ⟨hdone.enter he, hmoves.trans rfl (Moves.enter he)⟩
    all_goals exact ⟨h, Moves.refl core⟩

variable (env)

/-- One step keeps the invariant and moves operations forward only. -/
theorem step_ok (h : Inv core) (op : Op Scan) :
    Inv (step env core op) ∧ Moves core (step env core op) := by
  cases op with
  | prepareSnapshot caller id source consent =>
      simp only [step, Core.prepareSnapshot]
      split
      · exact ⟨h.congr rfl rfl (Nat.le_refl _) rfl rfl, Moves.congr rfl (Nat.le_refl _) rfl⟩
      · exact ⟨h, Moves.refl core⟩
  | prepareEntry caller =>
      simp only [step]
      split
      · rename_i id snapshot hcaller
        have hcore : Inv { core with preparing := core.preparing.erase caller } :=
          h.congr rfl rfl (Nat.le_refl _) rfl rfl
        have hstart : Moves core { core with preparing := core.preparing.erase caller } :=
          Moves.congr rfl (Nat.le_refl _) rfl
        obtain ⟨hinv, hmoves⟩ := prepareEntry_ok hcore id snapshot
        exact ⟨hinv, hstart.trans rfl hmoves⟩
      · exact ⟨h, Moves.refl core⟩
  | runSync id => exact runSync_ok h id
  | cancelSync id => exact cancelSync_ok h id
  | syncProgress id => exact ⟨h, Moves.refl core⟩
  | spawn w spawned => exact spawn_ok h w spawned
  | abandon w => exact abandon_ok h w
  | poll w => exact poll_ok h w
  | endScan w result => exact endScan_ok h w result
  | apply w now commits => exact apply_ok h w now commits
  | report w => exact report_ok h w
  | engine op =>
      exact ⟨h.congr rfl rfl (Nat.le_refl _) rfl rfl, Moves.congr rfl (Nat.le_refl _) rfl⟩
  | elsewhere =>
      simp only [step]
      split
      · exact ⟨h.congr rfl rfl (Nat.le_succ _) rfl rfl, Moves.congr rfl (Nat.le_succ _) rfl⟩
      · exact ⟨h, Moves.refl core⟩

/-! ## Runs -/

theorem inv_run (h : Inv core) (ops : List (Op Scan)) : Inv (runFrom env core ops) :=
  Transition.run_invariant (step env) (I := Inv) (fun _ op hi => (step_ok env hi op).1) h ops

/-- An operation in a terminal phase stays in it, or is dropped for good. -/
def Over (core : Core State Scan) (id : Nat) (phase : SyncPhase) : Prop :=
  id ≤ core.nextOperation ∧ ∀ q, core.phase id = some q → q = phase

theorem Over.step {id : Nat} {phase : SyncPhase} (hterm : phase.terminal = true) (h : Inv core)
    (ho : Over core id phase) (op : Op Scan) : Over (step env core op) id phase := by
  obtain ⟨hnext, hphase⟩ := ho
  have hmoves := (step_ok env h op).2
  refine ⟨hnext.trans hmoves.next, fun q hq => ?_⟩
  rw [Core.phase, Option.map_eq_some_iff] at hq
  obtain ⟨entry, hentry, rfl⟩ := hq
  rcases hmoves.entry id entry hentry with hnew | ⟨old, hold, hkeep⟩
  · omega
  · have hold' := hphase old.progress.phase (by rw [Core.phase, hold, Option.map_some])
    rw [hkeep (by rw [hold']; exact hterm), hold']

theorem Over.run {id : Nat} {phase : SyncPhase} (hterm : phase.terminal = true) (h : Inv core)
    (ho : Over core id phase) (ops : List (Op Scan)) : Over (runFrom env core ops) id phase :=
  (Transition.run_invariant (Operations.step env) (I := fun core => Inv core ∧ Over core id phase)
    (fun _ op hi => ⟨(step_ok env hi.1 op).1, hi.2.step env hterm hi.1 op⟩) ⟨h, ho⟩ ops).2

theorem over_of_phase {id : Nat} {phase : SyncPhase} (h : Inv core)
    (hphase : core.phase id = some phase) : Over core id phase := by
  refine ⟨?_, fun q hq => ?_⟩
  · rw [Core.phase, Option.map_eq_some_iff] at hphase
    obtain ⟨entry, hentry, -⟩ := hphase
    exact h.entryBound id entry hentry
  · rw [hphase, Option.some.injEq] at hq
    exact hq.symm

/-- A committed operation was complete at some point of the run. -/
theorem complete_of_committed (world : System.World State) (ops : List (Op Scan)) {id : Nat}
    (hid : id ∈ (runFrom env { world } ops).committed) :
    ∃ pre, pre <+: ops ∧ (runFrom env { world } pre).phase id = some .complete := by
  induction ops using List.reverseRecOn with
  | nil => cases hid
  | append_singleton ops op ih =>
      rw [runFrom, Transition.run_concat] at hid
      have hinv := inv_run env (inv_start world) ops
      rcases (step_ok env hinv op).2.committed id hid with hbefore | hnow
      · obtain ⟨pre, hpre, hphase⟩ := ih hbefore
        exact ⟨pre, hpre.trans (List.prefix_append _ _), hphase⟩
      · refine ⟨ops ++ [op], List.prefix_refl _, ?_⟩
        rw [runFrom, Transition.run_concat]
        exact hnow

theorem committed_run (h : Inv core) (ops : List (Op Scan)) {id : Nat} (hid : id ∈ core.committed) :
    id ∈ (runFrom env core ops).committed :=
  (Transition.run_invariant (step env) (I := fun core => Inv core ∧ id ∈ core.committed)
    (fun _ op hi => ⟨(step_ok env hi.1 op).1, (step_ok env hi.1 op).2.kept id hi.2⟩) ⟨h, hid⟩ ops).2

/-- A cancelled operation is not among the committed ones, now or later. -/
theorem not_committed_run {id : Nat} (h : Inv core) (hphase : core.phase id = some .cancelled)
    (ops : List (Op Scan)) : id ∉ (runFrom env core ops).committed := by
  have hout : id ∉ core.committed := by
    intro hid
    rw [Core.phase, Option.map_eq_some_iff] at hphase
    obtain ⟨entry, hentry, hcancelled⟩ := hphase
    have hcomplete := (h.committed id entry hentry).mp hid
    rw [hcancelled] at hcomplete
    cases hcomplete
  refine (Transition.run_invariant (step env)
    (I := fun core => Inv core ∧ Over core id .cancelled ∧ id ∉ core.committed)
    (fun core op hi => ?_) ⟨h, over_of_phase h hphase, hout⟩ ops).2.2
  obtain ⟨hinv, hover, hout⟩ := hi
  have hover' := hover.step env rfl hinv op
  obtain ⟨hinv', hmoves⟩ := step_ok env hinv op
  refine ⟨hinv', hover', fun hid => ?_⟩
  rcases hmoves.committed id hid with hbefore | hcomplete
  · exact hout hbefore
  · cases hover'.2 _ hcomplete

/-- What `cancel_sync` returns is what the table says afterwards. -/
theorem phase_cancelSync {id : Nat} {progress : SyncProgress}
    (h : (core.cancelSync id).2 = .ok progress) :
    (core.cancelSync id).1.phase id = some progress.phase := by
  rw [Core.cancelSync] at h ⊢
  rcases hop : core.entries[id]? with _ | op
  · rw [hop] at h
    cases h
  · rw [hop] at h
    simp only at h ⊢
    by_cases hterm : op.progress.phase.terminal = true
    · rw [if_pos hterm] at h ⊢
      cases h
      rw [Core.phase, hop, Option.map_some]
    · rw [if_neg hterm] at h ⊢
      cases h
      rw [Core.phase, Table.get_insert_self, Option.map_some]

theorem world_cancelSync (id : Nat) : (core.cancelSync id).1.world = core.world := by
  rw [Core.cancelSync]
  split
  · rfl
  · split_ifs <;> rfl

/-- A worker's step leaves the store alone, unless it completes its operation. -/
theorem world_of_worker {op : Op Scan} {w : Nat} (hop : op.worker = some w) :
    (step env core op).world = core.world ∨ ∃ worker, core.workers[w]? = some worker ∧
      (step env core op).phase worker.operation = some .complete := by
  cases op with
  | spawn w' spawned =>
      left
      simp only [step, Core.spawn]
      split
      · split <;> rfl
      · rfl
  | abandon w' =>
      left
      simp only [step, Core.abandon]
      split
      · split
        · exact world_cancelSync _
        · rfl
      · rfl
  | poll w' =>
      left
      simp only [step, Core.poll]
      split
      · split
        · split
          · rfl
          · split_ifs <;> rfl
        · rfl
      · rfl
  | endScan w' result =>
      left
      simp only [step, Core.endScan]
      split
      · split <;> rfl
      · rfl
  | apply w' now commits =>
      cases hop
      simp only [step, Core.apply]
      rcases hw : core.workers[w]? with _ | worker
      · exact Or.inl rfl
      · simp only
        split
        · split
          · exact Or.inl rfl
          · split_ifs
            · exact Or.inl rfl
            · split
              · -- The transaction committed: the phase is complete in the same step.
                refine Or.inr ⟨worker, rfl, ?_⟩
                rw [Core.phase, Table.get_insert_self, Option.map_some]
              · exact Or.inl rfl
              · exact Or.inl rfl
        · exact Or.inl rfl
  | report w' =>
      left
      simp only [step, Core.report]
      split
      · split
        · split
          · rfl
          · split_ifs <;> rfl
        · rfl
      · rfl
  | prepareSnapshot _ _ _ _ => cases hop
  | prepareEntry _ => cases hop
  | runSync _ => cases hop
  | cancelSync _ => cases hop
  | syncProgress _ => cases hop
  | engine _ => cases hop
  | elsewhere => cases hop

/-- The steps of an operation's own workers. -/
def OwnStep (core : Core State Scan) (id : Nat) (op : Op Scan) : Prop :=
  ∃ w worker, op.worker = some w ∧ core.workers[w]? = some worker ∧ worker.operation = id

/-- The protocol, at the end of a run and from there on. -/
structure SyncProtocol (env : Env State Wallet Scan) (world : System.World State)
    (ops : List (Op Scan)) : Prop where
  /-- An operation's transaction committed exactly if it became complete. -/
  complete : ∀ id, id ∈ (runFrom env { world } ops).committed ↔
    ∃ pre, pre <+: ops ∧ (runFrom env { world } pre).phase id = some .complete
  /-- Once `cancel_sync` returned `Cancelled`, the operation commits nothing and
      its workers leave the store alone. -/
  cancelled : ∀ id progress, ((runFrom env { world } ops).cancelSync id).2 = .ok progress →
    progress.phase = .cancelled → ∀ later,
    id ∉ (runFrom env ((runFrom env { world } ops).cancelSync id).1 later).committed ∧
      ∀ op, OwnStep (runFrom env ((runFrom env { world } ops).cancelSync id).1 later) id op →
        (step env (runFrom env ((runFrom env { world } ops).cancelSync id).1 later) op).world =
          (runFrom env ((runFrom env { world } ops).cancelSync id).1 later).world
  /-- A terminal phase never changes. -/
  terminal : ∀ id phase, (runFrom env { world } ops).phase id = some phase →
    phase.terminal = true → ∀ later phase',
    (runFrom env (runFrom env { world } ops) later).phase id = some phase' → phase' = phase
  /-- One operation of a wallet at most is not over. -/
  wallet : ∀ (id id' : Nat) (op op' : Operation),
    (runFrom env { world } ops).entries[id]? = some op →
    (runFrom env { world } ops).entries[id']? = some op' →
    op.progress.phase.terminal = false → op'.progress.phase.terminal = false →
    op.progress.walletId = op'.progress.walletId → id = id'
  /-- One worker at most was ever started for an operation. -/
  worker : ∀ (w w' : Nat) (worker worker' : Worker Scan),
    (runFrom env { world } ops).workers[w]? = some worker →
    (runFrom env { world } ops).workers[w']? = some worker' →
    worker.operation = worker'.operation → w = w'

/-- The sync protocol holds over every interleaving of callers and workers. -/
theorem run_sync_protocol (env : Env State Wallet Scan) (world : System.World State)
    (ops : List (Op Scan)) : SyncProtocol env world ops := by
  have hinv := inv_run env (inv_start world) ops
  constructor
  · intro id
    refine ⟨complete_of_committed env world ops, ?_⟩
    rintro ⟨pre, ⟨rest, rfl⟩, hphase⟩
    have hpre := inv_run env (inv_start world) pre
    rw [Core.phase, Option.map_eq_some_iff] at hphase
    obtain ⟨entry, hentry, hcomplete⟩ := hphase
    rw [runFrom, Transition.run_append]
    exact committed_run env hpre rest ((hpre.committed id entry hentry).mpr hcomplete)
  · intro id progress hreturned hphase later
    have hcancel := (cancelSync_ok hinv id).1
    have hentry : ((runFrom env { world } ops).cancelSync id).1.phase id = some .cancelled := by
      rw [phase_cancelSync hreturned, hphase]
    have hover := (over_of_phase hcancel hentry).run env rfl hcancel later
    have hlater := inv_run env hcancel later
    refine ⟨not_committed_run env hcancel hentry later, ?_⟩
    · rintro op ⟨w, worker, hop, hw, rfl⟩
      rcases world_of_worker env hop with hsame | ⟨worker', hw', hcomplete⟩
      · exact hsame
      · rw [hw, Option.some.injEq] at hw'
        subst hw'
        have hphase' := (hover.step env rfl hlater op).2 _ hcomplete
        cases hphase'
  · intro id phase hphase hterm later phase' hphase'
    exact ((over_of_phase hinv hphase).run env hterm hinv later).2 phase' hphase'
  · exact hinv.wallet
  · exact hinv.single

end

end Operations
end Tundra
