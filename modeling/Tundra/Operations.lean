/-
  Tundra.Operations

  The sync operations of one core (`sync.rs`): their table behind one lock, the
  calls that prepare, run, watch and cancel them, and the worker threads that
  scan, apply and report.  Every step takes the table's lock at most once; other
  steps come between.

  A worker's scan may end with any result, which covers every server and the
  wake-up that `cancel_sync` sends it.
-/

import Tundra.System

namespace Tundra
namespace Operations

open Checked Relational Sync

inductive SyncPhase where
  | prepared
  | scanning
  | applying
  | complete
  | cancelled
  | failed
  deriving DecidableEq, Repr

def SyncPhase.terminal : SyncPhase → Bool
  | complete | cancelled | failed => true
  | _ => false

structure SyncProgress where
  id : Nat
  walletId : String
  phase : SyncPhase
  scannedScripts : Nat := 0
  /-- The error whose text is shown. -/
  error : Option Error := none
  deriving DecidableEq, Repr

structure Operation where
  progress : SyncProgress
  pending : Option Snapshot
  deriving DecidableEq, Repr

/-- How far a run of an operation has come. -/
inductive Stage (Scan : Type) where
  /-- `run_sync` took the snapshot and has not spawned the thread yet. -/
  | taken (snapshot : Snapshot)
  /-- The thread could not be spawned. -/
  | unspawned
  | scanning (snapshot : Snapshot)
  | scanned (snapshot : Snapshot) (scan : Scan)
  /-- `scan_and_apply` returned an error that is not reported yet. -/
  | failing (error : Error)
  | done

structure Worker (Scan : Type) where
  operation : Nat
  stage : Stage Scan

/-- One core: its store, the `prepare_sync` calls that hold a snapshot but not
    the lock yet, the operations and every worker so far.  `nextOperation` is the
    process's counter; `committed` records the operations whose transaction
    committed, and nothing reads it. -/
structure Core (State Scan : Type) where
  world : System.World State
  preparing : Table Nat (String × Snapshot) := ∅
  entries : Table Nat Operation := ∅
  workers : Table Nat (Worker Scan) := ∅
  nextOperation : Nat := 0
  nextWorker : Nat := 0
  committed : List Nat := []

def maxOperations : Nat := 32

namespace Core

variable {State Wallet Scan : Type} (env : Env State Wallet Scan) (core : Core State Scan)

/-- The phase of an operation, while it is in the table. -/
def phase (id : Nat) : Option SyncPhase := core.entries[id]?.map (·.progress.phase)

def setStage (w : Nat) (worker : Worker Scan) (stage : Stage Scan) : Core State Scan :=
  { core with workers := core.workers.insert w { worker with stage } }

/-- The part of `prepare_sync` that reads the store. -/
def prepareSnapshot (caller : Nat) (id source : String) (consent : Bool) : Core State Scan :=
  match prepareSync env core.world.db id source consent with
  | .ok snapshot => { core with preparing := core.preparing.insert caller (id, snapshot) }
  | .error _ => core

/-- Drop the finished operations when the table is full. -/
def prune : Core State Scan :=
  if maxOperations ≤ core.entries.size then
    { core with entries := core.entries.deleteWhere fun _ op => op.progress.phase.terminal }
  else core

/-- The part of `prepare_sync` under the lock. -/
def prepareEntry (id : String) (snapshot : Snapshot) : Core State Scan × Result SyncProgress :=
  if core.entries.anyRow fun _ op => op.progress.walletId = id && !op.progress.phase.terminal then
    (core, .error .syncBusy)
  else
    let core := core.prune
    if maxOperations ≤ core.entries.size then (core, .error .syncBusy)
    else if core.nextOperation < 2 ^ 64 - 1 then
      let progress : SyncProgress :=
        { id := core.nextOperation + 1, walletId := id, phase := .prepared }
      ({ core with
          entries := core.entries.insert progress.id { progress, pending := some snapshot }
          nextOperation := core.nextOperation + 1 }, .ok progress)
    else (core, .error .syncLimit)

def syncProgress (id : Nat) : Result SyncProgress := do
  let op ← okOr core.entries[id]? .notFound
  .ok op.progress

def cancelSync (id : Nat) : Core State Scan × Result SyncProgress :=
  match core.entries[id]? with
  | none => (core, .error .notFound)
  | some op =>
      if op.progress.phase.terminal then (core, .ok op.progress)
      else
        let progress := { op.progress with phase := .cancelled }
        ({ core with entries := core.entries.insert id { progress, pending := none } },
          .ok progress)

/-- `run_sync` up to the spawn of its thread. -/
def runSync (id : Nat) : Core State Scan × Result Unit :=
  match core.entries[id]? with
  | none => (core, .error .notFound)
  | some op =>
      if op.progress.phase = .cancelled then (core, .error .cancelled)
      else
        match op.pending with
        | none => (core, .error .syncBusy)
        | some snapshot =>
            let progress := { op.progress with phase := .scanning }
            ({ core with
                entries := core.entries.insert id { progress, pending := none }
                workers := core.workers.insert core.nextWorker
                  { operation := id, stage := .taken snapshot }
                nextWorker := core.nextWorker + 1 }, .ok ())

/-- The thread is spawned, or cannot be. -/
def spawn (w : Nat) (spawned : Bool) : Core State Scan :=
  match core.workers[w]? with
  | some worker =>
      match worker.stage with
      | .taken snapshot =>
          core.setStage w worker (if spawned then .scanning snapshot else .unspawned)
      | _ => core
  | none => core

/-- `run_sync` cancels the operation whose thread could not be spawned. -/
def abandon (w : Nat) : Core State Scan :=
  match core.workers[w]? with
  | some worker =>
      match worker.stage with
      | .unspawned => (core.setStage w worker .done).cancelSync worker.operation |>.1
      | _ => core
  | none => core

/-- One script of the scan is counted, unless the operation was cancelled. -/
def poll (w : Nat) : Core State Scan :=
  match core.workers[w]? with
  | some worker =>
      match worker.stage with
      | .scanning _ =>
          match core.entries[worker.operation]? with
          | none => core.setStage w worker (.failing .notFound)
          | some op =>
              if op.progress.phase = .cancelled then core.setStage w worker (.failing .cancelled)
              else
                let progress :=
                  { op.progress with scannedScripts := op.progress.scannedScripts + 1 }
                { core with entries := core.entries.insert worker.operation { op with progress } }
      | _ => core
  | none => core

/-- The scan ends. -/
def endScan (w : Nat) (result : Result Scan) : Core State Scan :=
  match core.workers[w]? with
  | some worker =>
      match worker.stage with
      | .scanning snapshot =>
          core.setStage w worker
            (match result with
              | .ok scan => .scanned snapshot scan
              | .error e => .failing e)
      | _ => core
  | none => core

/-- The end of `scan_and_apply`, under the lock: the phase is checked and the
    transaction runs; `commits` tells whether `COMMIT` reports success. -/
def apply (w : Nat) (now : Nat) (commits : Bool) : Core State Scan :=
  match core.workers[w]? with
  | some worker =>
      match worker.stage with
      | .scanned snapshot scan =>
          match core.entries[worker.operation]? with
          | none => core.setStage w worker (.failing .notFound)
          | some op =>
              if op.progress.phase = .cancelled then core.setStage w worker (.failing .cancelled)
              else
                let enter (phase : SyncPhase) : Table Nat Operation :=
                  core.entries.insert worker.operation
                    { op with progress := { op.progress with phase } }
                match commitSync env core.world.db op.progress.walletId snapshot scan now, commits with
                | .ok (_, db), true =>
                    { core.setStage w worker .done with
                      world := { core.world with db }
                      entries := enter .complete
                      committed := worker.operation :: core.committed }
                | .ok _, false =>
                    { core.setStage w worker (.failing .storage) with entries := enter .applying }
                | .error e, _ =>
                    { core.setStage w worker (.failing e) with entries := enter .applying }
      | _ => core
  | none => core

/-- The thread reports the error of `scan_and_apply`. -/
def report (w : Nat) : Core State Scan :=
  match core.workers[w]? with
  | some worker =>
      match worker.stage with
      | .failing error =>
          let core := core.setStage w worker .done
          match core.entries[worker.operation]? with
          | none => core
          | some op =>
              if op.progress.phase.terminal then core
              else
                let phase := if error = .cancelled then .cancelled else .failed
                { core with
                  entries := core.entries.insert worker.operation
                    { op with progress := { op.progress with phase, error := some error } } }
      | _ => core
  | none => core

end Core

/-- One step of a caller, of a worker, or of the rest of the process. -/
inductive Op (Scan : Type) where
  | prepareSnapshot (caller : Nat) (id source : String) (consent : Bool)
  | prepareEntry (caller : Nat)
  | runSync (id : Nat)
  | cancelSync (id : Nat)
  | syncProgress (id : Nat)
  | spawn (w : Nat) (spawned : Bool)
  | abandon (w : Nat)
  | poll (w : Nat)
  | endScan (w : Nat) (result : Result Scan)
  | apply (w : Nat) (now : Nat) (commits : Bool)
  | report (w : Nat)
  /-- Another engine operation on the store, from any connection. -/
  | engine (op : System.Op Scan)
  /-- Another core of the process takes an operation number. -/
  | elsewhere

/-- The worker whose step it is. -/
def Op.worker {Scan : Type} : Op Scan → Option Nat
  | spawn w _ | abandon w | poll w | endScan w _ | apply w _ _ | report w => some w
  | _ => none

variable {State Wallet Scan : Type} (env : Env State Wallet Scan)

def step (core : Core State Scan) : Op Scan → Core State Scan
  | .prepareSnapshot caller id source consent => core.prepareSnapshot env caller id source consent
  | .prepareEntry caller =>
      match core.preparing[caller]? with
      | some (id, snapshot) =>
          ({ core with preparing := core.preparing.erase caller }.prepareEntry id snapshot).1
      | none => core
  | .runSync id => (core.runSync id).1
  | .cancelSync id => (core.cancelSync id).1
  | .syncProgress _ => core
  | .spawn w spawned => core.spawn w spawned
  | .abandon w => core.abandon w
  | .poll w => core.poll w
  | .endScan w result => core.endScan w result
  | .apply w now commits => core.apply env w now commits
  | .report w => core.report w
  | .engine op => { core with world := System.step env core.world op }
  | .elsewhere =>
      if core.nextOperation < 2 ^ 64 - 1 then
        { core with nextOperation := core.nextOperation + 1 }
      else core

/-- The core after a run. -/
def runFrom (core : Core State Scan) (ops : List (Op Scan)) : Core State Scan :=
  Transition.run (step env) core ops

end Operations
end Tundra
