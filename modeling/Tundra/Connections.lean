/-
  Tundra.Connections

  Several connections to one store.  Each engine operation is one transaction;
  a sync is two steps with any others between them: `prepare` reads the wallet,
  and `commit` applies what a scan of that wallet found, if the wallet is still
  the same.  The scan itself reads the server and the prepared wallet only, so it
  belongs to the second step; a sync that fails or is cancelled has none.

  A restored store is opened anew, and no prepared sync of the old one is left.
-/

import Tundra.Snapshots
import Tundra.Scan

namespace Tundra
namespace Connections

open Checked Relational Engine

variable {State Wallet : Type} (env : ChainEnv State Wallet)

/-- A sync between its two steps: the wallet as `prepare_sync` read it. -/
structure Prepared (State Wallet : Type) where
  walletId : String
  loaded : Loaded State Wallet
  snapshot : Sync.Snapshot

/-- One store and the prepared syncs of all its connections. -/
structure Shared (State Wallet : Type) where
  world : System.World State := {}
  prepared : Table Nat (Prepared State Wallet) := ∅

inductive Op where
  | prepare (n : Nat) (id source : String) (consent : Bool)
  | commit (n : Nat) (out : Scan.Outside) (now : Nat)
  | engine (op : System.Op ChainScan)

/-- `prepare_sync`. -/
def prepare (db : Db State) (id source : String) (consent : Bool) :
    Result (Prepared State Wallet) := do
  let loaded ← load env.toEnv db id
  let snapshot ← Sync.prepareSync env.toEnv db id source consent
  .ok { walletId := id, loaded, snapshot }

/-- `scan_and_apply` for a prepared sync. -/
def scanAndApply (db : Db State) (p : Prepared State Wallet) (out : Scan.Outside) (now : Nat) :
    Result (ChainScan × Db State) := do
  let result ← Scan.scan env out p.loaded.wallet p.snapshot.endpoint (Sync.observedAt p.snapshot now)
  let (_, db) ← Sync.commitSync env.toEnv db p.walletId p.snapshot result now
  .ok (result, db)

/-- The step of a prepared sync. -/
def commit (shared : Shared State Wallet) (n : Nat) (out : Scan.Outside) (now : Nat) :
    Shared State Wallet :=
  match shared.prepared[n]? with
  | some p =>
      match scanAndApply env shared.world.db p out now with
      | .ok (_, db) => { shared with world := { shared.world with db } }
      | .error _ => shared
  | none => shared

/-- The store is replaced by the restored export of it. -/
def restore (shared : Shared State Wallet) (now : Nat) : Shared State Wallet :=
  match System.exportRestore env.toEnv shared.world.db now with
  | .ok _ => { world := System.step env.toEnv shared.world (.restore now), prepared := ∅ }
  | .error _ => shared

def step (shared : Shared State Wallet) : Op → Shared State Wallet
  | .prepare n id source consent =>
      match prepare env shared.world.db id source consent with
      | .ok p => { shared with prepared := shared.prepared.insert n p }
      | .error _ => shared
  | .commit n out now => commit env shared n out now
  | .engine (.commitSync ..) => shared
  | .engine (.restore now) => restore env shared now
  | .engine op => { shared with world := System.step env.toEnv shared.world op }

/-- The store after a run from a given one. -/
def runFrom (shared : Shared State Wallet) (ops : List Op) : Shared State Wallet :=
  Transition.run (step env) shared ops

/-- The store after a run from the empty one. -/
def run (ops : List Op) : Shared State Wallet := runFrom env {} ops

theorem run_concat (ops : List Op) (op : Op) : run env (ops ++ [op]) = step env (run env ops) op :=
  Transition.run_concat ..

theorem run_append (ops later : List Op) : run env (ops ++ later) = runFrom env (run env ops) later :=
  Transition.run_append ..

/-! ## Steps that succeed -/

theorem step_import (shared : Shared State Wallet) {name payload : String} {network : Network}
    {now : Nat} {out : WalletSummary × Db State}
    (h : importWallet env.toEnv shared.world.db name payload network now = .ok out) :
    step env shared (.engine (.importWallet name payload network now)) =
      { shared with world := { shared.world with db := out.2 } } := by
  unfold step System.step System.transact
  dsimp only
  rw [h]
  rfl

theorem step_prepare (shared : Shared State Wallet) {n : Nat} {id source : String} {consent : Bool}
    {p : Prepared State Wallet} (h : prepare env shared.world.db id source consent = .ok p) :
    step env shared (.prepare n id source consent) =
      { shared with prepared := shared.prepared.insert n p } := by
  unfold step
  dsimp only
  rw [h]

theorem step_commit (shared : Shared State Wallet) {n : Nat} (out : Scan.Outside) (now : Nat)
    {p : Prepared State Wallet} {result : ChainScan} {db : Db State}
    (hp : shared.prepared[n]? = some p)
    (hscan : Scan.scan env out p.loaded.wallet p.snapshot.endpoint (Sync.observedAt p.snapshot now) =
      .ok result)
    (hcommit : Sync.commitSync env.toEnv shared.world.db p.walletId p.snapshot result now =
      .ok ((), db)) :
    step env shared (.commit n out now) = { shared with world := { shared.world with db } } := by
  unfold step commit scanAndApply
  dsimp only
  rw [hp]
  dsimp only
  rw [hscan, ok_bind, hcommit]
  rfl

theorem step_restore (shared : Shared State Wallet) (now : Nat) {db : Db State}
    (h : System.exportRestore env.toEnv shared.world.db now = .ok ((), db)) :
    step env shared (.engine (.restore now)) =
      { world := { shared.world with db, requests := ∅ }, prepared := ∅ } := by
  unfold step restore System.step
  dsimp only
  rw [h]

/-! ## A step and the stored wallets -/

/-- What a step does to the stored wallets, with the operation it stands for. -/
inductive Stepped (shared : Shared State Wallet) : Op → Shared State Wallet → Prop where
  | refused {op : Op} : Stepped shared op shared
  | prepared {n : Nat} {id source : String} {consent : Bool} {p : Prepared State Wallet}
      (ok : prepare env shared.world.db id source consent = .ok p) :
      Stepped shared (.prepare n id source consent)
        { shared with prepared := shared.prepared.insert n p }
  | committed {n : Nat} {out : Scan.Outside} {now : Nat} {p : Prepared State Wallet}
      {result : ChainScan} {db : Db State} (found : shared.prepared[n]? = some p)
      (scanned : Scan.scan env out p.loaded.wallet p.snapshot.endpoint
        (Sync.observedAt p.snapshot now) = .ok result)
      (ok : Sync.commitSync env.toEnv shared.world.db p.walletId p.snapshot result now = .ok ((), db))
      (effect : Snapshots.CommitEffect env.toEnv shared.world.db db p.walletId p.snapshot result now) :
      Stepped shared (.commit n out now) { shared with world := { shared.world with db } }
  | restored {now : Nat} :
      Stepped shared (.engine (.restore now))
        { world := System.step env.toEnv shared.world (.restore now), prepared := ∅ }
  | other {op : System.Op ChainScan} (notCommit : ∀ id s r now, op ≠ .commitSync id s r now)
      (notRestore : ∀ now, op ≠ .restore now) :
      Stepped shared (.engine op)
        { shared with world := System.step env.toEnv shared.world op }

theorem scanAndApply_eq_ok {db db' : Db State} {p : Prepared State Wallet} {out : Scan.Outside}
    {now : Nat} {result : ChainScan} (h : scanAndApply env db p out now = .ok (result, db')) :
    Scan.scan env out p.loaded.wallet p.snapshot.endpoint (Sync.observedAt p.snapshot now) =
      .ok result ∧
    Sync.commitSync env.toEnv db p.walletId p.snapshot result now = .ok ((), db') := by
  simp only [scanAndApply, bind_eq_ok, Prod.exists, Except.ok.injEq, Prod.mk.injEq] at h
  obtain ⟨result', hscan, _, db₁, hcommit, rfl, rfl⟩ := h
  exact ⟨hscan, hcommit⟩

theorem commit_cases (shared : Shared State Wallet) (n : Nat) (out : Scan.Outside) (now : Nat) :
    Stepped env shared (.commit n out now) (commit env shared n out now) := by
  rw [commit]
  rcases hp : shared.prepared[n]? with _ | p
  · exact .refused
  · dsimp only
    rcases hrun : scanAndApply env shared.world.db p out now with e | ⟨result, db⟩
    · exact .refused
    · obtain ⟨hscan, hcommit⟩ := scanAndApply_eq_ok env hrun
      exact .committed hp hscan hcommit (Snapshots.commitSync_effect env.toEnv hcommit)

theorem restore_cases (shared : Shared State Wallet) (now : Nat) :
    Stepped env shared (.engine (.restore now)) (restore env shared now) := by
  unfold restore
  rcases System.exportRestore env.toEnv shared.world.db now with e | _
  · exact .refused
  · exact .restored

theorem step_cases (shared : Shared State Wallet) (op : Op) :
    Stepped env shared op (step env shared op) := by
  cases op with
  | prepare n id source consent =>
      rw [step]
      rcases hp : prepare env shared.world.db id source consent with e | p
      · exact .refused
      · exact .prepared hp
  | commit n out now => exact commit_cases env shared n out now
  | engine op =>
      cases op with
      | commitSync => exact .refused
      | restore now => exact restore_cases env shared now
      | _ => exact .other (fun _ _ _ _ h => by cases h) (fun _ h => by cases h)

end Connections
end Tundra
