/-
  Tundra.Fixture.Unconfirmed

  A server that lists the funding transaction as unconfirmed, and what two
  scans of it find for the fixture's account.
-/

import Tundra.Fixture.Synced

namespace Tundra
namespace Fixture

open Ascii Wire Relational Esplora

/-! ## The server -/

/-- A history page with the funding transaction. -/
def pendingPage : Bytes :=
  asciiBytes ("[\x7b\"txid\":\"".toList ++ (hexChars fundingTxid.reverse ++
    "\",\"status\":\x7b\"confirmed\":false\x7d\x7d]".toList))

/-- The answers to 47 requests: genesis, tip height, tip hash, the history of
    the first receive script, empty ones for all others, the transaction, and
    the tip again. -/
def mempoolServer : Server := fun n _ =>
  let body := if n = 1 ∨ n = 3 ∨ n = 46 then hashText (genesisHash .regtest)
    else if n = 2 ∨ n = 47 then asciiBytes ['0']
    else if n = 4 then pendingPage
    else if n = 45 then serializeTx (fundingTx [])
    else asciiBytes ['[', ']']
  some { success := true, contentLength := some body.length, chunks := [body], complete := true }

/-- A scan of that server that is not cancelled. -/
def mempool : Scan.Outside where
  server := mempoolServer
  poll _ := .ok ()

/-- What a scan finds. -/
def pendingScan (observedAt : Nat) : ChainScan where
  blocks := (∅ : Table Nat BlockHash).insert 0 (genesisHash .regtest)
  update :=
    { txs := [fundingTx []]
      seenAts := [(fundingId, observedAt)]
      lastActiveIndices := [(.external, 0)] }

/-- The wallet after the scan's update. -/
def pendingWallet : TestWallet :=
  { ({ importedWallet with chain := (pendingScan 1000).blocks }.revealActive [(.external, 0)]) with
    graph := [(fundingId, fundingTx [])]
    lastSeen := (∅ : Table Txid Nat).insert fundingId 1000 }.reindex

theorem scan_imported :
    Scan.scan chainEnv mempool importedWallet "http://127.0.0.1:3002" 1000 =
      .ok (pendingScan 1000) := by
  decide +kernel

theorem scan_pending :
    Scan.scan chainEnv mempool pendingWallet "http://127.0.0.1:3002" 500 =
      .ok (pendingScan 500) := by
  decide +kernel

/-! ## Committing a scan -/

theorem pending_ofAccount : OfAccount pendingWallet := by
  obtain ⟨htexts, hnetwork⟩ := texts_revealTo .external 0 1
    { importedWallet with chain := (pendingScan 1000).blocks }
  have hpending : pendingWallet.texts = importedWallet.texts := htexts
  constructor
  · exact hnetwork
  · rw [hpending]
    exact imported_ofAccount.receive
  · rw [hpending]
    exact imported_ofAccount.change

theorem apply_imported : (onChain importedWallet (pendingScan 1000)).applyUpdate computeTxid
    (pendingScan 1000) = some pendingWallet := by
  decide +kernel

theorem apply_pending : ∃ w, (onChain pendingWallet (pendingScan 500)).applyUpdate computeTxid
    (pendingScan 500) = some w := by
  refine ⟨_, if_neg ?_⟩
  decide

/-! ## The runs -/

open Checked Engine Connections

/-- Import the account and prepare a sync of it. -/
def preparedRun : List Op :=
  [.engine (.importWallet "Main" accountPair .regtest 0), .prepare 0 walletId serverUrl true]

/-- The same sync at 1000, a restore, and a second sync prepared. -/
def restoredRun : List Op :=
  preparedRun ++ [.commit 0 mempool 1000] ++ [.engine (.restore 0)] ++
    [.prepare 1 walletId serverUrl true]

/-- The store before the first sync. -/
def importedShared : Shared TestWallet TestWallet where
  world := { db := accountStore 0 }
  prepared := (∅ : Table Nat (Prepared TestWallet TestWallet)).insert 0
    (preparedAccount (accountRow 0) 0)

-- the record of crates is deeper than the default limit
set_option maxRecDepth 2000 in
theorem run_prepared : run chainEnv preparedRun = importedShared := by
  have himport := step_import chainEnv {} (import_account 0)
  have hprepare := step_prepare chainEnv { world := { db := accountStore 0 } } (n := 0)
    (account_fresh 0).prepare
  have hsplit : preparedRun = [] ++ [.engine (.importWallet "Main" accountPair .regtest 0)] ++
      [.prepare 0 walletId serverUrl true] := rfl
  have hstart : run chainEnv [] = {} := rfl
  rw [hsplit, run_concat, run_concat, hstart, himport]
  exact hprepare

/-- The store after the first sync and its restore. -/
def syncedDb : Db TestWallet :=
  syncedStore (accountStore 0) (accountRow 0) pendingWallet
    (preparedAccount (accountRow 0) 0).snapshot 1000

def restoredDb : Db TestWallet := suspendedStore syncedDb (syncedRow (accountRow 0) pendingWallet 1000)

def restoredRow : WalletRow TestWallet := unsynced (syncedRow (accountRow 0) pendingWallet 1000)

theorem synced_fresh : FreshStore syncedDb (syncedRow (accountRow 0) pendingWallet 1000) :=
  (account_fresh 0).synced _ pending_ofAccount 1000

theorem restored_fresh : FreshStore restoredDb restoredRow :=
  (synced_fresh.restore 0 pending_ofAccount.size).2

def restoredShared : Shared TestWallet TestWallet where
  world := { db := restoredDb }
  prepared := (∅ : Table Nat (Prepared TestWallet TestWallet)).insert 1
    (preparedAccount restoredRow (Sync.revision restoredDb walletId))

-- the record of crates is deeper than the default limit
set_option maxRecDepth 2000 in
theorem first_commit : Sync.commitSync env (accountStore 0) walletId
    (preparedAccount (accountRow 0) 0).snapshot (pendingScan 1000) 1000 = .ok ((), syncedDb) :=
  (account_fresh 0).commit _ 1000 rfl rfl apply_imported

-- the record of crates is deeper than the default limit
set_option maxRecDepth 2000 in
theorem run_restored : run chainEnv restoredRun = restoredShared := by
  have hcommit := step_commit chainEnv importedShared mempool 1000 (n := 0)
    (p := preparedAccount (accountRow 0) 0) (Table.get_insert_self _ _ _) scan_imported
    first_commit
  have hrestore := step_restore chainEnv
    { importedShared with world := { importedShared.world with db := syncedDb } } 0
    (synced_fresh.restore 0 pending_ofAccount.size).1
  have hprepare := step_prepare chainEnv { world := { db := restoredDb }, prepared := ∅ } (n := 1)
    restored_fresh.prepare
  rw [restoredRun, run_concat, run_concat, run_concat, run_prepared, hcommit, hrestore]
  exact hprepare

end Fixture
end Tundra
