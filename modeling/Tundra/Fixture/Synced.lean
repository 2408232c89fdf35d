/-
  Tundra.Fixture.Synced

  Committing a scan to a store that holds the fixture's account.
-/

import Tundra.Fixture.Stored
import Tundra.Connections

namespace Tundra
namespace Fixture

open Ascii Wire Relational Esplora

def fundingId : Txid := computeTxid (fundingTx [])

/-! ## Committing a scan -/

/-- A wallet with the chain of a scan. -/
def onChain (w : TestWallet) (scan : ChainScan) : TestWallet := { w with chain := scan.blocks }

/-- The account's row after a sync. -/
def syncedRow (row : WalletRow TestWallet) (w : TestWallet) (t : Nat) : WalletRow TestWallet :=
  { row with
    state := w
    syncedAt := some t }

/-- The store after a sync of the account. -/
def syncedStore (db : Db TestWallet) (row : WalletRow TestWallet) (w : TestWallet)
    (snapshot : Sync.Snapshot) (t : Nat) : Db TestWallet :=
  Sync.bumpRevision
    { wallets := (∅ : Table String (WalletRow TestWallet)).insert walletId (syncedRow row w t)
      syncState := db.syncState } walletId snapshot.endpoint

section Commit

variable {db : Db TestWallet} {row : WalletRow TestWallet}

open Checked Engine

theorem insert_singleton {κ ν : Type} [Ord κ] [Std.TransOrd κ] [Std.LawfulEqOrd κ] [DecidableEq κ]
    (k : κ) (u v : ν) : ((∅ : Table κ ν).insert k u).insert k v = (∅ : Table κ ν).insert k v := by
  apply Table.ext
  intro a
  simp only [Table.get_insert]
  split_ifs <;> rfl

-- the record of crates is deeper than the default limit
set_option maxRecDepth 2000 in
/-- A sync whose sweep leaves the wallets alone stores its wallet and counts itself. -/
theorem HoldsAccount.commit (h : HoldsAccount db row) (snapshot : Sync.Snapshot) {scan : ChainScan}
    {w : TestWallet} (now : Nat) {db₁ : Db TestWallet}
    (hrevision : Sync.revision db walletId = snapshot.revision)
    (hsame : env.stateJson row.state = snapshot.serialized)
    (happly : (onChain row.state scan).applyUpdate computeTxid scan = some w)
    (hsweep : Sync.invalidateDrafts env db walletId w = .ok db₁) (hkept : db₁.wallets = db.wallets) :
    Sync.commitSync env db walletId snapshot scan now =
      .ok ((), Sync.bumpRevision
        { db₁ with
          wallets := (∅ : Table String (WalletRow TestWallet)).insert walletId
            (syncedRow row w (Sync.observedAt snapshot now)) } walletId snapshot.endpoint) := by
  have hload := h.load
  have hchecked : Sync.revision db walletId = snapshot.revision ∧
      env.stateJson (loadedAccount row).state = snapshot.serialized := ⟨hrevision, hsame⟩
  have hreplace : env.replaceBlocks (loadedAccount row).state scan = onChain row.state scan := rfl
  have hreload : env.loadWallet (loadedAccount row).summary.network (onChain row.state scan) =
      some (onChain row.state scan) := if_pos h.state.network
  have hupdate : env.applyUpdate = fun w scan => TestWallet.applyUpdate w computeTxid scan := rfl
  have hget : db₁.wallets[walletId]? = some row := hkept ▸ h.get
  have hinsert : ∀ u v : WalletRow TestWallet, (db₁.wallets.insert walletId u).insert walletId v =
      (∅ : Table String (WalletRow TestWallet)).insert walletId v := by
    intro u v
    rw [hkept, h.wallets, insert_singleton, insert_singleton]
  have hsave : ∀ l : Loaded TestWallet TestWallet, (save env db₁ walletId l).updateSyncedAt walletId
      (Sync.observedAt snapshot now) =
      { db₁ with
        wallets := (∅ : Table String (WalletRow TestWallet)).insert walletId
          (syncedRow row (env.savedState l.state l.wallet) (Sync.observedAt snapshot now)) } := by
    intro l
    rw [save, Db.updateState, hget]
    dsimp only
    rw [Db.updateSyncedAt, Table.get_insert_self]
    dsimp only
    rw [hinsert]
    rfl
  have hsaved : env.savedState (onChain row.state scan) w = w := rfl
  rw [Sync.commitSync, hload, ok_bind, require_of hchecked, ok_bind, hreplace]
  dsimp only
  rw [hreload, okOr, ok_bind, hupdate]
  dsimp only
  rw [happly, okOr, ok_bind, hsweep, ok_bind, hsave]
  dsimp only
  rw [hsaved]

-- the record of crates is deeper than the default limit
set_option maxRecDepth 2000 in
/-- A sync of a store without drafts replaces the snapshot and counts itself. -/
theorem FreshStore.commit (h : FreshStore db row) (snapshot : Sync.Snapshot) {scan : ChainScan}
    {w : TestWallet} (now : Nat) (hrevision : Sync.revision db walletId = snapshot.revision)
    (hsame : env.stateJson row.state = snapshot.serialized)
    (happly : (onChain row.state scan).applyUpdate computeTxid scan = some w) :
    Sync.commitSync env db walletId snapshot scan now =
      .ok ((), syncedStore db row w snapshot (Sync.observedAt snapshot now)) := by
  have hsweep : Sync.invalidateDrafts env db walletId w = .ok db := by
    have hnone : Sync.walletDrafts db walletId = [] := by
      rw [Sync.walletDrafts, h.others]
      rfl
    rw [Sync.invalidateDrafts, hnone]
    rfl
  have hothers : { db with
      wallets := (∅ : Table String (WalletRow TestWallet)).insert walletId
        (syncedRow row w (Sync.observedAt snapshot now)) } =
      ({ wallets := (∅ : Table String (WalletRow TestWallet)).insert walletId
          (syncedRow row w (Sync.observedAt snapshot now))
         syncState := db.syncState } : Db TestWallet) := by
    rw [h.others]
  rw [h.toHoldsAccount.commit snapshot now hrevision hsame happly hsweep rfl, hothers]
  rfl

theorem FreshStore.synced (h : FreshStore db row) (snapshot : Sync.Snapshot) {w : TestWallet}
    (hw : OfAccount w) (t : Nat) :
    FreshStore (syncedStore db row w snapshot t) (syncedRow row w t) where
  wallets := rfl
  state := hw
  name := h.name
  network := h.network
  policy := h.policy
  others := rfl
  syncState := by
    intro k v hk
    have hinsert : ∃ value, (db.syncState.insert walletId value)[k]? = some v := ⟨_, hk⟩
    obtain ⟨value, hget⟩ := hinsert
    rw [Table.get_insert] at hget
    split_ifs at hget with heq
    · exact heq.symm
    · exact h.syncState k v hget

theorem texts_revealTo (k : KeychainKind) (index fuel : Nat) (w : TestWallet) :
    (w.revealTo k index fuel).texts = w.texts ∧ (w.revealTo k index fuel).network = w.network := by
  induction fuel generalizing w with
  | zero => exact ⟨rfl, rfl⟩
  | succ fuel ih =>
      have hnext : (w.revealNext k).2.texts = w.texts ∧ (w.revealNext k).2.network = w.network := by
        cases k <;> exact ⟨rfl, rfl⟩
      rw [TestWallet.revealTo]
      split_ifs
      · exact ⟨(ih _).1.trans hnext.1, (ih _).2.trans hnext.2⟩
      · exact ⟨rfl, rfl⟩

theorem imported_ofAccount : OfAccount importedWallet where
  network := rfl
  receive := toList_display 0
  change := toList_display 1

end Commit

/-! ## Preparing a sync -/

open Checked Engine Connections

/-- The address of the server. -/
def serverUrl : String := "http://127.0.0.1:3002"

-- the record of crates is deeper than the default limit
set_option maxRecDepth 2000 in
theorem endpoint_server : Broadcast.endpoint env serverUrl .regtest true = .ok serverUrl := by
  have hplain : serverUrl.utf8ByteSize ≤ 2048 ∧ ∀ c ∈ serverUrl.toList, isControl c = false :=
    ⟨by decide, List.forall_iff_forall_mem.mp (by decide)⟩
  rw [Broadcast.endpoint, require_of rfl, ok_bind, require_of (by decide), ok_bind,
    require_of hplain, ok_bind]
  decide

/-- The account as a sync is prepared. -/
def preparedAccount (row : WalletRow TestWallet) (revision : Nat) : Prepared TestWallet TestWallet where
  walletId := walletId
  loaded := loadedAccount row
  snapshot :=
    { syncedAt := row.syncedAt
      revision
      serialized := env.stateJson row.state
      endpoint := serverUrl }

theorem FreshStore.prepare {db : Db TestWallet} {row : WalletRow TestWallet} (h : FreshStore db row) :
    Connections.prepare chainEnv db walletId serverUrl true =
      .ok (preparedAccount row (Sync.revision db walletId)) := by
  have hload : load chainEnv.toEnv db walletId = .ok (loadedAccount row) := h.toHoldsAccount.load
  have hendpoint : Broadcast.endpoint chainEnv.toEnv serverUrl (loadedAccount row).summary.network
      true = .ok serverUrl := endpoint_server
  rw [Connections.prepare, Sync.prepareSync, hload, ok_bind, ok_bind, hendpoint, ok_bind, ok_bind]
  rfl

theorem account_fresh (now : Nat) : FreshStore (accountStore now) (accountRow now) where
  wallets := rfl
  state := imported_ofAccount
  name := rfl
  network := rfl
  policy := rfl
  others := rfl
  syncState := by
    intro k v hk
    have hnone : (∅ : Table String SyncStateRow)[k]? = some v := hk
    rw [Std.ExtTreeMap.getElem?_empty] at hnone
    cases hnone

end Fixture
end Tundra
