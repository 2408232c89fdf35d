/-
  Tundra.Sync

  The part of a chain scan that touches the database (`sync.rs`): the snapshot
  it starts from, and the transaction that applies its result to the wallet
  and to every draft.
-/

import Tundra.Broadcast

namespace Tundra
namespace Sync

open Checked Relational Engine Broadcast

variable {State Wallet Scan : Type} (env : Env State Wallet Scan)

/-- What a scan remembers of the wallet it started from. -/
structure Snapshot where
  syncedAt : Option Nat
  revision : Nat
  serialized : String
  endpoint : String
  deriving DecidableEq, Repr

def revision (db : Db State) (id : String) : Nat :=
  (db.syncState[id]?.map SyncStateRow.revision).getD 0

/-- The snapshot `prepare_sync` takes. -/
def prepareSync (db : Db State) (id source : String) (consent : Bool) : Result Snapshot := do
  let loaded ← load env db id
  let endpoint ← endpoint env source loaded.summary.network consent
  .ok
    { syncedAt := loaded.summary.syncedAt
      revision := revision db id
      serialized := env.stateJson loaded.state
      endpoint }

/-- Observation timestamps strictly increase, even for two scans in one second. -/
def observedAt (snapshot : Snapshot) (now : Nat) : Nat :=
  max now (snapshot.syncedAt.getD 0 + 1)

/-- The texts of the outpoints a draft may still spend. -/
def eligible (wallet : Wallet) : List String :=
  ((env.listUnspent wallet).filter (fun c =>
    spendable c.chainPosition (env.tipHeight wallet) (isCoinbaseTx env wallet c.outpoint.txid))).map
    (fun c => env.displayOutPoint c.outpoint)

/-- `UPDATE drafts SET review_json=?1 WHERE id=?2`. -/
def updateReviewById (db : Db State) (d : String) (review : ReviewJson) : Db State :=
  match db.drafts[d]? with
  | some row => { db with drafts := db.drafts.insert d { row with reviewJson := review } }
  | none => db

/-- One draft of the sweep: observed, invalidated, or left as it is. -/
def sweepDraft (w : String) (wallet : Wallet) (db : Db State) (draft : String × ReviewJson) :
    Result (Db State) := do
  let review ← parseReview draft.2
  match ← observeDraft env db w review wallet with
  | some db => .ok db
  | none =>
      if review.state = .observed ∨ ∃ i ∈ review.inputs, i.outpoint ∉ eligible env wallet then
        .ok ((updateReviewById db draft.1 (reviewText env (review.withState .invalidated))).deleteReservations
          w draft.1)
      else .ok db

/-- The drafts of a wallet with their review texts. -/
def walletDrafts (db : Db State) (w : String) : List (String × ReviewJson) :=
  (db.drafts.selectRows (fun _ row => row.walletId = w)).map (fun row => (row.1, row.2.reviewJson))

/-- `invalidate_drafts`: the texts are read before the first draft is changed. -/
def invalidateDrafts (db : Db State) (w : String) (wallet : Wallet) : Result (Db State) :=
  (walletDrafts db w).foldlM (sweepDraft env w wallet) db

/-- `INSERT INTO sync_state .. ON CONFLICT DO UPDATE`. -/
def bumpRevision (db : Db State) (w endpoint : String) : Db State :=
  { db with
    syncState := db.syncState.insert w
      (match db.syncState[w]? with
        | some row => { revision := row.revision + 1, endpoint }
        | none => { revision := 1, endpoint }) }

/-- The transaction at the end of `scan_and_apply`. -/
def commitSync (db : Db State) (w : String) (snapshot : Snapshot) (scan : Scan) (now : Nat) :
    Result (Unit × Db State) := do
  let loaded ← load env db w
  require (revision db w = snapshot.revision ∧ env.stateJson loaded.state = snapshot.serialized)
    .staleSync
  let state := env.replaceBlocks loaded.state scan
  let wallet ← okOr (env.loadWallet loaded.summary.network state) .corruptState
  let wallet ← okOr (env.applyUpdate wallet scan) .syncFailed
  let db ← invalidateDrafts env db w wallet
  let db := save env db w { loaded with wallet, state }
  .ok ((), bumpRevision (db.updateSyncedAt w (observedAt snapshot now)) w snapshot.endpoint)

end Sync
end Tundra
