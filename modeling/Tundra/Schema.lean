/-
  Tundra.Schema

  The tables of `schema.sql` and the statements the engine runs on them.  A
  table is keyed by its primary key; the columns that are JSON texts keep what
  the text parses to.  A statement that a constraint refuses fails with
  `storage`, and `ON DELETE CASCADE` is part of each DELETE.  The CHECKs on
  labels and wallet names repeat what the engine has validated before it
  writes, and are left to that validation.
-/

import Tundra.Env

namespace Tundra

open Checked Relational Std

/-! ## Rows -/

/-- A row of `wallets`. -/
structure WalletRow (State : Type) where
  name : String
  network : String
  policy : String
  state : State
  syncedAt : Option Nat
  createdAt : Nat
  deriving DecidableEq

/-- The `review_json` column: its length in bytes and what it parses to. -/
structure ReviewJson where
  length : Nat
  parsed : Option DraftReview
  deriving DecidableEq

/-- A row of `drafts`. -/
structure DraftRow where
  walletId : String
  psbt : Bytes
  reviewJson : ReviewJson
  label : String
  createdAt : Nat
  deriving DecidableEq

/-- A row of `sync_state`. -/
structure SyncStateRow where
  revision : Nat
  endpoint : String
  deriving DecidableEq

/-- A row of `broadcast_attempts`. -/
structure AttemptRow where
  walletId : String
  draftId : String
  endpoint : String
  txid : String
  wtxid : String
  requestedAt : Nat
  acknowledged : Bool
  deriving DecidableEq

/-! ## Keys of several columns -/

instance transOrdLabelKey : TransOrd (String × LabelKind × String) :=
  inferInstanceAs (TransOrd (_ × _))

instance lawfulEqOrdLabelKey : LawfulEqOrd (String × LabelKind × String) :=
  inferInstanceAs (LawfulEqOrd (_ × _))

instance transOrdRegistrationKey : TransOrd (String × String × Bytes) :=
  inferInstanceAs (TransOrd (_ × _))

instance lawfulEqOrdRegistrationKey : LawfulEqOrd (String × String × Bytes) :=
  inferInstanceAs (LawfulEqOrd (_ × _))

instance transOrdHoldKey : TransOrd (String × String × String) :=
  inferInstanceAs (TransOrd (_ × _))

instance lawfulEqOrdHoldKey : LawfulEqOrd (String × String × String) :=
  inferInstanceAs (LawfulEqOrd (_ × _))

/-- The database.  A reservation maps (wallet, outpoint) to its draft, a
    recovery hold is keyed by (wallet, outpoint, draft), and a label by
    (wallet, kind, reference). -/
structure Db (State : Type) where
  wallets : Table String (WalletRow State) := ∅
  labels : Table (String × LabelKind × String) String := ∅
  freezes : Table (String × String) Unit := ∅
  drafts : Table String DraftRow := ∅
  reservations : Table (String × String) String := ∅
  syncState : Table String SyncStateRow := ∅
  draftSignatures : Table (String × String) Bytes := ∅
  finalizedDrafts : Table (String × String) Bytes := ∅
  hardwareRegistrations : Table (String × String × Bytes) Bytes := ∅
  broadcastAttempts : Table Nat AttemptRow := ∅
  /-- The AUTOINCREMENT counter of `broadcast_attempts`. -/
  attemptSequence : Nat := 0
  draftLabelApplications : Table (String × String) Unit := ∅
  outputProvenance : Table (String × String) String := ∅
  recoveredSubmissions : Table (String × String) Unit := ∅
  recoveryHolds : Table (String × String × String) Unit := ∅
  deriving DecidableEq

namespace Db

variable {State : Type} (db : Db State)

/-! ## Queries -/

/-- `SELECT .. FROM drafts WHERE wallet_id=?1 AND id=?2`. -/
def selectDraft (w d : String) : Option DraftRow :=
  (db.drafts[d]?).filter (fun row => row.walletId = w)

/-- Does the draft have a broadcast attempt? -/
def submitted (w d : String) : Bool :=
  db.broadcastAttempts.anyRow (fun _ a => a.walletId = w ∧ a.draftId = d)

def isFrozen (w outpoint : String) : Bool := (db.freezes[(w, outpoint)]?).isSome

/-- A reservation of any draft, or a recovery hold, on the outpoint. -/
def isReserved (w outpoint : String) : Bool :=
  (db.reservations[(w, outpoint)]?).isSome ||
    db.recoveryHolds.anyRow (fun k _ => k.1 = w ∧ k.2.1 = outpoint)

def isRecovered (w d : String) : Bool := (db.recoveredSubmissions[(w, d)]?).isSome

/-! ## Foreign keys -/

/-- The references `PRAGMA foreign_key_check` follows. -/
def ForeignKeys : Prop :=
  db.labels.All (fun k _ => (db.wallets[k.1]?).isSome) ∧
  db.freezes.All (fun k _ => (db.wallets[k.1]?).isSome) ∧
  db.drafts.All (fun _ row => (db.wallets[row.walletId]?).isSome) ∧
  db.reservations.All (fun k d => (db.selectDraft k.1 d).isSome) ∧
  db.syncState.All (fun k _ => (db.wallets[k]?).isSome) ∧
  db.draftSignatures.All (fun k _ => (db.selectDraft k.1 k.2).isSome) ∧
  db.finalizedDrafts.All (fun k _ => (db.selectDraft k.1 k.2).isSome) ∧
  db.hardwareRegistrations.All (fun k _ => (db.wallets[k.1]?).isSome) ∧
  db.broadcastAttempts.All (fun _ a => (db.finalizedDrafts[(a.walletId, a.draftId)]?).isSome) ∧
  db.draftLabelApplications.All (fun k _ => (db.selectDraft k.1 k.2).isSome) ∧
  db.outputProvenance.All (fun k d => (db.selectDraft k.1 d).isSome) ∧
  db.recoveredSubmissions.All (fun k _ => (db.finalizedDrafts[k]?).isSome) ∧
  db.recoveryHolds.All (fun k _ => (db.recoveredSubmissions[(k.1, k.2.2)]?).isSome)

instance : Decidable db.ForeignKeys := by
  unfold ForeignKeys
  infer_instance

/-! ## Statements -/

/-- `INSERT INTO drafts`. -/
def insertDraft (d : String) (row : DraftRow) : Result (Db State) := do
  require ((db.wallets[row.walletId]?).isSome) .storage
  let drafts ← okOr (db.drafts.insertNew d row) .storage
  .ok { db with drafts := drafts }

/-- `INSERT INTO reservations`. -/
def insertReservation (w outpoint d : String) : Result (Db State) := do
  require ((db.selectDraft w d).isSome) .storage
  let reservations ← okOr (db.reservations.insertNew (w, outpoint) d) .storage
  .ok { db with reservations := reservations }

/-- `UPDATE drafts SET review_json=?1 WHERE wallet_id=?2 AND id=?3`. -/
def updateReview (w d : String) (review : ReviewJson) : Db State :=
  match db.selectDraft w d with
  | some row => { db with drafts := db.drafts.insert d { row with reviewJson := review } }
  | none => db

/-- `DELETE FROM reservations WHERE wallet_id=?1 AND draft_id=?2`. -/
def deleteReservations (w d : String) : Db State :=
  { db with reservations := db.reservations.deleteWhere (fun k d' => k.1 = w ∧ d' = d) }

/-- `DELETE FROM recovered_submissions WHERE wallet_id=?1 AND draft_id=?2`. -/
def deleteRecovered (w d : String) : Db State :=
  { db with
    recoveredSubmissions := db.recoveredSubmissions.erase (w, d)
    recoveryHolds := if db.isRecovered w d then
        db.recoveryHolds.deleteWhere (fun k _ => k.1 = w ∧ k.2.2 = d)
      else db.recoveryHolds }

/-- `DELETE FROM drafts WHERE wallet_id=?1 AND id=?2`, for a draft that exists. -/
def deleteDraft (w d : String) : Db State :=
  { db with
    drafts := db.drafts.erase d
    reservations := db.reservations.deleteWhere (fun k d' => k.1 = w ∧ d' = d)
    draftSignatures := db.draftSignatures.erase (w, d)
    finalizedDrafts := db.finalizedDrafts.erase (w, d)
    broadcastAttempts := db.broadcastAttempts.deleteWhere
      (fun _ a => a.walletId = w ∧ a.draftId = d)
    draftLabelApplications := db.draftLabelApplications.erase (w, d)
    outputProvenance := db.outputProvenance.deleteWhere (fun k d' => k.1 = w ∧ d' = d)
    recoveredSubmissions := db.recoveredSubmissions.erase (w, d)
    recoveryHolds := db.recoveryHolds.deleteWhere (fun k _ => k.1 = w ∧ k.2.2 = d) }

/-- `INSERT INTO draft_signatures .. ON CONFLICT DO UPDATE`. -/
def upsertSignatures (w d : String) (psbt : Bytes) : Result (Db State) := do
  require ((db.selectDraft w d).isSome) .storage
  .ok { db with draftSignatures := db.draftSignatures.insert (w, d) psbt }

/-- `INSERT INTO finalized_drafts`. -/
def insertFinalized (w d : String) (bytes : Bytes) : Result (Db State) := do
  require ((db.selectDraft w d).isSome) .storage
  let finalized ← okOr (db.finalizedDrafts.insertNew (w, d) bytes) .storage
  .ok { db with finalizedDrafts := finalized }

/-- The id AUTOINCREMENT gives the next attempt: above every id ever given. -/
def nextAttemptId : Nat :=
  max db.attemptSequence (db.broadcastAttempts.toList.foldl (fun n row => max n row.1) 0) + 1

/-- `INSERT INTO broadcast_attempts`; returns `last_insert_rowid`. -/
def insertAttempt (row : AttemptRow) : Result (Nat × Db State) := do
  require ((db.finalizedDrafts[(row.walletId, row.draftId)]?).isSome) .storage
  require (row.txid.length = 64 ∧ row.wtxid.length = 64) .storage
  .ok (db.nextAttemptId,
    { db with
      broadcastAttempts := db.broadcastAttempts.insert db.nextAttemptId row
      attemptSequence := db.nextAttemptId })

/-- `INSERT INTO labels .. ON CONFLICT DO UPDATE`. -/
def putLabel (w : String) (kind : LabelKind) (reference label : String) : Db State :=
  { db with labels := db.labels.insert (w, kind, reference) label }

/-- `INSERT OR IGNORE INTO labels`. -/
def insertLabelIfNew (w : String) (kind : LabelKind) (reference label : String) : Db State :=
  { db with labels := db.labels.insertIfNew (w, kind, reference) label }

/-- `INSERT OR IGNORE INTO freezes`, or the DELETE that undoes it. -/
def setFreeze (w outpoint : String) (frozen : Bool) : Db State :=
  { db with
    freezes := if frozen then db.freezes.insertIfNew (w, outpoint) ()
      else db.freezes.erase (w, outpoint) }

/-- `UPDATE wallets SET state_json=?1 WHERE id=?2`. -/
def updateState (w : String) (state : State) : Db State :=
  match db.wallets[w]? with
  | some row => { db with wallets := db.wallets.insert w { row with state := state } }
  | none => db

/-- `UPDATE wallets SET synced_at=?1 WHERE id=?2`. -/
def updateSyncedAt (w : String) (syncedAt : Nat) : Db State :=
  match db.wallets[w]? with
  | some row => { db with wallets := db.wallets.insert w { row with syncedAt := some syncedAt } }
  | none => db

end Db

end Tundra
