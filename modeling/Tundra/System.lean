/-
  Tundra.System

  The engine as a state machine.  A `World` is one store with the running
  broadcast requests of all its connections; an `Op` is one engine operation,
  or one step of a broadcast, with everything the outside chooses in it: the
  clock, the coin selection, the scan result, the network's answers.  A refused
  operation leaves the world as it is.

  A restore goes to a new file and leaves the old store alone, so `restore`
  follows the store's line: it exports the current database, restores the
  export and continues there, without the requests of the old process.
  `submissions` and `posts` record the inserted attempts and the POSTs; no
  operation reads them.
-/

import Tundra.Sync
import Tundra.Backup
import Tundra.Lib.Transition

namespace Tundra
namespace System

open Checked Relational Broadcast Signing

variable {State Wallet Scan : Type} (env : Env State Wallet Scan)

/-- How far a `broadcast_draft` call has come. -/
inductive Phase where
  | preflighted (p : Preflight)
  | inserted (p : Preflight) (attemptId : Nat)
  | posted (p : Preflight) (attemptId : Nat)
  deriving DecidableEq

structure Request where
  request : BroadcastRequest
  phase : Phase
  deriving DecidableEq

/-- An attempt row as it was inserted. -/
structure Submission where
  requestId : Nat
  request : BroadcastRequest
  attemptId : Nat
  deriving DecidableEq

/-- One POST to an endpoint. -/
structure Post where
  requestId : Nat
  attemptId : Nat
  walletId : String
  draftId : String
  body : Bytes
  deriving DecidableEq

structure World (State : Type) where
  db : Db State := {}
  requests : Table Nat Request := ∅
  nextRequest : Nat := 0
  submissions : List Submission := []
  posts : List Post := []

inductive Op (Scan : Type) where
  | importWallet (name payload : String) (network : Network) (now : Nat)
  | receiveAddress (id : String)
  | setLabel (id kind reference label : String)
  | setFrozen (id reference : String) (frozen : Bool)
  | editCoins (id : String) (references : List String) (label : Option String)
      (frozen : Option Bool)
  | importLabels (id payload : String) (apply : Bool)
  | registerPolicy (id fingerprint : String) (policyId hmac : Bytes)
  | createDraft (request : DraftRequest) (seed now : Nat)
  | discardDraft (id draftId : String)
  | acceptSignedPsbt (id draftId : String) (payload : Bytes)
  | finalizeDraft (id draftId : String)
  | commitSync (id : String) (snapshot : Sync.Snapshot) (scan : Scan) (now : Nat)
  | resumeRecovered (id draftId expectedTxid : String) (expectedAttempt : Nat)
      (reviewAcknowledged : Bool)
  | restore (now : Nat)
  | preflight (request : BroadcastRequest)
  | recheck (requestId : Nat) (body : Option String) (now : Nat)
  | post (requestId : Nat)
  | acknowledge (requestId : Nat) (response : Option String)
  | crash (requestId : Nat)

/-- The statement that ends a device's policy registration (`usb/mod.rs`); the
    device session before it can only refuse. -/
def registerPolicy (db : Db State) (id fingerprint : String) (policyId hmac : Bytes) :
    Result (Unit × Db State) := do
  let _ ← Engine.load env db id
  require (fingerprint.length = 8 ∧ policyId.length = 32 ∧ hmac.length = 32) .storage
  .ok ((), { db with
    hardwareRegistrations := db.hardwareRegistrations.insert (id, fingerprint, policyId) hmac })

/-- The database of the restored export of a database. -/
def exportRestore (db : Db State) (now : Nat) : Result (Unit × Db State) := do
  let (_, output) ← Backup.restoreImage env (Backup.exportedImage env db now) (fun _ => .ok ())
  .ok ((), output.db)

/-- The database an operation commits, when it is one transaction of its own. -/
def transact (db : Db State) : Op Scan → Option (Result (Db State))
  | .importWallet name payload network now =>
      some ((Engine.importWallet env db name payload network now).map Prod.snd)
  | .receiveAddress id => some ((Engine.receiveAddress env db id).map Prod.snd)
  | .setLabel id kind reference label =>
      some ((Engine.setLabel env db id kind reference label).map Prod.snd)
  | .setFrozen id reference frozen =>
      some ((Engine.setFrozen env db id reference frozen).map Prod.snd)
  | .editCoins id references label frozen =>
      some ((Engine.editCoins env db id references label frozen).map Prod.snd)
  | .importLabels id payload apply =>
      some ((Engine.importLabels env db id payload apply).map Prod.snd)
  | .registerPolicy id fingerprint policyId hmac =>
      some ((registerPolicy env db id fingerprint policyId hmac).map Prod.snd)
  | .createDraft request seed now =>
      some ((Engine.createDraft env db request seed now).map Prod.snd)
  | .discardDraft id draftId => some ((Engine.discardDraft db id draftId).map Prod.snd)
  | .acceptSignedPsbt id draftId payload =>
      some ((acceptSignedPsbt env db id draftId payload).map Prod.snd)
  | .finalizeDraft id draftId => some ((finalizeDraft env db id draftId).map Prod.snd)
  | .commitSync id snapshot scan now =>
      some ((Sync.commitSync env db id snapshot scan now).map Prod.snd)
  | .resumeRecovered id draftId txid attempt ack =>
      some ((Recovery.resumeRecoveredSubmission env db id draftId txid attempt ack).map Prod.snd)
  | .restore now => some ((exportRestore env db now).map Prod.snd)
  | _ => none

namespace World

variable (world : World State)

/-- End a request. -/
def endRequest (requestId : Nat) : World State :=
  { world with requests := world.requests.erase requestId }

/-- The first look at the database; a refused request ends there. -/
def preflight (r : BroadcastRequest) : World State :=
  match Broadcast.preflight env world.db r with
  | .ok p =>
      { world with
        requests := world.requests.insert world.nextRequest { request := r, phase := .preflighted p }
        nextRequest := world.nextRequest + 1 }
  | .error _ => world

/-- The genesis query and the transaction that inserts the attempt. -/
def recheck (requestId : Nat) (body : Option String) (now : Nat) : World State :=
  match world.requests[requestId]? with
  | some { request := r, phase := .preflighted p } =>
      match (do
          checkGenesis env p body
          Broadcast.insertAttempt env world.db r p now : Result (Nat × Db State)) with
      | .ok (attemptId, db) =>
          { world with
            db := db
            requests := world.requests.insert requestId
              { request := r, phase := .inserted p attemptId }
            submissions := world.submissions ++ [{ requestId, request := r, attemptId }] }
      | .error _ => world.endRequest requestId
  | _ => world

/-- The POST, outside any transaction. -/
def post (requestId : Nat) : World State :=
  match world.requests[requestId]? with
  | some { request := r, phase := .inserted p attemptId } =>
      { world with
        requests := world.requests.insert requestId { request := r, phase := .posted p attemptId }
        posts := world.posts ++
          [{ requestId
             attemptId
             walletId := r.walletId
             draftId := r.draftId
             body := p.approved.transactionBytes }] }
  | _ => world

/-- The answer to the POST; `none` when it was lost. -/
def acknowledge (requestId : Nat) (response : Option String) : World State :=
  match world.requests[requestId]? with
  | some { request := r, phase := .posted p attemptId } =>
      let db := if isAcknowledged p response then Broadcast.acknowledge world.db r attemptId
        else world.db
      { world with db := db }.endRequest requestId
  | _ => world

end World

/-- One step of the system. -/
def step (world : World State) (op : Op Scan) : World State :=
  match op with
  | .preflight request => world.preflight env request
  | .recheck requestId body now => world.recheck env requestId body now
  | .post requestId => world.post requestId
  | .acknowledge requestId response => world.acknowledge requestId response
  | .crash requestId => world.endRequest requestId
  | .restore now =>
      match exportRestore env world.db now with
      | .ok (_, db) => { world with db := db, requests := ∅ }
      | .error _ => world
  | op =>
      match transact env world.db op with
      | some (.ok db) => { world with db := db }
      | _ => world

/-- A transaction that succeeds changes the database alone. -/
theorem step_ok {world : World State} {op : Op Scan} {db : Db State}
    (h : transact env world.db op = some (.ok db)) (hrestore : ∀ now, op ≠ .restore now) :
    step env world op = { world with db := db } := by
  cases op
  case restore now => exact absurd rfl (hrestore now)
  case preflight => cases h
  case recheck => cases h
  case post => cases h
  case acknowledge => cases h
  case crash => cases h
  all_goals
    unfold step
    dsimp only
    rw [h]

/-- The world after a run from a given world. -/
def runFrom (world : World State) (ops : List (Op Scan)) : World State :=
  Transition.run (step env) world ops

/-- The world after a run from the empty store. -/
def run (ops : List (Op Scan)) : World State := runFrom env {} ops

theorem runFrom_append (world : World State) (ops later : List (Op Scan)) :
    runFrom env world (ops ++ later) = runFrom env (runFrom env world ops) later :=
  Transition.run_append ..

theorem runFrom_concat (world : World State) (ops : List (Op Scan)) (op : Op Scan) :
    runFrom env world (ops ++ [op]) = step env (runFrom env world ops) op :=
  Transition.run_concat ..

theorem run_append (ops later : List (Op Scan)) :
    run env (ops ++ later) = runFrom env (run env ops) later :=
  runFrom_append env {} ops later

theorem run_concat (ops : List (Op Scan)) (op : Op Scan) :
    run env (ops ++ [op]) = step env (run env ops) op :=
  runFrom_concat env {} ops op

end System
end Tundra
