/-
  Tundra.Broadcast

  Submission of finalized bytes (`broadcast.rs`).  `broadcast_draft` gives up
  the database between its steps, so each step is its own function: the
  preflight, the recheck that inserts the attempt, the POST, and the late
  acknowledgement.  Observation belongs to the sync transaction.
-/

import Tundra.Signing.Draft

namespace Tundra
namespace Broadcast

open Checked Relational Engine Signing

variable {State Wallet Scan : Type} (env : Env State Wallet Scan)

inductive BroadcastObservation where
  | notSeen
  | mempool
  | confirmed
  deriving DecidableEq, Repr

structure BroadcastRequest where
  walletId : String
  draftId : String
  endpoint : String
  expectedTxid : String
  previousAttempt : Option Nat
  privacyConsent : Bool
  retryAcknowledged : Bool
  deriving DecidableEq, Repr

structure BroadcastInfo where
  attemptId : Nat
  walletId : String
  draftId : String
  endpoint : String
  txid : String
  wtxid : String
  requestedAt : Nat
  acknowledged : Bool
  observation : BroadcastObservation
  deriving DecidableEq, Repr

/-- The attempts of a draft, in the order of their ids. -/
def attempts (db : Db State) (w d : String) : List (Nat × AttemptRow) :=
  db.broadcastAttempts.selectRows (fun _ a => a.walletId = w ∧ a.draftId = d)

/-- The attempt with the greatest id. -/
def latest (db : Db State) (w d : String) : Option BroadcastInfo :=
  (attempts db w d).getLast?.map (fun row =>
    { attemptId := row.1
      walletId := w
      draftId := d
      endpoint := row.2.endpoint
      txid := row.2.txid
      wtxid := row.2.wtxid
      requestedAt := row.2.requestedAt
      acknowledged := row.2.acknowledged
      observation := .notSeen })

def checkPrevious (db : Db State) (w d : String) (expected : Option Nat)
    (retryAcknowledged : Bool) : Result Unit := do
  require ((latest db w d).map BroadcastInfo.attemptId = expected)
    (.invalidInput "broadcast state changed; review the latest attempt")
  require ((latest db w d).isSome = true → retryAcknowledged = true)
    (.invalidInput "explicit acknowledgement required before resubmission")
  require ((attempts db w d).length < 64) (.invalidInput "broadcast attempt limit reached")

/-- What the wallet's chain view says about a transaction. -/
def observeTx (wallet : Wallet) (tx : Transaction) : BroadcastObservation :=
  match env.getTx wallet (env.computeTxid tx) with
  | some found =>
      if found.tx = tx then
        match found.chainPosition with
        | .confirmed _ => .confirmed
        | .unconfirmed (some _) => .mempool
        | .unconfirmed none => .notSeen
      else .notSeen
  | none => .notSeen

def observation (db : Db State) (info : BroadcastInfo) (wallet : Wallet) :
    Result BroadcastObservation := do
  let bytes ← okOr db.finalizedDrafts[(info.walletId, info.draftId)]? .storage
  require (bytes.length ≤ maxPsbtBytes) .corruptState
  let tx ← okOr (env.deserializeTx bytes) .corruptState
  require (env.displayTxid (env.computeTxid tx) = info.txid ∧
    env.displayTxid (env.computeWtxid tx) = info.wtxid) .corruptState
  .ok (observeTx env wallet tx)

/-! ## Observation -/

/-- Provenance and label of one wallet-owned output. -/
def applyOutputLabel (w d label txid : String) (vout : Nat) (db : Db State) : Db State :=
  let outpoint := txid ++ ":" ++ toString vout
  let db := { db with outputProvenance := db.outputProvenance.insertIfNew (w, outpoint) d }
  if label = "" then db else db.insertLabelIfNew w .output outpoint label

/-- The wallet-owned outputs, numbered from `vout`. -/
def applyOutputLabels (w d label txid : String) (wallet : Wallet) :
    Nat → List TxOut → Db State → Db State
  | _, [], db => db
  | vout, output :: outputs, db =>
      applyOutputLabels w d label txid wallet (vout + 1) outputs
        (if env.isMine wallet output.scriptPubkey then applyOutputLabel w d label txid vout db
         else db)

/-- Labels of an observed payment, once for each draft; existing labels win. -/
def applyObservedLabels (db : Db State) (w : String) (review : DraftReview) (wallet : Wallet)
    (info : BroadcastInfo) : Result (Db State) :=
  if (db.draftLabelApplications[(w, review.id)]?).isSome then .ok db
  else do
    require ((db.selectDraft w review.id).isSome) .storage
    let db := { db with
      draftLabelApplications := db.draftLabelApplications.insert (w, review.id) () }
    Labels.validateLabel review.label
    let txid ← okOr (env.parseTxid info.txid) .corruptState
    let found ← okOr (env.getTx wallet txid) .corruptState
    let db := if review.label = "" then db
      else db.insertLabelIfNew w .tx info.txid review.label
    .ok (applyOutputLabels env w review.id review.label info.txid wallet 0 found.tx.output db)

/-- `observe_draft`: the database after observing the draft, or `none` when
    its submission is not seen. -/
def observeDraft (db : Db State) (w : String) (review : DraftReview) (wallet : Wallet) :
    Result (Option (Db State)) :=
  match latest db w review.id with
  | none => .ok none
  | some info => do
      let seen ← observation env db info wallet
      if seen = .notSeen then
        .ok none
      else do
        let db ← applyObservedLabels env db w review wallet info
        let db := db.deleteRecovered w review.id
        let db := db.updateReview w review.id (reviewText env (review.withState .observed))
        .ok (some (db.deleteReservations w review.id))

/-! ## Endpoints -/

def loopbackHosts : List String := ["127.0.0.1", "[::1]", "localhost", "10.0.2.2"]

/-- `trim_end_matches('/')`. -/
def trimSlashes (s : String) : String :=
  String.ofList ((s.toList.reverse.dropWhile (· = '/')).reverse)

/-- `sync::endpoint`: HTTPS, or loopback HTTP, without credentials. -/
def endpoint (value : String) (network : Network) (consent : Bool) : Result String := do
  require (consent = true) (.invalidInput "explicit endpoint privacy consent required")
  require (network ≠ .mainnet) (.unavailable "mainnet synchronization")
  require (value.utf8ByteSize ≤ 2048 ∧ ∀ c ∈ value.toList, isControl c = false)
    (.invalidInput "endpoint")
  let url ← okOr (env.parseUrl value) (.invalidInput "endpoint")
  let loopback := url.host.any (fun h => h ∈ loopbackHosts)
  require ((url.scheme = "https" ∨ (url.scheme = "http" ∧ loopback = true)) ∧ url.host ≠ none ∧
    url.username = "" ∧ url.password = none ∧ url.query = none ∧ url.fragment = none)
    (.invalidInput "use HTTPS or loopback HTTP without credentials, query or fragment")
  .ok (trimSlashes url.text)

/-! ## The steps of a broadcast -/

/-- What a request knows after its first look at the database. -/
structure Preflight where
  endpoint : String
  genesis : Bytes
  approved : FinalizedReview
  deriving DecidableEq

/-- The checks before any network traffic. -/
def preflight (db : Db State) (r : BroadcastRequest) : Result Preflight := do
  let loaded ← load env db r.walletId
  require (loaded.summary.network ≠ .mainnet) (.unavailable "mainnet broadcast")
  let endpoint ← endpoint env r.endpoint loaded.summary.network r.privacyConsent
  let finalized ← validatedFinalized env db r.walletId r.draftId
  let approved ← okOr finalized
    (.invalidInput "finalize and review the transaction before broadcast")
  require (r.expectedTxid = approved.txid) (.invalidInput "final transaction ID changed")
  checkPrevious db r.walletId r.draftId r.previousAttempt r.retryAcknowledged
  .ok { endpoint, genesis := env.genesisHash loaded.summary.network, approved }

/-- The answer of the endpoint to the genesis query: `none` when it failed. -/
def checkGenesis (p : Preflight) (body : Option String) : Result Unit := do
  let body ← okOr body .broadcastPreflight
  let found ← okOr (env.parseBlockHash (trim body)) .broadcastPreflight
  require (found = p.genesis) .networkMismatch

/-- Recheck everything, then insert the attempt; returns its id. -/
def insertAttempt (db : Db State) (r : BroadcastRequest) (p : Preflight) (now : Nat) :
    Result (Nat × Db State) := do
  let finalized ← validatedFinalized env db r.walletId r.draftId
  let current ← okOr finalized .corruptState
  require (current = p.approved) .corruptState
  checkPrevious db r.walletId r.draftId r.previousAttempt r.retryAcknowledged
  db.insertAttempt
    { walletId := r.walletId
      draftId := r.draftId
      endpoint := p.endpoint
      txid := current.txid
      wtxid := current.wtxid
      requestedAt := now
      acknowledged := false }

/-- Did the endpoint answer the POST with the transaction id? -/
def isAcknowledged (p : Preflight) (response : Option String) : Bool :=
  response.any (fun text => trim text = p.approved.txid)

/-- `UPDATE broadcast_attempts SET acknowledged=1` of one row of the draft. -/
def acknowledge (db : Db State) (r : BroadcastRequest) (attemptId : Nat) : Db State :=
  match db.broadcastAttempts[attemptId]? with
  | some row =>
      if row.walletId = r.walletId ∧ row.draftId = r.draftId then
        { db with
          broadcastAttempts := db.broadcastAttempts.insert attemptId
            { row with acknowledged := true } }
      else db
  | none => db

def broadcastStatus (db : Db State) (w d : String) : Result (Option BroadcastInfo) := do
  let loaded ← load env db w
  match latest db w d with
  | none => .ok none
  | some info => do
      let seen ← observation env db info loaded.wallet
      .ok (some { info with observation := seen })

end Broadcast
end Tundra
