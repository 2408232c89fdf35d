/-
  Tundra.Scan

  The chain scan of `sync.rs`: the block hashes it collects, the search for
  used scripts along each keychain, the download and check of every
  transaction found, and the final comparison of the tip.  `Found` is the
  state of a scan; its `visits` and the client's log record what was asked and
  answered, and no decision depends on them.
-/

import Tundra.Esplora

namespace Tundra
namespace Scan

open Checked Relational Esplora

variable {State Wallet : Type} (env : ChainEnv State Wallet)

def gapLimit : Nat := 20

/-- Per keychain; reaching it is an error, never a partial success. -/
def maxScripts : Nat := 2000

def maxTxs : Nat := 5000

/-- A script whose history was asked for, with the pages that came. -/
structure Visit where
  keychain : KeychainKind
  index : Nat
  pages : List (List History)
  deriving DecidableEq

/-- Did a script have a history? -/
def Visit.active (v : Visit) : Bool := v.pages.any (fun page => !page.isEmpty)

structure Found where
  http : Http
  blocks : Table Nat BlockHash
  update : Update := {}
  history : Table Txid Status := ∅
  headers : Table BlockHash Header := ∅
  visits : List Visit := []

/-- What a scan depends on besides the wallet: the server, and what looking up
    its own operation says after the n-th script. -/
structure Outside where
  server : Server
  poll : Nat → Result Unit

variable (out : Outside)

/-! ## Block hashes -/

/-- The hash of a block, asked for unless it is known. -/
def fetchBlock (found : Found) (height : Nat) : Result Found :=
  if height ∈ found.blocks then .ok found
  else do
    let (hash, http) ← found.http.hash env out.server height
    .ok { found with http, blocks := found.blocks.insert height hash }

/-- A checkpoint of the wallet, unless it is above the reported tip. -/
def addCheckpoint (height : Nat) (found : Found) (checkpoint : Nat × BlockHash) : Result Found :=
  if checkpoint.1 ≤ height then fetchBlock env out found checkpoint.1 else .ok found

/-- The genesis check and the reported tip.  `BTreeMap::from` keeps the last of
    two entries with one key. -/
def scanBlocks (wallet : Wallet) (endpoint : String) : Result (Nat × BlockHash × Found) := do
  let genesis := env.genesisHash (env.walletNetwork wallet)
  let (first, http) ← ({ endpoint } : Http).hash env out.server 0
  require (first = genesis) .networkMismatch
  let (height, http) ← tipHeight out.server http
  let (tip, http) ← http.hash env out.server height
  let blocks := ((∅ : Table Nat BlockHash).insert 0 genesis).insert height tip
  let found ← (env.checkpoints wallet).foldlM (addCheckpoint env out height) { http, blocks }
  .ok (height, tip, found)

/-! ## Histories -/

/-- One entry of a page, after the ids seen for this script. -/
def addEntry (acc : List Txid × Table Txid Status) (entry : History) :
    Result (List Txid × Table Txid Status) := do
  let (seen, history) := acc
  require (entry.txid ∉ seen) .syncFailed
  require (history[entry.txid]?.all (· = entry.status)) .staleSync
  let history := history.insert entry.txid entry.status
  require (history.size ≤ maxTxs) .syncLimit
  .ok (entry.txid :: seen, history)

def confirmedCount (page : List History) : Nat :=
  (page.filter (fun entry => entry.status.confirmed)).length

/-- The last confirmed entry of a page. -/
def lastConfirmed (page : List History) : Option Txid :=
  (page.reverse.find? (fun entry => entry.status.confirmed)).map History.txid

/-- The pages of one script.  A full page of 25 confirmed entries is followed
    by the next one; every page takes a request, so the fuel of a scan is the
    limit on requests. -/
def scanPages (hash : String) : Nat → String → List Txid → List (List History) → Found →
    Result (List (List History) × Found)
  | 0, _, _, _, _ => .error .syncLimit
  | fuel + 1, path, seen, pages, found => do
      let (page, http) ← found.http.json out.server env.parseHistory path
      let confirmed := confirmedCount page
      require (¬ (50 ≤ page.length - confirmed ∨ 25 < confirmed)) .syncLimit
      let (seen, history) ← page.foldlM addEntry (seen, found.history)
      let found := { found with http, history }
      if confirmed < 25 then .ok (pages ++ [page], found)
      else do
        let last ← okOr (lastConfirmed page) .syncFailed
        scanPages hash fuel ("/scripthash/" ++ hash ++ "/txs/chain/" ++ env.displayTxid last)
          seen (pages ++ [page]) found

/-! ## Scripts -/

/-- `last_active_indices.insert`. -/
def setActive (update : Update) (k : KeychainKind) (index : Nat) : Update :=
  { update with
    lastActiveIndices := update.lastActiveIndices.filter (fun row => row.1 ≠ k) ++ [(k, index)] }

/-- May the scan of a keychain stop after this index? -/
def pastGap (wallet : Wallet) (k : KeychainKind) (index gap : Nat) : Bool :=
  gapLimit ≤ gap &&
    min ((env.derivationIndex wallet k).getD 0 + (gapLimit - 1)) (2 ^ 32 - 1) ≤ index

/-- One script: its history, its place among the active ones, and the look at
    the operation. -/
def scanScript (wallet : Wallet) (k : KeychainKind) (index : Nat) (found : Found) :
    Result (Visit × Found) := do
  let hash := env.scriptHash (env.peekScript wallet k index)
  let (pages, found) ← scanPages env out hash (maxRequests + 1) ("/scripthash/" ++ hash ++ "/txs")
    [] [] found
  let visit : Visit := { keychain := k, index, pages }
  let found := { found with
    update := if visit.active then setActive found.update k index else found.update
    visits := found.visits ++ [visit] }
  out.poll found.visits.length
  .ok (visit, found)

/-- The scripts of a keychain from an index on; `gap` counts the unused ones
    before it. -/
def scanScripts (wallet : Wallet) (k : KeychainKind) : Nat → Nat → Nat → Found → Result Found
  | 0, _, _, _ => .error .syncLimit
  | remaining + 1, index, gap, found => do
      let (visit, found) ← scanScript env out wallet k index found
      let gap := if visit.active then 0 else gap + 1
      if pastGap env wallet k index gap then .ok found
      else scanScripts wallet k remaining (index + 1) gap found

def scanKeychain (wallet : Wallet) (found : Found) (k : KeychainKind) : Result Found :=
  scanScripts env out wallet k maxScripts 0 0 found

/-! ## Transactions -/

def fetchHeader (found : Found) (hash : BlockHash) : Result Found :=
  if hash ∈ found.headers then .ok found
  else do
    let (text, http) ← found.http.text out.server
      ("/block/" ++ env.displayBlockHash hash ++ "/header") 160
    let bytes ← okOr (env.fromHex text) .syncFailed
    let header ← okOr (env.deserializeHeader bytes) .syncFailed
    require (env.headerHash header = hash) .syncFailed
    .ok { found with http, headers := found.headers.insert hash header }

/-- A confirmed entry: its block, its header and its Merkle proof. -/
def anchorTx (height : Nat) (txid : Txid) (status : Status) (found : Found) : Result Found := do
  let h ← okOr status.blockHeight .syncFailed
  let hash ← okOr status.blockHash .syncFailed
  require (h ≤ height) .staleSync
  let found ← fetchBlock env out found h
  require (found.blocks[h]? = some hash) .staleSync
  let found ← fetchHeader env out found hash
  let header ← okOr found.headers[hash]? .syncFailed
  let (proof, http) ← found.http.json out.server env.parseProof
    ("/tx/" ++ env.displayTxid txid ++ "/merkle-proof")
  verifyProof env txid proof header h
  require (status.blockTime = some header.time.toNat) .syncFailed
  let anchor := { height := h, hash, confirmationTime := header.time.toNat }
  .ok { found with
    http
    update := { found.update with anchors := found.update.anchors ++ [(anchor, txid)] } }

/-- An unconfirmed entry, seen at the time of this scan. -/
def seeTx (observedAt : Nat) (txid : Txid) (status : Status) (found : Found) : Result Found := do
  require (status.blockHash = none ∧ status.blockHeight = none) .syncFailed
  .ok { found with
    update := { found.update with seenAts := found.update.seenAts ++ [(txid, observedAt)] } }

/-- The anchor or the time of an entry. -/
def placeTx (height observedAt : Nat) (txid : Txid) (status : Status) (found : Found) :
    Result Found :=
  if status.confirmed then anchorTx env out height txid status found
  else seeTx observedAt txid status found

def addTransaction (height observedAt : Nat) (found : Found) (row : Txid × Status) :
    Result Found := do
  let (txid, status) := row
  let (raw, http) ← found.http.bytes out.server ("/tx/" ++ env.displayTxid txid ++ "/raw") maxBody
  let tx ← okOr (env.deserializeTx raw) .syncFailed
  require (env.computeTxid tx = txid) .syncFailed
  let found := { found with http }
  let found ← placeTx env out height observedAt txid status found
  .ok { found with update := { found.update with txs := found.update.txs ++ [tx] } }

/-- The canonical transactions that no history mentions. -/
def evict (observedAt : Nat) (wallet : Wallet) (found : Found) : Found :=
  { found with
    update := { found.update with
      evictedAts := found.update.evictedAts ++
        ((env.transactions wallet).filter (fun txid => txid ∉ found.history)).map
          (fun txid => (txid, observedAt)) } }

/-! ## The scan -/

/-- The scan with its record: the reported height, the tip and what was found. -/
def scanAll (wallet : Wallet) (endpoint : String) (observedAt : Nat) :
    Result (Nat × BlockHash × Found) := do
  let (height, tip, found) ← scanBlocks env out wallet endpoint
  let found ← [KeychainKind.external, .internal].foldlM (scanKeychain env out wallet) found
  let found ← found.history.toList.foldlM (addTransaction env out height observedAt) found
  let found := evict env observedAt wallet found
  let (last, http) ← found.http.hash env out.server height
  require (last = tip) .staleSync
  let (reported, http) ← tipHeight out.server http
  require (reported = height) .staleSync
  .ok (height, tip, { found with http })

def scan (wallet : Wallet) (endpoint : String) (observedAt : Nat) : Result ChainScan := do
  let (_, _, found) ← scanAll env out wallet endpoint observedAt
  .ok { blocks := found.blocks, update := found.update }

end Scan
end Tundra
