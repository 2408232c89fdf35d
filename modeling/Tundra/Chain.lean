/-
  Tundra.Chain

  What a chain scan reads from a server and hands to the wallet (`sync.rs`):
  histories, headers and Merkle proofs on one side, the checkpoints and the
  update on the other.  `ChainEnv` adds to the crates what the scan calls, and
  what a snapshot keeps of earlier scans.
-/

import Tundra.Env

namespace Tundra

open Relational

/-- A block hash, in internal byte order. -/
abbrev BlockHash := Bytes

/-- `ConfirmationBlockTime`: the block that confirms a transaction. -/
structure ConfirmationBlockTime where
  height : Nat
  hash : BlockHash
  confirmationTime : Nat
  deriving DecidableEq, Repr

/-- The parts of `bdk_wallet::Update` that a scan fills. -/
structure Update where
  txs : List Transaction := []
  anchors : List (ConfirmationBlockTime × Txid) := []
  seenAts : List (Txid × Nat) := []
  evictedAts : List (Txid × Nat) := []
  lastActiveIndices : List (KeychainKind × Nat) := []
  deriving DecidableEq, Repr

/-- `Scan`. -/
structure ChainScan where
  blocks : Table Nat BlockHash
  update : Update
  deriving DecidableEq

/-! ## What a server answers -/

/-- `Status`. -/
structure Status where
  confirmed : Bool
  blockHeight : Option Nat
  blockHash : Option BlockHash
  blockTime : Option Nat
  deriving DecidableEq, Repr

/-- `History`: one entry of a history page. -/
structure History where
  txid : Txid
  status : Status
  deriving DecidableEq, Repr

/-- `Proof`. -/
structure Proof where
  blockHeight : Nat
  merkle : List Txid
  pos : Nat
  deriving DecidableEq, Repr

/-- `block::Header`. -/
structure Header where
  version : UInt32
  prevBlockhash : BlockHash
  merkleRoot : Bytes
  time : UInt32
  bits : UInt32
  nonce : UInt32
  deriving DecidableEq, Repr

/-! ## The crates of a scan -/

/-- The later of a recorded time and those of an update. -/
def latestTime (recorded : Option Nat) (times : List Nat) : Option Nat :=
  times.foldl (fun latest t => some (max t (latest.getD 0))) recorded

/-- The times a list of observations has for one transaction. -/
def timesOf (rows : List (Txid × Nat)) (txid : Txid) : List Nat :=
  (rows.filter (fun row => row.1 = txid)).map Prod.snd

/-- The crates of the engine with those of a chain scan.  `chainBlocks`,
    `lastRevealed`, `lastSeen` and `lastEvicted` read a wallet's snapshot. -/
structure ChainEnv (State Wallet : Type) extends Env State Wallet ChainScan where
  /-- `sha256::Hash::hash(script)` as text. -/
  scriptHash : Script → String
  /-- `sha256d::Hash::hash`. -/
  sha256d : Bytes → Bytes
  displayBlockHash : BlockHash → String
  /-- `serde_json::from_slice` of a history page and of a Merkle proof. -/
  parseHistory : Bytes → Option (List History)
  parseProof : Bytes → Option Proof
  /-- `Vec::<u8>::from_hex`. -/
  fromHex : String → Option Bytes
  deserializeHeader : Bytes → Option Header
  /-- `Header::block_hash`. -/
  headerHash : Header → BlockHash
  /-- The last revealed index of a keychain. -/
  derivationIndex : Wallet → KeychainKind → Option Nat
  /-- The checkpoints of the local chain, tip first. -/
  checkpoints : Wallet → List (Nat × BlockHash)
  /-- The ids of the canonical transactions. -/
  transactions : Wallet → List Txid
  chainBlocks : State → Table Nat BlockHash
  lastRevealed : State → KeychainKind → Option Nat
  lastSeen : State → Txid → Option Nat
  lastEvicted : State → Txid → Option Nat
  /-- A new wallet has the genesis block and nothing else. -/
  createWallet_chain : ∀ n receive change w state, createWallet n receive change = some w →
    takeStaged w = some state →
    (chainBlocks state)[0]? = some (genesisHash n) ∧ lastRevealed state = (fun _ => none) ∧
    lastSeen state = (fun _ => none) ∧ lastEvicted state = (fun _ => none)
  /-- Revealing addresses changes no block and no observation. -/
  savedState_revealAll : ∀ n state w keychains, loadWallet n state = some w →
    chainBlocks (toEnv.savedState state (toEnv.revealAll w keychains)) = chainBlocks state ∧
    lastSeen (toEnv.savedState state (toEnv.revealAll w keychains)) = lastSeen state ∧
    lastEvicted (toEnv.savedState state (toEnv.revealAll w keychains)) = lastEvicted state
  replaceBlocks_chain : ∀ state scan,
    chainBlocks (replaceBlocks state scan) = scan.blocks ∧
    lastRevealed (replaceBlocks state scan) = lastRevealed state ∧
    lastSeen (replaceBlocks state scan) = lastSeen state ∧
    lastEvicted (replaceBlocks state scan) = lastEvicted state
  /-- An update without a chain leaves the blocks; the later time of an
      observation is kept. -/
  applyUpdate_chain : ∀ n state w scan w', loadWallet n state = some w →
    applyUpdate w scan = some w' →
    chainBlocks (toEnv.savedState state w') = chainBlocks state ∧
    (∀ txid, lastSeen (toEnv.savedState state w') txid =
      latestTime (lastSeen state txid) (timesOf scan.update.seenAts txid)) ∧
    ∀ txid, lastEvicted (toEnv.savedState state w') txid =
      latestTime (lastEvicted state txid) (timesOf scan.update.evictedAts txid)

end Tundra
