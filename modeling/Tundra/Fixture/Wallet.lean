/-
  Tundra.Fixture.Wallet

  A small descriptor wallet that works as BDK's does where the engine looks:
  it recognises the scripts up to 25 past the last revealed one, learns its
  transactions from scans, and spends what its unspent outputs hold.

  Keys, hashes and addresses outside the fixture's data have stand-ins of the
  right shape.
-/

import Mathlib.Data.UInt
import Tundra.Fixture.Data
import Tundra.Fixture.Maps
import Tundra.Chain

namespace Tundra
namespace Fixture

open Ascii Wire Relational

/-! ## Keys and scripts -/

/-- A 33-byte key; other byte strings are padded or cut. -/
def keyOfBytes (bytes : Bytes) : SecpKey where
  bytes := (bytes ++ List.replicate 33 0).take 33
  size := by simp

/-- The public key of an extended key below its branch. -/
def childKey (key : DescriptorPublicKey) (index : Nat) : PublicKey where
  compressed := true
  inner := keyOfBytes (match key with
    | .xpub x =>
        let branch := x.derivationPath.headD 0
        (childKeys.lookup (branch, index)).getD
          (0x02 :: (leBytes 8 index ++ encodeU32 branch ++ x.xkey.drop 45))
    | .other text => 0x03 :: (leBytes 8 index ++ text.toUTF8.toList))

/-- The derivation of a key for a PSBT, if its origin is known. -/
def derivationRow (index : Nat) (key : DescriptorPublicKey) : Option (SecpKey × KeySource) :=
  match key with
  | .xpub x => x.origin.map (fun o => ((childKey key index).inner,
      { fingerprint := o.fingerprint
        path := o.path ++ x.derivationPath ++ [UInt32.ofNat index] }))
  | .other _ => none

def derivations (d : PublicDescriptor) (index : Nat) : Table SecpKey KeySource :=
  (d.keys.filterMap (derivationRow index)).foldl (fun t row => t.insert row.1 row.2) ∅

/-- The descriptor at one index. -/
def derive (d : PublicDescriptor) (index : Nat) : Descriptor :=
  match d with
  | .wpkh key => .wpkh (childKey key index)
  | .wshSortedMulti k keys => .wshSortedMulti k (keys.map (fun key => childKey key index))
  | .other _ => .other

/-- HASH160 of the fixture's keys; the last 20 bytes of another. -/
def keyHash (bytes : Bytes) : Bytes :=
  (keyHashes.lookup bytes).getD ((bytes.reverse ++ List.replicate 20 0).take 20)

/-- `k` of the keys in the order of their bytes, as `OP_CHECKMULTISIG` takes them. -/
def multisigScript (k : Nat) (keys : List PublicKey) : Script :=
  let sorted := (keys.map publicKeyBytes).insertionSort (fun a b => (compare a b).isLE)
  UInt8.ofNat (0x50 + k) :: (sorted.flatMap (fun key => UInt8.ofNat key.length :: key) ++
    [UInt8.ofNat (0x50 + keys.length), 0xae])

/-- A 32-byte digest in the place of SHA-256 of a long script. -/
def digest32 (bytes : Bytes) : Bytes := (bytes.reverse ++ List.replicate 32 0).take 32

def scriptPubkey : Descriptor → Script
  | .wpkh key => 0x00 :: 0x14 :: keyHash (publicKeyBytes key)
  | .wshSortedMulti k keys => 0x00 :: 0x20 :: digest32 (multisigScript k keys)
  | .other => [0x6a]

def explicitScript : Descriptor → Option Script
  | .wshSortedMulti k keys => some (multisigScript k keys)
  | _ => none

def deriveInput (d : PublicDescriptor) (index : Nat) : Option (PsbtInput × Descriptor) :=
  some ({ witnessScript := explicitScript (derive d index)
          bip32Derivation := derivations d index }, derive d index)

def deriveOutput (d : PublicDescriptor) (index : Nat) : Option (PsbtOutput × Descriptor) :=
  some ({ witnessScript := explicitScript (derive d index)
          bip32Derivation := derivations d index }, derive d index)

def addressFromScript (_ : Network) (script : Script) : Option String :=
  match addresses.lookup script with
  | some address => some address
  | none => if script.length ≤ 42 then some (String.ofList (hexChars script)) else none

/-- The addresses of the test networks. -/
def parseAddress (text : String) : Option (Network → Option Script) :=
  ((addresses.map (fun row => (row.2, row.1))).lookup text).map
    (fun script network => if network = .mainnet then none else some script)

/-! ## The wallet -/

structure TestWallet where
  network : Network
  external : PublicDescriptor
  internal : PublicDescriptor
  /-- The descriptors' texts. -/
  texts : String × String
  lastExternal : Option Nat := none
  lastInternal : Option Nat := none
  /-- The scripts the wallet recognises, with their places. -/
  recognised : List (Script × KeychainKind × Nat)
  chain : Table Nat BlockHash
  graph : List (Txid × Transaction) := []
  anchors : List (ConfirmationBlockTime × Txid) := []
  lastSeen : Table Txid Nat := ∅
  lastEvicted : Table Txid Nat := ∅
  /-- The unspent outputs, and all outputs, of the canonical transactions. -/
  unspent : List LocalOutput := []
  outputs : List OutPoint := []
  deriving DecidableEq

namespace TestWallet

variable (w : TestWallet)

def descriptor : KeychainKind → PublicDescriptor
  | .external => w.external
  | .internal => w.internal

/-- The last revealed index of a keychain. -/
def lastRevealed : KeychainKind → Option Nat
  | .external => w.lastExternal
  | .internal => w.lastInternal

def setRevealed (k : KeychainKind) (index : Nat) : TestWallet :=
  match k with
  | .external => { w with lastExternal := some index }
  | .internal => { w with lastInternal := some index }

def peekScript (k : KeychainKind) (index : Nat) : Script :=
  scriptPubkey (derive (w.descriptor k) index)

def peekAddress (k : KeychainKind) (index : Nat) : String :=
  (addressFromScript w.network (w.peekScript k index)).getD ""

def derivationOfSpk (script : Script) : Option (KeychainKind × Nat) :=
  w.recognised.lookup script

/-- How many scripts past the last revealed one are recognised. -/
def lookahead : Nat := 25

/-- The index the next reveal takes. -/
def nextIndex (k : KeychainKind) : Nat :=
  match w.lastRevealed k with
  | some index => index + 1
  | none => 0

def revealNext (k : KeychainKind) : AddressInfo × TestWallet :=
  let index := w.nextIndex k
  let hidden := index + lookahead
  ({ index, address := w.peekAddress k index, scriptPubkey := w.peekScript k index },
    { (w.setRevealed k index) with
      recognised := w.recognised ++ [(w.peekScript k hidden, k, hidden)] })

/-- Reveal up to an index. -/
def revealTo (k : KeychainKind) (index : Nat) : Nat → TestWallet → TestWallet
  | 0, w => w
  | fuel + 1, w =>
      if w.nextIndex k ≤ index then revealTo k index fuel (w.revealNext k).2 else w

def tipHeight : Nat := (w.chain.toList.getLast?.map Prod.fst).getD 0

/-! ### Transactions -/

/-- Where a transaction stands: in a block of the chain, in the mempool, or nowhere. -/
def position (txid : Txid) : Option ChainPosition :=
  match w.anchors.find? (fun a => a.2 = txid ∧ w.chain[a.1.height]? = some a.1.hash) with
  | some a => some (.confirmed a.1.height)
  | none =>
      match w.lastSeen[txid]? with
      | none => none
      | some seen =>
          if (w.lastEvicted[txid]?).any (fun evicted => seen ≤ evicted) then none
          else some (.unconfirmed (some seen))

/-- The canonical transactions. -/
def canonical : List (Txid × WalletTx) :=
  w.graph.filterMap (fun row => (w.position row.1).map (fun p =>
    (row.1, { tx := row.2, chainPosition := p })))

def getTx (txid : Txid) : Option WalletTx := w.canonical.lookup txid

/-- The outputs of one transaction that the wallet recognises. -/
def ownOutputs (row : Txid × WalletTx) : List LocalOutput :=
  (row.2.tx.output.zipIdx.filter (fun o => (w.derivationOfSpk o.1.scriptPubkey).isSome)).map
    (fun o =>
      { outpoint := { txid := row.1, vout := UInt32.ofNat o.2 }
        txout := o.1
        chainPosition := row.2.chainPosition })

/-- Index the canonical transactions again. -/
def reindex : TestWallet :=
  let own := w.canonical.flatMap w.ownOutputs
  let spent := w.canonical.flatMap (fun row => row.2.tx.previousOutputs)
  { w with
    unspent := own.filter (fun o => o.outpoint ∉ spent)
    outputs := own.map LocalOutput.outpoint }

/-- One unspent output for each outpoint. -/
def listUnspent : List LocalOutput :=
  w.unspent.pwFilter (fun a b => a.outpoint ≠ b.outpoint)

/-- Keep the later of two times. -/
def stamp (t : Table Txid Nat) (row : Txid × Nat) : Table Txid Nat :=
  t.insert row.1 (max row.2 ((t[row.1]?).getD 0))

/-- The wallet with the addresses up to the last active ones revealed. -/
def revealActive (active : List (KeychainKind × Nat)) : TestWallet :=
  active.foldl (fun w k => revealTo k.1 k.2 (k.2 + 1) w) w

/-- The transactions of an update that are new. -/
def newTxs (id : Transaction → Txid) (txs : List Transaction) : List (Txid × Transaction) :=
  (txs.map (fun tx => (id tx, tx))).filter (fun row => row.1 ∉ w.graph.map Prod.fst)

/-- `apply_update`: refused when the chain is empty. -/
def applyUpdate (id : Transaction → Txid) (scan : ChainScan) : Option TestWallet :=
  if w.chain.isEmpty then none
  else
    let revealed := w.revealActive scan.update.lastActiveIndices
    some { revealed with
      graph := w.graph ++ w.newTxs id scan.update.txs
      anchors := w.anchors ++ scan.update.anchors.filter (fun a => a ∉ w.anchors)
      lastSeen := scan.update.seenAts.foldl stamp w.lastSeen
      lastEvicted := scan.update.evictedAts.foldl stamp w.lastEvicted }.reindex

/-- The fee: what the spent coins hold beyond the outputs. -/
def calculateFee (tx : Transaction) : Option UInt64 := do
  let coins ← tx.previousOutputs.mapM (fun op => w.listUnspent.find? (fun c => c.outpoint = op))
  let spent := (coins.map (fun c => c.txout.value.toNat)).sum
  let paid := (tx.output.map (fun o => o.value.toNat)).sum
  if paid ≤ spent ∧ spent < 2 ^ 63 then some (UInt64.ofNat (spent - paid)) else none

/-- The values of the wallet's outputs that a transaction spends, and of those it pays. -/
def sentAndReceived (tx : Transaction) : UInt64 × UInt64 :=
  let own := w.canonical.flatMap w.ownOutputs
  (((own.filter (fun o => o.outpoint ∈ tx.previousOutputs)).map (fun o => o.txout.value)).sum,
    ((tx.output.filter (fun o => (w.derivationOfSpk o.scriptPubkey).isSome)).map
      (fun o => o.value)).sum)

end TestWallet

end Fixture
end Tundra
