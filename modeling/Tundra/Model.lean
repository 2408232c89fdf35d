/-
  Tundra.Model

  The records the engine returns and stores (`model.rs`).
-/

import Tundra.Bitcoin
import Tundra.Error

namespace Tundra

open Std

inductive Network where
  | mainnet
  | signet
  | testnet
  | regtest
  deriving DecidableEq, Repr

namespace Network

def key : Network → String
  | .mainnet => "mainnet"
  | .signet => "signet"
  | .testnet => "testnet"
  | .regtest => "regtest"

def parse (s : String) : Result Network :=
  if s = "mainnet" then .ok .mainnet
  else if s = "signet" then .ok .signet
  else if s = "testnet" then .ok .testnet
  else if s = "regtest" then .ok .regtest
  else .error (.invalidInput "network")

/-- A stored network key names its own network. -/
theorem parse_key (n : Network) : parse n.key = .ok n := by
  cases n <;> rfl

end Network

inductive Policy where
  | singleSig
  | twoOfThree
  deriving DecidableEq, Repr

namespace Policy

def key : Policy → String
  | .singleSig => "single_sig"
  | .twoOfThree => "two_of_three"

/-- The policies `load` knows by name. -/
def parse (s : String) : Result Policy :=
  if s = "single_sig" then .ok .singleSig
  else if s = "two_of_three" then .ok .twoOfThree
  else .error .corruptState

theorem parse_key (p : Policy) : parse p.key = .ok p := by
  cases p <;> rfl

end Policy

structure ImportPreview where
  id : String
  network : Network
  policy : Policy
  receiveDescriptor : String
  changeDescriptor : String
  firstAddress : String
  deriving DecidableEq, Repr

structure WalletSummary where
  id : String
  name : String
  network : Network
  policy : Policy
  /-- `none` means no successful scan. -/
  syncedAt : Option Nat
  totalSats : Option UInt64
  availableSats : Option UInt64
  deriving DecidableEq, Repr

structure ReceiveAddress where
  address : String
  index : Nat
  hardwareVerified : Bool
  deriving DecidableEq, Repr

inductive CoinStatus where
  | available
  | frozen
  | reserved
  | pending
  | immature
  deriving DecidableEq, Repr

structure Coin where
  outpoint : String
  sats : UInt64
  label : String
  address : String
  status : CoinStatus
  deriving DecidableEq, Repr

structure Activity where
  txid : String
  label : String
  deltaSats : Int
  confirmed : Bool
  deriving DecidableEq, Repr

inductive Payment where
  | send (address : String) (sats : UInt64)
  | sendMax (address : String)
  | consolidate (privacyAcknowledged : Bool)
  deriving DecidableEq, Repr

structure DraftRequest where
  walletId : String
  payment : Payment
  /-- `none` means automatic selection. -/
  selectedOutpoints : Option (List String)
  feeSatPerKwu : UInt64
  label : String
  deriving DecidableEq, Repr

structure ReviewedInput where
  outpoint : String
  sats : UInt64
  label : String
  deriving DecidableEq, Repr

structure ReviewedOutput where
  address : String
  sats : UInt64
  isChange : Bool
  isMine : Bool
  deriving DecidableEq, Repr

/-- The `state` text of a review.  `other` is a text the engine never writes. -/
inductive DraftState where
  | unsigned
  | partiallySigned
  | signed
  | finalized
  | observed
  | invalidated
  | other (text : String)
  deriving DecidableEq, Repr

namespace DraftState

/-- The states `load_draft` accepts. -/
def isLive : DraftState → Bool
  | .unsigned | .partiallySigned | .signed | .finalized => true
  | .observed | .invalidated | .other _ => false

/-- The states a restored backup may hold. -/
def isKnown : DraftState → Bool
  | .other _ => false
  | _ => true

@[simp] theorem isLive_unsigned : isLive .unsigned = true := rfl
@[simp] theorem isLive_partiallySigned : isLive .partiallySigned = true := rfl
@[simp] theorem isLive_signed : isLive .signed = true := rfl
@[simp] theorem isLive_finalized : isLive .finalized = true := rfl
@[simp] theorem isLive_observed : isLive .observed = false := rfl
@[simp] theorem isLive_invalidated : isLive .invalidated = false := rfl

/-- The state's text in the review. -/
def text : DraftState → String
  | .unsigned => "unsigned"
  | .partiallySigned => "partially_signed"
  | .signed => "signed"
  | .finalized => "finalized"
  | .observed => "observed"
  | .invalidated => "invalidated"
  | .other text => text

end DraftState

structure DraftReview where
  id : String
  walletId : String
  inputs : List ReviewedInput
  outputs : List ReviewedOutput
  feeSats : UInt64
  feeSatPerKwu : Option UInt64
  label : String
  isConsolidation : Bool
  state : DraftState
  deriving DecidableEq, Repr

/-- The review with another state. -/
def DraftReview.withState (r : DraftReview) (s : DraftState) : DraftReview :=
  { r with state := s }

namespace DraftReview

variable (r : DraftReview) (s t : DraftState)

@[simp] theorem withState_state : (r.withState s).state = s := rfl
@[simp] theorem withState_id : (r.withState s).id = r.id := rfl
@[simp] theorem withState_walletId : (r.withState s).walletId = r.walletId := rfl
@[simp] theorem withState_inputs : (r.withState s).inputs = r.inputs := rfl
@[simp] theorem withState_outputs : (r.withState s).outputs = r.outputs := rfl
@[simp] theorem withState_feeSats : (r.withState s).feeSats = r.feeSats := rfl
@[simp] theorem withState_label : (r.withState s).label = r.label := rfl
@[simp] theorem withState_withState : (r.withState s).withState t = r.withState t := rfl
theorem withState_self : r.withState r.state = r := rfl

end DraftReview

structure InputSigningProgress where
  outpoint : String
  validSignatures : Nat
  requiredSignatures : Nat
  deriving DecidableEq, Repr

structure SigningProgress where
  draftId : String
  inputs : List InputSigningProgress
  complete : Bool
  deriving DecidableEq, Repr

structure FinalizedReview where
  walletId : String
  draftId : String
  txid : String
  wtxid : String
  feeSats : UInt64
  weightWu : Nat
  vsize : Nat
  /-- Exact transaction bytes, including the verified witnesses. -/
  transactionBytes : Bytes
  deriving DecidableEq, Repr

/-- The kinds of reference a label can be about. -/
inductive LabelKind where
  | addr
  | output
  | tx
  deriving DecidableEq, Repr

namespace LabelKind

def key : LabelKind → String
  | .addr => "addr"
  | .output => "output"
  | .tx => "tx"

def parse (s : String) : Option LabelKind :=
  if s = "addr" then some .addr
  else if s = "output" then some .output
  else if s = "tx" then some .tx
  else none

/-- The alphabetic rank, which orders the rows of the label table. -/
def rank : LabelKind → Nat
  | .addr => 0
  | .output => 1
  | .tx => 2

instance : Ord LabelKind := ⟨compareOn rank⟩

instance : TransOrd LabelKind := inferInstanceAs (TransCmp (compareOn rank))

instance : LawfulEqOrd LabelKind where
  eq_of_compare {a b} h := by
    cases a <;> cases b <;> first | rfl | exact absurd h (by decide)

end LabelKind

end Tundra
