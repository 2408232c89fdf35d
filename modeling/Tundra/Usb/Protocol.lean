/-
  Tundra.Usb.Protocol

  The restricted Ledger driver (`usb/protocol.rs`).  A session identifies the
  device in three commands (its application, its fingerprint, its account) and
  then gives the one command of its intent.  The command interpreter is a crate
  (`Bhwi`) that may ask for more exchanges at any point; everything a device
  sends goes through the reader and the checks of this file first.

  A method that fails keeps what it wrote (`Lib.Method`); `receive` closes the
  session after every failure.  Times are nanoseconds, an argument of each call.
-/

import Tundra.Descriptor
import Tundra.Usb.Framing
import Tundra.Lib.Ascii
import Tundra.Lib.Method

namespace Tundra
namespace Usb
namespace Protocol

open Checked Relational Stateful

/-! ## The command interpreter -/

/-- `[u8; 32]`. -/
@[ext]
structure Bytes32 where
  bytes : Bytes
  size : bytes.length = 32
  deriving Repr

instance instDecidableEqBytes32 : DecidableEq Bytes32 := fun a b =>
  decidable_of_iff (a.bytes = b.bytes) Bytes32.ext_iff.symm

/-- `Vec<u8>::try_into`. -/
def Bytes32.ofBytes (bytes : Bytes) : Option Bytes32 :=
  if h : bytes.length = 32 then some ⟨bytes, h⟩ else none

inductive Version where
  | v1
  | v2
  deriving DecidableEq, Repr

/-- `LedgerWalletPolicy`, over the crate's wallet policies. -/
structure LedgerWalletPolicy (Policy : Type) where
  name : String
  version : Version
  policy : Policy

/-- `DeviceContext::Ledger`. -/
structure DeviceContext (Policy : Type) where
  walletPolicy : LedgerWalletPolicy Policy
  walletHmac : Option Bytes32

/-- `DisplayAddress::ByDescriptor`. -/
structure DisplayAddress where
  index : Nat
  change : Bool
  display : Bool
  descriptorName : String
  deriving DecidableEq, Repr

/-- `bhwi::common::Command`, as far as the driver gives commands. -/
inductive Command (Policy : Type) where
  | getVersion
  | getMasterFingerprint
  | getXpub (path : List UInt32) (display : Bool)
  | registerWallet (name : String) (policy : Policy)
  | displayAddress (address : DisplayAddress) (context : Option (DeviceContext Policy))
  | signTx (psbt : Psbt) (context : Option (DeviceContext Policy))

inductive Recipient where
  | device
  | other
  deriving DecidableEq, Repr

structure Transmit where
  recipient : Recipient
  payload : Bytes
  encrypted : Bool
  deriving DecidableEq, Repr

/-- The parts of `bhwi::common::Info` that the driver reads. -/
structure Info where
  version : String
  firmware : Option String
  deriving DecidableEq, Repr

inductive WalletRegistration where
  | complete (hmac : Option Bytes32)
  | other
  deriving DecidableEq, Repr

inductive Response where
  | info (info : Info)
  | masterFingerprint (fingerprint : UInt32)
  | xpub (xpub : Xpub)
  | walletRegistration (registration : WalletRegistration)
  | address (address : String)
  | signedPsbt (psbt : Psbt)
  | other
  deriving DecidableEq

/-- `bhwi::common::Error`. -/
inductive BhwiError where
  | userCancelled
  | other
  deriving DecidableEq, Repr

/-- The `bhwi` crate: an interpreter runs one command, from the first message to
    the device up to the response.  The crate has a miniscript of its own. -/
structure Bhwi (Interpreter Policy : Type) where
  start : Command Policy → Except BhwiError (Interpreter × Transmit)
  exchange : Interpreter → Bytes → Except BhwiError (Interpreter × Option Transmit)
  /-- `Interpreter::end`. -/
  finish : Interpreter → Except BhwiError Response
  /-- `LedgerWalletPolicy::id`. -/
  policyId : LedgerWalletPolicy Policy → Option Bytes32
  parseDescriptor : String → Option PublicDescriptor
  parseKey : String → Option DescriptorPublicKey
  /-- `WalletPolicy::from_str`. -/
  parsePolicy : String → Option Policy
  setKeyInfo : Policy → List DescriptorPublicKey → Option Policy

/-! ## Contexts -/

def maxExchanges : Nat := 4096

def maxReceivedBytes : Nat := 4 * 1048576

def lifetime : Nat := 180 * 1000000000

def invalid : Error := .invalidInput "invalid or unexpected Ledger response"

def cancelled : Error := .invalidInput "hardware operation cancelled on the device"

def protocolError : BhwiError → Error
  | .userCancelled => cancelled
  | .other => invalid

structure Account where
  fingerprint : UInt32
  path : List UInt32
  xpub : Xpub
  deriving DecidableEq, Repr

structure Context (Policy : Type) where
  policy : LedgerWalletPolicy Policy
  accounts : List Account
  registrations : Table UInt32 Bytes32

section Contexts

variable {State Wallet Scan Interpreter Policy : Type} (env : Env State Wallet Scan)
  (bhwi : Bhwi Interpreter Policy)

/-- The account of a key, and the key as the device is told it. -/
def accountOf : DescriptorPublicKey → Result (Account × DescriptorPublicKey)
  | .xpub key => do
      let origin ← okOr key.origin invalid
      let info ← okOr (bhwi.parseKey
        ("[" ++ env.displayKeySource origin ++ "]" ++ env.displayXpub key.xkey ++ "/<0;1>/*")) invalid
      .ok ({ fingerprint := origin.fingerprint, path := origin.path, xpub := key.xkey }, info)
  | .other _ => .error invalid

def template : Tundra.Policy → String
  | .singleSig => "wpkh(@0/**)"
  | .twoOfThree => "wsh(sortedmulti(2,@0/**,@1/**,@2/**))"

def Context.fromPreview (preview : ImportPreview) : Result (Context Policy) := do
  let checked ← Descriptors.previewImport env
    (preview.receiveDescriptor ++ "\n" ++ preview.changeDescriptor) preview.network
  require (checked.network ≠ .mainnet) (.unavailable "mainnet hardware operations")
  let descriptor ← okOr (bhwi.parseDescriptor checked.receiveDescriptor) invalid
  let keys ← descriptor.keys.mapM (accountOf env bhwi)
  let policy ← okOr (bhwi.parsePolicy (template checked.policy)) invalid
  let policy ← okOr (bhwi.setKeyInfo policy (keys.map Prod.snd)) invalid
  .ok
    { policy := { name := "Tundra", version := .v2, policy }
      accounts := keys.map Prod.fst
      registrations := ∅ }

end Contexts

/-! ## Sessions -/

inductive Intent where
  | inspect
  | register
  | address (index : Nat) (expected : String)
  | sign (psbt : Psbt)
  deriving DecidableEq

inductive Outcome where
  | inspected
  | registered (hmac : Bytes32)
  | addressMatches
  | signed (psbt : Psbt)
  deriving DecidableEq

/-- `State`. -/
inductive SessionState where
  | waiting
  | complete
  | cancelled
  | failed
  deriving DecidableEq, Repr

structure Update where
  state : SessionState
  /-- A native caller must send these packets once, then echo this step on every read. -/
  step : Nat
  packets : List Bytes
  appVersion : Option String
  fingerprint : Option String
  deriving DecidableEq, Repr

inductive Phase where
  | info
  | fingerprint
  | account
  | action
  deriving DecidableEq, Repr

structure Session (Interpreter Policy : Type) where
  context : Context Policy
  intent : Option Intent
  interpreter : Option Interpreter := none
  reader : ResponseReader := {}
  phase : Phase := .info
  account : Option Account := none
  started : Nat
  bytes : Nat := 0
  update : Update
  outcome : Option Outcome := none

/-- `Fingerprint::to_string`: eight lower-case digits. -/
def fingerprintText (fingerprint : UInt32) : String :=
  String.ofList (Ascii.hexChars [UInt8.ofNat (fingerprint.toNat / 2 ^ 24),
    UInt8.ofNat (fingerprint.toNat / 2 ^ 16), UInt8.ofNat (fingerprint.toNat / 2 ^ 8),
    UInt8.ofNat fingerprint.toNat])

/-- `Fingerprint::from_str`. -/
def parseFingerprint (s : String) : Option UInt32 :=
  match Ascii.readHex s.toList with
  | some [a, b, c, d] =>
      some (UInt32.ofNat (a.toNat * 2 ^ 24 + b.toNat * 2 ^ 16 + c.toNat * 2 ^ 8 + d.toNat))
  | _ => none

/-! ## The look at a reply before the interpreter sees it -/

/-- A field of the application's metadata, and what follows it. -/
def field (rest : Bytes) : Result (Bytes × Bytes) := do
  let size ← okOr rest.head? invalid
  require (size.toNat ≤ 32 ∧ size.toNat ≤ rest.tail.length) invalid
  .ok (rest.tail.take size.toNat, rest.tail.drop size.toNat)

/-- `b"Bitcoin Test"`. -/
def appName : Bytes := [66, 105, 116, 99, 111, 105, 110, 32, 84, 101, 115, 116]

/-- An ASCII letter or digit, a point or a hyphen. -/
def isVersionByte (b : UInt8) : Bool :=
  (48 ≤ b && b ≤ 57) || (65 ≤ b && b ≤ 90) || (97 ≤ b && b ≤ 122) || b == 46 || b == 45

/-- The metadata of the application. -/
def preflightInfo (data : Bytes) : Result Unit := do
  require (data.head? = some 1) invalid
  let (name, rest) ← field data.tail
  let (version, rest) ← field rest
  let (_, rest) ← field rest
  require (rest = [] ∧ name = appName ∧ version ≠ [] ∧ version.all isVersionByte = true) invalid

section Preflight

variable {Interpreter Policy : Type} (bhwi : Bhwi Interpreter Policy)

/-- The statuses other than success. -/
def preflightStatus (phase : Phase) (status : Bytes) : Result Unit :=
  if status = [0x69, 0x85] ∨ status = [0x69, 0x82] then .error cancelled
  else require (phase = .action ∧ status = [0xe0, 0x00] ∨
    phase = .account ∧ status = [0x6a, 0x82]) invalid

def preflightData (policy : LedgerWalletPolicy Policy) (intent : Option Intent) (data : Bytes) :
    Phase → Result Unit
  | .info => preflightInfo data
  | .fingerprint => require (data.length = 4) invalid
  | .account => require (data.length ≤ 112) invalid
  | .action =>
      if intent = some .register then do
        require (data.length = 64) invalid
        let id ← okOr (bhwi.policyId policy) invalid
        require (data.take 32 = id.bytes) invalid
      else .ok ()

def preflight (policy : LedgerWalletPolicy Policy) (intent : Option Intent) (phase : Phase)
    (response : Bytes) : Result Unit := do
  require (2 ≤ response.length) invalid
  let data := response.take (response.length - 2)
  let status := response.drop (response.length - 2)
  if status = [0x90, 0x00] then preflightData bhwi policy intent data phase
  else preflightStatus phase status

end Preflight

/-! ## The methods -/

namespace Session

variable {Interpreter Policy : Type} (bhwi : Bhwi Interpreter Policy)

def close (s : Session Interpreter Policy) (state : SessionState) : Session Interpreter Policy :=
  { s with
    update := { s.update with state, packets := [] }
    interpreter := none
    intent := none
    outcome := none
    reader := {} }

/-- `progress`; the caller is given the update. -/
def progress (s : Session Interpreter Policy) (now : Nat) : Session Interpreter Policy :=
  if s.update.state = .waiting ∧ now - s.started > lifetime then s.close .failed else s

def cancel (s : Session Interpreter Policy) : Session Interpreter Policy := s.close .cancelled

def fail (s : Session Interpreter Policy) : Session Interpreter Policy := s.close .failed

def transmit (t : Transmit) : Method (Session Interpreter Policy) Error Unit := do
  let s ← get
  lift (require (t.recipient = .device ∧ t.encrypted = false ∧ s.update.step < maxExchanges) invalid)
  let packets ← lift (commandReports t.payload)
  modify fun s => { s with update := { s.update with packets, step := s.update.step + 1 }, reader := {} }

def command (c : Command Policy) : Method (Session Interpreter Policy) Error Unit := do
  let (interpreter, t) ← lift ((bhwi.start c).mapError protocolError)
  transmit t
  modify fun s => { s with interpreter := some interpreter }

def start (context : Context Policy) (intent : Intent) (now : Nat) :
    Result (Session Interpreter Policy) :=
  if context.accounts = [] ∨ context.accounts.length > 3 ∨ context.policy.version ≠ .v2 then
    .error invalid
  else
    let result : Session Interpreter Policy :=
      { context
        intent := some intent
        started := now
        update :=
          { state := .waiting, step := 0, packets := [], appVersion := none, fingerprint := none } }
    match exec (command bhwi .getVersion) result with
    | (.ok (), s) => .ok s
    | (.error e, _) => .error e

def finish (outcome : Outcome) : Method (Session Interpreter Policy) Error Unit :=
  modify fun s =>
    { s with
      update := { s.update with state := .complete, packets := [] }
      intent := none
      outcome := some outcome }

/-- The HMAC the device gave when the policy was registered. -/
def registration (s : Session Interpreter Policy) : Result Bytes32 := do
  let account ← okOr s.account invalid
  okOr s.context.registrations[account.fingerprint]?
    (.invalidInput "register this wallet policy on the connected hardware first")

/-- The command of the intent, once the device is identified. -/
def action : Method (Session Interpreter Policy) Error Unit := do
  let s ← get
  match s.intent with
  | none => lift (.error invalid)
  | some .inspect => finish .inspected
  | some .register =>
      command bhwi (.registerWallet s.context.policy.name s.context.policy.policy)
  | some (.address index _) => do
      let hmac ← lift s.registration
      command bhwi (.displayAddress
        { index, change := false, display := true, descriptorName := s.context.policy.name }
        (some { walletPolicy := s.context.policy, walletHmac := some hmac }))
  | some (.sign psbt) => do
      let hmac ← lift s.registration
      command bhwi (.signTx psbt
        (some { walletPolicy := s.context.policy, walletHmac := some hmac }))

/-- The application's name and version. -/
def answerInfo (info : Info) : Method (Session Interpreter Policy) Error Unit := do
  lift (require (info.firmware = some "Bitcoin Test") .networkMismatch)
  modify fun s =>
    { s with update := { s.update with appVersion := some info.version }, phase := .fingerprint }
  command bhwi .getMasterFingerprint

def answerFingerprint (fingerprint : UInt32) : Method (Session Interpreter Policy) Error Unit := do
  let s ← get
  let account ← lift (okOr (s.context.accounts.find? (·.fingerprint = fingerprint))
    (.invalidInput "connected hardware does not match this wallet"))
  modify fun s =>
    { s with
      update := { s.update with fingerprint := some (fingerprintText fingerprint) }
      phase := .account
      account := some account }
  command bhwi (.getXpub account.path false)

def answerXpub (xpub : Xpub) : Method (Session Interpreter Policy) Error Unit := do
  let s ← get
  lift (require (s.account.map Account.xpub = some xpub)
    (.invalidInput "hardware public account does not match this wallet"))
  modify fun s => { s with phase := .action }
  action bhwi

def answerAddress (address : String) : Method (Session Interpreter Policy) Error Unit := do
  let s ← get
  match s.intent with
  | some (.address _ expected) => do
      lift (require (expected = address)
        (.invalidInput "hardware address does not match the issued wallet address"))
      finish .addressMatches
  | _ => lift (.error (.invalidInput "hardware address does not match the issued wallet address"))

/-- The response of a command, in the phase of the session. -/
def answer (response : Response) : Method (Session Interpreter Policy) Error Unit := do
  let s ← get
  match s.phase, response with
  | .info, .info info => answerInfo bhwi info
  | .fingerprint, .masterFingerprint fingerprint => answerFingerprint bhwi fingerprint
  | .account, .xpub xpub => answerXpub bhwi xpub
  | .action, .walletRegistration registration =>
      match s.intent, registration with
      | some .register, .complete (some hmac) => finish (.registered hmac)
      | _, _ => lift (.error invalid)
  | .action, .address address => answerAddress address
  | .action, .signedPsbt psbt =>
      match s.intent with
      | some (.sign _) => finish (.signed psbt)
      | _ => lift (.error invalid)
  | _, _ => lift (.error invalid)

/-- The session's checks on a report, and the reader: a complete reply. -/
def listen (now step : Nat) (report : Bytes) :
    Method (Session Interpreter Policy) Error (Option Bytes) := do
  modify (progress · now)
  let s ← get
  lift (require (s.update.state = .waiting ∧ step = s.update.step) invalid)
  lift (require (s.bytes + report.length < 2 ^ 64) invalid)
  modify fun s => { s with bytes := s.bytes + report.length }
  lift (require (s.bytes + report.length ≤ maxReceivedBytes) invalid)
  modify fun s => { s with update := { s.update with packets := [] } }
  modify fun s => { s with reader := (s.reader.receive report).1 }
  lift (s.reader.receive report).2

/-- A reply goes to the interpreter, which asks for another exchange or is done. -/
def exchange (response : Bytes) : Method (Session Interpreter Policy) Error (Option Response) := do
  let s ← get
  lift (preflight bhwi s.context.policy s.intent s.phase response)
  let interpreter ← lift (okOr s.interpreter invalid)
  let (interpreter, t) ← lift ((bhwi.exchange interpreter response).mapError protocolError)
  match t with
  | some t => do
      modify fun s => { s with interpreter := some interpreter }
      transmit t
      pure none
  | none => do
      modify fun s => { s with interpreter := none }
      let response ← lift ((bhwi.finish interpreter).mapError protocolError)
      pure (some response)

def receiveInner (now step : Nat) (report : Bytes) :
    Method (Session Interpreter Policy) Error Unit := do
  let reply ← listen now step report
  match reply with
  | none => pure ()
  | some reply => do
      let response ← exchange bhwi reply
      match response with
      | none => pure ()
      | some response => answer bhwi response

/-- `receive`: an error closes the session. -/
def receive (s : Session Interpreter Policy) (now step : Nat) (report : Bytes) :
    Result Update × Session Interpreter Policy :=
  match exec (receiveInner bhwi now step report) s with
  | (.ok (), s) => (.ok s.update, s)
  | (.error e, s) => (.error e, s.close .failed)

def takeOutcome (s : Session Interpreter Policy) : Result Outcome × Session Interpreter Policy :=
  if s.update.state = .complete then (okOr s.outcome invalid, { s with outcome := none })
  else (.error invalid, s)

end Session

end Protocol
end Usb
end Tundra
