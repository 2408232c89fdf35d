/-
  Tundra.Usb.Adapter

  The Ledger sessions of a store (`usb/mod.rs`).  A session is prepared from a
  wallet as it is stored.  Its result is published by one transaction, after the
  wallet has been read again and its policy is still the same.  The store may
  change between any two calls.
-/

import Tundra.Chain
import Tundra.System
import Tundra.Usb.Budget

namespace Tundra

/-! ## Capabilities -/

namespace Hardware

inductive Transport where
  | qr
  | usb
  deriving DecidableEq, Repr

structure HardwareCapabilities where
  available : Bool
  reason : String
  deriving DecidableEq, Repr

/-- `hardware::capabilities`: no device is advertised as supported. -/
def capabilities (_transport : Transport) : HardwareCapabilities where
  available := false
  reason := "No hardware model and firmware have been qualified"

end Hardware

namespace Usb

open Checked Relational Usb.Protocol Engine Signing

/-! ## Operations and sessions -/

inductive Operation where
  | inspect
  | registerPolicy
  | verifyReceive (index : Nat)
  | signDraft (draftId : String)
  deriving DecidableEq, Repr

def Operation.signs : Operation → Bool
  | .signDraft _ => true
  | _ => false

structure UsbSession (Interpreter Policy : Type) where
  walletId : String
  policyId : Bytes32
  operation : Operation
  protocol : Session Interpreter Policy
  signing : Option SigningProgress := none

section Adapter

variable {State Wallet Interpreter Policy : Type} (env : ChainEnv State Wallet)
  (bhwi : Bhwi Interpreter Policy)

/-! ## The context of a stored wallet -/

/-- The registrations of a wallet's policy: fingerprint and HMAC. -/
def registrationRows (db : Db State) (walletId : String) (policyId : Bytes32) :
    List (String × Bytes) :=
  (db.hardwareRegistrations.selectRows
    (fun k _ => k.1 = walletId ∧ k.2.2 = policyId.bytes)).map fun row => (row.1.2.1, row.2)

def addRegistration (ctx : Context Policy) (row : String × Bytes) : Result (Context Policy) := do
  let fingerprint ← okOr (parseFingerprint row.1) .corruptState
  require (ctx.accounts.any (·.fingerprint = fingerprint) = true) .corruptState
  let hmac ← okOr (Bytes32.ofBytes row.2) .corruptState
  .ok { ctx with registrations := ctx.registrations.insert fingerprint hmac }

def context (db : Db State) (walletId : String) : Result (Context Policy) := do
  let loaded ← load env.toEnv db walletId
  let payload := env.displayDescriptor (env.publicDescriptor loaded.wallet .external) ++ "\n" ++
    env.displayDescriptor (env.publicDescriptor loaded.wallet .internal)
  let preview ← Descriptors.previewImport env.toEnv payload loaded.summary.network
  let result ← Context.fromPreview env.toEnv bhwi preview
  let policyId ← okOr (bhwi.policyId result.policy) .corruptState
  (registrationRows db walletId policyId).foldlM addRegistration result

/-- The wallet has issued the receive address of an index. -/
def issued (wallet : Wallet) (index : Nat) : Bool :=
  (env.derivationIndex wallet .external).any (index ≤ ·)

/-! ## Preparing a session -/

def intentOf (db : Db State) (walletId : String) : Operation → Result Intent
  | .inspect => .ok .inspect
  | .registerPolicy => .ok .register
  | .verifyReceive index => do
      let loaded ← load env.toEnv db walletId
      require (issued env loaded.wallet index = true)
        (.invalidInput "receive address has not been issued by this wallet")
      .ok (.address index (env.peekAddress loaded.wallet .external index))
  | .signDraft draftId => do
      let text ← exportSigningPsbt env.toEnv db walletId draftId
      let psbt ← parseResponse env.toEnv text
      .ok (.sign psbt)

/-- `prepare_usb`. -/
def prepareUsb (db : Db State) (walletId : String) (operation : Operation) (now : Nat) :
    Result (UsbSession Interpreter Policy) := do
  require (¬ (operation.signs = true ∧ (Hardware.capabilities .usb).available = false))
    (.unavailable "hardware signing")
  let ctx ← context env bhwi db walletId
  let policyId ← okOr (bhwi.policyId ctx.policy) .corruptState
  let intent ← intentOf env db walletId operation
  let protocol ← Session.start bhwi ctx intent now
  .ok { walletId, policyId, operation, protocol }

/-! ## Publishing a result -/

/-- The transaction of a session that is complete. -/
def publish (db : Db State) (s : UsbSession Interpreter Policy) (update : Protocol.Update)
    (outcome : Outcome) : Result (Option SigningProgress × Db State) := do
  let current ← context env bhwi db s.walletId
  let policyId ← okOr (bhwi.policyId current.policy) .corruptState
  require (policyId = s.policyId) .corruptState
  match s.operation, outcome with
  | .inspect, .inspected => .ok (none, db)
  | .registerPolicy, .registered hmac => do
      let fingerprint ← okOr update.fingerprint .corruptState
      require (fingerprint.length = 8) .storage
      .ok (none, { db with
        hardwareRegistrations := db.hardwareRegistrations.insert
          (s.walletId, fingerprint, s.policyId.bytes) hmac.bytes })
  | .verifyReceive index, .addressMatches => do
      let loaded ← load env.toEnv db s.walletId
      require (issued env loaded.wallet index = true) .corruptState
      .ok (none, db)
  | .signDraft draftId, .signed psbt => do
      let (progress, db) ← acceptSignedPsbt env.toEnv db s.walletId draftId (env.serializePsbt psbt)
      .ok (some progress, db)
  | _, _ => .error .corruptState

namespace UsbSession

variable (db : Db State) (s : UsbSession Interpreter Policy)

def progress (now : Nat) : UsbSession Interpreter Policy :=
  { s with protocol := s.protocol.progress now }

def cancel : UsbSession Interpreter Policy :=
  { s with signing := none, protocol := s.protocol.cancel }

def receiveInner (now step : Nat) (report : Bytes) :
    Result Protocol.Update × UsbSession Interpreter Policy × Db State :=
  match s.protocol.receive bhwi now step report with
  | (.error e, protocol) => (.error e, { s with protocol }, db)
  | (.ok update, protocol) =>
      if update.state ≠ .complete then (.ok update, { s with protocol }, db)
      else
        match protocol.takeOutcome with
        | (.error e, protocol) => (.error e, { s with protocol }, db)
        | (.ok outcome, protocol) =>
            match publish env bhwi db s update outcome with
            | .error e => (.error e, { s with protocol }, db)
            | .ok (signing, db) => (.ok update, { s with protocol, signing := signing.or s.signing }, db)

/-- `receive`: an error fails the session, and what the transaction wrote is not kept. -/
def receive (now step : Nat) (report : Bytes) :
    Result Protocol.Update × UsbSession Interpreter Policy × Db State :=
  match s.receiveInner env bhwi db now step report with
  | (.ok update, s, db) => (.ok update, s, db)
  | (.error e, s, db) => (.error e, { s with protocol := s.protocol.fail, signing := none }, db)

end UsbSession

end Adapter

end Usb
end Tundra
