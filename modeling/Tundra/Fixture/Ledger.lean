/-
  Tundra.Fixture.Ledger

  A Ledger that holds the fixture's account, with an interpreter of the commands
  that identify it and register its policy.  The device interrupts a
  registration once.  What the interpreter cannot read is an error.
-/

import Tundra.Usb.Registrations
import Tundra.Fixture.Synced
import Tundra.Fixture.Stored

namespace Tundra
namespace Fixture

open Checked Relational Engine Usb Usb.Protocol

/-! ## The interpreter -/

/-- A policy: its template and its keys. -/
structure LedgerPolicy where
  template : String
  keys : List DescriptorPublicKey

inductive Asked where
  | version
  | fingerprint
  | xpub
  | registration
  deriving DecidableEq

structure Ledger where
  asked : Asked
  response : Option Response := none

def beBytes (n : UInt32) : Bytes :=
  [UInt8.ofNat (n.toNat / 2 ^ 24), UInt8.ofNat (n.toNat / 2 ^ 16), UInt8.ofNat (n.toNat / 2 ^ 8),
    UInt8.ofNat n.toNat]

def apdu (cla ins : UInt8) (data : Bytes) : Bytes :=
  [cla, ins, 0, 0, UInt8.ofNat data.length] ++ data

def toDevice (payload : Bytes) : Transmit := { recipient := .device, payload, encrypted := false }

/-- The first message of a command. -/
def Ledger.start : Command LedgerPolicy → Except BhwiError (Ledger × Transmit)
  | .getVersion => .ok ({ asked := .version }, toDevice (apdu 0xb0 0x01 []))
  | .getMasterFingerprint => .ok ({ asked := .fingerprint }, toDevice (apdu 0xe1 0x05 []))
  | .getXpub path display =>
      .ok ({ asked := .xpub }, toDevice (apdu 0xe1 0x00
        ((if display then 1 else 0) :: UInt8.ofNat path.length :: path.flatMap beBytes)))
  | .registerWallet name _ =>
      .ok ({ asked := .registration }, toDevice (apdu 0xe1 0x02 (asciiBytes name.toList)))
  | _ => .error .other

def base58Digits : List Char := "123456789ABCDEFGHJKLMNPQRSTUVWXYZabcdefghijkmnopqrstuvwxyz".toList

def readBase58 (chars : List Char) : Nat :=
  chars.foldl (fun n c => n * 58 + base58Digits.idxOf c) 0

/-- The 78 bytes of a key, without the four of its checksum. -/
def xpubOfText (chars : List Char) : Xpub := (bigEndian 82 (readBase58 chars)).take 78

def Asked.read (data : Bytes) : Asked → Option Response
  | .version => do
      let (name, rest) ← (field data.tail).toOption
      let (number, _) ← (field rest).toOption
      some (.info
        { version := String.ofList (number.map fun b => Char.ofNat b.toNat)
          firmware := some (String.ofList (name.map fun b => Char.ofNat b.toNat)) })
  | .fingerprint =>
      match data with
      | [a, b, c, d] => some (.masterFingerprint
          (UInt32.ofNat (a.toNat * 2 ^ 24 + b.toNat * 2 ^ 16 + c.toNat * 2 ^ 8 + d.toNat)))
      | _ => none
  | .xpub => some (.xpub (xpubOfText (data.map fun b => Char.ofNat b.toNat)))
  | .registration => some (.walletRegistration (.complete (Bytes32.ofBytes (data.drop 32))))

/-- An interruption is answered with an empty continuation. -/
def Ledger.exchange (ledger : Ledger) (reply : Bytes) :
    Except BhwiError (Ledger × Option Transmit) :=
  let data := reply.take (reply.length - 2)
  if reply.drop (reply.length - 2) = [0xe0, 0x00] then
    .ok (ledger, some (toDevice (apdu 0xf8 0x01 [])))
  else
    match ledger.asked.read data with
    | some response => .ok ({ ledger with response := some response }, none)
    | none => .error .other

def Ledger.finish (ledger : Ledger) : Except BhwiError Response :=
  match ledger.response with
  | some response => .ok response
  | none => .error .other

/-- The bytes that identify a policy. -/
def policyBytes (p : LedgerPolicy) : Bytes :=
  asciiBytes (p.template.toList ++ p.keys.flatMap fun key =>
    match key with
    | .xpub _ => []
    | .other text => text.toList)

def ledger : Bhwi Ledger LedgerPolicy where
  start := Ledger.start
  exchange := Ledger.exchange
  finish := Ledger.finish
  policyId p := Bytes32.ofBytes (digest32 (policyBytes p.policy))
  parseDescriptor := parseDescriptor
  parseKey text := some (.other text)
  parsePolicy template := some { template, keys := [] }
  setKeyInfo p keys := some { p with keys }

/-! ## A session whose reports are all answered -/

section Answered

variable {State Wallet Interpreter Policy : Type} {env : ChainEnv State Wallet}
  {bhwi : Bhwi Interpreter Policy} {db db' : Db State}

/-- The reports are answered, and the last of them completes the session. -/
def publishes (bhwi : Bhwi Interpreter Policy) (fingerprint : String) (outcome : Outcome) :
    List (Nat × Nat × Bytes) → Session Interpreter Policy → Bool
  | [], _ => false
  | (now, step, report) :: rest, s =>
      match s.receive bhwi now step report with
      | (.ok update, s) =>
          if update.state = .complete then
            rest = [] ∧ update.fingerprint = some fingerprint ∧
              s.takeOutcome.1.toOption = some outcome
          else publishes bhwi fingerprint outcome rest s
      | (.error _, _) => false

/-- A report that is answered, and that is not the last one. -/
theorem receive_goesOn {s : UsbSession Interpreter Policy} {protocol : Session Interpreter Policy}
    {update : Protocol.Update} {now step : Nat} {report : Bytes}
    (hreceive : s.protocol.receive bhwi now step report = (.ok update, protocol))
    (hstate : update.state ≠ .complete) :
    s.receive env bhwi db now step report = (.ok update, { s with protocol }, db) := by
  rw [UsbSession.receive, UsbSession.receiveInner, hreceive]
  dsimp only
  rw [if_pos hstate]

/-- The last report. -/
theorem receive_publishes {s : UsbSession Interpreter Policy}
    {protocol : Session Interpreter Policy} {update : Protocol.Update} {outcome : Outcome}
    {now step : Nat} {report : Bytes} {signing : Option SigningProgress}
    (hreceive : s.protocol.receive bhwi now step report = (.ok update, protocol))
    (hstate : update.state = .complete) (houtcome : protocol.takeOutcome.1 = .ok outcome)
    (hpublish : publish env bhwi db s update outcome = .ok (signing, db')) :
    (s.receive env bhwi db now step report).2.2 = db' := by
  have hsplit : protocol.takeOutcome = (.ok outcome, protocol.takeOutcome.2) :=
    Prod.ext houtcome rfl
  rw [UsbSession.receive, UsbSession.receiveInner, hreceive]
  dsimp only
  rw [if_neg (fun h => h hstate), hsplit]
  dsimp only
  rw [hpublish]

/-- The reports, given to the first session. -/
def deliveries (reports : List (Nat × Nat × Bytes)) : List UsbOp :=
  reports.map fun (now, step, report) => .receive 0 now step report

theorem run_publishes {fingerprint : String} {outcome : Outcome} {signing : Option SigningProgress}
    {s : UsbSession Interpreter Policy}
    (hpublish : ∀ (protocol : Session Interpreter Policy) (update : Protocol.Update),
      update.fingerprint = some fingerprint →
        publish env bhwi db { s with protocol } update outcome = .ok (signing, db'))
    {reports : List (Nat × Nat × Bytes)} {protocol : Session Interpreter Policy}
    (h : publishes bhwi fingerprint outcome reports protocol = true)
    {w : UsbWorld State Interpreter Policy} {a : Attached State Interpreter Policy}
    (hdb : w.world.db = db) (hw : w.sessions = [a]) (ha : a.session = { s with protocol }) :
    (UsbWorld.runFrom env bhwi w (deliveries reports)).world.db = db' := by
  induction reports generalizing protocol w a with
  | nil => cases h
  | cons entry rest ih =>
      obtain ⟨now, step, report⟩ := entry
      have hrun : UsbWorld.runFrom env bhwi w (deliveries ((now, step, report) :: rest)) =
          UsbWorld.runFrom env bhwi (UsbWorld.step env bhwi w (.receive 0 now step report))
            (deliveries rest) := rfl
      have hfound : w.sessions[0]? = some a := by rw [hw]; rfl
      have hprotocol : a.session.protocol = protocol := by rw [ha]
      have hstep : UsbWorld.step env bhwi w (.receive 0 now step report) =
          { world := { w.world with db := (a.session.receive env bhwi db now step report).2.2 }
            sessions := w.sessions.set 0 (a.receive env bhwi db now step report).1 } := by
        rw [UsbWorld.step, hfound, hdb]
        rfl
      rw [hrun, hstep]
      rw [publishes] at h
      rcases hreceive : protocol.receive bhwi now step report with ⟨result, protocol'⟩
      have hreceive' : a.session.protocol.receive bhwi now step report = (result, protocol') := by
        rw [hprotocol, hreceive]
      rw [hreceive] at h
      cases result with
      | error e => cases h
      | ok update =>
          dsimp only at h
          by_cases hcomplete : update.state = .complete
          · rw [if_pos hcomplete, decide_eq_true_eq] at h
            obtain ⟨rfl, hfingerprint, houtcome⟩ := h
            have htaken : protocol'.takeOutcome.1 = .ok outcome := by
              cases htaken : protocol'.takeOutcome.1 with
              | error e =>
                  rw [htaken] at houtcome
                  cases houtcome
              | ok outcome' =>
                  rw [htaken] at houtcome
                  rw [Option.some.inj houtcome]
            have hpublished :
                publish env bhwi db a.session update outcome = .ok (signing, db') := by
              rw [ha]
              exact hpublish protocol update hfingerprint
            exact receive_publishes hreceive' hcomplete htaken hpublished
          · rw [if_neg hcomplete] at h
            have hgoes : a.session.receive env bhwi db now step report =
                (.ok update, { a.session with protocol := protocol' }, db) :=
              receive_goesOn hreceive' hcomplete
            have hsessions : w.sessions.set 0 (a.receive env bhwi db now step report).1 =
                [(a.receive env bhwi db now step report).1] := by
              rw [hw]
              rfl
            have hsession : (a.receive env bhwi db now step report).1.session =
                (a.session.receive env bhwi db now step report).2.1 := rfl
            refine ih h ?_ hsessions ?_
            · rw [hgoes]
            · rw [hsession, hgoes, ha]

/-- An operation of the engine, and a session on the store after it. -/
theorem run_op_prepare {o : System.Op ChainScan} {world : System.World State} {walletId : String}
    {operation : Usb.Operation} {now : Nat} {s : UsbSession Interpreter Policy}
    (hstep : System.step env.toEnv {} o = world)
    (hprepare : prepareUsb env bhwi world.db walletId operation now = .ok s) :
    UsbWorld.run env bhwi [.op o, .prepare walletId operation now] =
      { world, sessions := [{ session := s, origin := world.db }] } := by
  have hrun : UsbWorld.run env bhwi [.op o, .prepare walletId operation now] =
      UsbWorld.step env bhwi { world := System.step env.toEnv {} o }
        (.prepare walletId operation now) := rfl
  rw [hrun, hstep, UsbWorld.step]
  dsimp only
  rw [hprepare]
  rfl

end Answered

/-! ## A session that registers the account -/

/-- The text of the account's key, as the device answers it. -/
def accountXpubText : String :=
  "tpubDDNRbZGvdA33cgpY5uy2mmphT7sK4uciRjcQScSd64S5KRyZDxHcPuz" ++
    "s24or84Hywugb2JbEEt2jWH8fduiN9cmZzkSj8sSSx6txXkhXyZs"

/-- The account's key in the policy. -/
def accountInfo : DescriptorPublicKey :=
  .other ("[" ++ String.ofList (keySourceChars accountSource) ++ "]" ++
    String.ofList (xpubChars accountXpub) ++ "/<0;1>/*")

def ledgerContext : Context LedgerPolicy where
  policy :=
    { name := "Tundra"
      version := .v2
      policy := { template := template .singleSig, keys := [accountInfo] } }
  accounts := [{ fingerprint := accountSource.fingerprint, path := accountSource.path,
                 xpub := accountXpub }]
  registrations := ∅

/-- The device's replies: its application, its fingerprint, its account, an
    interruption, and the policy's identity with an HMAC. -/
def ledgerReplies : List Bytes :=
  let ok : Bytes := [0x90, 0x00]
  [ [1, 12] ++ asciiBytes "Bitcoin Test".toList ++ [5] ++ asciiBytes "2.4.0".toList ++ [1, 0] ++ ok,
    beBytes accountSource.fingerprint ++ ok,
    asciiBytes accountXpubText.toList ++ ok,
    [0x41, 0xe0, 0x00],
    digest32 (policyBytes ledgerContext.policy.policy) ++ List.replicate 32 0x77 ++ ok ]

/-- The reports of a reply. -/
def replyReports (reply : Bytes) : List Bytes :=
  numbered 0 ((Chunk.chunks 59 (toBeBytes reply.length ++ reply)).map (Chunk.pad 59 0))

/-- The reports of the replies to the session's steps, one a millisecond. -/
def ledgerReports : List (Nat × Nat × Bytes) :=
  ((ledgerReplies.zipIdx 1).flatMap fun (reply, step) =>
    (replyReports reply).map fun report => (step, report)).zipIdx.map
      fun ((step, report), k) => (1000000 * k, step, report)

def ledgerEvents : List Event :=
  ledgerReports.map fun (now, step, report) => .receive now step report

/-- A session is started, and a predicate holds of it. -/
def startsWith (s : Result (Session Ledger LedgerPolicy)) (p : Session Ledger LedgerPolicy → Bool) :
    Bool :=
  match s with
  | .ok s => p s
  | .error _ => false

theorem startsWith_ok {s : Result (Session Ledger LedgerPolicy)}
    {p : Session Ledger LedgerPolicy → Bool} (h : startsWith s p = true) :
    ∃ opened, s = .ok opened ∧ p opened = true := by
  cases s with
  | ok opened => exact ⟨opened, rfl, h⟩
  | error e => cases h

def accountPolicyBytes : Bytes := digest32 (policyBytes ledgerContext.policy.policy)

theorem length_accountPolicyBytes : accountPolicyBytes.length = 32 := by
  decide +kernel

/-- The identity of the policy. -/
def accountPolicyId : Bytes32 where
  bytes := accountPolicyBytes
  size := length_accountPolicyBytes

/-- The HMAC of the registration. -/
def accountHmac : Bytes32 where
  bytes := List.replicate 32 0x77
  size := by decide

theorem session_publishes : startsWith (Session.start ledger ledgerContext .register 0)
    (publishes ledger "3442193e" (.registered accountHmac) ledgerReports) = true := by
  decide +kernel

theorem session_completes : startsWith (Session.start ledger ledgerContext .register 0)
    (fun s => (s.run ledger ledgerEvents).update.state = .complete) = true := by
  decide +kernel

/-- A session whose transcript is complete. -/
theorem complete_verified_register : ∃ s version account outcome,
    Session.start ledger ledgerContext .register 0 = .ok s ∧
    Established ledger ledgerContext .register (s.replies ledger ledgerEvents) version account
      outcome ∧
    Reported (s.run ledger ledgerEvents) version account := by
  obtain ⟨s, hstart, hcomplete⟩ := startsWith_ok session_completes
  obtain ⟨version, account, outcome, hestablished, hreported⟩ :=
    (complete_verified hstart ledgerEvents).1 (of_decide_eq_true hcomplete)
  exact ⟨s, version, account, outcome, hstart, hestablished, hreported⟩

/-- The budget of that session. -/
theorem session_budget_register : ∃ s, Session.start ledger ledgerContext .register 0 = .ok s ∧
    (s.run ledger ledgerEvents).update.state = .complete ∧
    (s.reports ledger ledgerEvents).length ≤ 65536 := by
  obtain ⟨s, hstart, hcomplete⟩ := startsWith_ok session_completes
  exact ⟨s, hstart, of_decide_eq_true hcomplete, (session_budget hstart ledgerEvents).2.1⟩

/-! ## The account in a store -/

-- the record of crates is deeper than the default limit
set_option maxRecDepth 2000 in
theorem context_account :
    context chainEnv ledger (accountStore 0) walletId = .ok ledgerContext := by
  have hload : load chainEnv.toEnv (accountStore 0) walletId = .ok (loadedAccount (accountRow 0)) :=
    (account_fresh 0).toHoldsAccount.load
  have hpayload : chainEnv.toEnv.displayDescriptor (chainEnv.toEnv.publicDescriptor
      (loadedAccount (accountRow 0)).wallet .external) ++ "\n" ++
        chainEnv.toEnv.displayDescriptor (chainEnv.toEnv.publicDescriptor
          (loadedAccount (accountRow 0)).wallet .internal) = accountPair := rfl
  have hpreview : Descriptors.previewImport chainEnv.toEnv accountPair .regtest =
      .ok accountPreview := preview_account
  have hagain : Descriptors.previewImport chainEnv.toEnv
      (accountPreview.receiveDescriptor ++ "\n" ++ accountPreview.changeDescriptor)
        accountPreview.network = .ok accountPreview := account_reimported
  have hmade : Context.fromPreview chainEnv.toEnv ledger accountPreview = .ok ledgerContext := by
    have hparse : ledger.parseDescriptor accountPreview.receiveDescriptor =
        some (accountDescriptor 0) := parseDescriptor_receive
    rw [Context.fromPreview, hagain, ok_bind, require_of (by decide), ok_bind, hparse, okOr,
      ok_bind]
    rfl
  rw [context, hload, ok_bind, hpayload]
  show (Descriptors.previewImport chainEnv.toEnv accountPair .regtest >>= _) = _
  rw [hpreview, ok_bind, hmade, ok_bind]
  rfl

/-- The store after the registration. -/
def registeredStore : Db TestWallet :=
  { accountStore 0 with
    hardwareRegistrations := (accountStore 0).hardwareRegistrations.insert
      (walletId, "3442193e", accountPolicyId.bytes) accountHmac.bytes }

/-- A registration of the account that a session carries out. -/
def registering (protocol : Session Ledger LedgerPolicy) : UsbSession Ledger LedgerPolicy where
  walletId := walletId
  policyId := accountPolicyId
  operation := .registerPolicy
  protocol := protocol

theorem policyId_account : ledger.policyId ledgerContext.policy = some accountPolicyId := by
  have hid : ∀ p, ledger.policyId p = Bytes32.ofBytes (digest32 (policyBytes p.policy)) :=
    fun _ => rfl
  rw [hid, ← accountPolicyBytes, Bytes32.ofBytes, dif_pos length_accountPolicyBytes,
    accountPolicyId]

theorem prepare_account {s : Session Ledger LedgerPolicy}
    (hstart : Session.start ledger ledgerContext .register 0 = .ok s) :
    prepareUsb chainEnv ledger (accountStore 0) walletId .registerPolicy 0 =
      .ok (registering s) := by
  have hintent : intentOf chainEnv (accountStore 0) walletId .registerPolicy = .ok .register := rfl
  rw [prepareUsb, require_of (by decide), ok_bind, context_account, ok_bind, policyId_account,
    okOr, ok_bind, hintent, ok_bind, hstart, ok_bind, registering]

theorem publish_account {protocol : Session Ledger LedgerPolicy} {update : Protocol.Update}
    (hfingerprint : update.fingerprint = some "3442193e") :
    publish chainEnv ledger (accountStore 0) (registering protocol) update
      (.registered accountHmac) = .ok (none, registeredStore) := by
  have hid : (registering protocol).policyId = accountPolicyId := rfl
  have hwallet : (registering protocol).walletId = walletId := rfl
  rw [publish, hid, hwallet, context_account, ok_bind, policyId_account, okOr, ok_bind,
    require_of rfl, ok_bind]
  show (okOr update.fingerprint _ >>= _) = _
  rw [hfingerprint, okOr, ok_bind, require_of (by decide), ok_bind, registeredStore]
  rfl

/-- The account is imported, and a session registers its policy. -/
def registerRun : List UsbOp :=
  [.op (.importWallet "Main" accountPair .regtest 0), .prepare walletId .registerPolicy 0] ++
    deliveries ledgerReports

-- the record of crates is deeper than the default limit
set_option maxRecDepth 2000 in
theorem run_registering {s : Session Ledger LedgerPolicy}
    (hstart : Session.start ledger ledgerContext .register 0 = .ok s) :
    UsbWorld.run chainEnv ledger
      [.op (.importWallet "Main" accountPair .regtest 0), .prepare walletId .registerPolicy 0] =
      { world := { db := accountStore 0 }
        sessions := [{ session := registering s, origin := accountStore 0 }] } := by
  have himport : System.step chainEnv.toEnv {} (.importWallet "Main" accountPair .regtest 0) =
      { db := accountStore 0 } := by
    refine System.step_ok chainEnv.toEnv ?_ (fun now => by rintro ⟨⟩)
    show some ((importWallet env {} "Main" accountPair .regtest 0).map Prod.snd) = _
    rw [import_account 0]
    rfl
  exact run_op_prepare himport (prepare_account hstart)

theorem run_registered :
    (UsbWorld.run chainEnv ledger registerRun).world.db = registeredStore := by
  obtain ⟨s, hstart, hpublishes⟩ := startsWith_ok session_publishes
  rw [UsbWorld.run, registerRun, UsbWorld.runFrom, Transition.run_append]
  have hprepared := run_registering hstart
  rw [UsbWorld.run, UsbWorld.runFrom] at hprepared
  rw [hprepared]
  exact run_publishes (s := registering s) (fun _ _ => publish_account) hpublishes rfl rfl rfl

/-- The registration of that run was verified. -/
theorem registrations_verified_account : Registered chainEnv ledger registerRun
    (walletId, "3442193e", accountPolicyId.bytes) accountHmac.bytes := by
  refine registrations_verified ?_ ?_
  · intro id fingerprint policyId hmac hmem
    rcases List.mem_append.mp hmem with hmem | hmem
    · simp at hmem
    · obtain ⟨_, -, h⟩ := List.mem_map.mp hmem
      cases h
  · rw [run_registered]
    exact Table.get_insert_self _ _ _

/-- The session of that run, before the device has answered. -/
theorem attached_received_account : ∃ a : Attached TestWallet Ledger LedgerPolicy,
    a.session.operation = .registerPolicy ∧
    ∀ now step report, Received chainEnv ledger a
      (a.replies ++ a.session.protocol.heard (.receive now step report)) (accountStore 0)
      (a.session.receive chainEnv ledger (accountStore 0) now step report) := by
  obtain ⟨s, hstart, -⟩ := startsWith_ok session_publishes
  have hrun := run_registering hstart
  have hfound : (UsbWorld.run chainEnv ledger
      [.op (.importWallet "Main" accountPair .regtest 0),
        .prepare walletId .registerPolicy 0]).sessions[0]? =
          some { session := registering s, origin := accountStore 0 } := by
    rw [hrun]
    rfl
  have hreceived := (attached_received _ hfound).1
  rw [hrun] at hreceived
  exact ⟨_, rfl, hreceived⟩

end Fixture
end Tundra
