/-
  Tundra.Usb.Session

  What a Ledger session has established, after any calls in any order.  The
  replies of a run are the payloads the reader completed; a session that waits
  has split them into those of the commands already answered and those of the
  command that is running, and a complete one has a whole transcript
  (`Established`).  One lemma says what a successful method does, one step
  lemma covers a call, and the run lemma follows by induction.
-/

import Tundra.Usb.Protocol
import Tundra.Lib.Transition

namespace Tundra
namespace Usb
namespace Protocol

open Checked Relational Stateful

variable {Interpreter Policy : Type} (bhwi : Bhwi Interpreter Policy)

/-! ## Runs -/

inductive Event where
  | receive (now step : Nat) (report : Bytes)
  | progress (now : Nat)
  | cancel
  | fail
  | takeOutcome

namespace Session

def step (s : Session Interpreter Policy) : Event → Session Interpreter Policy
  | .receive now step report => (s.receive bhwi now step report).2
  | .progress now => s.progress now
  | .cancel => s.cancel
  | .fail => s.fail
  | .takeOutcome => s.takeOutcome.2

def run (s : Session Interpreter Policy) (events : List Event) : Session Interpreter Policy :=
  Transition.run (step bhwi) s events

/-- The reply that an event completes. -/
def heard (s : Session Interpreter Policy) : Event → List Bytes
  | .receive now step report =>
      match (exec (Session.listen now step report) s).1 with
      | .ok (some reply) => [reply]
      | _ => []
  | _ => []

/-- The replies of a run. -/
def replies : Session Interpreter Policy → List Event → List Bytes
  | _, [] => []
  | s, e :: events => s.heard e ++ replies (s.step bhwi e) events

theorem replies_append (s : Session Interpreter Policy) (events later : List Event) :
    s.replies bhwi (events ++ later) =
      s.replies bhwi events ++ (s.run bhwi events).replies bhwi later := by
  induction events generalizing s with
  | nil => rfl
  | cons e events ih =>
      show s.heard e ++ replies bhwi (s.step bhwi e) (events ++ later) = _
      rw [ih, ← List.append_assoc]
      rfl

theorem replies_concat (s : Session Interpreter Policy) (events : List Event) (e : Event) :
    s.replies bhwi (events ++ [e]) = s.replies bhwi events ++ (s.run bhwi events).heard e := by
  rw [replies_append]
  show _ ++ ((s.run bhwi events).heard e ++ []) = _
  rw [List.append_nil]

end Session

/-! ## Transcripts -/

/-- An interpreter that was started with a command and has been given replies. -/
inductive Running (c : Command Policy) : List Bytes → Interpreter → Prop
  | start {i : Interpreter} {t : Transmit} (h : bhwi.start c = .ok (i, t)) : Running c [] i
  | exchange {rs : List Bytes} {i i' : Interpreter} {reply : Bytes} {t : Transmit}
      (h : Running c rs i) (hexchange : bhwi.exchange i reply = .ok (i', some t)) :
      Running c (rs ++ [reply]) i'

/-- The command ran to its end on the replies, with a response. -/
def Concludes (c : Command Policy) (rs : List Bytes) (response : Response) : Prop :=
  ∃ before i reply i', Running bhwi c before i ∧ bhwi.exchange i reply = .ok (i', none) ∧
    bhwi.finish i' = .ok response ∧ rs = before ++ [reply]

/-- Every reply passed the checks of the phase. -/
def Passed (ctx : Context Policy) (intent : Intent) (phase : Phase) (rs : List Bytes) : Prop :=
  ∀ r ∈ rs, preflight bhwi ctx.policy (some intent) phase r = .ok ()

/-- The command of the phase is running on the replies. -/
structure Asking (ctx : Context Policy) (intent : Intent) (interpreter : Option Interpreter)
    (phase : Phase) (c : Command Policy) (rs : List Bytes) : Prop where
  running : ∃ i, interpreter = some i ∧ Running bhwi c rs i
  passed : Passed bhwi ctx intent phase rs

/-- The command of the phase was answered by the replies. -/
structure Answered (ctx : Context Policy) (intent : Intent) (response : Response) (phase : Phase)
    (c : Command Policy) (rs : List Bytes) : Prop where
  concludes : Concludes bhwi c rs response
  passed : Passed bhwi ctx intent phase rs

/-- The device runs the application, in a version. -/
def AppNamed (ctx : Context Policy) (intent : Intent) (rs : List Bytes) (version : String) : Prop :=
  ∃ info, Answered bhwi ctx intent (.info info) .info .getVersion rs ∧
    info.firmware = some "Bitcoin Test" ∧ info.version = version

/-- The device has the fingerprint of an account of the wallet. -/
structure AccountNamed (ctx : Context Policy) (intent : Intent) (rs : List Bytes)
    (account : Account) : Prop where
  answered : Answered bhwi ctx intent (.masterFingerprint account.fingerprint) .fingerprint
    .getMasterFingerprint rs
  found : ctx.accounts.find? (·.fingerprint = account.fingerprint) = some account

/-- The device is that of an account: its application, its fingerprint and the
    whole extended key of the account, in this order. -/
def Identified (ctx : Context Policy) (intent : Intent) (rs : List Bytes) (version : String)
    (account : Account) : Prop :=
  ∃ infos fingerprints xpubs, rs = infos ++ fingerprints ++ xpubs ∧
    AppNamed bhwi ctx intent infos version ∧ AccountNamed bhwi ctx intent fingerprints account ∧
    Answered bhwi ctx intent (.xpub account.xpub) .account (.getXpub account.path false) xpubs

/-- The policy as the device is given it, with the HMAC of its registration. -/
def deviceContext (ctx : Context Policy) (hmac : Bytes32) : Option (DeviceContext Policy) :=
  some { walletPolicy := ctx.policy, walletHmac := some hmac }

/-- The command of an intent. -/
def actionCommand (ctx : Context Policy) (account : Account) : Intent → Option (Command Policy)
  | .inspect => none
  | .register => some (.registerWallet ctx.policy.name ctx.policy.policy)
  | .address index _ => ctx.registrations[account.fingerprint]?.map fun hmac =>
      .displayAddress { index, change := false, display := true, descriptorName := ctx.policy.name }
        (deviceContext ctx hmac)
  | .sign psbt => ctx.registrations[account.fingerprint]?.map fun hmac =>
      .signTx psbt (deviceContext ctx hmac)

/-- The response that an intent turns into an outcome. -/
def responseOf : Intent → Outcome → Option Response
  | .register, .registered hmac => some (.walletRegistration (.complete (some hmac)))
  | .address _ expected, .addressMatches => some (.address expected)
  | .sign _, .signed psbt => some (.signedPsbt psbt)
  | _, _ => none

/-- The intent was carried out on the replies, with an outcome. -/
def Acted (ctx : Context Policy) (intent : Intent) (account : Account) (rs : List Bytes)
    (outcome : Outcome) : Prop :=
  intent = .inspect ∧ outcome = .inspected ∧ rs = [] ∨
  ∃ c response, actionCommand ctx account intent = some c ∧
    responseOf intent outcome = some response ∧ Answered bhwi ctx intent response .action c rs

/-- The whole transcript of a session that is complete. -/
structure Established (ctx : Context Policy) (intent : Intent) (rs : List Bytes) (version : String)
    (account : Account) (outcome : Outcome) : Prop where
  replies : ∃ first rest, rs = first ++ rest ∧ Identified bhwi ctx intent first version account ∧
    Acted bhwi ctx intent account rest outcome

/-! ## The invariant -/

/-- Where a session stands in a phase: the commands before are answered, and
    `Last` says how far the command of the phase is. -/
def Standing (ctx : Context Policy) (intent : Intent)
    (Last : Phase → Command Policy → List Bytes → Prop) (rs : List Bytes)
    (s : Session Interpreter Policy) : Phase → Prop
  | .info => Last .info .getVersion rs
  | .fingerprint => ∃ infos now version, rs = infos ++ now ∧ AppNamed bhwi ctx intent infos version ∧
      s.update.appVersion = some version ∧ Last .fingerprint .getMasterFingerprint now
  | .account => ∃ infos fingerprints now version account, rs = infos ++ fingerprints ++ now ∧
      AppNamed bhwi ctx intent infos version ∧ AccountNamed bhwi ctx intent fingerprints account ∧
      s.update.appVersion = some version ∧ s.account = some account ∧
      s.update.fingerprint = some (fingerprintText account.fingerprint) ∧
      Last .account (.getXpub account.path false) now
  | .action => ∃ first now version account c, rs = first ++ now ∧
      Identified bhwi ctx intent first version account ∧
      s.update.appVersion = some version ∧ s.account = some account ∧
      s.update.fingerprint = some (fingerprintText account.fingerprint) ∧
      actionCommand ctx account intent = some c ∧ Last .action c now

/-- What a complete session reports. -/
structure Reported (s : Session Interpreter Policy) (version : String) (account : Account) :
    Prop where
  appVersion : s.update.appVersion = some version
  fingerprint : s.update.fingerprint = some (fingerprintText account.fingerprint)
  account : s.account = some account

/-- The invariant of a session, with the replies heard so far. -/
structure Inv (ctx : Context Policy) (intent : Intent) (rs : List Bytes)
    (s : Session Interpreter Policy) : Prop where
  context : s.context = ctx
  waiting : s.update.state = .waiting →
    s.intent = some intent ∧ s.outcome = none ∧
      Standing bhwi ctx intent (Asking bhwi ctx intent s.interpreter) rs s s.phase
  complete : s.update.state = .complete → ∃ version account outcome,
    Established bhwi ctx intent rs version account outcome ∧ Reported s version account ∧
    (s.outcome = none ∨ s.outcome = some outcome)
  closed : s.update.state = .cancelled ∨ s.update.state = .failed → s.outcome = none

/-! ## What a successful method does -/

section Methods

variable {bhwi} {s s' : Session Interpreter Policy} {ctx : Context Policy} {intent : Intent}
  {rs : List Bytes}

/-- A session after a message to the device. -/
def Session.sent (s : Session Interpreter Policy) (packets : List Bytes) :
    Session Interpreter Policy :=
  { s with update := { s.update with packets, step := s.update.step + 1 }, reader := {} }

open Session

theorem transmit_ok {t : Transmit} (h : exec (transmit t) s = (.ok (), s')) :
    s.update.step < maxExchanges ∧ ∃ packets, commandReports t.payload = .ok packets ∧
      s' = s.sent packets := by
  simp only [transmit, exec_bind_get, exec_bind_lift_ok, require_eq_ok, exec_modify, exists_unit,
    Prod.mk.injEq, true_and] at h
  obtain ⟨hdevice, packets, hpackets, rfl⟩ := h
  exact ⟨hdevice.2.2, packets, hpackets, rfl⟩

theorem command_ok {c : Command Policy} (h : exec (command bhwi c) s = (.ok (), s')) :
    ∃ i t packets, bhwi.start c = .ok (i, t) ∧ commandReports t.payload = .ok packets ∧
      s.update.step < maxExchanges ∧ s' = { s.sent packets with interpreter := some i } := by
  simp only [command, exec_bind_lift_ok, mapError_eq_ok, Prod.exists] at h
  obtain ⟨i, t, hstart, h⟩ := h
  obtain ⟨_, s₁, htransmit, h⟩ := exec_bind_ok.mp h
  obtain ⟨hstep, packets, hpackets, rfl⟩ := transmit_ok htransmit
  obtain ⟨-, rfl⟩ := Prod.mk.inj h
  exact ⟨i, t, packets, hstart, hpackets, hstep, rfl⟩

theorem listen_ok {now step : Nat} {report : Bytes} {reply : Option Bytes}
    (h : exec (Session.listen now step report) s = (.ok reply, s')) :
    s.update.state = .waiting ∧ now - s.started ≤ lifetime ∧ step = s.update.step ∧
      s.bytes + report.length ≤ maxReceivedBytes ∧ (s.reader.receive report).2 = .ok reply ∧
      s' = { s with
        bytes := s.bytes + report.length
        update := { s.update with packets := [] }
        reader := (s.reader.receive report).1 } := by
  simp only [Session.listen, exec_bind_get, exec_bind_modify, exec_bind_lift_ok, exec_lift_ok,
    require_eq_ok, exists_unit] at h
  obtain ⟨⟨hwaiting, hstep⟩, -, hbytes, hreply, rfl⟩ := h
  -- an expired session does not wait
  have hlive : ¬ (s.update.state = .waiting ∧ now - s.started > lifetime) := by
    intro hexpired
    rw [progress, if_pos hexpired] at hwaiting
    cases hwaiting
  have hprogress : s.progress now = s := by
    rw [progress, if_neg hlive]
  rw [hprogress] at hwaiting hstep hbytes hreply ⊢
  exact ⟨hwaiting, not_lt.mp fun h => hlive ⟨hwaiting, h⟩, hstep, hbytes, hreply, rfl⟩

/-- What happens to a reply that the interpreter takes. -/
theorem exchange_ok {reply : Bytes} {response : Option Response}
    (h : exec (Session.exchange bhwi reply) s = (.ok response, s')) :
    preflight bhwi s.context.policy s.intent s.phase reply = .ok () ∧
    ∃ i i', s.interpreter = some i ∧
      ((∃ t packets, bhwi.exchange i reply = .ok (i', some t) ∧ response = none ∧
          commandReports t.payload = .ok packets ∧ s.update.step < maxExchanges ∧
          s' = ({ s with interpreter := some i' } : Session Interpreter Policy).sent packets) ∨
        ∃ result, bhwi.exchange i reply = .ok (i', none) ∧ bhwi.finish i' = .ok result ∧
          response = some result ∧ s' = { s with interpreter := none }) := by
  simp only [Session.exchange, exec_bind_get, exec_bind_lift_ok, mapError_eq_ok, okOr_eq_ok,
    exists_unit, Prod.exists] at h
  obtain ⟨hpreflight, i, hi, i', t, hexchange, h⟩ := h
  refine ⟨hpreflight, i, i', hi, ?_⟩
  cases t with
  | some t =>
      simp only [exec_bind_modify] at h
      obtain ⟨_, s₁, htransmit, h⟩ := exec_bind_ok.mp h
      obtain ⟨hstep, packets, hpackets, rfl⟩ := transmit_ok htransmit
      obtain ⟨hresponse, rfl⟩ := Prod.mk.inj h
      exact .inl ⟨t, packets, hexchange, (Except.ok.inj hresponse).symm, hpackets, hstep, rfl⟩
  | none =>
      simp only [exec_bind_modify, exec_bind_lift_ok, exec_pure, mapError_eq_ok,
        Prod.mk.injEq, Except.ok.injEq] at h
      obtain ⟨result, hfinish, rfl, rfl⟩ := h
      exact .inr ⟨result, hexchange, hfinish, rfl, rfl⟩

theorem receiveInner_ok {now step : Nat} {report : Bytes}
    (h : exec (receiveInner bhwi now step report) s = (.ok (), s')) :
    ∃ reply s₁, exec (Session.listen now step report) s = (.ok reply, s₁) ∧
      (reply = none ∧ s' = s₁ ∨
        ∃ r response s₂, reply = some r ∧ exec (Session.exchange bhwi r) s₁ = (.ok response, s₂) ∧
          (response = none ∧ s' = s₂ ∨
            ∃ result, response = some result ∧
              exec (Session.answer bhwi result) s₂ = (.ok (), s'))) := by
  obtain ⟨reply, s₁, hlisten, h⟩ := exec_bind_ok.mp h
  refine ⟨reply, s₁, hlisten, ?_⟩
  cases reply with
  | none => exact .inl ⟨rfl, (Prod.mk.inj h).2.symm⟩
  | some r =>
      obtain ⟨response, s₂, hexchange, h⟩ := exec_bind_ok.mp h
      refine .inr ⟨r, response, s₂, rfl, hexchange, ?_⟩
      cases response with
      | none => exact .inl ⟨rfl, (Prod.mk.inj h).2.symm⟩
      | some result => exact .inr ⟨result, rfl, h⟩

/-! ## One more reply -/

theorem Passed.append {phase : Phase} {reply : Bytes} (h : Passed bhwi ctx intent phase rs)
    (hreply : preflight bhwi ctx.policy (some intent) phase reply = .ok ()) :
    Passed bhwi ctx intent phase (rs ++ [reply]) := by
  intro r hr
  rcases List.mem_append.mp hr with hr | hr
  · exact h r hr
  · rw [List.mem_singleton.mp hr]
    exact hreply

/-- The command of the phase moves on by one reply. -/
theorem Standing.append {Last Last' : Phase → Command Policy → List Bytes → Prop} {reply : Bytes}
    {phase : Phase} (h : Standing bhwi ctx intent Last rs s phase)
    (hlast : ∀ c now, Last phase c now → Last' phase c (now ++ [reply])) :
    Standing bhwi ctx intent Last' (rs ++ [reply]) s phase := by
  cases phase with
  | info => exact hlast _ _ h
  | fingerprint =>
      obtain ⟨infos, now, version, rfl, hnamed, hversion, h⟩ := h
      exact ⟨infos, now ++ [reply], version, List.append_assoc .., hnamed, hversion, hlast _ _ h⟩
  | account =>
      obtain ⟨infos, fingerprints, now, version, account, rfl, hnamed, haccount, hversion, hfound,
        htext, h⟩ := h
      exact ⟨infos, fingerprints, now ++ [reply], version, account, List.append_assoc .., hnamed,
        haccount, hversion, hfound, htext, hlast _ _ h⟩
  | action =>
      obtain ⟨first, now, version, account, c, rfl, hidentified, hversion, hfound, htext, hc, h⟩ := h
      exact ⟨first, now ++ [reply], version, account, c, List.append_assoc .., hidentified,
        hversion, hfound, htext, hc, hlast _ _ h⟩

/-- Where a session stands depends on what it reports and on its account. -/
theorem Standing.congr {Last : Phase → Command Policy → List Bytes → Prop} {phase : Phase}
    (h : Standing bhwi ctx intent Last rs s phase)
    (hversion : s'.update.appVersion = s.update.appVersion)
    (hfingerprint : s'.update.fingerprint = s.update.fingerprint)
    (haccount : s'.account = s.account) : Standing bhwi ctx intent Last rs s' phase := by
  cases phase <;> simp only [Standing, hversion, hfingerprint, haccount] <;> exact h

/-- A waiting session keeps the invariant in this way. -/
theorem Inv.of_waiting (hcontext : s.context = ctx) (hstate : s.update.state = .waiting)
    (hintent : s.intent = some intent) (houtcome : s.outcome = none)
    (h : Standing bhwi ctx intent (Asking bhwi ctx intent s.interpreter) rs s s.phase) :
    Inv bhwi ctx intent rs s where
  context := hcontext
  waiting _ := ⟨hintent, houtcome, h⟩
  complete hcomplete := absurd (hstate.symm.trans hcomplete) (by decide)
  closed hclosed := by
    rw [hstate] at hclosed
    exact absurd hclosed (by decide)

theorem Inv.of_complete {version : String} {account : Account} {outcome : Outcome}
    (hcontext : s.context = ctx) (hstate : s.update.state = .complete)
    (h : Established bhwi ctx intent rs version account outcome)
    (hreported : Reported s version account) (houtcome : s.outcome = none ∨ s.outcome = some outcome) :
    Inv bhwi ctx intent rs s where
  context := hcontext
  waiting hwaiting := absurd (hstate.symm.trans hwaiting) (by decide)
  complete _ := ⟨version, account, outcome, h, hreported, houtcome⟩
  closed hclosed := by
    rw [hstate] at hclosed
    exact absurd hclosed (by decide)

theorem Inv.of_closed (hcontext : s.context = ctx)
    (hstate : s.update.state = .cancelled ∨ s.update.state = .failed) (houtcome : s.outcome = none) :
    Inv bhwi ctx intent rs s where
  context := hcontext
  waiting hwaiting := by
    rw [hwaiting] at hstate
    exact absurd hstate (by decide)
  complete hcomplete := by
    rw [hcomplete] at hstate
    exact absurd hstate (by decide)
  closed _ := houtcome

/-! ## Responses -/

/-- A command has just been given. -/
theorem asking_start {phase : Phase} {c : Command Policy} {i : Interpreter} {t : Transmit}
    (h : bhwi.start c = .ok (i, t)) : Asking bhwi ctx intent (some i) phase c [] where
  running := ⟨i, rfl, .start h⟩
  passed := List.forall_mem_nil _

/-- The last response completes the session. -/
theorem finish_inv {version : String} {account : Account} {c : Command Policy}
    {first now : List Bytes} {response : Response} {outcome : Outcome} (hcontext : s.context = ctx)
    (hrs : rs = first ++ now)
    (hidentified : Identified bhwi ctx intent first version account)
    (hreported : Reported s version account) (hc : actionCommand ctx account intent = some c)
    (hanswered : Answered bhwi ctx intent response .action c now)
    (hresponse : responseOf intent outcome = some response)
    (h : exec (finish outcome) s = (.ok (), s')) : Inv bhwi ctx intent rs s' := by
  obtain ⟨-, rfl⟩ := Prod.mk.inj h
  exact .of_complete hcontext rfl
    ⟨first, now, hrs, hidentified, .inr ⟨c, response, hc, hresponse, hanswered⟩⟩
    ⟨hreported.appVersion, hreported.fingerprint, hreported.account⟩ (.inr rfl)

section Answers

variable (hcontext : s.context = ctx) (hstate : s.update.state = .waiting)
  (hintent : s.intent = some intent) (houtcome : s.outcome = none)

include hcontext hstate hintent houtcome

theorem answerInfo_inv {info : Info}
    (hanswered : Answered bhwi ctx intent (.info info) .info .getVersion rs)
    (h : exec (answerInfo bhwi info) s = (.ok (), s')) : Inv bhwi ctx intent rs s' := by
  simp only [answerInfo, exec_bind_modify, exec_bind_lift_ok, require_eq_ok, exists_unit] at h
  obtain ⟨hfirmware, h⟩ := h
  obtain ⟨i, t, packets, hstart, -, -, rfl⟩ := command_ok h
  exact .of_waiting hcontext hstate hintent houtcome
    ⟨rs, [], info.version, (List.append_nil rs).symm, ⟨info, hanswered, hfirmware, rfl⟩, rfl,
      asking_start hstart⟩

theorem answerFingerprint_inv {fingerprint : UInt32} {infos now : List Bytes} {version : String}
    (hrs : rs = infos ++ now) (hnamed : AppNamed bhwi ctx intent infos version)
    (hversion : s.update.appVersion = some version)
    (hanswered : Answered bhwi ctx intent (.masterFingerprint fingerprint) .fingerprint
      .getMasterFingerprint now)
    (h : exec (answerFingerprint bhwi fingerprint) s = (.ok (), s')) :
    Inv bhwi ctx intent rs s' := by
  simp only [answerFingerprint, exec_bind_get, exec_bind_modify, exec_bind_lift_ok,
    okOr_eq_ok] at h
  obtain ⟨account, hfound, h⟩ := h
  obtain ⟨i, t, packets, hstart, -, -, rfl⟩ := command_ok h
  -- the account that is found has the fingerprint that was answered
  have hsame : account.fingerprint = fingerprint := by
    simpa using List.find?_some hfound
  subst hsame
  rw [hcontext] at hfound
  exact .of_waiting hcontext hstate hintent houtcome
    ⟨infos, now, [], version, account, by rw [hrs, List.append_nil], hnamed,
      ⟨hanswered, hfound⟩, hversion, rfl, rfl, asking_start hstart⟩

/-- The device is identified, and the command of the intent is given. -/
theorem action_inv {version : String} {account : Account} (hphase : s.phase = .action)
    (hidentified : Identified bhwi ctx intent rs version account)
    (hreported : Reported s version account) (h : exec (action bhwi) s = (.ok (), s')) :
    Inv bhwi ctx intent rs s' := by
  obtain ⟨hversion, htext, haccount⟩ := hreported
  have hregistration : ∀ hmac, s.registration = .ok hmac →
      ctx.registrations[account.fingerprint]? = some hmac := by
    intro hmac hr
    simp only [registration, haccount, okOr_some, ok_bind, okOr_eq_ok, hcontext] at hr
    exact hr
  have hgiven : ∀ c, actionCommand ctx account intent = some c →
      exec (command bhwi c) s = (.ok (), s') → Inv bhwi ctx intent rs s' := by
    intro c hc hcommand
    obtain ⟨i, t, packets, hstart, -, -, rfl⟩ := command_ok hcommand
    refine .of_waiting hcontext hstate hintent houtcome ?_
    show Standing bhwi ctx intent (Asking bhwi ctx intent (some i)) rs _ s.phase
    rw [hphase]
    exact ⟨rs, [], version, account, c, (List.append_nil rs).symm, hidentified, hversion, haccount,
      htext, hc, asking_start hstart⟩
  simp only [action, exec_bind_get, hintent] at h
  cases intent with
  | inspect =>
      obtain ⟨-, rfl⟩ := Prod.mk.inj h
      exact .of_complete hcontext rfl
        ⟨rs, [], (List.append_nil rs).symm, hidentified, .inl ⟨rfl, rfl, rfl⟩⟩
        ⟨hversion, htext, haccount⟩ (.inr rfl)
  | register =>
      refine hgiven _ ?_ h
      rw [hcontext]
      rfl
  | address index expected =>
      simp only [exec_bind_lift_ok] at h
      obtain ⟨hmac, hr, h⟩ := h
      refine hgiven _ ?_ h
      rw [actionCommand, hregistration hmac hr, hcontext]
      rfl
  | sign psbt =>
      simp only [exec_bind_lift_ok] at h
      obtain ⟨hmac, hr, h⟩ := h
      refine hgiven _ ?_ h
      rw [actionCommand, hregistration hmac hr, hcontext]
      rfl

theorem answerXpub_inv {xpub : Xpub} {infos fingerprints now : List Bytes} {version : String}
    {account : Account} (hrs : rs = infos ++ fingerprints ++ now)
    (hnamed : AppNamed bhwi ctx intent infos version)
    (hfound : AccountNamed bhwi ctx intent fingerprints account)
    (hreported : Reported s version account)
    (hanswered : Answered bhwi ctx intent (.xpub xpub) .account (.getXpub account.path false) now)
    (h : exec (answerXpub bhwi xpub) s = (.ok (), s')) : Inv bhwi ctx intent rs s' := by
  simp only [answerXpub, exec_bind_get, exec_bind_modify, exec_bind_lift_ok, require_eq_ok,
    exists_unit] at h
  obtain ⟨hsame, h⟩ := h
  rw [hreported.account, Option.map_some, Option.some.injEq] at hsame
  subst hsame
  refine action_inv (s := { s with phase := .action }) hcontext hstate hintent houtcome rfl
    ⟨infos, fingerprints, now, hrs, hnamed, hfound, hanswered⟩ ?_ h
  exact ⟨hreported.appVersion, hreported.fingerprint, hreported.account⟩

/-- A response that is accepted keeps the invariant. -/
theorem answer_inv {result : Response}
    (hstanding : Standing bhwi ctx intent (Answered bhwi ctx intent result) rs s s.phase)
    (h : exec (Session.answer bhwi result) s = (.ok (), s')) : Inv bhwi ctx intent rs s' := by
  rw [Session.answer, exec_bind_get] at h
  cases hphase : s.phase with
  | info =>
      rw [hphase] at hstanding h
      cases result with
      | info info => exact answerInfo_inv hcontext hstate hintent houtcome hstanding h
      | _ => cases (Prod.mk.inj h).1
  | fingerprint =>
      rw [hphase] at hstanding h
      obtain ⟨infos, now, version, hrs, hnamed, hversion, hanswered⟩ := hstanding
      cases result with
      | masterFingerprint fingerprint =>
          exact answerFingerprint_inv hcontext hstate hintent houtcome hrs hnamed hversion
            hanswered h
      | _ => cases (Prod.mk.inj h).1
  | account =>
      rw [hphase] at hstanding h
      obtain ⟨infos, fingerprints, now, version, account, hrs, hnamed, hfound, hversion, haccount,
        htext, hanswered⟩ := hstanding
      cases result with
      | xpub xpub =>
          exact answerXpub_inv hcontext hstate hintent houtcome hrs hnamed hfound
            ⟨hversion, htext, haccount⟩ hanswered h
      | _ => cases (Prod.mk.inj h).1
  | action =>
      rw [hphase] at hstanding h
      obtain ⟨first, now, version, account, c, hrs, hidentified, hversion, haccount, htext, hc,
        hanswered⟩ := hstanding
      have hdone : ∀ outcome, responseOf intent outcome = some result →
          exec (finish outcome) s = (.ok (), s') → Inv bhwi ctx intent rs s' := fun outcome ho hf =>
        finish_inv hcontext hrs hidentified ⟨hversion, htext, haccount⟩ hc hanswered ho hf
      cases result with
      | walletRegistration registration =>
          dsimp only at h
          rw [hintent] at h
          cases intent with
          | register =>
              cases registration with
              | complete hmac =>
                  cases hmac with
                  | some hmac => exact hdone (.registered hmac) rfl h
                  | none => cases (Prod.mk.inj h).1
              | other => cases (Prod.mk.inj h).1
          | _ => cases (Prod.mk.inj h).1
      | address address =>
          simp only [answerAddress, exec_bind_get, hintent] at h
          cases intent with
          | address index expected =>
              simp only [exec_bind_lift_ok, require_eq_ok, exists_unit] at h
              obtain ⟨rfl, h⟩ := h
              exact hdone .addressMatches rfl h
          | _ => cases (Prod.mk.inj h).1
      | signedPsbt psbt =>
          dsimp only at h
          rw [hintent] at h
          cases intent with
          | sign request => exact hdone (.signed psbt) rfl h
          | _ => cases (Prod.mk.inj h).1
      | _ => cases (Prod.mk.inj h).1

end Answers

/-! ## Calls -/

theorem heard_of_listen {now step : Nat} {report : Bytes} {reply : Option Bytes}
    (h : exec (Session.listen now step report) s = (.ok reply, s')) :
    s.heard (.receive now step report) = reply.toList := by
  rw [heard, h]
  cases reply <;> rfl

/-- A report that is accepted keeps the invariant, with the reply it completes. -/
theorem receiveInner_inv {now step : Nat} {report : Bytes} (hinv : Inv bhwi ctx intent rs s)
    (h : exec (receiveInner bhwi now step report) s = (.ok (), s')) :
    Inv bhwi ctx intent (rs ++ s.heard (.receive now step report)) s' := by
  obtain ⟨reply, s₁, hlisten, h⟩ := receiveInner_ok h
  rw [heard_of_listen hlisten]
  obtain ⟨hstate, -, -, -, -, rfl⟩ := listen_ok hlisten
  obtain ⟨hintent, houtcome, hstanding⟩ := hinv.waiting hstate
  rcases h with ⟨rfl, rfl⟩ | ⟨r, response, s₂, rfl, hexchange, h⟩
  · -- the reply is not complete yet
    rw [Option.toList_none, List.append_nil]
    exact .of_waiting hinv.context hstate hintent houtcome (hstanding.congr rfl rfl rfl)
  · rw [Option.toList_some]
    obtain ⟨hpreflight, i, i', hi, hcase⟩ := exchange_ok hexchange
    dsimp only at hpreflight hi
    rw [hinv.context, hintent] at hpreflight
    have hrunning : ∀ c now', Asking bhwi ctx intent s.interpreter s.phase c now' →
        Running bhwi c now' i := by
      intro c now' h
      obtain ⟨j, hj, hrun⟩ := h.running
      rw [hi] at hj
      obtain rfl := Option.some.inj hj
      exact hrun
    rcases hcase with ⟨t, packets, hex, rfl, -, -, rfl⟩ | ⟨result, hex, hfinish, rfl, rfl⟩
    · -- the interpreter asks for another exchange
      rcases h with ⟨-, rfl⟩ | ⟨result, hresult, -⟩
      · have hmore : Standing bhwi ctx intent (Asking bhwi ctx intent (some i')) (rs ++ [r]) s
            s.phase := hstanding.append fun c now' h =>
          ⟨⟨i', rfl, .exchange (hrunning c now' h) hex⟩, h.passed.append hpreflight⟩
        exact .of_waiting hinv.context hstate hintent houtcome (hmore.congr rfl rfl rfl)
      · cases hresult
    · -- the interpreter is done
      rcases h with ⟨hresult, -⟩ | ⟨result', hresult, h⟩
      · cases hresult
      · obtain rfl := Option.some.inj hresult
        have hdone : Standing bhwi ctx intent (Answered bhwi ctx intent result) (rs ++ [r]) s
            s.phase := hstanding.append fun c now' h =>
          ⟨⟨now', i, r, i', hrunning c now' h, hex, hfinish, rfl⟩, h.passed.append hpreflight⟩
        refine answer_inv ?_ ?_ ?_ ?_ ?_ h
        · exact hinv.context
        · exact hstate
        · exact hintent
        · exact houtcome
        · exact hdone.congr rfl rfl rfl

/-! ## What no method changes -/

section Frames

/-- A statement about the context, the start and the step of a session. -/
def Framed (J : Context Policy → Nat → Nat → Prop) (s : Session Interpreter Policy) : Prop :=
  J s.context s.started s.update.step

variable {J : Context Policy → Nat → Nat → Prop}
  (hJ : ∀ ctx t₀ n, J ctx t₀ n → n < maxExchanges → J ctx t₀ (n + 1))

include hJ

theorem transmit_framed (t : Transmit) :
    Keeps (Framed J) (transmit t : Method (Session Interpreter Policy) Error Unit) := by
  intro s h
  rcases hrun : exec (transmit t) s with ⟨r, s'⟩
  cases r with
  | ok u =>
      obtain ⟨hlt, packets, -, rfl⟩ := transmit_ok hrun
      exact hJ _ _ _ h hlt
  | error e =>
      -- a message that is refused changes nothing
      have hsame : s = s' := by
        simp only [transmit, exec_bind_get, exec_bind_lift_error, exec_modify] at hrun
        rcases hrun with ⟨-, hsame⟩ | ⟨_, -, ⟨-, hsame⟩ | ⟨packets, -, hrun⟩⟩
        · exact hsame
        · exact hsame
        · cases (Prod.mk.inj hrun).1
      rw [← hsame]
      exact h

variable (bhwi)

theorem command_framed (c : Command Policy) : Keeps (Framed J) (command bhwi c) :=
  keeps_bind (keeps_lift _ _) fun _ => keeps_bind (transmit_framed hJ _) fun _ =>
    keeps_modify fun _ h => h

omit hJ in
theorem finish_framed (outcome : Outcome) : Keeps (Framed J)
    (finish outcome : Method (Session Interpreter Policy) Error Unit) := keeps_modify fun _ h => h

theorem action_framed : Keeps (Framed J) (action bhwi) := by
  refine keeps_bind (keeps_get _) fun s => ?_
  split
  · exact keeps_lift _ _
  · exact finish_framed _
  · exact command_framed bhwi hJ _
  · exact keeps_bind (keeps_lift _ _) fun _ => command_framed bhwi hJ _
  · exact keeps_bind (keeps_lift _ _) fun _ => command_framed bhwi hJ _

theorem answer_framed (response : Response) :
    Keeps (Framed J) (Session.answer bhwi response) := by
  refine keeps_bind (keeps_get _) fun s => ?_
  split
  · exact keeps_bind (keeps_lift _ _) fun _ => keeps_bind (keeps_modify fun _ h => h) fun _ =>
      command_framed bhwi hJ _
  · exact keeps_bind (keeps_get _) fun _ => keeps_bind (keeps_lift _ _) fun _ =>
      keeps_bind (keeps_modify fun _ h => h) fun _ => command_framed bhwi hJ _
  · exact keeps_bind (keeps_get _) fun _ => keeps_bind (keeps_lift _ _) fun _ =>
      keeps_bind (keeps_modify fun _ h => h) fun _ => action_framed bhwi hJ
  · split
    · exact finish_framed _
    · exact keeps_lift _ _
  · refine keeps_bind (keeps_get _) fun s => ?_
    split
    · exact keeps_bind (keeps_lift _ _) fun _ => finish_framed _
    · exact keeps_lift _ _
  · split
    · exact finish_framed _
    · exact keeps_lift _ _
  · exact keeps_lift _ _

omit hJ in
theorem listen_framed (now step : Nat) (report : Bytes) : Keeps (Framed J)
    (Session.listen now step report : Method (Session Interpreter Policy) Error (Option Bytes)) := by
  refine keeps_bind (keeps_modify fun s h => ?_) fun _ => keeps_bind (keeps_get _) fun _ =>
    keeps_bind (keeps_lift _ _) fun _ => keeps_bind (keeps_lift _ _) fun _ =>
    keeps_bind (keeps_modify fun _ h => h) fun _ => keeps_bind (keeps_lift _ _) fun _ =>
    keeps_bind (keeps_modify fun _ h => h) fun _ => keeps_bind (keeps_modify fun _ h => h) fun _ =>
    keeps_lift _ _
  rw [progress]
  split_ifs <;> exact h

theorem exchange_framed (reply : Bytes) :
    Keeps (Framed J) (Session.exchange bhwi reply) := by
  refine keeps_bind (keeps_get _) fun _ => keeps_bind (keeps_lift _ _) fun _ =>
    keeps_bind (keeps_lift _ _) fun _ => keeps_bind (keeps_lift _ _) fun r => ?_
  dsimp only
  split
  · exact keeps_bind (keeps_modify fun _ h => h) fun _ =>
      keeps_bind (transmit_framed hJ _) fun _ => keeps_pure _ _
  · exact keeps_bind (keeps_modify fun _ h => h) fun _ =>
      keeps_bind (keeps_lift _ _) fun _ => keeps_pure _ _

theorem receiveInner_framed (now step : Nat) (report : Bytes) :
    Keeps (Framed J) (receiveInner bhwi now step report) := by
  refine keeps_bind (listen_framed now step report) fun reply => ?_
  split
  · exact keeps_pure _ _
  · refine keeps_bind (exchange_framed bhwi hJ _) fun response => ?_
    split
    · exact keeps_pure _ _
    · exact answer_framed bhwi hJ _

end Frames

end Methods

/-! ## Runs -/

section Runs

variable {bhwi} {ctx : Context Policy} {intent : Intent} {rs : List Bytes}

open Session

variable (bhwi) in
theorem receive_cases (s : Session Interpreter Policy) (now step : Nat) (report : Bytes) :
    (∃ s', exec (receiveInner bhwi now step report) s = (.ok (), s') ∧
      s.receive bhwi now step report = (.ok s'.update, s')) ∨
    ∃ e s', exec (receiveInner bhwi now step report) s = (.error e, s') ∧
      s.receive bhwi now step report = (.error e, s'.close .failed) := by
  rw [Session.receive]
  rcases hrun : exec (receiveInner bhwi now step report) s with ⟨r, s'⟩
  cases r with
  | ok u => exact .inl ⟨s', rfl, rfl⟩
  | error e => exact .inr ⟨e, s', rfl, rfl⟩

variable (bhwi) in
theorem step_framed {J : Context Policy → Nat → Nat → Prop}
    (hJ : ∀ ctx t₀ n, J ctx t₀ n → n < maxExchanges → J ctx t₀ (n + 1))
    {s : Session Interpreter Policy} (h : Framed J s) (e : Event) : Framed J (s.step bhwi e) := by
  cases e with
  | receive now step report =>
      have hkept := receiveInner_framed bhwi hJ now step report s h
      rcases receive_cases bhwi s now step report with ⟨s', hrun, hr⟩ | ⟨e, s', hrun, hr⟩
      · rw [hrun] at hkept
        rw [Session.step, hr]
        exact hkept
      · rw [hrun] at hkept
        rw [Session.step, hr]
        exact hkept
  | progress now =>
      rw [Session.step, Session.progress]
      split_ifs <;> exact h
  | cancel => exact h
  | fail => exact h
  | takeOutcome =>
      rw [Session.step, Session.takeOutcome]
      split_ifs <;> exact h

variable (bhwi) in
theorem step_context (s : Session Interpreter Policy) (e : Event) :
    (s.step bhwi e).context = s.context :=
  step_framed bhwi (J := fun ctx _ _ => ctx = s.context) (fun _ _ _ h _ => h) rfl e

/-- One call. -/
theorem step_inv {s : Session Interpreter Policy} (h : Inv bhwi ctx intent rs s) (e : Event) :
    Inv bhwi ctx intent (rs ++ s.heard e) (s.step bhwi e) := by
  have hcontext := (step_context bhwi s e).trans h.context
  cases e with
  | receive now step report =>
      rcases receive_cases bhwi s now step report with ⟨s', hrun, hr⟩ | ⟨e, s', hrun, hr⟩
      · rw [Session.step, hr]
        exact receiveInner_inv h hrun
      · rw [Session.step, hr] at hcontext ⊢
        exact .of_closed hcontext (.inr rfl) rfl
  | progress now =>
      have hsilent : s.heard (.progress now) = [] := rfl
      rw [hsilent, List.append_nil]
      rw [Session.step, Session.progress] at hcontext ⊢
      split_ifs at hcontext ⊢ with hexpired
      · exact .of_closed hcontext (.inr rfl) rfl
      · exact h
  | cancel => exact .of_closed hcontext (.inl rfl) rfl
  | fail => exact .of_closed hcontext (.inr rfl) rfl
  | takeOutcome =>
      have hsilent : s.heard .takeOutcome = [] := rfl
      rw [hsilent, List.append_nil]
      rw [Session.step, takeOutcome]
      split_ifs with hcomplete
      · obtain ⟨version, account, outcome, hestablished, hreported, -⟩ := h.complete hcomplete
        exact .of_complete h.context hcomplete hestablished
          ⟨hreported.appVersion, hreported.fingerprint, hreported.account⟩ (.inl rfl)
      · exact h

theorem run_inv {s : Session Interpreter Policy} (h : Inv bhwi ctx intent rs s)
    (events : List Event) :
    Inv bhwi ctx intent (rs ++ s.replies bhwi events) (s.run bhwi events) := by
  induction events generalizing s rs with
  | nil =>
      rw [replies, List.append_nil]
      exact h
  | cons e events ih =>
      rw [replies, ← List.append_assoc]
      exact ih (step_inv h e)

/-- A session before its first command. -/
def initial (ctx : Context Policy) (intent : Intent) (now : Nat) : Session Interpreter Policy where
  context := ctx
  intent := some intent
  started := now
  update :=
    { state := .waiting, step := 0, packets := [], appVersion := none, fingerprint := none }

theorem start_ok {now : Nat} {s : Session Interpreter Policy}
    (h : Session.start bhwi ctx intent now = .ok s) :
    ∃ i t packets, bhwi.start .getVersion = .ok (i, t) ∧ commandReports t.payload = .ok packets ∧
      (ctx.accounts ≠ [] ∧ ctx.accounts.length ≤ 3 ∧ ctx.policy.version = .v2) ∧
      s = { (initial ctx intent now : Session Interpreter Policy).sent packets with
        interpreter := some i } := by
  rw [Session.start] at h
  split_ifs at h with hrefused
  simp only [not_or, not_not, not_lt] at hrefused
  dsimp only at h
  split at h
  · rename_i s' hrun
    obtain rfl := Except.ok.inj h
    obtain ⟨i, t, packets, hstart, hpackets, -, rfl⟩ := command_ok hrun
    exact ⟨i, t, packets, hstart, hpackets, hrefused, rfl⟩
  · cases h

/-- A session starts with the first command running. -/
theorem start_inv {now : Nat} {s : Session Interpreter Policy}
    (h : Session.start bhwi ctx intent now = .ok s) : Inv bhwi ctx intent [] s := by
  obtain ⟨i, t, packets, hstart, -, -, rfl⟩ := start_ok h
  exact .of_waiting rfl rfl rfl rfl (asking_start hstart)

/-- Whatever the device and the interpreter do, a session is complete, and gives
    an outcome, only with the whole transcript: the application's name, the
    fingerprint of an account, the account's extended key, and the answer to the
    one command of its intent, each from replies that passed its phase's checks. -/
theorem complete_verified {now : Nat} {s : Session Interpreter Policy}
    (hstart : Session.start bhwi ctx intent now = .ok s) (events : List Event) :
    ((s.run bhwi events).update.state = .complete → ∃ version account outcome,
      Established bhwi ctx intent (s.replies bhwi events) version account outcome ∧
      Reported (s.run bhwi events) version account) ∧
    ∀ outcome, (s.run bhwi events).takeOutcome.1 = .ok outcome → ∃ version account,
      Established bhwi ctx intent (s.replies bhwi events) version account outcome ∧
      Reported (s.run bhwi events) version account := by
  have hinv := run_inv (start_inv hstart) events
  rw [List.nil_append] at hinv
  constructor
  · intro hcomplete
    obtain ⟨version, account, outcome, hestablished, hreported, -⟩ := hinv.complete hcomplete
    exact ⟨version, account, outcome, hestablished, hreported⟩
  · intro outcome htaken
    rw [takeOutcome] at htaken
    split_ifs at htaken with hcomplete
    obtain ⟨version, account, outcome', hestablished, hreported, houtcome⟩ :=
      hinv.complete hcomplete
    have hsome := okOr_eq_ok.mp htaken
    -- an outcome that is still there is the one of the transcript
    rcases houtcome with hnone | hsame
    · rw [hnone] at hsome
      cases hsome
    · rw [hsame] at hsome
      obtain rfl := Option.some.inj hsome
      exact ⟨version, account, hestablished, hreported⟩

end Runs

end Protocol
end Usb
end Tundra
