/-
  Tundra.Usb.Published

  Any number of Ledger sessions on one store, with every other operation of the
  engine between their calls.  A session that fails or is cancelled leaves the
  store as it is; one that completes was verified, and its write is a step of
  the engine.  So what holds of the engine's runs holds with devices attached,
  and every stored registration comes from a verified session.
-/

import Tundra.Usb.Adapter

namespace Tundra
namespace Usb

open Checked Relational Usb.Protocol Engine Signing Stateful

variable {State Wallet Interpreter Policy : Type} (env : ChainEnv State Wallet)
  (bhwi : Bhwi Interpreter Policy)

/-! ## Runs -/

/-- A session, with the store it was prepared from and what the device answered. -/
structure Attached (State Interpreter Policy : Type) where
  session : UsbSession Interpreter Policy
  origin : Db State
  replies : List Bytes := []

structure UsbWorld (State Interpreter Policy : Type) where
  world : System.World State := {}
  sessions : List (Attached State Interpreter Policy) := []

inductive UsbOp where
  | op (op : System.Op ChainScan)
  | prepare (walletId : String) (operation : Operation) (now : Nat)
  | receive (k now step : Nat) (report : Bytes)
  | progress (k now : Nat)
  | cancel (k : Nat)

/-- A report for a session, and the store after it. -/
def Attached.receive (a : Attached State Interpreter Policy) (db : Db State) (now step : Nat)
    (report : Bytes) : Attached State Interpreter Policy × Db State :=
  let (_, session, db) := a.session.receive env bhwi db now step report
  ({ a with
      session
      replies := a.replies ++ a.session.protocol.heard (.receive now step report) }, db)

namespace UsbWorld

variable (w : UsbWorld State Interpreter Policy)

def step : UsbOp → UsbWorld State Interpreter Policy
  | .op op => { w with world := System.step env.toEnv w.world op }
  | .prepare walletId operation now =>
      match prepareUsb env bhwi w.world.db walletId operation now with
      | .ok session => { w with sessions := w.sessions ++ [{ session, origin := w.world.db }] }
      | .error _ => w
  | .receive k now step report =>
      match w.sessions[k]? with
      | some a =>
          let (a, db) := a.receive env bhwi w.world.db now step report
          { world := { w.world with db }, sessions := w.sessions.set k a }
      | none => w
  | .progress k now =>
      match w.sessions[k]? with
      | some a => { w with sessions := w.sessions.set k { a with session := a.session.progress now } }
      | none => w
  | .cancel k =>
      match w.sessions[k]? with
      | some a => { w with sessions := w.sessions.set k { a with session := a.session.cancel } }
      | none => w

def runFrom (ops : List UsbOp) : UsbWorld State Interpreter Policy :=
  Transition.run (step env bhwi) w ops

def run (ops : List UsbOp) : UsbWorld State Interpreter Policy := runFrom env bhwi {} ops

end UsbWorld

/-! ## What a call does to the store -/

/-- What a session of an operation writes, with an outcome for an account. -/
inductive Written (db : Db State) (s : UsbSession Interpreter Policy) (account : Protocol.Account) :
    Operation → Outcome → Option SigningProgress → Db State → Prop where
  | inspect : Written db s account .inspect .inspected none db
  | registerPolicy (hmac : Bytes32) :
      Written db s account .registerPolicy (.registered hmac) none
        { db with
          hardwareRegistrations := db.hardwareRegistrations.insert
            (s.walletId, fingerprintText account.fingerprint, s.policyId.bytes) hmac.bytes }
  | verifyReceive (index : Nat) (l : Loaded State Wallet)
      (loaded : load env.toEnv db s.walletId = .ok l) (issued : issued env l.wallet index = true) :
      Written db s account (.verifyReceive index) .addressMatches none db
  | signDraft (draftId : String) (psbt : Psbt) (progress : SigningProgress) (db' : Db State)
      (accepted : acceptSignedPsbt env.toEnv db s.walletId draftId (env.serializePsbt psbt) =
        .ok (progress, db')) :
      Written db s account (.signDraft draftId) (.signed psbt) (some progress) db'

/-- A call to a session: it fails and is closed, it goes on, or it publishes. -/
inductive Called (db : Db State) (s : UsbSession Interpreter Policy) (now step : Nat)
    (report : Bytes) : Result Protocol.Update → UsbSession Interpreter Policy → Db State → Prop where
  | failed (e : Error) (protocol : Session Interpreter Policy)
      (run : protocol = s.protocol.run bhwi [.receive now step report, .fail] ∨
        protocol = s.protocol.run bhwi [.receive now step report, .takeOutcome, .fail]) :
      Called db s now step report (.error e) { s with protocol, signing := none } db
  | waiting (update : Protocol.Update) (protocol : Session Interpreter Policy)
      (run : protocol = s.protocol.run bhwi [.receive now step report])
      (same : update = protocol.update) (state : update.state = .waiting) :
      Called db s now step report (.ok update) { s with protocol } db
  | published (update : Protocol.Update) (protocol : Session Interpreter Policy)
      (outcome : Outcome) (signing : Option SigningProgress) (db' : Db State)
      (run : protocol = s.protocol.run bhwi [.receive now step report])
      (same : update = protocol.update) (state : update.state = .complete)
      (taken : protocol.takeOutcome.1 = .ok outcome)
      (publishes : publish env bhwi db s update outcome = .ok (signing, db')) :
      Called db s now step report (.ok update)
        { s with protocol := protocol.takeOutcome.2, signing := signing.or s.signing } db'

section Calls

variable {env} {bhwi} {db db' : Db State} {s s' : UsbSession Interpreter Policy}
  {account : Protocol.Account} {update : Protocol.Update} {outcome : Outcome}

theorem length_fingerprintText (fingerprint : UInt32) :
    (fingerprintText fingerprint).length = 8 := by
  rw [fingerprintText, String.length_ofList, Ascii.length_hexChars]
  rfl

/-- The transaction that publishes a result. -/
theorem publish_ok {signing : Option SigningProgress}
    (htext : update.fingerprint = some (fingerprintText account.fingerprint))
    (h : publish env bhwi db s update outcome = .ok (signing, db')) :
    (∃ current, context env bhwi db s.walletId = .ok current ∧
      bhwi.policyId current.policy = some s.policyId) ∧
    Written env db s account s.operation outcome signing db' := by
  simp only [publish, bind_eq_ok, okOr_eq_ok, require_eq_ok, exists_unit] at h
  obtain ⟨current, hcurrent, policyId, hpolicy, rfl, h⟩ := h
  refine ⟨⟨current, hcurrent, hpolicy⟩, ?_⟩
  cases hoperation : s.operation with
  | inspect =>
      rw [hoperation] at h
      cases outcome <;> cases h
      exact .inspect
  | registerPolicy =>
      rw [hoperation] at h
      cases outcome with
      | registered hmac =>
          simp only [bind_eq_ok, okOr_eq_ok, require_eq_ok, exists_unit, Except.ok.injEq,
            Prod.mk.injEq, htext, Option.some.injEq] at h
          obtain ⟨_, rfl, -, rfl, rfl⟩ := h
          exact .registerPolicy hmac
      | _ => cases h
  | verifyReceive index =>
      rw [hoperation] at h
      cases outcome with
      | addressMatches =>
          simp only [bind_eq_ok, require_eq_ok, exists_unit, Except.ok.injEq, Prod.mk.injEq] at h
          obtain ⟨l, hl, hissued, rfl, rfl⟩ := h
          exact .verifyReceive index l hl hissued
      | _ => cases h
  | signDraft draftId =>
      rw [hoperation] at h
      cases outcome with
      | signed psbt =>
          simp only [bind_eq_ok, Prod.exists, Except.ok.injEq, Prod.mk.injEq] at h
          obtain ⟨progress, db₁, haccept, rfl, rfl⟩ := h
          exact .signDraft draftId psbt progress db₁ haccept
      | _ => cases h

variable (env) (bhwi) in
theorem called (db : Db State) (s : UsbSession Interpreter Policy) (now step : Nat)
    (report : Bytes) :
    Called env bhwi db s now step report (s.receive env bhwi db now step report).1
      (s.receive env bhwi db now step report).2.1 (s.receive env bhwi db now step report).2.2 := by
  have hstep : s.protocol.run bhwi [.receive now step report] =
      (s.protocol.receive bhwi now step report).2 := rfl
  have htaken : s.protocol.run bhwi [.receive now step report, .takeOutcome, .fail] =
      (s.protocol.receive bhwi now step report).2.takeOutcome.2.fail := rfl
  have hfailed : s.protocol.run bhwi [.receive now step report, .fail] =
      (s.protocol.receive bhwi now step report).2.fail := rfl
  rw [UsbSession.receive, UsbSession.receiveInner]
  rcases receive_cases bhwi s.protocol now step report with ⟨p, hrun, hr⟩ | ⟨e, p, hrun, hr⟩
  · rw [hr] at hstep htaken hfailed ⊢
    dsimp only
    by_cases hcomplete : p.update.state = .complete
    · rw [if_neg (not_not.mpr hcomplete)]
      rcases hp : p.takeOutcome with ⟨r, p'⟩
      cases r with
      | error e =>
          refine .failed e p'.fail (.inr ?_)
          rw [htaken, hp]
      | ok outcome =>
          dsimp only
          have hafter : p.takeOutcome.2 = p' := by rw [hp]
          cases hpublish : publish env bhwi db s p.update outcome with
          | error e =>
              refine .failed e p'.fail (.inr ?_)
              rw [htaken, hp]
          | ok out =>
              obtain ⟨signing, db'⟩ := out
              rw [← hafter]
              refine .published p.update p outcome signing db' hstep.symm rfl hcomplete ?_ hpublish
              rw [hp]
    · rw [if_pos hcomplete]
      obtain ⟨-, -, -, -, -, -, hstate⟩ := receiveInner_given hrun
      exact .waiting p.update p hstep.symm rfl (hstate.resolve_right fun h => hcomplete h.1)
  · rw [hr] at hfailed ⊢
    exact .failed e _ (.inl hfailed.symm)

end Calls

/-! ## Sessions over a run -/

/-- A session carries its operation out: it was prepared from a wallet of its
    store, and its protocol has established what it reports. -/
def Sound (a : Attached State Interpreter Policy) : Prop :=
  ∃ ctx intent, context env bhwi a.origin a.session.walletId = .ok ctx ∧
    bhwi.policyId ctx.policy = some a.session.policyId ∧
    intentOf env a.origin a.session.walletId a.session.operation = .ok intent ∧
    Inv bhwi ctx intent a.replies a.session.protocol

section Runs

variable {env} {bhwi} {db : Db State} {a : Attached State Interpreter Policy}

theorem sound_prepare {walletId : String} {operation : Operation} {now : Nat}
    {session : UsbSession Interpreter Policy}
    (h : prepareUsb env bhwi db walletId operation now = .ok session) :
    Sound env bhwi { session, origin := db } := by
  simp only [prepareUsb, bind_eq_ok, okOr_eq_ok, require_eq_ok, exists_unit, Except.ok.injEq] at h
  obtain ⟨-, ctx, hctx, policyId, hpolicy, intent, hintent, protocol, hstart, rfl⟩ := h
  exact ⟨ctx, intent, hctx, hpolicy, hintent, start_inv hstart⟩

/-- What the session's own calls add to what was heard: nothing. -/
theorem inv_silent {ctx : Context Policy} {intent : Intent} {rs : List Bytes}
    {protocol : Session Interpreter Policy} (h : Inv bhwi ctx intent rs protocol) {e : Protocol.Event}
    (he : protocol.heard e = []) : Inv bhwi ctx intent rs (protocol.step bhwi e) := by
  have hstep := Protocol.step_inv h e
  rwa [he, List.append_nil] at hstep

theorem sound_receive (h : Sound env bhwi a) (db : Db State) (now step : Nat) (report : Bytes) :
    Sound env bhwi (a.receive env bhwi db now step report).1 := by
  obtain ⟨ctx, intent, hctx, hpolicy, hintent, hinv⟩ := h
  have hheard := Protocol.step_inv hinv (.receive now step report)
  have hcalled := called env bhwi db a.session now step report
  rw [Attached.receive]
  rcases hr : a.session.receive env bhwi db now step report with ⟨r, s', db'⟩
  rw [hr] at hcalled
  cases hcalled with
  | failed e protocol run =>
      refine ⟨ctx, intent, hctx, hpolicy, hintent, ?_⟩
      rcases run with rfl | rfl
      · exact inv_silent (e := .fail) hheard rfl
      · exact inv_silent (e := .fail) (inv_silent (e := .takeOutcome) hheard rfl) rfl
  | waiting update protocol run =>
      refine ⟨ctx, intent, hctx, hpolicy, hintent, ?_⟩
      rw [run]
      exact hheard
  | published update protocol outcome signing db' run =>
      refine ⟨ctx, intent, hctx, hpolicy, hintent, ?_⟩
      rw [run]
      exact inv_silent (e := .takeOutcome) hheard rfl

/-- Every session of a world is sound. -/
def AllSound (env : ChainEnv State Wallet) (bhwi : Bhwi Interpreter Policy)
    (w : UsbWorld State Interpreter Policy) : Prop :=
  ∀ a ∈ w.sessions, Sound env bhwi a

theorem AllSound.set {w : UsbWorld State Interpreter Policy} (h : AllSound env bhwi w)
    (ha : Sound env bhwi a) (k : Nat) : ∀ b ∈ w.sessions.set k a, Sound env bhwi b := by
  intro b hb
  rcases List.mem_or_eq_of_mem_set hb with hold | rfl
  · exact h b hold
  · exact ha

theorem sound_step {w : UsbWorld State Interpreter Policy} (h : AllSound env bhwi w) (op : UsbOp) :
    AllSound env bhwi (w.step env bhwi op) := by
  cases op with
  | op op => exact h
  | prepare walletId operation now =>
      rw [UsbWorld.step]
      split
      · rename_i session hprepare
        intro a ha
        rcases List.mem_append.mp ha with hold | hnew
        · exact h a hold
        · rw [List.mem_singleton.mp hnew]
          exact sound_prepare hprepare
      · exact h
  | receive k now step report =>
      rw [UsbWorld.step]
      split
      · rename_i a hk
        exact h.set (sound_receive (h a (List.mem_of_getElem? hk)) _ now step report) k
      · exact h
  | progress k now =>
      rw [UsbWorld.step]
      split
      · rename_i a hk
        obtain ⟨ctx, intent, hctx, hpolicy, hintent, hinv⟩ := h a (List.mem_of_getElem? hk)
        have hsound : Sound env bhwi { a with session := a.session.progress now } :=
          ⟨ctx, intent, hctx, hpolicy, hintent, inv_silent (e := .progress now) hinv rfl⟩
        exact h.set hsound k
      · exact h
  | cancel k =>
      rw [UsbWorld.step]
      split
      · rename_i a hk
        obtain ⟨ctx, intent, hctx, hpolicy, hintent, hinv⟩ := h a (List.mem_of_getElem? hk)
        have hsound : Sound env bhwi { a with session := a.session.cancel } :=
          ⟨ctx, intent, hctx, hpolicy, hintent, inv_silent (e := .cancel) hinv rfl⟩
        exact h.set hsound k
      · exact h

variable (env bhwi) in
theorem sound_run (ops : List UsbOp) :
    AllSound env bhwi (UsbWorld.run env bhwi ops) :=
  Transition.run_invariant (UsbWorld.step env bhwi) (I := AllSound env bhwi)
    (fun _ op h => sound_step h op) (fun _ ha => absurd ha List.not_mem_nil) ops

end Runs

/-! ## What is published -/

/-- What a session that publishes an outcome has verified: the whole transcript,
    for the wallet and the operation it was prepared for, and that the wallet
    still has the same policy where the result is written. -/
structure Verified (a : Attached State Interpreter Policy) (replies : List Bytes) (db : Db State)
    (update : Protocol.Update) (account : Protocol.Account) (outcome : Outcome)
    (signing : Option SigningProgress) (db' : Db State) : Prop where
  transcript : ∃ ctx intent version, context env bhwi a.origin a.session.walletId = .ok ctx ∧
    bhwi.policyId ctx.policy = some a.session.policyId ∧
    intentOf env a.origin a.session.walletId a.session.operation = .ok intent ∧
    account ∈ ctx.accounts ∧ Established bhwi ctx intent replies version account outcome ∧
    update.appVersion = some version
  fingerprint : update.fingerprint = some (fingerprintText account.fingerprint)
  current : ∃ current, context env bhwi db a.session.walletId = .ok current ∧
    bhwi.policyId current.policy = some a.session.policyId
  written : Written env db a.session account a.session.operation outcome signing db'

/-- A report for a session: it fails and leaves the store, it is not the last
    one and leaves the store, or the session publishes what it has verified. -/
inductive Received (a : Attached State Interpreter Policy) (replies : List Bytes) (db : Db State) :
    Result Protocol.Update × UsbSession Interpreter Policy × Db State → Prop where
  | failed (e : Error) (s : UsbSession Interpreter Policy)
      (closed : s.protocol.update.state = .failed) (signing : s.signing = none) :
      Received a replies db (.error e, s, db)
  | waiting (update : Protocol.Update) (s : UsbSession Interpreter Policy)
      (state : update.state = .waiting) : Received a replies db (.ok update, s, db)
  | published (update : Protocol.Update) (s : UsbSession Interpreter Policy) (account : Protocol.Account)
      (outcome : Outcome) (signing : Option SigningProgress) (db' : Db State)
      (state : update.state = .complete)
      (verified : Verified env bhwi a replies db update account outcome signing db') :
      Received a replies db (.ok update, s, db')

section Results

variable {env} {bhwi} {a : Attached State Interpreter Policy}

theorem account_mem {ctx : Context Policy} {intent : Intent} {rs : List Bytes} {version : String}
    {account : Protocol.Account} {outcome : Outcome}
    (h : Established bhwi ctx intent rs version account outcome) : account ∈ ctx.accounts := by
  obtain ⟨first, rest, -, ⟨infos, fingerprints, xpubs, -, -, hfound, -⟩, -⟩ := h.replies
  exact List.mem_of_find?_eq_some hfound.found

theorem received (h : Sound env bhwi a) (db : Db State) (now step : Nat) (report : Bytes) :
    Received env bhwi a (a.replies ++ a.session.protocol.heard (.receive now step report)) db
      (a.session.receive env bhwi db now step report) := by
  obtain ⟨ctx, intent, hctx, hpolicy, hintent, hinv⟩ := h
  have hheard := Protocol.step_inv hinv (.receive now step report)
  have hcalled := called env bhwi db a.session now step report
  rcases hr : a.session.receive env bhwi db now step report with ⟨r, s', db'⟩
  rw [hr] at hcalled
  cases hcalled with
  | failed e protocol run =>
      refine .failed e _ ?_ rfl
      rcases run with rfl | rfl <;> rfl
  | waiting update protocol run same state => exact .waiting update _ state
  | published update protocol outcome signing db' run same state taken publishes =>
      have hprotocol : a.session.protocol.step bhwi (.receive now step report) = protocol :=
        run.symm
      rw [hprotocol] at hheard
      have hcomplete : protocol.update.state = .complete := same ▸ state
      obtain ⟨version, account, outcome', hestablished, hreported, houtcome⟩ :=
        hheard.complete hcomplete
      -- the outcome that is taken is the one of the transcript
      have hsame : outcome' = outcome := by
        rw [Session.takeOutcome, if_pos hcomplete] at taken
        rcases houtcome with hnone | hsome
        · rw [hnone] at taken
          cases taken
        · rw [hsome] at taken
          exact Except.ok.inj taken
      subst hsame
      have htext : update.fingerprint = some (fingerprintText account.fingerprint) := by
        rw [same]
        exact hreported.fingerprint
      obtain ⟨hcurrent, hwritten⟩ := publish_ok htext publishes
      refine .published update _ account outcome' signing db' state ⟨⟨ctx, intent, version, hctx,
        hpolicy, hintent, account_mem hestablished, hestablished, ?_⟩, htext, hcurrent, hwritten⟩
      rw [same]
      exact hreported.appVersion

/-! ## Sessions that are over -/

/-- A session that does not wait refuses every report, whatever the store. -/
def Over (env : ChainEnv State Wallet) (bhwi : Bhwi Interpreter Policy)
    (a : Attached State Interpreter Policy) : Prop :=
  a.session.protocol.update.state ≠ .waiting ∧ ∀ db now step report, ∃ e s,
    a.session.receive env bhwi db now step report = (.error e, s, db)

theorem over_iff : Over env bhwi a ↔ a.session.protocol.update.state ≠ .waiting := by
  refine ⟨fun h => h.1, fun h => ⟨h, fun db now step report => ?_⟩⟩
  obtain ⟨e, p, hr⟩ := receive_refused bhwi h now step report
  rw [UsbSession.receive, UsbSession.receiveInner, hr]
  exact ⟨e, _, rfl⟩

/-- Session `k` of a world is over. -/
def OverAt (env : ChainEnv State Wallet) (bhwi : Bhwi Interpreter Policy) (k : Nat)
    (w : UsbWorld State Interpreter Policy) : Prop :=
  ∃ a, w.sessions[k]? = some a ∧ Over env bhwi a

theorem OverAt.set {w : UsbWorld State Interpreter Policy} {k j : Nat} {world : System.World State}
    (h : OverAt env bhwi k w) (hj : ∃ b, w.sessions[j]? = some b ∧ (Over env bhwi b → Over env bhwi a)) :
    OverAt env bhwi k { world, sessions := w.sessions.set j a } := by
  obtain ⟨b, hb, hover⟩ := h
  obtain ⟨b', hb', hkeep⟩ := hj
  by_cases hk : j = k
  · subst hk
    rw [hb, Option.some.injEq] at hb'
    subst hb'
    refine ⟨a, ?_, hkeep hover⟩
    exact List.getElem?_set_self (List.getElem?_eq_some_iff.mp hb).1
  · refine ⟨b, ?_, hover⟩
    show (w.sessions.set j a)[k]? = some b
    rw [List.getElem?_set_ne hk, hb]

/-- No call makes a session that is over wait again. -/
theorem overAt_step {w : UsbWorld State Interpreter Policy} {k : Nat} (h : OverAt env bhwi k w)
    (op : UsbOp) : OverAt env bhwi k (w.step env bhwi op) := by
  cases op with
  | op op => exact h
  | prepare walletId operation now =>
      rw [UsbWorld.step]
      split
      · obtain ⟨a, ha, hover⟩ := h
        refine ⟨a, ?_, hover⟩
        rw [List.getElem?_append_left (List.getElem?_eq_some_iff.mp ha).1, ha]
      · exact h
  | receive j now step report =>
      rw [UsbWorld.step]
      split
      · rename_i b hb
        refine OverAt.set (a := (b.receive env bhwi w.world.db now step report).1) h
          ⟨b, hb, fun hover => over_iff.mpr ?_⟩
        obtain ⟨e, p, hr⟩ := receive_refused bhwi hover.1 now step report
        rw [Attached.receive, UsbSession.receive, UsbSession.receiveInner, hr]
        exact state_close (p.close .failed) (by decide)
      · exact h
  | progress j now =>
      rw [UsbWorld.step]
      split
      · rename_i b hb
        refine h.set ⟨b, hb, fun hover => over_iff.mpr ?_⟩
        exact (Protocol.step_closed bhwi hover.1 (.progress now)).1
      · exact h
  | cancel j =>
      rw [UsbWorld.step]
      split
      · rename_i b hb
        exact h.set ⟨b, hb, fun _ => over_iff.mpr (state_close b.session.protocol (by decide))⟩
      · exact h

end Results

/-! ## The engine's runs -/

/-- An operation that a session gives the store. -/
def DeviceOp : System.Op ChainScan → Prop
  | .registerPolicy .. | .acceptSignedPsbt .. => True
  | _ => False

section Refinement

variable {env} {bhwi} {db db' : Db State}

theorem context_load {walletId : String} {ctx : Context Policy}
    (h : context env bhwi db walletId = .ok ctx) : ∃ l, load env.toEnv db walletId = .ok l := by
  simp only [context, bind_eq_ok] at h
  obtain ⟨l, hl, -⟩ := h
  exact ⟨l, hl⟩

/-- What a session writes is an operation of the engine. -/
theorem written_op {s : UsbSession Interpreter Policy} {account : Protocol.Account} {operation : Operation}
    {outcome : Outcome} {signing : Option SigningProgress}
    (h : Written env db s account operation outcome signing db')
    (hload : ∃ l, load env.toEnv db s.walletId = .ok l) :
    db' = db ∨ ∃ o, DeviceOp o ∧ System.transact env.toEnv db o = some (.ok db') := by
  cases h with
  | inspect => exact .inl rfl
  | registerPolicy hmac =>
      obtain ⟨l, hl⟩ := hload
      refine .inr ⟨.registerPolicy s.walletId (fingerprintText account.fingerprint) s.policyId.bytes
        hmac.bytes, trivial, ?_⟩
      rw [System.transact, System.registerPolicy, hl, ok_bind,
        require_of ⟨length_fingerprintText _, s.policyId.size, hmac.size⟩]
      rfl
  | verifyReceive => exact .inl rfl
  | signDraft draftId psbt progress db' accepted =>
      refine .inr ⟨.acceptSignedPsbt s.walletId draftId (env.serializePsbt psbt), trivial, ?_⟩
      rw [System.transact, accepted]
      rfl

theorem deviceOp_step {world : System.World State} {o : System.Op ChainScan} (ho : DeviceOp o)
    (h : System.transact env.toEnv world.db o = some (.ok db')) :
    System.step env.toEnv world o = { world with db := db' } := by
  refine System.step_ok env.toEnv h fun now hrestore => ?_
  rw [hrestore] at ho
  exact ho

/-- The store after a report. -/
theorem receive_store {a : Attached State Interpreter Policy} (hsound : Sound env bhwi a)
    (db : Db State) (now step : Nat) (report : Bytes) :
    (a.receive env bhwi db now step report).2 = db ∨ ∃ o, DeviceOp o ∧
      System.transact env.toEnv db o = some (.ok (a.receive env bhwi db now step report).2) := by
  have hcalled := called env bhwi db a.session now step report
  rw [Attached.receive]
  rcases hr : a.session.receive env bhwi db now step report with ⟨r, s', db'⟩
  rw [hr] at hcalled
  cases hcalled with
  | failed e protocol run => exact .inl rfl
  | waiting update protocol run => exact .inl rfl
  | published update protocol outcome signing db' run same state taken publishes =>
      obtain ⟨account, htext⟩ : ∃ account : Protocol.Account,
          update.fingerprint = some (fingerprintText account.fingerprint) := by
        obtain ⟨ctx, intent, -, -, -, hinv⟩ := hsound
        have hheard := Protocol.step_inv hinv (.receive now step report)
        have hprotocol : a.session.protocol.step bhwi (.receive now step report) = protocol :=
          run.symm
        rw [hprotocol] at hheard
        rw [same] at state ⊢
        obtain ⟨version, account, -, -, hreported, -⟩ := hheard.complete state
        exact ⟨account, hreported.fingerprint⟩
      obtain ⟨⟨current, hcurrent, -⟩, hwritten⟩ := publish_ok htext publishes
      exact written_op hwritten (context_load hcurrent)

theorem step_refines {w : UsbWorld State Interpreter Policy} (hsound : AllSound env bhwi w)
    (op : UsbOp) : ∃ l, (w.step env bhwi op).world = System.runFrom env.toEnv w.world l ∧
      ∀ o ∈ l, op = .op o ∨ DeviceOp o := by
  cases op with
  | op o => exact ⟨[o], rfl, fun o' ho => .inl (by rw [List.mem_singleton.mp ho])⟩
  | prepare walletId operation now =>
      refine ⟨[], ?_, fun o ho => absurd ho List.not_mem_nil⟩
      rw [UsbWorld.step]
      split <;> rfl
  | receive k now step report =>
      rw [UsbWorld.step]
      split
      · rename_i a hk
        rcases receive_store (hsound a (List.mem_of_getElem? hk)) w.world.db now step report with
          hsame | ⟨o, ho, htransact⟩
        · refine ⟨[], ?_, fun o ho => absurd ho List.not_mem_nil⟩
          show { w.world with db := (a.receive env bhwi w.world.db now step report).2 } = w.world
          rw [hsame]
        · refine ⟨[o], (deviceOp_step ho htransact).symm, fun o' ho' => .inr ?_⟩
          rw [List.mem_singleton.mp ho']
          exact ho
      · exact ⟨[], rfl, fun o ho => absurd ho List.not_mem_nil⟩
  | progress k now =>
      refine ⟨[], ?_, fun o ho => absurd ho List.not_mem_nil⟩
      rw [UsbWorld.step]
      split <;> rfl
  | cancel k =>
      refine ⟨[], ?_, fun o ho => absurd ho List.not_mem_nil⟩
      rw [UsbWorld.step]
      split <;> rfl

variable (env) (bhwi) in
/-- With any number of devices attached, a store is one the engine's operations
    lead to: those of the run, and those that publish a session's result. -/
theorem attached_refines (ops : List UsbOp) :
    ∃ l, (UsbWorld.run env bhwi ops).world = System.run env.toEnv l ∧
      ∀ o ∈ l, .op o ∈ ops ∨ DeviceOp o := by
  induction ops using List.reverseRecOn with
  | nil => exact ⟨[], rfl, fun o ho => absurd ho List.not_mem_nil⟩
  | append_singleton ops op ih =>
      obtain ⟨l, hl, hops⟩ := ih
      obtain ⟨l', hl', hlast⟩ := step_refines (sound_run env bhwi ops) op
      refine ⟨l ++ l', ?_, fun o ho => ?_⟩
      · rw [System.run_append, ← hl, ← hl', UsbWorld.run, UsbWorld.runFrom, Transition.run_concat]
        rfl
      · rcases List.mem_append.mp ho with ho | ho
        · exact (hops o ho).imp_left fun hmem => List.mem_append_left _ hmem
        · exact (hlast o ho).imp_left fun heq =>
            List.mem_append_right _ (List.mem_singleton.mpr heq.symm)

/-- Whatever is done to the store and to the sessions between two calls: a report
    fails and leaves the store, or it is not the last one, or the session
    publishes what it has verified.  A session that is cancelled, failed, expired
    or complete refuses every later report and never writes again. -/
theorem attached_received (ops : List UsbOp) {k : Nat} {a : Attached State Interpreter Policy}
    (hk : (UsbWorld.run env bhwi ops).sessions[k]? = some a) :
    (∀ now step report, Received env bhwi a
      (a.replies ++ a.session.protocol.heard (.receive now step report))
      (UsbWorld.run env bhwi ops).world.db
      (a.session.receive env bhwi (UsbWorld.run env bhwi ops).world.db now step report)) ∧
    (a.session.protocol.update.state ≠ .waiting → ∀ later,
      OverAt env bhwi k (UsbWorld.run env bhwi (ops ++ later))) := by
  have hsound := sound_run env bhwi ops a (List.mem_of_getElem? hk)
  refine ⟨fun now step report => received hsound _ now step report, fun hclosed later => ?_⟩
  rw [UsbWorld.run, UsbWorld.runFrom, Transition.run_append]
  exact Transition.run_invariant (UsbWorld.step env bhwi) (I := OverAt env bhwi k)
    (fun _ op h => overAt_step h op) ⟨a, hk, over_iff.mpr hclosed⟩ later

end Refinement

end Usb
end Tundra
