/-
  Tundra.Usb.Budget

  The limits of a Ledger session.  What a session accepts and sends is bounded
  whatever the device does, a session that has left the waiting state accepts
  nothing more, and only a session that waits has a command and packets for the
  device.
-/

import Tundra.Usb.Session

namespace Tundra
namespace Usb

open Checked

/-- Only whole reports are accepted. -/
theorem ResponseReader.length_of_receive {reader : ResponseReader} {report : Bytes}
    {payload : Option Bytes} (h : (reader.receive report).2 = .ok payload) :
    report.length = reportBytes := by
  rw [receive] at h
  cases hinner : reader.receiveInner report with
  | error e =>
      rw [hinner] at h
      cases h
  | ok out =>
      simp only [receiveInner, bind_eq_ok, require_eq_ok, exists_unit] at hinner
      exact hinner.1.2.1

namespace Protocol

open Relational Stateful Session

variable {Interpreter Policy : Type} (bhwi : Bhwi Interpreter Policy)

/-! ## What a run accepts -/

namespace Session

/-- The report that a call accepts. -/
def accepted (s : Session Interpreter Policy) : Event → List Bytes
  | .receive now step report =>
      match (s.receive bhwi now step report).1 with
      | .ok _ => [report]
      | .error _ => []
  | _ => []

/-- The reports that a run accepts. -/
def reports : Session Interpreter Policy → List Event → List Bytes
  | _, [] => []
  | s, e :: events => s.accepted bhwi e ++ reports (s.step bhwi e) events

end Session

/-- Nothing is running and nothing is left to send. -/
structure Silent (s : Session Interpreter Policy) : Prop where
  packets : s.update.packets = []
  interpreter : s.interpreter = none
  intent : s.intent = none

/-- The limits, with the reports accepted so far. -/
structure Limited (reports : List Bytes) (s : Session Interpreter Policy) : Prop where
  received : reports.flatten.length ≤ maxReceivedBytes
  whole : Chunk.Whole reportBytes reports
  counted : s.update.state = .waiting → s.bytes = reports.flatten.length
  exchanges : s.update.step ≤ maxExchanges
  packets : s.update.packets = [] ∨ ∃ apdu, Usb.Framed apdu s.update.packets
  silent : s.update.state ≠ .waiting → Silent s

/-! ## One call -/

section Steps

variable {bhwi} {s s' : Session Interpreter Policy} {reports : List Bytes}

/-- A step below its limit stays within it. -/
theorem exchanges_step : ∀ (_ : Context Policy) (_ n : Nat), n ≤ maxExchanges → n < maxExchanges →
    n + 1 ≤ maxExchanges := fun _ _ _ _ h => h

/-- A command that is given, or a session that is finished. -/
def Given (s s' : Session Interpreter Policy) : Prop :=
  s'.bytes = s.bytes ∧
    ((s'.update.state = s.update.state ∧ ∃ apdu, Usb.Framed apdu s'.update.packets) ∨
      s'.update.state = .complete ∧ (s.interpreter = none → Silent s'))

theorem command_given {c : Command Policy} (h : exec (command bhwi c) s = (.ok (), s')) :
    Given s s' := by
  obtain ⟨i, t, packets, -, hpackets, -, rfl⟩ := command_ok h
  exact ⟨rfl, .inl ⟨rfl, t.payload, framed_commandReports hpackets⟩⟩

theorem finish_given {outcome : Outcome} (h : exec (finish outcome) s = (.ok (), s')) :
    Given s s' := by
  obtain ⟨-, rfl⟩ := Prod.mk.inj h
  exact ⟨rfl, .inr ⟨rfl, fun hnone => ⟨rfl, hnone, rfl⟩⟩⟩

theorem action_given (h : exec (action bhwi) s = (.ok (), s')) : Given s s' := by
  rw [action, exec_bind_get] at h
  cases hintent : s.intent with
  | none =>
      rw [hintent] at h
      cases (Prod.mk.inj h).1
  | some intent =>
      rw [hintent] at h
      cases intent with
      | inspect => exact finish_given h
      | register => exact command_given h
      | address index expected =>
          obtain ⟨hmac, -, h⟩ := exec_bind_lift_ok.mp h
          exact command_given h
      | sign psbt =>
          obtain ⟨hmac, -, h⟩ := exec_bind_lift_ok.mp h
          exact command_given h

theorem answer_given {result : Response}
    (h : exec (Session.answer bhwi result) s = (.ok (), s')) : Given s s' := by
  rw [Session.answer, exec_bind_get] at h
  split at h
  · simp only [answerInfo, exec_bind_modify, exec_bind_lift_ok] at h
    obtain ⟨-, -, h⟩ := h
    have hgiven := command_given h
    exact hgiven
  · simp only [answerFingerprint, exec_bind_get, exec_bind_modify, exec_bind_lift_ok] at h
    obtain ⟨account, -, h⟩ := h
    have hgiven := command_given h
    exact hgiven
  · simp only [answerXpub, exec_bind_get, exec_bind_modify, exec_bind_lift_ok] at h
    obtain ⟨-, -, h⟩ := h
    have hgiven := action_given h
    exact hgiven
  · split at h
    · exact finish_given h
    · cases (Prod.mk.inj h).1
  · rw [answerAddress, exec_bind_get] at h
    split at h
    · obtain ⟨-, -, h⟩ := exec_bind_lift_ok.mp h
      exact finish_given h
    · cases (Prod.mk.inj h).1
  · split at h
    · exact finish_given h
    · cases (Prod.mk.inj h).1
  · cases (Prod.mk.inj h).1

/-- A report that is accepted. -/
theorem receiveInner_given {now step : Nat} {report : Bytes}
    (h : exec (receiveInner bhwi now step report) s = (.ok (), s')) :
    s.update.state = .waiting ∧ now - s.started ≤ lifetime ∧ report.length = reportBytes ∧
      s.bytes + report.length ≤ maxReceivedBytes ∧ s'.bytes = s.bytes + report.length ∧
      (s'.update.packets = [] ∨ ∃ apdu, Usb.Framed apdu s'.update.packets) ∧
      (s'.update.state = .waiting ∨ s'.update.state = .complete ∧ Silent s') := by
  obtain ⟨reply, s₁, hlisten, h⟩ := receiveInner_ok h
  obtain ⟨hstate, hlive, -, hbytes, hreply, rfl⟩ := listen_ok hlisten
  refine ⟨hstate, hlive, ResponseReader.length_of_receive hreply, hbytes, ?_⟩
  rcases h with ⟨rfl, rfl⟩ | ⟨r, response, s₂, rfl, hexchange, h⟩
  · exact ⟨rfl, .inl rfl, .inl hstate⟩
  obtain ⟨-, i, i', -, hcase⟩ := exchange_ok hexchange
  rcases hcase with ⟨t, packets, -, rfl, hpackets, -, rfl⟩ | ⟨result, -, -, rfl, rfl⟩
  · rcases h with ⟨-, rfl⟩ | ⟨result, hresult, -⟩
    · exact ⟨rfl, .inr ⟨t.payload, framed_commandReports hpackets⟩, .inl hstate⟩
    · cases hresult
  · rcases h with ⟨hresult, -⟩ | ⟨result', hresult, h⟩
    · cases hresult
    · obtain ⟨hsame, hgiven⟩ := answer_given h
      refine ⟨hsame, ?_⟩
      rcases hgiven with ⟨hwaiting, hframed⟩ | ⟨hcomplete, hsilent⟩
      · exact ⟨.inr hframed, .inl (hwaiting.trans hstate)⟩
      · exact ⟨.inl (hsilent rfl).packets, .inr ⟨hcomplete, hsilent rfl⟩⟩

/-- What is closed is silent. -/
theorem silent_close (s : Session Interpreter Policy) (state : SessionState) :
    Silent (s.close state) := ⟨rfl, rfl, rfl⟩

theorem state_close (s : Session Interpreter Policy) {state : SessionState} (h : state ≠ .waiting) :
    (s.close state).update.state ≠ .waiting := h

theorem Limited.close (h : Limited reports s) (hexchanges : s'.update.step ≤ maxExchanges)
    {state : SessionState} (hstate : state ≠ .waiting) : Limited reports (s'.close state) where
  received := h.received
  whole := h.whole
  counted hwaiting := absurd hwaiting hstate
  exchanges := hexchanges
  packets := .inl rfl
  silent _ := silent_close s' state

theorem step_limited (h : Limited reports s) (e : Event) :
    Limited (reports ++ s.accepted bhwi e) (s.step bhwi e) := by
  have hexchanges := step_framed bhwi exchanges_step h.exchanges e
  cases e with
  | receive now step report =>
      rcases receive_cases bhwi s now step report with ⟨s', hrun, hr⟩ | ⟨e, s', hrun, hr⟩
      · have haccepted : s.accepted bhwi (.receive now step report) = [report] := by
          rw [accepted, hr]
        rw [Session.step, hr] at hexchanges ⊢
        obtain ⟨hstate, -, hwhole, hbytes, hsame, hpackets, hsilent⟩ := receiveInner_given hrun
        have hsum : (reports ++ [report]).flatten.length = s.bytes + report.length := by
          rw [List.flatten_append, List.flatten_singleton, List.length_append, h.counted hstate]
        rw [haccepted]
        exact
          { received := hsum.trans_le hbytes
            whole := fun r hr => (List.mem_append.mp hr).elim (h.whole r) fun hr => by
              rw [List.mem_singleton.mp hr]
              exact hwhole
            counted := fun _ => hsame.trans hsum.symm
            exchanges := hexchanges
            packets := hpackets
            silent := fun hne => (hsilent.resolve_left hne).2 }
      · have haccepted : s.accepted bhwi (.receive now step report) = [] := by
          rw [accepted, hr]
        rw [Session.step, hr] at hexchanges ⊢
        rw [haccepted, List.append_nil]
        exact h.close hexchanges (by decide)
  | progress now =>
      have hnone : s.accepted bhwi (.progress now) = [] := rfl
      rw [hnone, List.append_nil]
      rw [Session.step, progress]
      split_ifs
      · exact h.close h.exchanges (by decide)
      · exact h
  | cancel =>
      have hnone : s.accepted bhwi .cancel = [] := rfl
      rw [hnone, List.append_nil]
      exact h.close h.exchanges (by decide)
  | fail =>
      have hnone : s.accepted bhwi .fail = [] := rfl
      rw [hnone, List.append_nil]
      exact h.close h.exchanges (by decide)
  | takeOutcome =>
      have hnone : s.accepted bhwi .takeOutcome = [] := rfl
      rw [hnone, List.append_nil]
      rw [Session.step, takeOutcome]
      split_ifs with hcomplete
      · obtain ⟨hpackets, hinterpreter, hintent⟩ :=
          h.silent (by rw [hcomplete]; decide)
        exact
          { received := h.received
            whole := h.whole
            counted := fun hwaiting => absurd (hcomplete.symm.trans hwaiting) (by decide)
            exchanges := h.exchanges
            packets := .inl hpackets
            silent := fun _ => ⟨hpackets, hinterpreter, hintent⟩ }
      · exact h

variable (bhwi) in
/-- A session that does not wait refuses every report. -/
theorem receive_refused (h : s.update.state ≠ .waiting) (now step : Nat) (report : Bytes) :
    ∃ e, ∃ s' : Session Interpreter Policy,
      s.receive bhwi now step report = (.error e, s'.close .failed) := by
  rcases receive_cases bhwi s now step report with ⟨s', hrun, -⟩ | ⟨e, s', -, hr⟩
  · exact absurd (receiveInner_given hrun).1 h
  · exact ⟨e, s', hr⟩

variable (bhwi) in
/-- A session that has left the waiting state never waits again, and refuses
    every report. -/
theorem step_closed (h : s.update.state ≠ .waiting) (e : Event) :
    (s.step bhwi e).update.state ≠ .waiting ∧ s.accepted bhwi e = [] := by
  cases e with
  | receive now step report =>
      obtain ⟨e, s', hr⟩ := receive_refused bhwi h now step report
      rw [Session.step, accepted, hr]
      exact ⟨state_close s' (by decide), rfl⟩
  | progress now =>
      rw [Session.step, progress, if_neg fun hexpired => h hexpired.1]
      exact ⟨h, rfl⟩
  | cancel => exact ⟨state_close s (by decide), rfl⟩
  | fail => exact ⟨state_close s (by decide), rfl⟩
  | takeOutcome =>
      rw [Session.step, takeOutcome]
      split_ifs
      · exact ⟨h, rfl⟩
      · exact ⟨h, rfl⟩

end Steps

/-! ## Runs -/

section Runs

variable {bhwi} {s : Session Interpreter Policy}

variable (bhwi) in
theorem run_limited {reports : List Bytes} (h : Limited reports s) (events : List Event) :
    Limited (reports ++ s.reports bhwi events) (s.run bhwi events) := by
  induction events generalizing s reports with
  | nil =>
      rw [Session.reports, List.append_nil]
      exact h
  | cons e events ih =>
      rw [Session.reports, ← List.append_assoc]
      exact ih (step_limited h e)

variable (bhwi) in
theorem run_closed (h : s.update.state ≠ .waiting) (events : List Event) :
    (s.run bhwi events).update.state ≠ .waiting ∧ s.reports bhwi events = [] := by
  induction events generalizing s with
  | nil => exact ⟨h, rfl⟩
  | cons e events ih =>
      obtain ⟨hstep, haccepted⟩ := step_closed bhwi h e
      rw [Session.reports, haccepted]
      exact ih hstep

variable (bhwi) in
theorem reports_append (s : Session Interpreter Policy) (events later : List Event) :
    s.reports bhwi (events ++ later) =
      s.reports bhwi events ++ (s.run bhwi events).reports bhwi later := by
  induction events generalizing s with
  | nil => rfl
  | cons e events ih =>
      show s.accepted bhwi e ++ Session.reports bhwi (s.step bhwi e) (events ++ later) = _
      rw [ih, ← List.append_assoc]
      rfl

variable (bhwi) in
/-- The start of a session is part of its frame. -/
theorem run_started (events : List Event) : (s.run bhwi events).started = s.started :=
  Transition.run_invariant (Session.step bhwi) (I := fun s' => s'.started = s.started)
    (fun _ e h => step_framed bhwi (J := fun _ t₀ _ => t₀ = s.started) (fun _ _ _ h _ => h) h e) rfl
    events

theorem start_started {ctx : Context Policy} {intent : Intent} {now : Nat}
    (h : Session.start bhwi ctx intent now = .ok s) : s.started = now := by
  obtain ⟨i, t, packets, -, -, -, rfl⟩ := start_ok h
  rfl

theorem start_limited {ctx : Context Policy} {intent : Intent} {now : Nat}
    (h : Session.start bhwi ctx intent now = .ok s) : Limited [] s := by
  obtain ⟨i, t, packets, -, hpackets, -, rfl⟩ := start_ok h
  exact
    { received := by decide
      whole := List.forall_mem_nil _
      counted := fun _ => rfl
      exchanges := Nat.one_le_ofNat
      packets := .inr ⟨t.payload, framed_commandReports hpackets⟩
      silent := fun hne => absurd rfl hne }

/-- Whatever the device, the interpreter and the caller do: a session sends at
    most 4096 messages, each of them a framed one, and accepts at most 65536
    reports, in 180 seconds from its start; once it does not wait it has nothing
    to send, and it accepts nothing more. -/
theorem session_budget {ctx : Context Policy} {intent : Intent} {now : Nat}
    (hstart : Session.start bhwi ctx intent now = .ok s) (events : List Event) :
    Limited (s.reports bhwi events) (s.run bhwi events) ∧
    (s.reports bhwi events).length ≤ 65536 ∧
    (∀ later step report, (∃ update, ((s.run bhwi events).receive bhwi later step report).1 =
      .ok update) → later - now ≤ lifetime) ∧
    ((s.run bhwi events).update.state ≠ .waiting → ∀ later : List Event,
      (s.run bhwi (events ++ later)).update.state ≠ .waiting ∧
        s.reports bhwi (events ++ later) = s.reports bhwi events) := by
  have hlimited := run_limited bhwi (start_limited hstart) events
  rw [List.nil_append] at hlimited
  refine ⟨hlimited, ?_, ?_, ?_⟩
  · have hlength := hlimited.whole.length_flatten
    have hreceived := hlimited.received
    simp only [reportBytes, maxReceivedBytes] at hlength hreceived
    omega
  · rintro later step report ⟨update, hok⟩
    rcases receive_cases bhwi (s.run bhwi events) later step report with
      ⟨s', hrun, -⟩ | ⟨e, s', -, hr⟩
    · have hlive := (receiveInner_given hrun).2.1
      rwa [run_started bhwi events, start_started hstart] at hlive
    · rw [hr] at hok
      cases hok
  · intro hclosed later
    obtain ⟨hstate, hnone⟩ := run_closed bhwi hclosed later
    rw [reports_append, hnone, List.append_nil]
    refine ⟨?_, rfl⟩
    rw [Session.run, Transition.run_append]
    exact hstate

end Runs

end Protocol
end Usb
end Tundra
