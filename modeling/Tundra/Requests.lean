/-
  Tundra.Requests

  How one step changes the running requests, the submissions and the POSTs.
-/

import Tundra.Paths

namespace Tundra
namespace Requests

open Checked Relational Broadcast Paths Tundra.System

variable {State Wallet Scan : Type} (env : Env State Wallet Scan)

/-- The row a request inserts. -/
def attemptRow (r : BroadcastRequest) (p : Preflight) (now : Nat) : AttemptRow where
  walletId := r.walletId
  draftId := r.draftId
  endpoint := p.endpoint
  txid := p.approved.txid
  wtxid := p.approved.wtxid
  requestedAt := now
  acknowledged := false

/-- An attempt is inserted for validated bytes only, after the attempts the
    request knows of. -/
theorem insertAttempt_facts {db : Db State} {r : BroadcastRequest} {p : Preflight} {now : Nat}
    {out : Nat × Db State} (h : Broadcast.insertAttempt env db r p now = .ok out) :
    Signing.validatedFinalized env db r.walletId r.draftId = .ok (some p.approved) ∧
      checkPrevious db r.walletId r.draftId r.previousAttempt r.retryAcknowledged = .ok () ∧
      out = (db.nextAttemptId, { db with
        broadcastAttempts := db.broadcastAttempts.insert db.nextAttemptId (attemptRow r p now)
        attemptSequence := db.nextAttemptId }) := by
  simp only [Broadcast.insertAttempt, Db.insertAttempt, bind_eq_ok, require_eq_ok, exists_unit,
    okOr_eq_ok, Except.ok.injEq] at h
  obtain ⟨final, hvalid, current, rfl, rfl, hprev, _, _, rfl⟩ := h
  exact ⟨hvalid, hprev, rfl⟩

/-- The transaction of a recheck that inserts an attempt for a request. -/
structure Inserts (world : World State) (op : Op Scan) (s : Submission) (p : Preflight) : Prop where
  recheck : ∃ body now, op = .recheck s.requestId body now ∧
    Broadcast.insertAttempt env world.db s.request p now =
      .ok (s.attemptId, (step env world op).db)
  request : world.requests[s.requestId]? = some { request := s.request, phase := .preflighted p }
  submissions : (step env world op).submissions = world.submissions ++ [s]

/-- A recheck that does not insert an attempt ends its request, if it has one. -/
theorem recheck_cases (world : World State) (q : Nat) (body : Option String) (now : Nat) :
    (step env world (.recheck q body now) = world) ∨
    (step env world (.recheck q body now) = world.endRequest q) ∨
    ∃ r p a, Inserts env world (.recheck q body now)
        { requestId := q, request := r, attemptId := a } p ∧
      (step env world (.recheck q body now)).requests =
        world.requests.insert q { request := r, phase := .inserted p a } ∧
      (step env world (.recheck q body now)).posts = world.posts := by
  change world.recheck env q body now = world ∨ world.recheck env q body now = world.endRequest q ∨ _
  cases hreq : world.requests[q]? with
  | none => exact .inl (by simp only [World.recheck, hreq])
  | some req =>
      obtain ⟨r, phase⟩ := req
      cases phase with
      | inserted p a => exact .inl (by simp only [World.recheck, hreq])
      | posted p a => exact .inl (by simp only [World.recheck, hreq])
      | preflighted p =>
          cases hrun : (do
              checkGenesis env p body
              Broadcast.insertAttempt env world.db r p now : Result (Nat × Db State)) with
          | error e =>
              refine .inr (.inl ?_)
              simp only [World.recheck, hreq, hrun]
          | ok out =>
              refine .inr (.inr ⟨r, p, out.1, ?_⟩)
              have hstep : step env world (.recheck q body now) =
                  { world with
                    db := out.2
                    requests := world.requests.insert q
                      { request := r, phase := .inserted p out.1 }
                    submissions := world.submissions ++
                      [{ requestId := q, request := r, attemptId := out.1 }] } := by
                change world.recheck env q body now = _
                simp only [World.recheck, hreq, hrun]
              simp only [bind_eq_ok, exists_unit] at hrun
              refine ⟨⟨⟨body, now, rfl, ?_⟩, hreq, ?_⟩, ?_, ?_⟩
              · rw [hstep]
                exact hrun.2
              · rw [hstep]
              · rw [hstep]
              · rw [hstep]

/-- No request moves on: some may end. -/
structure Quiet (world world' : World State) : Prop where
  requests : ∀ (q : Nat) (req : Request), world'.requests[q]? = some req →
    world.requests[q]? = some req
  submissions : world'.submissions = world.submissions
  posts : world'.posts = world.posts

theorem Quiet.refl (world : World State) : Quiet world world := ⟨fun _ _ h => h, rfl, rfl⟩

theorem quiet_endRequest (world : World State) (q : Nat) : Quiet world (world.endRequest q) where
  requests q' req h := by
    simp only [World.endRequest, Table.get_erase] at h
    split_ifs at h
    exact h
  submissions := rfl
  posts := rfl

/-- One transaction moves no request. -/
theorem quiet_transact {world : World State} {op : Op Scan} {res : Result (Db State)}
    (h : transact env world.db op = some res) : Quiet world (step env world op) := by
  cases op
  case restore now =>
    unfold step
    dsimp only
    cases exportRestore env world.db now with
    | ok out => exact ⟨fun q req hq => by simp at hq, rfl, rfl⟩
    | error e => exact .refl world
  case preflight => cases h
  case recheck => cases h
  case post => cases h
  case acknowledge => cases h
  case crash => cases h
  all_goals
    unfold step
    dsimp only
    rw [h]
    cases res <;> exact ⟨fun _ _ hq => hq, rfl, rfl⟩

/-- A POST sends the final bytes of the request's preflight. -/
structure Sends (world : World State) (op : Op Scan) (q : Nat) (r : BroadcastRequest)
    (p : Preflight) (a : Nat) : Prop where
  isPost : op = .post q
  request : world.requests[q]? = some { request := r, phase := .inserted p a }
  step : step env world op = { world with
    requests := world.requests.insert q { request := r, phase := .posted p a }
    posts := world.posts ++
      [{ requestId := q
         attemptId := a
         walletId := r.walletId
         draftId := r.draftId
         body := p.approved.transactionBytes }] }

/-- What a step can do to the running requests. -/
theorem step_requests (world : World State) (op : Op Scan) :
    Quiet world (step env world op) ∨
    (∃ r p, op = .preflight r ∧ step env world op = { world with
      requests := world.requests.insert world.nextRequest { request := r, phase := .preflighted p }
      nextRequest := world.nextRequest + 1 }) ∨
    (∃ s p, Inserts env world op s p ∧
      (step env world op).requests =
        world.requests.insert s.requestId { request := s.request, phase := .inserted p s.attemptId } ∧
      (step env world op).posts = world.posts) ∨
    ∃ q r p a, Sends env world op q r p a := by
  cases htransact : transact env world.db op with
  | some res => exact .inl (quiet_transact env htransact)
  | none =>
      cases op with
      | preflight r =>
          cases hp : Broadcast.preflight env world.db r with
          | ok p =>
              refine .inr (.inl ⟨r, p, rfl, ?_⟩)
              change world.preflight env r = _
              simp only [World.preflight, hp]
          | error e =>
              refine .inl ?_
              change Quiet world (world.preflight env r)
              simp only [World.preflight, hp]
              exact .refl world
      | recheck q body now =>
          rcases recheck_cases env world q body now with h | h | ⟨r, p, a, h⟩
          · rw [h]
            exact .inl (.refl world)
          · rw [h]
            exact .inl (quiet_endRequest world q)
          · exact .inr (.inr (.inl ⟨_, p, h⟩))
      | post q =>
          cases hreq : world.requests[q]? with
          | none =>
              refine .inl ?_
              change Quiet world (world.post q)
              simp only [World.post, hreq]
              exact .refl world
          | some req =>
              obtain ⟨r, phase⟩ := req
              cases phase with
              | inserted p a =>
                  refine .inr (.inr (.inr ⟨q, r, p, a, rfl, hreq, ?_⟩))
                  change world.post q = _
                  simp only [World.post, hreq]
              | preflighted p =>
                  refine .inl ?_
                  change Quiet world (world.post q)
                  simp only [World.post, hreq]
                  exact .refl world
              | posted p a =>
                  refine .inl ?_
                  change Quiet world (world.post q)
                  simp only [World.post, hreq]
                  exact .refl world
      | acknowledge q response =>
          refine .inl ?_
          change Quiet world (world.acknowledge q response)
          unfold World.acknowledge
          split
          · have hend := quiet_endRequest world q
            exact ⟨hend.requests, rfl, rfl⟩
          · exact .refl world
      | crash q => exact .inl (quiet_endRequest world q)
      | importWallet => cases htransact
      | receiveAddress => cases htransact
      | setLabel => cases htransact
      | setFrozen => cases htransact
      | editCoins => cases htransact
      | importLabels => cases htransact
      | registerPolicy => cases htransact
      | createDraft => cases htransact
      | discardDraft => cases htransact
      | acceptSignedPsbt => cases htransact
      | finalizeDraft => cases htransact
      | commitSync => cases htransact
      | resumeRecovered => cases htransact
      | restore => cases htransact

end Requests
end Tundra
