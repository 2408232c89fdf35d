/-
  Tundra.Usb.Registrations

  Where the stored registrations come from.  No operation of the engine but the
  registration of a policy changes them, so with devices attached each one was
  written by a session that had identified the device of one of the wallet's
  accounts, under that account's fingerprint and the policy the wallet still had.
-/

import Tundra.Snapshots
import Tundra.Restored
import Tundra.Separation
import Tundra.Usb.Published

namespace Tundra
namespace Usb

open Checked Relational Engine Signing Broadcast Recovery Effects Drafts Paths Tundra.System

/-! ## What leaves the registrations alone -/

section Kept

variable {State Wallet Scan : Type} (env : Env State Wallet Scan) {db db' : Db State}

/-- The registrations are as they were. -/
def SameRegistrations (db db' : Db State) : Prop :=
  db'.hardwareRegistrations = db.hardwareRegistrations

theorem SameRegistrations.trans {db₁ db₂ db₃ : Db State} (h : SameRegistrations db₁ db₂)
    (h' : SameRegistrations db₂ db₃) : SameRegistrations db₁ db₃ := Eq.trans h' h

theorem updateReview_registrations (w d : String) (review : ReviewJson) :
    SameRegistrations db (db.updateReview w d review) := by
  unfold Db.updateReview
  split <;> rfl

theorem updateReviewById_registrations (d : String) (review : ReviewJson) :
    SameRegistrations db (Sync.updateReviewById db d review) := by
  unfold Sync.updateReviewById
  split <;> rfl

theorem updateState_registrations (w : String) (state : State) :
    SameRegistrations db (db.updateState w state) := by
  unfold Db.updateState
  split <;> rfl

theorem updateSyncedAt_registrations (w : String) (t : Nat) :
    SameRegistrations db (db.updateSyncedAt w t) := by
  unfold Db.updateSyncedAt
  split <;> rfl

/-- An effect on drafts that is not a metadata change. -/
theorem effect_registrations {a : Act Wallet} (h : Effect env a db db') (ha : a ≠ .metadata) :
    SameRegistrations db db' := by
  cases h with
  | metadata => exact absurd rfl ha
  | create => rfl
  | discard => rfl
  | @accept db w d =>
      exact updateReview_registrations w d _
  | @finalize db w d =>
      exact updateReview_registrations w d _
  | @observe db wallet w d row r =>
      exact @updateReview_registrations _ (db.deleteRecovered w d) w d
        (reviewText env (r.withState .observed))
  | @invalidate db w d => exact updateReview_registrations w d _
  | attempt => rfl
  | acknowledge => rfl
  | @resume db w d row r =>
      have hreserve : SameRegistrations
          (db.updateReview w d (reviewText env (r.withState .finalized)))
          (reserveInputs w d r.inputs
            (db.updateReview w d (reviewText env (r.withState .finalized)))) := by
        rw [reserveInputs_eq]
        rfl
      exact (updateReview_registrations w d _).trans hreserve
  | suspend checked suspended =>
      show _ = _
      rw [suspended.frame]

theorem editCoin_registrations (w : String) (label : Option String) (frozen : Option Bool)
    (reference : String) : SameRegistrations db (editCoin w label frozen db reference) := by
  unfold editCoin
  cases label <;> cases frozen <;> rfl

theorem editCoins_registrations (w : String) (label : Option String) (frozen : Option Bool)
    (references : List String) :
    SameRegistrations db (references.foldl (editCoin w label frozen) db) := by
  induction references generalizing db with
  | nil => rfl
  | cons reference references ih => exact (editCoin_registrations w label frozen reference).trans ih

theorem applyRecord_registrations (apply : Bool) (w : String) (r : Labels.LabelRecord) :
    SameRegistrations db (applyRecord apply db w r).2 := by
  unfold applyRecord
  cases r.label <;> cases r.spendable <;> cases apply <;> rfl

theorem importRecords_registrations {apply : Bool} {w origin : String} {wallet : Wallet}
    {records : List Labels.LabelRecord} {seen : List (LabelKind × String)}
    {preview : Labels.LabelPreview} {out : Labels.LabelPreview × Db State}
    (h : importRecords env apply w wallet origin records seen preview db = .ok out) :
    SameRegistrations db out.2 := by
  induction records generalizing seen preview db with
  | nil =>
      cases h
      rfl
  | cons r rest ih =>
      unfold importRecords at h
      split_ifs at h
      · simp only [bind_eq_ok, exists_unit] at h
        exact (applyRecord_registrations apply w r).trans (ih h.2)
      · exact ih h

theorem applyOutputLabels_registrations (w d label txid : String) (wallet : Wallet) (vout : Nat)
    (outputs : List TxOut) :
    SameRegistrations db (applyOutputLabels env w d label txid wallet vout outputs db) := by
  induction outputs generalizing vout db with
  | nil => rfl
  | cons output outputs ih =>
      unfold applyOutputLabels
      refine SameRegistrations.trans ?_ (ih (vout + 1))
      split_ifs
      · unfold applyOutputLabel
        dsimp only
        split_ifs <;> rfl
      · rfl

theorem applyObservedLabels_registrations {w : String} {review : DraftReview} {wallet : Wallet}
    {info : BroadcastInfo} (h : applyObservedLabels env db w review wallet info = .ok db') :
    SameRegistrations db db' := by
  unfold applyObservedLabels at h
  by_cases happlied : (db.draftLabelApplications[(w, review.id)]?).isSome = true
  · rw [if_pos happlied, Except.ok.injEq] at h
    rw [← h]
    rfl
  · rw [if_neg happlied] at h
    simp only [bind_eq_ok, exists_unit, Except.ok.injEq] at h
    obtain ⟨_, _, txid, _, found, _, rfl⟩ := h
    refine SameRegistrations.trans ?_ (applyOutputLabels_registrations env ..)
    split_ifs <;> rfl

/-- The sweep of a sync. -/
theorem invalidateDrafts_registrations {w : String} {wallet : Wallet}
    (h : Sync.invalidateDrafts env db w wallet = .ok db') : SameRegistrations db db' := by
  refine foldlM_ok_inv (SameRegistrations db) (fun db₁ draft db₂ _ hkept hsweep => ?_) rfl h
  refine hkept.trans ?_
  simp only [Sync.sweepDraft, bind_eq_ok] at hsweep
  obtain ⟨review, _, observed, hobserve, hsweep⟩ := hsweep
  cases observed with
  | some db₃ =>
      cases hsweep
      unfold observeDraft at hobserve
      split at hobserve
      · cases hobserve
      · simp only [bind_eq_ok] at hobserve
        obtain ⟨seen, _, hobserve⟩ := hobserve
        split_ifs at hobserve
        · cases hobserve
        · simp only [bind_eq_ok, Except.ok.injEq, Option.some.injEq] at hobserve
          obtain ⟨db₄, hlabels, rfl⟩ := hobserve
          exact (applyObservedLabels_registrations env hlabels).trans
            (@updateReview_registrations _ (db₄.deleteRecovered w review.id) w review.id _)
  | none =>
      dsimp only at hsweep
      split_ifs at hsweep
      · cases hsweep
        exact updateReviewById_registrations draft.1 _
      · cases hsweep
        rfl

/-- A transaction that is not a registration. -/
theorem transact_registrations {op : Op Scan} (h : transact env db op = some (.ok db'))
    (hop : ∀ id fingerprint policyId hmac, op ≠ .registerPolicy id fingerprint policyId hmac) :
    SameRegistrations db db' := by
  have hsnd : ∀ {α : Type} {res : Result (α × Db State)},
      some (res.map Prod.snd) = some (.ok db') → ∃ out, res = .ok out ∧ out.2 = db' := by
    intro α res hres
    cases res with
    | error e => cases hres
    | ok out => exact ⟨out, rfl, by simpa [Except.map] using hres⟩
  cases op with
  | importWallet name payload network now =>
      obtain ⟨out, hout, rfl⟩ := hsnd h
      simp only [importWallet, bind_eq_ok, Except.ok.injEq] at hout
      obtain ⟨_, _, _, _, _, _, _, _, _, _, _, _, rfl⟩ := hout
      rfl
  | receiveAddress id =>
      obtain ⟨out, hout, rfl⟩ := hsnd h
      simp only [receiveAddress, bind_eq_ok, Except.ok.injEq] at hout
      obtain ⟨l, _, rfl⟩ := hout
      exact updateState_registrations id _
  | setLabel id kind reference label =>
      obtain ⟨out, hout, rfl⟩ := hsnd h
      simp only [setLabel, bind_eq_ok, exists_unit, okOr_eq_ok, Except.ok.injEq] at hout
      obtain ⟨_, _, _, _, _, _, rfl⟩ := hout
      rfl
  | setFrozen id reference frozen =>
      obtain ⟨out, hout, rfl⟩ := hsnd h
      simp only [setFrozen, bind_eq_ok, exists_unit, Except.ok.injEq] at hout
      obtain ⟨_, _, _, _, _, rfl⟩ := hout
      rfl
  | editCoins id references label frozen =>
      obtain ⟨out, hout, rfl⟩ := hsnd h
      rw [Separation.editCoins_eq_ok env hout]
      exact editCoins_registrations id label frozen references
  | importLabels id payload apply =>
      obtain ⟨out, hout, rfl⟩ := hsnd h
      simp only [importLabels, bind_eq_ok, Prod.exists, Except.ok.injEq] at hout
      obtain ⟨records, skipped, _, l, _, origin, _, preview, db₁, hrecords, rfl⟩ := hout
      cases apply with
      | true => exact importRecords_registrations env hrecords
      | false => rfl
  | registerPolicy id fingerprint policyId hmac =>
      exact absurd rfl (hop id fingerprint policyId hmac)
  | createDraft request seed now =>
      obtain ⟨out, hout, rfl⟩ := hsnd h
      obtain ⟨l, p, wallet, row, -, -, -, -, -, -, -, -, hdb⟩ := createDraft_facts env hout
      rw [hdb]
      exact @updateState_registrations _ ({ db with
        drafts := db.drafts.insert out.1.id row
        reservations := reserveAll request.walletId out.1.id (outpoints out.1) db.reservations } : Db State)
        request.walletId _
  | discardDraft id draftId =>
      obtain ⟨out, hout, rfl⟩ := hsnd h
      exact effect_registrations env (discardDraft_effect env hout) (by simp)
  | acceptSignedPsbt id draftId payload =>
      obtain ⟨out, hout, rfl⟩ := hsnd h
      exact effect_registrations env (acceptSignedPsbt_effect env hout) (by simp)
  | finalizeDraft id draftId =>
      obtain ⟨out, hout, rfl⟩ := hsnd h
      rcases finalizeDraft_effect env hout with hsame | heffect
      · rw [hsame]
        rfl
      · exact effect_registrations env heffect (by simp)
  | commitSync id snapshot scan now =>
      obtain ⟨out, hout, rfl⟩ := hsnd h
      simp only [Sync.commitSync, bind_eq_ok, exists_unit, Except.ok.injEq] at hout
      obtain ⟨l, _, _, replaced, _, updated, _, db₁, hsweep, rfl⟩ := hout
      exact ((invalidateDrafts_registrations env hsweep).trans (updateState_registrations id _)).trans
        (updateSyncedAt_registrations id _)
  | resumeRecovered id draftId txid attempt ack =>
      obtain ⟨out, hout, rfl⟩ := hsnd h
      exact effect_registrations env (resume_effect env hout) (by simp)
  | restore now =>
      obtain ⟨out, hout, rfl⟩ := hsnd h
      exact effect_registrations env (exportRestore_effect env hout) (by simp)
  | preflight request => cases h
  | recheck requestId body now => cases h
  | post requestId => cases h
  | acknowledge requestId response => cases h
  | crash requestId => cases h

/-- A step that is not a registration. -/
theorem step_registrations (world : World State) {op : Op Scan}
    (hop : ∀ id fingerprint policyId hmac, op ≠ .registerPolicy id fingerprint policyId hmac) :
    SameRegistrations world.db (step env world op).db := by
  cases htransact : transact env world.db op with
  | some res =>
      rw [step_transact env htransact]
      cases res with
      | ok db' => exact transact_registrations env htransact hop
      | error e => rfl
  | none =>
      cases op with
      | preflight request =>
          show SameRegistrations world.db (world.preflight env request).db
          unfold World.preflight
          split <;> rfl
      | post requestId =>
          show SameRegistrations world.db (world.post requestId).db
          unfold World.post
          split <;> rfl
      | crash requestId => rfl
      | recheck requestId body now =>
          show SameRegistrations world.db (world.recheck env requestId body now).db
          unfold World.recheck
          split
          · split
            · rename_i hrun
              simp only [bind_eq_ok, exists_unit] at hrun
              exact effect_registrations env (insertAttempt_effect env hrun.2) (by simp)
            · rfl
          · rfl
      | acknowledge requestId response =>
          show SameRegistrations world.db (world.acknowledge requestId response).db
          unfold World.acknowledge
          split
          · dsimp only
            split_ifs
            · unfold Broadcast.acknowledge
              split
              · split_ifs <;> rfl
              · rfl
            · rfl
          · rfl
      | _ => cases htransact

end Kept

/-! ## Where a registration comes from -/

section Origin

open Usb.Protocol

variable {State Wallet Interpreter Policy : Type} {env : ChainEnv State Wallet}
  {bhwi : Bhwi Interpreter Policy}

/-- The registration of a key was published by a report of the run, for session
    `a`, which had verified it. -/
def Registered (env : ChainEnv State Wallet) (bhwi : Bhwi Interpreter Policy) (ops : List UsbOp)
    (key : String × String × Bytes) (value : Bytes) : Prop :=
  ∃ pre k now step report post a update account hmac db',
    ops = pre ++ .receive k now step report :: post ∧
    (UsbWorld.run env bhwi pre).sessions[k]? = some a ∧ a.session.operation = .registerPolicy ∧
    Verified env bhwi a (a.replies ++ a.session.protocol.heard (.receive now step report))
      (UsbWorld.run env bhwi pre).world.db update account (.registered hmac) none db' ∧
    key = (a.session.walletId, fingerprintText account.fingerprint, a.session.policyId.bytes) ∧
    value = hmac.bytes

theorem Registered.concat {ops : List UsbOp} {key : String × String × Bytes} {value : Bytes}
    (h : Registered env bhwi ops key value) (op : UsbOp) :
    Registered env bhwi (ops ++ [op]) key value := by
  obtain ⟨pre, k, now, step, report, post, a, update, account, hmac, db', rfl, h⟩ := h
  exact ⟨pre, k, now, step, report, post ++ [op], a, update, account, hmac, db', by simp, h⟩

/-- A write of a session that is not a registration. -/
theorem written_registrations {db db' : Db State} {s : UsbSession Interpreter Policy}
    {account : Protocol.Account} {operation : Operation} {outcome : Outcome}
    {signing : Option SigningProgress} (h : Written env db s account operation outcome signing db') :
    SameRegistrations db db' ∨ operation = .registerPolicy ∧ signing = none ∧ ∃ hmac,
      outcome = .registered hmac ∧ db'.hardwareRegistrations = db.hardwareRegistrations.insert
        (s.walletId, fingerprintText account.fingerprint, s.policyId.bytes) hmac.bytes := by
  cases h with
  | inspect => exact .inl rfl
  | registerPolicy hmac => exact .inr ⟨rfl, rfl, hmac, rfl, rfl⟩
  | verifyReceive => exact .inl rfl
  | signDraft draftId psbt progress db' accepted =>
      exact .inl (effect_registrations env.toEnv (acceptSignedPsbt_effect env.toEnv accepted)
        (by simp))

/-- In every run whose registrations are the sessions' own, each stored one was
    written by a session that had identified the device and its reply. -/
theorem registrations_verified {ops : List UsbOp}
    (hops : ∀ id fingerprint policyId hmac,
      UsbOp.op (.registerPolicy id fingerprint policyId hmac) ∉ ops)
    {key : String × String × Bytes} {value : Bytes}
    (h : (UsbWorld.run env bhwi ops).world.db.hardwareRegistrations[key]? = some value) :
    Registered env bhwi ops key value := by
  induction ops using List.reverseRecOn with
  | nil =>
      have hempty : (UsbWorld.run env bhwi []).world.db.hardwareRegistrations = ∅ := rfl
      rw [hempty] at h
      simp at h
  | append_singleton ops op ih =>
      have hbefore := ih fun id fingerprint policyId hmac hmem =>
        hops id fingerprint policyId hmac (List.mem_append_left _ hmem)
      have hrun : UsbWorld.run env bhwi (ops ++ [op]) =
          (UsbWorld.run env bhwi ops).step env bhwi op := Transition.run_concat ..
      rw [hrun] at h
      have hkept : SameRegistrations (UsbWorld.run env bhwi ops).world.db
          ((UsbWorld.run env bhwi ops).step env bhwi op).world.db →
          Registered env bhwi (ops ++ [op]) key value := fun hsame =>
        (hbefore (hsame ▸ h)).concat op
      cases op with
      | op o =>
          refine hkept (step_registrations env.toEnv _ fun id fingerprint policyId hmac ho => ?_)
          exact hops id fingerprint policyId hmac (by simp [ho])
      | prepare walletId operation now =>
          refine hkept ?_
          rw [UsbWorld.step]
          split <;> rfl
      | progress k now =>
          refine hkept ?_
          rw [UsbWorld.step]
          split <;> rfl
      | cancel k =>
          refine hkept ?_
          rw [UsbWorld.step]
          split <;> rfl
      | receive k now step report =>
          cases hk : (UsbWorld.run env bhwi ops).sessions[k]? with
          | none =>
              refine hkept ?_
              rw [UsbWorld.step, hk]
              rfl
          | some a =>
              have hdb : ((UsbWorld.run env bhwi ops).step env bhwi
                  (.receive k now step report)).world.db = (a.session.receive env bhwi
                    (UsbWorld.run env bhwi ops).world.db now step report).2.2 := by
                rw [UsbWorld.step, hk]
                rfl
              rw [hdb] at h hkept
              have hreceived := (attached_received ops hk).1 now step report
              rcases hout : a.session.receive env bhwi (UsbWorld.run env bhwi ops).world.db now step
                report with ⟨r, s', db'⟩
              rw [hout] at h hkept hreceived
              cases hreceived with
              | failed => exact hkept rfl
              | waiting => exact hkept rfl
              | published update s account outcome signing db' state verified =>
                  rcases written_registrations verified.written with hsame |
                    ⟨hoperation, rfl, hmac, rfl, hinsert⟩
                  · exact hkept hsame
                  · rw [hinsert, Table.get_insert] at h
                    split_ifs at h with hkey
                    · exact ⟨ops, k, now, step, report, [], a, update, account, hmac, db', rfl, hk,
                        hoperation, verified, hkey.symm, (Option.some.inj h).symm⟩
                    · exact (hbefore h).concat _

end Origin

end Usb
end Tundra
