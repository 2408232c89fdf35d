/-
  Tundra.Finality

  Final bytes.  No effect but a discard touches the PSBT or the final bytes of
  a draft, and a submitted draft cannot be discarded; final bytes are the
  approved transaction with witnesses (`FinalOk`).
-/

import Tundra.Requests
import Tundra.Signing.Finalize

namespace Tundra
namespace Finality

open Checked Relational Engine Signing Broadcast Recovery Drafts Effects Paths Requests
  Tundra.System
open Transition (Along)

variable {State Wallet Scan : Type} (env : Env State Wallet Scan)

/-! ## The final transaction -/

/-- A final transaction is the approved one with witnesses. -/
theorem finalizeTransaction_eq_ok {approved : Psbt} {stored : Option Psbt}
    {trusted : List TrustedInput} {tx : Transaction}
    (h : finalizeTransaction env approved stored trusted = .ok tx) :
    tx.stripWitnesses = approved.unsignedTx.stripWitnesses ∧
      env.computeTxid tx = env.computeTxid approved.unsignedTx := by
  simp only [finalizeTransaction, bind_eq_ok, require_eq_ok, exists_unit, mapM_eq_ok,
    Except.ok.injEq] at h
  obtain ⟨merged, hmerge, _, _, _, ws, hws, _, _, htxid, rfl⟩ := h
  obtain ⟨hok, hinv, _⟩ := mergeResponse_inv env hmerge
  refine ⟨stripWitnesses_withWitnesses ?_, htxid⟩
  rw [← hws.length_eq, List.length_zip, hinv.length, min_self, ← hok.trusted_length,
    hok.inputs_length]

/-! ## What stays -/

/-- The PSBT, the final bytes and the submission of a draft are kept. -/
structure Kept (w d : String) (db db' : Db State) : Prop where
  row : ∀ row, db.selectDraft w d = some row →
    ∃ row', db'.selectDraft w d = some row' ∧ row'.psbt = row.psbt
  finalized : ∀ b : Bytes, db.finalizedDrafts[(w, d)]? = some b →
    db'.finalizedDrafts[(w, d)]? = some b
  submitted : db.submitted w d = true → db'.submitted w d = true

/-- Final bytes are those of the approved transaction with witnesses. -/
structure FinalOk (db : Db State) : Prop where
  built : ∀ (d : String) (row : DraftRow), db.drafts[d]? = some row →
    ∃ p : Psbt, p.WellFormed ∧ WithinLimits env p ∧ row.psbt = env.psbtText p
  final : ∀ (w d : String) (b : Bytes), db.finalizedDrafts[(w, d)]? = some b →
    ∃ row p tx, db.selectDraft w d = some row ∧ parseResponse env row.psbt = .ok p ∧
      b = env.serializeTx tx ∧ tx.stripWitnesses = p.unsignedTx ∧
      env.computeTxid tx = env.computeTxid p.unsignedTx

section Effects

variable {env}
variable {db db' : Db State} {w d : String}

theorem Kept.refl (db : Db State) (w d : String) : Kept w d db db :=
  ⟨fun row hrow => ⟨row, hrow, rfl⟩, fun _ hb => hb, id⟩

theorem Kept.trans {db'' : Db State} (h : Kept w d db db') (h' : Kept w d db' db'') :
    Kept w d db db'' where
  row row hrow := by
    obtain ⟨row₁, hrow₁, hp₁⟩ := h.row row hrow
    obtain ⟨row₂, hrow₂, hp₂⟩ := h'.row row₁ hrow₁
    exact ⟨row₂, hrow₂, hp₂.trans hp₁⟩
  finalized b hb := h'.finalized b (h.finalized b hb)
  submitted hs := h'.submitted (h.submitted hs)

/-- Rows with the same PSBTs, and no fewer final bytes and attempts. -/
theorem Kept.of_rows
    (hrows : ∀ (e : String) (row : DraftRow), db.drafts[e]? = some row → ∃ row' : DraftRow,
      db'.drafts[e]? = some row' ∧ row'.walletId = row.walletId ∧ row'.psbt = row.psbt)
    (hfinal : ∀ b : Bytes, db.finalizedDrafts[(w, d)]? = some b →
      db'.finalizedDrafts[(w, d)]? = some b)
    (hsub : db.submitted w d = true → db'.submitted w d = true) : Kept w d db db' where
  row row hrow := by
    obtain ⟨hget, hw⟩ := selectDraft_eq_some.mp hrow
    obtain ⟨row', hrow', hw', hp⟩ := hrows d row hget
    exact ⟨row', selectDraft_eq_some.mpr ⟨hrow', hw'.trans hw⟩, hp⟩
  finalized := hfinal
  submitted := hsub

/-- The row of a draft is written with its wallet and PSBT. -/
theorem rows_insert {e : String} {row row' : DraftRow} (hrow : db.drafts[e]? = some row)
    (hdrafts : db'.drafts = db.drafts.insert e row') (hw : row'.walletId = row.walletId)
    (hp : row'.psbt = row.psbt) (e' : String) (row₁ : DraftRow)
    (hrow₁ : db.drafts[e']? = some row₁) :
    ∃ row₂ : DraftRow, db'.drafts[e']? = some row₂ ∧ row₂.walletId = row₁.walletId ∧
      row₂.psbt = row₁.psbt := by
  rw [hdrafts, Table.get_insert]
  by_cases he : e = e'
  · subst he
    rw [hrow, Option.some.injEq] at hrow₁
    subst hrow₁
    exact ⟨row', by simp, hw, hp⟩
  · exact ⟨row₁, by rw [if_neg he, hrow₁], rfl, rfl⟩

/-- Every effect keeps a draft, unless it discards it. -/
theorem kept_effect (hok : StoreOk env db) {a : Act Wallet} (heffect : Effect env a db db')
    (hne : a ≠ .discard w d) : Kept w d db db' := by
  cases heffect with
  | metadata changed =>
      have hsame := changed.same
      refine .of_rows (fun e row hrow => ⟨row, by rw [hsame.drafts]; exact hrow, rfl, rfl⟩)
        (fun b hb => by rw [hsame.finalizedDrafts]; exact hb) (fun hs => ?_)
      simpa only [Db.submitted, hsame.broadcastAttempts] using hs
  | create loaded label planned walletId id fresh row_wallet psbt review nodup =>
      refine .of_rows (fun e row hrow => ⟨row, ?_, rfl, rfl⟩) (fun b hb => hb) (fun hs => hs)
      refine (Table.get_insert_ne _ _ ?_).trans hrow
      rintro rfl
      rw [fresh] at hrow
      cases hrow
  | discard found unsubmitted =>
      rename_i w' e row
      have hkey : ¬ (w' = w ∧ e = d) := by
        rintro ⟨rfl, rfl⟩
        exact hne rfl
      obtain ⟨hrow, hw⟩ := selectDraft_eq_some.mp found
      refine ⟨?_, ?_, ?_⟩
      · intro row₁ hrow₁
        obtain ⟨hget, hw₁⟩ := selectDraft_eq_some.mp hrow₁
        have he : e ≠ d := by
          rintro rfl
          rw [hrow, Option.some.injEq] at hget
          exact hkey ⟨by rw [← hw, ← hw₁, hget], rfl⟩
        refine ⟨row₁, ?_, rfl⟩
        simpa only [Db.selectDraft, Db.deleteDraft, Table.get_erase, if_neg he] using hrow₁
      · intro b hb
        simp only [Db.deleteDraft, Table.get_erase]
        rw [if_neg]
        · exact hb
        · intro heq
          obtain ⟨rfl, rfl⟩ := Prod.mk.injEq .. ▸ heq
          exact hkey ⟨rfl, rfl⟩
      · intro hs
        obtain ⟨id, a, ha, rfl, rfl⟩ := submitted_eq_true.mp hs
        refine submitted_eq_true.mpr ⟨id, a, Table.get_deleteWhere_eq_some.mpr ⟨ha, ?_⟩, rfl, rfl⟩
        simp only [decide_eq_false_iff_not]
        rintro ⟨rfl, rfl⟩
        exact hkey ⟨rfl, rfl⟩
  | accept loaded unfinalized merge state =>
      obtain ⟨row, found, hrow, _⟩ := hok.loaded loaded
      rw [updateReview_of_some (by exact found)]
      exact .of_rows (rows_insert hrow rfl rfl rfl) (fun b hb => hb) (fun hs => hs)
  | finalize loaded unfinalized final fresh =>
      obtain ⟨row, found, hrow, _⟩ := hok.loaded loaded
      rw [updateReview_of_some (by exact found)]
      refine .of_rows (rows_insert hrow rfl rfl rfl) (fun b hb => ?_) (fun hs => hs)
      refine (Table.get_insert_ne _ _ ?_).trans hb
      intro heq
      rw [heq, hb] at fresh
      cases fresh
  | observe found review submitted final decoded seen =>
      rw [updateReview_of_some (by exact found)]
      exact .of_rows (rows_insert (selectDraft_eq_some.mp found).1 rfl rfl rfl) (fun b hb => hb)
        (fun hs => hs)
  | invalidate found review =>
      rw [updateReview_of_some found]
      exact .of_rows (rows_insert (selectDraft_eq_some.mp found).1 rfl rfl rfl) (fun b hb => hb)
        (fun hs => hs)
  | attempt validated wallet draft txid wtxid =>
      refine .of_rows (fun e row hrow => ⟨row, hrow, rfl, rfl⟩) (fun b hb => hb) (fun hs => ?_)
      obtain ⟨id, a, ha, hw, hd⟩ := submitted_eq_true.mp hs
      rename_i w' d' final row
      have hid : db.nextAttemptId ≠ id := Nat.ne_of_gt (lt_nextAttemptId ha)
      exact submitted_eq_true.mpr ⟨id, a, (Table.get_insert_ne _ _ hid).trans ha, hw, hd⟩
  | acknowledge found =>
      rename_i id row
      refine .of_rows (fun e row hrow => ⟨row, hrow, rfl, rfl⟩) (fun b hb => hb) (fun hs => ?_)
      obtain ⟨id', a, ha, hw, hd⟩ := submitted_eq_true.mp hs
      by_cases hid : id = id'
      · subst hid
        rw [found, Option.some.injEq] at ha
        subst ha
        exact submitted_eq_true.mpr ⟨id, _, Table.get_insert_self .., hw, hd⟩
      · exact submitted_eq_true.mpr ⟨id', a, (Table.get_insert_ne _ _ hid).trans ha, hw, hd⟩
  | resume recovered found review state validated =>
      rw [updateReview_of_some found, reserveInputs_eq]
      exact .of_rows (rows_insert (selectDraft_eq_some.mp found).1 rfl rfl rfl) (fun b hb => hb)
        (fun hs => hs)
  | suspend checked suspended =>
      refine .of_rows (fun e row hrow => ⟨suspendRow env row, ?_, by simp, by simp⟩)
        (fun b hb => by rw [suspended.finalizedDrafts]; exact hb) (fun hs => ?_)
      · rw [suspended.drafts, hrow, Option.map_some]
      · simpa only [Db.submitted, suspended.broadcastAttempts] using hs

/-- Final bytes stay those of the same approved PSBT. -/
theorem FinalOk.of_kept (h : FinalOk env db)
    (hbuilt : ∀ (e : String) (row' : DraftRow), db'.drafts[e]? = some row' →
      ∃ row : DraftRow, db.drafts[e]? = some row ∧ row'.psbt = row.psbt)
    (hfinal : ∀ (w d : String) (b : Bytes), db'.finalizedDrafts[(w, d)]? = some b →
      db.finalizedDrafts[(w, d)]? = some b ∧ Kept w d db db') : FinalOk env db' where
  built d row' hrow' := by
    obtain ⟨row, hrow, hp⟩ := hbuilt d row' hrow'
    obtain ⟨p, hwf, hlim, htext⟩ := h.built d row hrow
    exact ⟨p, hwf, hlim, hp.trans htext⟩
  final w d b hb := by
    obtain ⟨hb₀, hkept⟩ := hfinal w d b hb
    obtain ⟨row, p, tx, hrow, hp, hrest⟩ := h.final w d b hb₀
    obtain ⟨row', hrow', hsame⟩ := hkept.row row hrow
    exact ⟨row', p, tx, hrow', hsame ▸ hp, hrest⟩

/-- The row of a draft is written with its PSBT: nothing is built anew. -/
theorem built_insert {e : String} {row row' : DraftRow} (hrow : db.drafts[e]? = some row)
    (hdrafts : db'.drafts = db.drafts.insert e row') (hp : row'.psbt = row.psbt) (e' : String)
    (row₁ : DraftRow) (hrow₁ : db'.drafts[e']? = some row₁) :
    ∃ row₂ : DraftRow, db.drafts[e']? = some row₂ ∧ row₁.psbt = row₂.psbt := by
  rw [hdrafts, Table.get_insert] at hrow₁
  split_ifs at hrow₁ with he
  · rw [Option.some.injEq] at hrow₁
    exact ⟨row, he ▸ hrow, hrow₁ ▸ hp⟩
  · exact ⟨row₁, hrow₁, rfl⟩

theorem FinalOk.effect (h : FinalOk env db) (hok : StoreOk env db) {a : Act Wallet}
    (heffect : Effect env a db db') : FinalOk env db' := by
  have hkept : ∀ w d : String, a ≠ .discard w d → Kept w d db db' :=
    fun w d hne => kept_effect hok heffect hne
  cases heffect with
  | metadata changed =>
      refine h.of_kept (fun e row hrow => ⟨row, changed.same.drafts ▸ hrow, rfl⟩) ?_
      exact fun w d b hb => ⟨changed.same.finalizedDrafts ▸ hb, hkept w d (by simp)⟩
  | create loaded label planned walletId id fresh row_wallet psbt review nodup =>
      rename_i w e row p r _ _ _
      refine ⟨?_, ?_⟩
      · intro e' row₁ hrow₁
        simp only [Table.get_insert] at hrow₁
        split_ifs at hrow₁
        · rw [Option.some.injEq] at hrow₁
          exact ⟨p, planned.wellFormed, planned.limits, hrow₁ ▸ psbt⟩
        · exact h.built e' row₁ hrow₁
      · intro w' d b hb
        obtain ⟨row₁, q, tx, hrow₁, hq, hrest⟩ := h.final w' d b hb
        obtain ⟨row₂, hrow₂, hsame⟩ := (hkept w' d (by simp)).row row₁ hrow₁
        exact ⟨row₂, q, tx, hrow₂, hsame ▸ hq, hrest⟩
  | discard found unsubmitted =>
      rename_i w e row
      refine h.of_kept (fun e' row₁ hrow₁ => ⟨row₁, ?_, rfl⟩) ?_
      · simp only [Db.deleteDraft, Table.get_erase] at hrow₁
        split_ifs at hrow₁
        exact hrow₁
      · intro w' d b hb
        simp only [Db.deleteDraft, Table.get_erase] at hb
        split_ifs at hb with hkey
        refine ⟨hb, hkept w' d ?_⟩
        intro heq
        obtain ⟨rfl, rfl⟩ := Act.discard.injEq .. ▸ heq
        exact hkey rfl
  | accept loaded unfinalized merge state =>
      obtain ⟨row, found, hrow, _⟩ := hok.loaded loaded
      rw [updateReview_of_some (by exact found)] at hkept ⊢
      exact h.of_kept (built_insert hrow rfl rfl) (fun w d b hb => ⟨hb, hkept w d (by simp)⟩)
  | finalize loaded unfinalized final fresh =>
      rename_i w e draft tx
      obtain ⟨row, found, hrow, happ, _⟩ := hok.loaded loaded
      have hkeep := hkept w e (by simp)
      obtain ⟨row', hrow', hsame⟩ := hkeep.row row found
      refine ⟨?_, ?_⟩
      · rw [updateReview_of_some (by exact found)] at hkept ⊢
        intro e' row₁ hrow₁
        obtain ⟨row₂, hrow₂, hp⟩ := built_insert hrow (by rfl) (by rfl) e' row₁ hrow₁
        obtain ⟨p, hwf, hlim, htext⟩ := h.built e' row₂ hrow₂
        exact ⟨p, hwf, hlim, hp.trans htext⟩
      · intro w' d b hb
        by_cases hkey : (w, e) = (w', d)
        · obtain ⟨rfl, rfl⟩ := Prod.mk.injEq .. ▸ hkey
          rw [updateReview_of_some (by exact found)] at hb
          simp only [Table.get_insert_self, Option.some.injEq] at hb
          obtain ⟨hstrip, htxid⟩ := finalizeTransaction_eq_ok env final
          obtain ⟨p, hwf, hlim, htext⟩ := h.built e row hrow
          have happ' := happ.psbt
          rw [htext, parseResponse_psbtText env hwf] at happ'
          refine ⟨row', draft.approved, tx, hrow', hsame ▸ happ.psbt, hb.symm, ?_, htxid⟩
          rw [hstrip, happ'.2, Transaction.stripWitnesses_of_unsigned hwf.unsigned]
        · have hb₀ : db.finalizedDrafts[(w', d)]? = some b := by
            rw [updateReview_of_some (by exact found)] at hb
            simpa only [Table.get_insert_ne _ _ hkey] using hb
          obtain ⟨row₁, q, tx', hrow₁, hq, hrest⟩ := h.final w' d b hb₀
          obtain ⟨row₂, hrow₂, hs⟩ := (hkept w' d (by simp)).row row₁ hrow₁
          exact ⟨row₂, q, tx', hrow₂, hs ▸ hq, hrest⟩
  | observe found review submitted final decoded seen =>
      rw [updateReview_of_some (by exact found)] at hkept ⊢
      exact h.of_kept (built_insert (selectDraft_eq_some.mp found).1 rfl rfl)
        (fun w d b hb => ⟨hb, hkept w d (by simp)⟩)
  | invalidate found review =>
      rw [updateReview_of_some found] at hkept ⊢
      exact h.of_kept (built_insert (selectDraft_eq_some.mp found).1 rfl rfl)
        (fun w d b hb => ⟨hb, hkept w d (by simp)⟩)
  | attempt validated wallet draft txid wtxid =>
      exact h.of_kept (fun e row hrow => ⟨row, hrow, rfl⟩)
        (fun w d b hb => ⟨hb, hkept w d (by simp)⟩)
  | acknowledge found =>
      exact h.of_kept (fun e row hrow => ⟨row, hrow, rfl⟩)
        (fun w d b hb => ⟨hb, hkept w d (by simp)⟩)
  | resume recovered found review state validated =>
      rw [updateReview_of_some found, reserveInputs_eq] at hkept ⊢
      exact h.of_kept (built_insert (selectDraft_eq_some.mp found).1 rfl rfl)
        (fun w d b hb => ⟨hb, hkept w d (by simp)⟩)
  | suspend checked suspended =>
      refine h.of_kept ?_
        (fun w d b hb => ⟨suspended.finalizedDrafts ▸ hb, hkept w d (by simp)⟩)
      intro e row' hrow'
      rw [suspended.drafts, Option.map_eq_some_iff] at hrow'
      obtain ⟨row, hrow, rfl⟩ := hrow'
      exact ⟨row, hrow, suspendRow_psbt env row⟩

end Effects

/-! ## Runs -/

/-- The draft has an attempt and the given final bytes. -/
def Submitted (db : Db State) (w d : String) (b : Bytes) : Prop :=
  db.submitted w d = true ∧ db.finalizedDrafts[(w, d)]? = some b

/-- Every request that has inserted its attempt, and every POST, is about the
    final bytes of its draft. -/
structure BytesOk (world : World State) : Prop where
  store : StoreOk env world.db
  final : FinalOk env world.db
  requests : ∀ (q : Nat) (r : BroadcastRequest) (p : Preflight) (a : Nat),
    world.requests[q]? = some { request := r, phase := .inserted p a } →
    Submitted world.db r.walletId r.draftId p.approved.transactionBytes
  posts : ∀ post ∈ world.posts, Submitted world.db post.walletId post.draftId post.body

section Runs

variable {env}
variable {world : World State} {w d : String}

/-- Without a discard of the draft, a step keeps it. -/
theorem kept_step (hok : StoreOk env world.db) {op : Op Scan}
    (hdiscard : ¬ Discards world op w d) : Kept w d world.db (step env world op).db := by
  refine ((step_path_of_not_discards env hok.drafts hdiscard).invariant env
    (I := fun db => StoreOk env db ∧ Kept w d world.db db) ?_ ⟨hok, .refl _ w d⟩).2
  rintro a db db' ⟨_, hne⟩ ⟨hdb, hkept⟩ heffect
  exact ⟨hdb.effect heffect, hkept.trans (kept_effect hdb heffect hne)⟩

/-- A submitted draft cannot be discarded. -/
theorem not_discards_of_submitted (h : world.db.submitted w d = true) (op : Op Scan) :
    ¬ Discards world op w d := by
  rintro ⟨_, out, hout⟩
  simp only [discardDraft, bind_eq_ok, require_eq_ok, exists_unit, h, reduceCtorEq, false_and]
    at hout

theorem submitted_step (hok : StoreOk env world.db) {b : Bytes} (h : Submitted world.db w d b)
    (op : Op Scan) : Submitted (step env world op).db w d b :=
  have hkept := kept_step hok (not_discards_of_submitted h.1 op)
  ⟨hkept.submitted h.1, hkept.finalized b h.2⟩

theorem finalOk_step (hok : StoreOk env world.db) (h : FinalOk env world.db) (op : Op Scan) :
    FinalOk env (step env world op).db :=
  ((step_path env hok.drafts op).invariant env (I := fun db => StoreOk env db ∧ FinalOk env db)
    (fun _ _ _ _ ⟨hdb, hfinal⟩ heffect => ⟨hdb.effect heffect, hfinal.effect hdb heffect⟩)
    ⟨hok, h⟩).2

theorem BytesOk.step (h : BytesOk env world) (op : Op Scan) : BytesOk env (step env world op) := by
  have hkeep : ∀ {w d : String} {b : Bytes}, Submitted world.db w d b →
      Submitted (System.step env world op).db w d b := fun hs => submitted_step h.store hs op
  refine ⟨storeOk_step env h.store op, finalOk_step h.store h.final op, ?_, ?_⟩
  · intro q r p a hreq
    rcases step_requests env world op with hquiet | ⟨r', p', _, hstep⟩ |
      ⟨s, p', hins, hrequests, _⟩ | ⟨q', r', p', a', hsend⟩
    · exact hkeep (h.requests q r p a (hquiet.requests q _ hreq))
    · have hreq' := hreq
      rw [hstep] at hreq'
      simp only [Table.get_insert] at hreq'
      split_ifs at hreq' with hq
      · simp at hreq'
      · exact hkeep (h.requests q r p a hreq')
    · rw [hrequests, Table.get_insert] at hreq
      split_ifs at hreq with hq
      · simp only [Option.some.injEq, Request.mk.injEq, Phase.inserted.injEq] at hreq
        obtain ⟨rfl, rfl, rfl⟩ := hreq
        obtain ⟨⟨body, now, _, hrun⟩, _, _⟩ := hins
        obtain ⟨hvalid, _, hout⟩ := insertAttempt_facts env hrun
        obtain ⟨_, bytes, tx, _, hbytes, _, _, rfl, hfinal⟩ :=
          (validatedFinalized_eq_ok env).mp hvalid
        have hdb := congrArg Prod.snd hout
        simp only at hdb
        rw [hdb]
        refine ⟨submitted_eq_true.mpr ⟨_, _, Table.get_insert_self .., rfl, rfl⟩, ?_⟩
        rw [hfinal]
        exact hbytes
      · exact hkeep (h.requests q r p a hreq)
    · have hreq' := hreq
      rw [hsend.step] at hreq'
      simp only [Table.get_insert] at hreq'
      split_ifs at hreq' with hq
      · simp at hreq'
      · exact hkeep (h.requests q r p a hreq')
  · intro post hpost
    rcases step_requests env world op with hquiet | ⟨r', p', _, hstep⟩ |
      ⟨s, p', hins, _, hposts⟩ | ⟨q', r', p', a', hsend⟩
    · exact hkeep (h.posts post (hquiet.posts ▸ hpost))
    · refine hkeep (h.posts post ?_)
      rw [hstep] at hpost
      exact hpost
    · exact hkeep (h.posts post (hposts ▸ hpost))
    · have hpost' := hpost
      rw [hsend.step] at hpost'
      rcases List.mem_append.mp hpost' with hold | hnew
      · exact hkeep (h.posts post hold)
      · rw [List.mem_singleton.mp hnew]
        exact hkeep (h.requests q' r' p' a' hsend.request)

theorem bytesOk_run (ops : List (Op Scan)) : BytesOk env (run env ops) := by
  refine Transition.run_invariant (I := BytesOk env) (System.step env)
    (fun world op h => h.step op) ?_ ops
  refine ⟨StoreOk.empty env, ⟨?_, ?_⟩, ?_, ?_⟩
  · intro d row hrow
    simp at hrow
  · intro w d b hb
    simp at hb
  · intro q r p a hreq
    simp at hreq
  · intro post hpost
    cases hpost

theorem submitted_run {b : Bytes} {ops : List (Op Scan)}
    (h : Submitted (run env ops).db w d b) (later : List (Op Scan)) :
    Submitted (run env (ops ++ later)).db w d b := by
  rw [run_append]
  refine (Transition.run_invariant
    (I := fun world => StoreOk env world.db ∧ Submitted world.db w d b) (System.step env) ?_
    ⟨storeOk_run env ops, h⟩ later).2
  rintro world op ⟨hok, hs⟩
  exact ⟨storeOk_step env hok op, submitted_step hok hs op⟩

theorem kept_run {ops later : List (Op Scan)}
    (hall : Along (System.step env) (fun world op => ¬ Discards world op w d) (run env ops) later) :
    Kept w d (run env ops).db (run env (ops ++ later)).db := by
  rw [run_append]
  refine (Transition.run_along
    (I := fun world => StoreOk env world.db ∧ Kept w d (run env ops).db world.db)
    (System.step env) ?_ ⟨storeOk_run env ops, .refl _ w d⟩ hall).2
  rintro world op ⟨hok, hkept⟩ hdiscard
  exact ⟨storeOk_step env hok op, hkept.trans (kept_step hok hdiscard)⟩

end Runs

/-- **Final bytes are immutable and are what was approved.**  After any run,
    final bytes are the approved transaction with witnesses and the same txid;
    along any later run without a discard of the draft its PSBT and its final
    bytes stay; a submitted draft keeps both along every later run; and every
    POST sent the final bytes of its draft. -/
theorem run_final_bytes (ops : List (Op Scan)) :
    (∀ (w d : String) (b : Bytes), (run env ops).db.finalizedDrafts[(w, d)]? = some b →
      ∃ row p tx, (run env ops).db.selectDraft w d = some row ∧
        parseResponse env row.psbt = .ok p ∧ b = env.serializeTx tx ∧
        tx.stripWitnesses = p.unsignedTx ∧ env.computeTxid tx = env.computeTxid p.unsignedTx) ∧
    (∀ (w d : String) (later : List (Op Scan)),
      Along (step env) (fun world op => ¬ Discards world op w d) (run env ops) later →
      (∀ row, (run env ops).db.selectDraft w d = some row →
        ∃ row', (run env (ops ++ later)).db.selectDraft w d = some row' ∧ row'.psbt = row.psbt) ∧
      (∀ b : Bytes, (run env ops).db.finalizedDrafts[(w, d)]? = some b →
        (run env (ops ++ later)).db.finalizedDrafts[(w, d)]? = some b)) ∧
    (∀ (w d : String) (later : List (Op Scan)), (run env ops).db.submitted w d = true →
      ∃ b : Bytes, (run env ops).db.finalizedDrafts[(w, d)]? = some b ∧
        (run env (ops ++ later)).db.finalizedDrafts[(w, d)]? = some b ∧
        ∃ row, (run env (ops ++ later)).db.selectDraft w d = some row) ∧
    (∀ post ∈ (run env ops).posts,
      (run env ops).db.finalizedDrafts[(post.walletId, post.draftId)]? = some post.body) := by
  have hok : BytesOk env (run env ops) := bytesOk_run ops
  refine ⟨hok.final.final, ?_, ?_, fun post hpost => (hok.posts post hpost).2⟩
  · intro w d later hall
    have hkept := kept_run hall
    exact ⟨hkept.row, hkept.finalized⟩
  · intro w d later hsub
    obtain ⟨id, a, ha, rfl, rfl⟩ := submitted_eq_true.mp hsub
    obtain ⟨b, hb⟩ := Option.isSome_iff_exists.mp (hok.store.keys.attempts id a ha)
    have hlater := submitted_run ⟨hsub, hb⟩ later
    refine ⟨b, hb, hlater.2, Option.isSome_iff_exists.mp ?_⟩
    exact (storeOk_run env (ops ++ later)).keys.finalized _ _ b hlater.2

end Finality
end Tundra
