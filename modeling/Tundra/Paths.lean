/-
  Tundra.Paths

  Every operation is a path of effects (`step_path`): what it may do to the
  draft tables is the list `Allowed` gives it.  The sweep of a sync reads the
  texts of all drafts before it changes the first; a draft it has not come to
  yet still has the text that was read.
-/

import Tundra.Store

namespace Tundra
namespace Paths

open Checked Relational Engine Signing Broadcast Recovery Drafts Effects Tundra.System

variable {State Wallet Scan : Type} (env : Env State Wallet Scan)

/-! ## Metadata -/

section Metadata

variable {db : Db State}

/-- The row of a wallet is written on its network. -/
theorem wallet_metadata {w : String} {row row' : WalletRow State} (hrow : db.wallets[w]? = some row)
    (hnetwork : row'.network = row.network) :
    Metadata env db { db with wallets := db.wallets.insert w row' } := by
  refine ⟨by constructor <;> rfl, ?_, fun hv => ⟨?_, hv.labels, hv.freezes⟩⟩
  · intro w' row₁ hrow₁
    by_cases hw : w = w'
    · subst hw
      rw [hrow, Option.some.injEq] at hrow₁
      exact ⟨_, Table.get_insert_self .., hrow₁ ▸ hnetwork⟩
    · exact ⟨row₁, by rw [Table.get_insert_ne _ _ hw]; exact hrow₁, rfl⟩
  · intro w' row₁ hrow₁
    rw [Table.get_insert] at hrow₁
    split_ifs at hrow₁ with hw
    · exact hw ▸ hv.wallets w row hrow
    · exact hv.wallets w' row₁ hrow₁

theorem updateState_metadata (w : String) (state : State) :
    Metadata env db (db.updateState w state) := by
  unfold Db.updateState
  cases hrow : db.wallets[w]? with
  | none => rfl
  | some row => exact wallet_metadata env hrow rfl

theorem updateSyncedAt_metadata (w : String) (syncedAt : Nat) :
    Metadata env db (db.updateSyncedAt w syncedAt) := by
  unfold Db.updateSyncedAt
  cases hrow : db.wallets[w]? with
  | none => rfl
  | some row => exact wallet_metadata env hrow rfl

theorem bumpRevision_metadata (w endpoint : String) :
    Metadata env db (Sync.bumpRevision db w endpoint) :=
  ⟨by constructor <;> rfl, .of_eq rfl, fun hv => ⟨hv.wallets, hv.labels, hv.freezes⟩⟩

theorem putLabel_metadata (w : String) (kind : LabelKind) (reference : String) {label : String}
    (hlabel : Labels.ValidLabel label) : Metadata env db (db.putLabel w kind reference label) := by
  refine ⟨by constructor <;> rfl, .of_eq rfl, fun hv => ⟨hv.wallets, ?_, hv.freezes⟩⟩
  intro k l hl
  rw [Db.putLabel, Table.get_insert] at hl
  split_ifs at hl
  · cases hl
    exact hlabel
  · exact hv.labels k l hl

theorem insertLabelIfNew_metadata (w : String) (kind : LabelKind) (reference : String)
    {label : String} (hlabel : Labels.ValidLabel label) :
    Metadata env db (db.insertLabelIfNew w kind reference label) := by
  refine ⟨by constructor <;> rfl, .of_eq rfl, fun hv => ⟨hv.wallets, ?_, hv.freezes⟩⟩
  intro k l hl
  rw [Db.insertLabelIfNew, Table.get_insertIfNew] at hl
  split_ifs at hl
  · cases hl
    exact hlabel
  · exact hv.labels k l hl

theorem setFreeze_metadata (w : String) {reference : String} (frozen : Bool)
    (href : (env.parseOutPoint reference).isSome = true) :
    Metadata env db (db.setFreeze w reference frozen) := by
  refine ⟨by constructor <;> rfl, .of_eq rfl, fun hv => ⟨hv.wallets, hv.labels, ?_⟩⟩
  intro w' op hop
  unfold Db.setFreeze at hop
  cases frozen with
  | true =>
      simp only [if_true, Table.get_insertIfNew] at hop
      split_ifs at hop with hk
      · obtain ⟨_, rfl⟩ := Prod.mk.injEq .. ▸ hk.1
        exact href
      · exact hv.freezes w' op hop
  | false =>
      simp only [Bool.false_eq_true, if_false, Table.get_erase] at hop
      split_ifs at hop
      exact hv.freezes w' op hop

theorem parseOutPoint_display_isSome (op : OutPoint) :
    (env.parseOutPoint (env.displayOutPoint op)).isSome = true := by
  rw [env.parseOutPoint_display]
  rfl

theorem importWallet_metadata {name payload : String} {network : Network} {now : Nat}
    {out : WalletSummary × Db State}
    (h : importWallet env db name payload network now = .ok out) : Metadata env db out.2 := by
  simp only [importWallet, bind_eq_ok, require_eq_ok, exists_unit, okOr_eq_ok,
    Except.ok.injEq] at h
  obtain ⟨_, p, hp, hnew, _, wallet, _, state, _, rfl⟩ := h
  refine ⟨by constructor <;> rfl, ?_, fun hv => ⟨?_, hv.labels, hv.freezes⟩⟩
  · intro w row hrow
    refine ⟨row, ?_, rfl⟩
    rw [Table.get_insert_ne]
    · exact hrow
    · rintro rfl
      rw [hnew] at hrow
      cases hrow
  · intro w row hrow
    by_cases hw : w = p.id
    · subst hw
      exact Descriptors.previewImport_id_length env hp
    · dsimp only at hrow
      rw [Table.get_insert_ne _ _ (Ne.symm hw)] at hrow
      exact hv.wallets w row hrow

theorem receiveAddress_metadata {w : String} {out : ReceiveAddress × Db State}
    (h : receiveAddress env db w = .ok out) : Metadata env db out.2 := by
  simp only [receiveAddress, bind_eq_ok, Except.ok.injEq] at h
  obtain ⟨l, _, rfl⟩ := h
  exact updateState_metadata env w _

theorem setLabel_metadata {w kind reference label : String} {out : Unit × Db State}
    (h : setLabel env db w kind reference label = .ok out) : Metadata env db out.2 := by
  simp only [setLabel, bind_eq_ok, Labels.validateLabel_eq_ok, exists_unit, okOr_eq_ok,
    require_eq_ok, Except.ok.injEq] at h
  obtain ⟨hlabel, _, _, kind, _, _, rfl⟩ := h
  exact putLabel_metadata env w kind reference hlabel

theorem setFrozen_metadata {w reference : String} {frozen : Bool} {out : Unit × Db State}
    (h : setFrozen env db w reference frozen = .ok out) : Metadata env db out.2 := by
  simp only [setFrozen, bind_eq_ok, require_eq_ok, exists_unit, Except.ok.injEq] at h
  obtain ⟨op, _, _, _, _, rfl⟩ := h
  exact setFreeze_metadata env w frozen (parseOutPoint_display_isSome env op)

theorem editCoin_metadata {w reference : String} {label : Option String} {frozen : Option Bool}
    (hlabel : ∀ text, label = some text → Labels.ValidLabel text)
    (href : (env.parseOutPoint reference).isSome = true) :
    Metadata env db (editCoin w label frozen db reference) := by
  cases label with
  | none =>
      cases frozen with
      | none => exact .refl env db
      | some frozen => exact setFreeze_metadata env w frozen href
  | some text =>
      have hput : Metadata env db (db.putLabel w .output reference text) :=
        putLabel_metadata env w .output reference (hlabel text rfl)
      cases frozen with
      | none => exact hput
      | some frozen => exact hput.trans env (setFreeze_metadata env w frozen href)

theorem editCoins_metadata {w : String} {references : List String} {label : Option String}
    {frozen : Option Bool} {out : Unit × Db State}
    (h : editCoins env db w references label frozen = .ok out) : Metadata env db out.2 := by
  have hfacts : (∀ text, label = some text → Labels.ValidLabel text) ∧
      (∃ wallet : Wallet, ∀ reference ∈ references,
        reference ∈ (env.listUnspent wallet).map (fun c => env.displayOutPoint c.outpoint)) ∧
      out = ((), references.foldl (editCoin w label frozen) db) := by
    cases label <;>
      simp only [editCoins, bind_eq_ok, require_eq_ok, exists_unit, Except.ok.injEq,
        Labels.validateLabel_eq_ok] at h
    · obtain ⟨_, _, l, _, _, hknown, rfl⟩ := h
      exact ⟨fun text ht => (by cases ht), ⟨l.wallet, hknown⟩, rfl⟩
    · obtain ⟨_, hlabel, l, _, _, hknown, rfl⟩ := h
      exact ⟨fun text ht => (by cases ht; exact hlabel), ⟨l.wallet, hknown⟩, rfl⟩
  obtain ⟨hlabel, ⟨wallet, hknown⟩, rfl⟩ := hfacts
  clear h
  simp only
  induction references generalizing db with
  | nil => exact .refl env db
  | cons reference references ih =>
      obtain ⟨c, _, hc⟩ := List.mem_map.mp (hknown reference (List.mem_cons_self ..))
      exact (editCoin_metadata env hlabel (hc ▸ parseOutPoint_display_isSome env c.outpoint)).trans
        env (ih (fun r hr => hknown r (List.mem_cons_of_mem _ hr)))

theorem applyRecord_metadata {apply : Bool} {w origin : String} {wallet : Wallet}
    {r : Labels.LabelRecord} (hr : Labels.RecordOk r)
    (hmatch : recordMatches env wallet origin r = true) :
    Metadata env db (applyRecord apply db w r).2 := by
  -- without a `spendable` the record is its label
  have hlab : Metadata env db (applyRecord apply db w { r with spendable := none }).2 := by
    unfold applyRecord
    dsimp only
    cases hl : r.label with
    | none => rfl
    | some label =>
        cases apply with
        | false => rfl
        | true => exact putLabel_metadata env w r.kind r.reference (hr.label label hl)
  unfold applyRecord
  cases hs : r.spendable with
  | none => exact hlab
  | some s =>
      cases apply with
      | false => exact hlab
      | true =>
          refine hlab.trans env (setFreeze_metadata env w (!s) ?_)
          have hkind := hr.spendable (by rw [hs]; simp)
          simp only [recordMatches, Bool.and_eq_true, hkind, knownReference] at hmatch
          obtain ⟨op, hop, _⟩ := (Option.any_eq_true ..).mp hmatch.2
          exact Option.isSome_iff_exists.mpr ⟨op, hop⟩

theorem importRecords_metadata {apply : Bool} {w origin : String} {wallet : Wallet}
    {records : List Labels.LabelRecord} {seen : List (LabelKind × String)}
    {preview : Labels.LabelPreview} {out : Labels.LabelPreview × Db State}
    (hrecords : ∀ r ∈ records, Labels.RecordOk r)
    (h : importRecords env apply w wallet origin records seen preview db = .ok out) :
    Metadata env db out.2 := by
  induction records generalizing seen preview db with
  | nil =>
      simp only [importRecords, Except.ok.injEq] at h
      rw [← h]
  | cons r records ih =>
      obtain ⟨hr, hrest⟩ := List.forall_mem_cons.mp hrecords
      unfold importRecords at h
      split_ifs at h with hmatch
      · simp only [bind_eq_ok, require_eq_ok, exists_unit] at h
        exact (applyRecord_metadata env hr hmatch).trans env (ih hrest h.2)
      · exact ih hrest h

theorem importLabels_metadata {w payload : String} {apply : Bool}
    {out : Labels.LabelPreview × Db State}
    (h : importLabels env db w payload apply = .ok out) : Metadata env db out.2 := by
  simp only [importLabels, bind_eq_ok, Prod.exists, Except.ok.injEq] at h
  obtain ⟨records, skipped, hparse, l, _, origin, _, preview, db', hrun, rfl⟩ := h
  cases apply with
  | false => exact .refl env db
  | true => exact importRecords_metadata env (Labels.parseLabels_recordOk env hparse) hrun

theorem registerPolicy_metadata {w fingerprint : String} {policyId hmac : Bytes}
    {out : Unit × Db State} (h : registerPolicy env db w fingerprint policyId hmac = .ok out) :
    Metadata env db out.2 := by
  simp only [registerPolicy, bind_eq_ok, require_eq_ok, exists_unit, Except.ok.injEq] at h
  obtain ⟨_, _, _, rfl⟩ := h
  exact ⟨by constructor <;> rfl, .of_eq rfl, fun hv => ⟨hv.wallets, hv.labels, hv.freezes⟩⟩

end Metadata

/-! ## Drafts -/

section Drafts

variable {db : Db State}

/-- What a creation has checked and written: the draft with its reservations,
    and the addresses it revealed. -/
theorem createDraft_facts {request : DraftRequest} {seed now : Nat} {out : DraftReview × Db State}
    (h : createDraft env db request seed now = .ok out) :
    ∃ l p wallet row, load env db request.walletId = .ok l ∧ Labels.ValidLabel request.label ∧
      planDraft env db l request seed = .ok (p, out.1, wallet) ∧ db.drafts[out.1.id]? = none ∧
      row.walletId = request.walletId ∧ row.psbt = env.psbtText p ∧
      row.reviewJson = reviewText env out.1 ∧ (outpoints out.1).Nodup ∧
      out.2 = save env { db with
        drafts := db.drafts.insert out.1.id row
        reservations := reserveAll request.walletId out.1.id (outpoints out.1) db.reservations }
        request.walletId { l with wallet } := by
  simp only [createDraft, bind_eq_ok, Labels.validateLabel_eq_ok, require_eq_ok, exists_unit,
    Prod.exists, Except.ok.injEq] at h
  obtain ⟨hlabel, _, l, hload, _, _, p, r, wallet, hplan, db₁, hinsert, db₂, hreserve, rfl⟩ := h
  simp only [Db.insertDraft, bind_eq_ok, require_eq_ok, exists_unit, okOr_eq_ok,
    Table.insertNew_eq_some, Except.ok.injEq] at hinsert
  obtain ⟨_, _, ⟨hfresh, rfl⟩, rfl⟩ := hinsert
  have hrow : (Db.selectDraft { db with
      drafts := db.drafts.insert r.id
        { walletId := request.walletId
          psbt := env.psbtText p
          reviewJson := reviewText env r
          label := request.label
          createdAt := now } } request.walletId r.id).isSome = true :=
    selectDraft_isSome.mpr ⟨_, Table.get_insert_self .., rfl⟩
  obtain ⟨⟨hnodup, _⟩, rfl⟩ := (insertReservations_eq_ok hrow).mp hreserve
  have hkeys : r.inputs.map (fun i => (request.walletId, i.outpoint)) =
      (outpoints r).map (fun op => (request.walletId, op)) := by
    rw [outpoints, List.map_map]
    rfl
  refine ⟨l, p, wallet, _, hload, hlabel, hplan, hfresh, ?_, ?_, ?_, hnodup, by rw [hkeys]; rfl⟩
  · rfl
  · rfl
  · rfl

theorem createDraft_path {request : DraftRequest} {seed now : Nat} {out : DraftReview × Db State}
    (h : createDraft env db request seed now = .ok out) :
    ∃ db₁, Effect env (.create request.walletId out.1.id) db db₁ ∧ Metadata env db₁ out.2 := by
  obtain ⟨l, p, wallet, row, hload, hlabel, hplan, hfresh, hw, hpsbt, hreview, hnodup, hout⟩ :=
    createDraft_facts env h
  refine ⟨_, .create hload hlabel (planDraft_facts env hplan) rfl rfl hfresh hw hpsbt hreview
    hnodup, ?_⟩
  rw [hout]
  exact updateState_metadata env request.walletId _

theorem discardDraft_effect {w d : String} {out : Unit × Db State}
    (h : discardDraft db w d = .ok out) : Effect env (.discard w d) db out.2 := by
  simp only [discardDraft, bind_eq_ok, require_eq_ok, exists_unit, Except.ok.injEq,
    Option.isSome_iff_exists] at h
  obtain ⟨hsub, ⟨row, hrow⟩, rfl⟩ := h
  exact .discard hrow hsub

theorem acceptSignedPsbt_effect {w d : String} {payload : Bytes} {out : SigningProgress × Db State}
    (h : acceptSignedPsbt env db w d payload = .ok out) : Effect env (.accept w d) db out.2 := by
  simp only [acceptSignedPsbt, bind_eq_ok, require_eq_ok, exists_unit, Db.upsertSignatures,
    Except.ok.injEq] at h
  obtain ⟨response, _, draft, hload, hstate, merged, hmerge, current, _, _, _, ⟨_, rfl⟩, rfl⟩ := h
  refine .accept hload hstate hmerge ?_
  unfold signedState
  split_ifs
  · exact .inl rfl
  · exact .inr rfl

/-- Finalizing again changes nothing. -/
theorem finalizeDraft_effect {w d : String} {out : FinalizedReview × Db State}
    (h : finalizeDraft env db w d = .ok out) :
    out.2 = db ∨ Effect env (.finalize w d) db out.2 := by
  simp only [finalizeDraft, bind_eq_ok] at h
  obtain ⟨draft, hload, tx, htx, h⟩ := h
  split at h
  · simp only [bind_eq_ok, require_eq_ok, exists_unit, Except.ok.injEq] at h
    exact .inl (h.2 ▸ rfl)
  · rename_i hnone
    simp only [bind_eq_ok, require_eq_ok, exists_unit, Db.insertFinalized, okOr_eq_ok,
      Table.insertNew_eq_some, Except.ok.injEq] at h
    obtain ⟨hstate, _, ⟨_, _, ⟨_, rfl⟩, rfl⟩, rfl⟩ := h
    exact .inr (.finalize hload hstate htx hnone)

theorem resume_effect {w d txid : String} {attempt : Nat} {ack : Bool}
    {out : FinalizedReview × Db State}
    (h : resumeRecoveredSubmission env db w d txid attempt ack = .ok out) :
    Effect env (.resume w d) db out.2 := by
  simp only [resumeRecoveredSubmission, bind_eq_ok, require_eq_ok, exists_unit, okOr_eq_ok,
    parseReview, Except.ok.injEq] at h
  obtain ⟨_, hrec, _, _, _, row, hrow, review, hreview, hstate, validated, hvalid, final, rfl, _,
    rfl⟩ := h
  exact .resume hrec hrow hreview hstate hvalid

theorem exportRestore_effect {now : Nat} {out : Unit × Db State}
    (h : exportRestore env db now = .ok out) : Effect env .suspend db out.2 := by
  simp only [exportRestore, Backup.restoreImage, bind_eq_ok, exists_unit, Prod.exists,
    Except.ok.injEq, Prod.mk.injEq] at h
  obtain ⟨_, output, ⟨summary, hvalid, db', hsuspend, _, _, _, _, _, rfl, rfl⟩, rfl⟩ := h
  have hkeys : DraftKeys db := by
    simp only [Backup.validate, Backup.integrity, bind_eq_ok, require_eq_ok, exists_unit] at hvalid
    obtain ⟨_, _, _, _, _, _, ⟨_, hforeign⟩, _⟩ := hvalid
    exact draftKeys_of_foreignKeys hforeign
  have hmigrate : Backup.migrate (Backup.exportedImage env db now).userVersion
      (Backup.exportedImage env db now).db = db := rfl
  rw [hmigrate] at hsuspend
  exact .suspend ((suspend_ok_iff env hkeys.holds).mp ⟨db', hsuspend⟩)
    (suspended_of_ok env hkeys.holds hsuspend)

end Drafts

/-! ## Syncs -/

section Sync

variable {db : Db State}

theorem applyOutputLabels_metadata {w d label txid : String} {wallet : Wallet} {vout : Nat}
    {outputs : List TxOut} (hlabel : Labels.ValidLabel label) :
    Metadata env db (applyOutputLabels env w d label txid wallet vout outputs db) := by
  induction outputs generalizing vout db with
  | nil => exact .refl env db
  | cons output outputs ih =>
      refine Metadata.trans env ?_ ih
      by_cases hmine : env.isMine wallet output.scriptPubkey = true
      · rw [if_pos hmine]
        unfold applyOutputLabel
        have hprov : Metadata env db { db with
            outputProvenance :=
              db.outputProvenance.insertIfNew (w, txid ++ ":" ++ toString vout) d } :=
          ⟨by constructor <;> rfl, .of_eq rfl, fun hv => ⟨hv.wallets, hv.labels, hv.freezes⟩⟩
        split_ifs
        · exact hprov
        · exact hprov.trans env (insertLabelIfNew_metadata env w .output _ hlabel)
      · rw [if_neg hmine]

theorem applyObservedLabels_metadata {w : String} {review : DraftReview} {wallet : Wallet}
    {info : BroadcastInfo} {db' : Db State}
    (h : applyObservedLabels env db w review wallet info = .ok db') : Metadata env db db' := by
  unfold applyObservedLabels at h
  by_cases happlied : (db.draftLabelApplications[(w, review.id)]?).isSome = true
  · rw [if_pos happlied, Except.ok.injEq] at h
    exact h ▸ .refl env db
  · rw [if_neg happlied] at h
    simp only [bind_eq_ok, require_eq_ok, exists_unit, Labels.validateLabel_eq_ok,
      Except.ok.injEq] at h
    obtain ⟨_, hlabel, txid, _, found, _, rfl⟩ := h
    have happ : Metadata env db { db with
        draftLabelApplications := db.draftLabelApplications.insert (w, review.id) () } :=
      ⟨by constructor <;> rfl, .of_eq rfl, fun hv => ⟨hv.wallets, hv.labels, hv.freezes⟩⟩
    refine happ.trans env ?_
    refine Metadata.trans env ?_ (applyOutputLabels_metadata env hlabel)
    split_ifs
    · exact .refl env _
    · exact insertLabelIfNew_metadata env w .tx info.txid hlabel

/-- The latest attempt of a draft is one of its attempts. -/
theorem latest_eq_some {w d : String} {info : BroadcastInfo} (h : latest db w d = some info) :
    info.walletId = w ∧ info.draftId = d ∧ ∃ a, db.broadcastAttempts[info.attemptId]? = some a ∧
      a.walletId = w ∧ a.draftId = d ∧ a.txid = info.txid ∧ a.wtxid = info.wtxid := by
  simp only [latest, Option.map_eq_some_iff, Prod.exists] at h
  obtain ⟨id, a, hlast, rfl⟩ := h
  have hmem := List.mem_of_getLast? hlast
  obtain ⟨hget, hp⟩ := Table.mem_selectRows.mp hmem
  simp only [decide_eq_true_eq] at hp
  exact ⟨rfl, rfl, a, hget, hp.1, hp.2, rfl, rfl⟩

/-- An observation: the labels it applies, and its effect on the draft. -/
theorem observeDraft_path {w : String} {row : DraftRow} {review : DraftReview} {wallet : Wallet}
    {db' : Db State} (hrow : db.selectDraft w review.id = some row)
    (hreview : row.reviewJson.parsed = some review)
    (h : observeDraft env db w review wallet = .ok (some db')) :
    ∃ db₁, Metadata env db db₁ ∧ Effect env (.observe wallet w review.id) db₁ db' := by
  unfold observeDraft at h
  cases hlatest : latest db w review.id with
  | none =>
      rw [hlatest] at h
      cases h
  | some info =>
      rw [hlatest] at h
      simp only [bind_eq_ok] at h
      obtain ⟨seen, hseen, h⟩ := h
      split_ifs at h with hnot
      · cases h
      · simp only [bind_eq_ok, Except.ok.injEq, Option.some.injEq] at h
        obtain ⟨db₁, hlabels, rfl⟩ := h
        have hmeta := applyObservedLabels_metadata env hlabels
        obtain ⟨hw, hd, a, ha, haw, had, _⟩ := latest_eq_some hlatest
        simp only [observation, bind_eq_ok, require_eq_ok, exists_unit, okOr_eq_ok,
          Except.ok.injEq, hw, hd] at hseen
        obtain ⟨bytes, hbytes, _, tx, htx, _, rfl⟩ := hseen
        refine ⟨db₁, hmeta, .observe ?_ hreview ?_ ?_ htx hnot⟩
        · simpa only [Db.selectDraft, hmeta.same.drafts] using hrow
        · rw [submitted_eq_true, hmeta.same.broadcastAttempts]
          exact ⟨_, a, ha, haw, had⟩
        · rw [hmeta.same.finalizedDrafts]
          exact hbytes

/-- What a sync of wallet `w` may do. -/
def SyncAct (wallet : Wallet) (w : String) (a : Act Wallet) : Prop :=
  a = .metadata ∨ (∃ d, a = .invalidate w d) ∨ ∃ d, a = .observe wallet w d

theorem updateReviewById_eq {w d : String} {row : DraftRow} (h : db.selectDraft w d = some row)
    (review : ReviewJson) : Sync.updateReviewById db d review = db.updateReview w d review := by
  simp only [Sync.updateReviewById, Db.updateReview, h, (selectDraft_eq_some.mp h).1]

/-- One draft of the sweep: its own row is the only one that changes. -/
theorem sweepDraft_path {w d : String} {row : DraftRow} {review : DraftReview} {wallet : Wallet}
    {db' : Db State} (hrow : db.selectDraft w d = some row)
    (hreview : row.reviewJson.parsed = some review) (hid : review.id = d)
    (h : Sync.sweepDraft env w wallet db (d, row.reviewJson) = .ok db') :
    Path env (SyncAct wallet w) db db' ∧
      ∀ e : String, e ≠ d → db'.drafts[e]? = db.drafts[e]? := by
  subst hid
  simp only [Sync.sweepDraft, parseReview, hreview, okOr_some, bind_eq_ok, Except.ok.injEq,
    exists_eq_left'] at h
  obtain ⟨observed, hobserve, h⟩ := h
  cases observed with
  | some db₁ =>
      cases h
      obtain ⟨db₂, hmeta, heffect⟩ := observeDraft_path env hrow hreview hobserve
      refine ⟨(Path.single env (.inl rfl) (.metadata hmeta)).tail
        ⟨_, .inr (.inr ⟨review.id, rfl⟩), heffect⟩, ?_⟩
      intro e he
      cases heffect with
      | observe found =>
          rw [updateReview_of_some (by exact found)]
          exact (Table.get_insert_ne _ _ (Ne.symm he)).trans (by rw [← hmeta.same.drafts]; rfl)
  | none =>
      simp only at h
      split_ifs at h
      · rw [Except.ok.injEq, updateReviewById_eq hrow] at h
        subst h
        refine ⟨Path.single env (.inr (.inl ⟨review.id, rfl⟩)) (.invalidate hrow hreview), ?_⟩
        intro e he
        rw [updateReview_of_some hrow]
        exact Table.get_insert_ne _ _ (Ne.symm he)
      · cases h
        exact ⟨.refl, fun _ _ => rfl⟩

/-- The sweep over the texts read at its start. -/
theorem invalidateDrafts_path (hok : DraftsOk env db) {w : String} {wallet : Wallet}
    {db' : Db State} (h : Sync.invalidateDrafts env db w wallet = .ok db') :
    Path env (SyncAct wallet w) db db' := by
  have hkeys : ((Sync.walletDrafts db w).map Prod.fst).Nodup := by
    have := Table.selectRows_nodup_keys db.drafts (fun _ row => decide (row.walletId = w))
    simpa only [Sync.walletDrafts, List.map_map, Function.comp_def] using this
  refine (foldlM_ok_scanned (fun done c => Path env (SyncAct wallet w) db c ∧
    ∀ e : String, e ∉ done.map Prod.fst → c.drafts[e]? = db.drafts[e]?) ?_
    ⟨.refl, fun _ _ => rfl⟩ h).1
  rintro done ⟨d, text⟩ rest c c' hl ⟨hpath, hframe⟩ hstep
  have hmem : (d, text) ∈ Sync.walletDrafts db w := hl ▸ by simp
  obtain ⟨⟨d', row⟩, hsel, heq⟩ := List.mem_map.mp hmem
  obtain ⟨rfl, rfl⟩ := Prod.mk.injEq .. ▸ heq
  obtain ⟨hget, hw⟩ := Table.mem_selectRows.mp hsel
  simp only [decide_eq_true_eq] at hget hw hstep
  have hnew : d' ∉ done.map Prod.fst := by
    rw [hl, List.map_append, List.nodup_append] at hkeys
    intro hin
    exact hkeys.2.2 d' hin d' (by simp) rfl
  obtain ⟨p, review, happ⟩ := hok d' row hget
  have hrow : c.selectDraft w d' = some row :=
    selectDraft_eq_some.mpr ⟨by rw [hframe d' hnew, hget], hw⟩
  obtain ⟨hpath', hframe'⟩ := sweepDraft_path env hrow happ.review happ.id hstep
  refine ⟨hpath.trans hpath', ?_⟩
  intro e he
  simp only [List.map_append, List.map_cons, List.map_nil, List.mem_append, List.mem_singleton,
    not_or] at he
  rw [hframe' e he.2, hframe e he.1]

/-- The wallet a scan's result is applied to. -/
def syncWallet (db : Db State) (w : String) (scan : Scan) : Option Wallet :=
  match load env db w with
  | .ok loaded =>
      (env.loadWallet loaded.summary.network (env.replaceBlocks loaded.state scan)).bind
        (fun wallet => env.applyUpdate wallet scan)
  | .error _ => none

theorem commitSync_path (hok : DraftsOk env db) {w : String} {snapshot : Sync.Snapshot}
    {scan : Scan} {now : Nat} {out : Unit × Db State}
    (h : Sync.commitSync env db w snapshot scan now = .ok out) :
    ∃ wallet, syncWallet env db w scan = some wallet ∧
      Path env (SyncAct wallet w) db out.2 := by
  simp only [Sync.commitSync, bind_eq_ok, require_eq_ok, exists_unit, okOr_eq_ok,
    Except.ok.injEq] at h
  obtain ⟨loaded, hload, _, wallet₀, hwallet₀, wallet, hwallet, db₁, hsweep, rfl⟩ := h
  refine ⟨wallet, ?_, (invalidateDrafts_path env hok hsweep).tail ⟨_, .inl rfl, .metadata ?_⟩⟩
  · simp only [syncWallet, hload, hwallet₀, Option.bind_some, hwallet]
  · exact (updateState_metadata env w _).trans env
      ((updateSyncedAt_metadata env w _).trans env (bumpRevision_metadata env w _))

end Sync

/-! ## Operations -/

/-- The effects an operation may have on the draft tables. -/
def Allowed (world : World State) : Op Scan → Act Wallet → Prop
  | .createDraft request _ _, a => a = .metadata ∨ ∃ d, a = .create request.walletId d
  | .discardDraft w d, a => a = .discard w d
  | .acceptSignedPsbt w d _, a => a = .accept w d
  | .finalizeDraft w d, a => a = .finalize w d
  | .commitSync w _ scan _, a => ∃ wallet, syncWallet env world.db w scan = some wallet ∧
      SyncAct wallet w a
  | .resumeRecovered w d _ _ _, a => a = .resume w d
  | .restore _, a => a = .suspend
  | .recheck requestId _ _, a => ∃ r p,
      world.requests[requestId]? = some { request := r, phase := .preflighted p } ∧
      a = .attempt r.walletId r.draftId
  | .acknowledge _ _, a => ∃ id, a = .acknowledge id
  | _, a => a = .metadata

theorem insertAttempt_effect {db : Db State} {r : BroadcastRequest} {p : Preflight} {now : Nat}
    {out : Nat × Db State} (h : Broadcast.insertAttempt env db r p now = .ok out) :
    Effect env (.attempt r.walletId r.draftId) db out.2 := by
  simp only [Broadcast.insertAttempt, Db.insertAttempt, bind_eq_ok, require_eq_ok, exists_unit,
    okOr_eq_ok, Except.ok.injEq] at h
  obtain ⟨final, hvalid, current, rfl, _, _, _, _, rfl⟩ := h
  exact .attempt hvalid rfl rfl rfl rfl

theorem acknowledge_effect {db : Db State} (r : BroadcastRequest) (id : Nat) :
    Broadcast.acknowledge db r id = db ∨
      Effect env (.acknowledge id) db (Broadcast.acknowledge db r id) := by
  unfold Broadcast.acknowledge
  split
  · rename_i row hrow
    split_ifs
    · exact .inr (.acknowledge hrow)
    · exact .inl rfl
  · exact .inl rfl

/-- The path of an operation that is one transaction. -/
theorem transact_path {world : World State} (hok : DraftsOk env world.db) {op : Op Scan}
    {db' : Db State} (h : transact env world.db op = some (.ok db')) :
    Path env (Allowed env world op) world.db db' := by
  have hsnd : ∀ {α : Type} {res : Result (α × Db State)},
      some (res.map Prod.snd) = some (.ok db') → ∃ out, res = .ok out ∧ out.2 = db' := by
    intro α res hres
    cases res with
    | error e => cases hres
    | ok out => exact ⟨out, rfl, by simpa [Except.map] using hres⟩
  cases op with
  | importWallet name payload network now =>
      obtain ⟨out, hout, rfl⟩ := hsnd h
      exact Path.single env (by exact rfl) (.metadata (importWallet_metadata env hout))
  | receiveAddress id =>
      obtain ⟨out, hout, rfl⟩ := hsnd h
      exact Path.single env (by exact rfl) (.metadata (receiveAddress_metadata env hout))
  | setLabel id kind reference label =>
      obtain ⟨out, hout, rfl⟩ := hsnd h
      exact Path.single env (by exact rfl) (.metadata (setLabel_metadata env hout))
  | setFrozen id reference frozen =>
      obtain ⟨out, hout, rfl⟩ := hsnd h
      exact Path.single env (by exact rfl) (.metadata (setFrozen_metadata env hout))
  | editCoins id references label frozen =>
      obtain ⟨out, hout, rfl⟩ := hsnd h
      exact Path.single env (by exact rfl) (.metadata (editCoins_metadata env hout))
  | importLabels id payload apply =>
      obtain ⟨out, hout, rfl⟩ := hsnd h
      exact Path.single env (by exact rfl) (.metadata (importLabels_metadata env hout))
  | registerPolicy id fingerprint policyId hmac =>
      obtain ⟨out, hout, rfl⟩ := hsnd h
      exact Path.single env (by exact rfl) (.metadata (registerPolicy_metadata env hout))
  | createDraft request seed now =>
      obtain ⟨out, hout, rfl⟩ := hsnd h
      obtain ⟨db₁, heffect, hmeta⟩ := createDraft_path env hout
      exact (Path.single env (.inr ⟨_, rfl⟩) heffect).tail ⟨_, .inl rfl, .metadata hmeta⟩
  | discardDraft id draftId =>
      obtain ⟨out, hout, rfl⟩ := hsnd h
      exact Path.single env (by exact rfl) (discardDraft_effect env hout)
  | acceptSignedPsbt id draftId payload =>
      obtain ⟨out, hout, rfl⟩ := hsnd h
      exact Path.single env (by exact rfl) (acceptSignedPsbt_effect env hout)
  | finalizeDraft id draftId =>
      obtain ⟨out, hout, rfl⟩ := hsnd h
      rcases finalizeDraft_effect env hout with hsame | heffect
      · rw [hsame]
      · exact Path.single env (by exact rfl) heffect
  | commitSync id snapshot scan now =>
      obtain ⟨out, hout, rfl⟩ := hsnd h
      obtain ⟨wallet, hwallet, hpath⟩ := commitSync_path env hok hout
      exact hpath.mono env (fun a ha => ⟨wallet, hwallet, ha⟩)
  | resumeRecovered id draftId txid attempt ack =>
      obtain ⟨out, hout, rfl⟩ := hsnd h
      exact Path.single env (by exact rfl) (resume_effect env hout)
  | restore now =>
      obtain ⟨out, hout, rfl⟩ := hsnd h
      exact Path.single env (by exact rfl) (exportRestore_effect env hout)
  | preflight request => cases h
  | recheck requestId body now => cases h
  | post requestId => cases h
  | acknowledge requestId response => cases h
  | crash requestId => cases h

/-- The database after a transaction: what it commits, or what there was. -/
def committed (db : Db State) : Result (Db State) → Db State
  | .ok db' => db'
  | .error _ => db

theorem step_transact {world : World State} {op : Op Scan}
    {res : Result (Db State)} (h : transact env world.db op = some res) :
    (step env world op).db = committed world.db res := by
  cases op
  case restore now =>
    simp only [transact, Option.some.injEq] at h
    subst h
    unfold step
    dsimp only
    cases exportRestore env world.db now <;> rfl
  case preflight => cases h
  case recheck => cases h
  case post => cases h
  case acknowledge => cases h
  case crash => cases h
  all_goals
    unfold step
    dsimp only
    rw [h]
    cases res <;> rfl

/-- **Every operation is a path of the effects it is allowed.** -/
theorem step_path {world : World State} (hok : DraftsOk env world.db) (op : Op Scan) :
    Path env (Allowed env world op) world.db (step env world op).db := by
  cases htransact : transact env world.db op with
  | some res =>
      rw [step_transact env htransact]
      cases res with
      | ok db' => exact transact_path env hok htransact
      | error e => exact .refl
  | none =>
      cases op with
      | preflight request =>
          change Path env _ world.db (world.preflight env request).db
          unfold World.preflight
          split <;> exact .refl
      | post requestId =>
          change Path env _ world.db (world.post requestId).db
          unfold World.post
          split <;> exact .refl
      | crash requestId => exact .refl
      | recheck requestId body now =>
          change Path env _ world.db (world.recheck env requestId body now).db
          unfold World.recheck
          split
          · rename_i r p hreq
            split
            · rename_i id db' hrun
              simp only [bind_eq_ok, exists_unit] at hrun
              exact Path.single env ⟨r, p, hreq, rfl⟩ (insertAttempt_effect env hrun.2)
            · exact .refl
          · exact .refl
      | acknowledge requestId response =>
          change Path env _ world.db (world.acknowledge requestId response).db
          unfold World.acknowledge
          split
          · rename_i r p attemptId hreq
            simp only [World.endRequest]
            split_ifs
            · rcases acknowledge_effect env r attemptId with hsame | heffect
              · rw [hsame]
              · exact Path.single env ⟨attemptId, rfl⟩ heffect
            · exact .refl
          · exact .refl
      | importWallet => cases htransact
      | receiveAddress => cases htransact
      | setLabel => cases htransact
      | setFrozen => cases htransact
      | editCoins => cases htransact
      | importLabels => cases htransact
      | registerPolicy => cases htransact
      | createDraft => cases htransact
      | discardDraft => cases htransact
      | acceptSignedPsbt => cases htransact
      | finalizeDraft => cases htransact
      | commitSync => cases htransact
      | resumeRecovered => cases htransact
      | restore => cases htransact

/-- A refused transaction leaves the database as it is. -/
theorem step_refused {world : World State} {op : Op Scan} {e : Error}
    (h : transact env world.db op = some (.error e)) : (step env world op).db = world.db :=
  step_transact env h

/-- An act of an operation that neither discards nor resumes the draft. -/
theorem allowed_ne {world : World State} {op : Op Scan} {w d : String} {a : Act Wallet}
    (ha : Allowed env world op a) :
    (a = .discard w d → op = .discardDraft w d) ∧
      (a = .resume w d → ∃ txid attempt ack, op = .resumeRecovered w d txid attempt ack) := by
  cases op with
  | discardDraft w' d' =>
      obtain rfl : a = .discard w' d' := ha
      simp
  | resumeRecovered w' d' txid attempt ack =>
      obtain rfl : a = .resume w' d' := ha
      simp
  | createDraft request seed now =>
      obtain rfl | ⟨d', rfl⟩ : a = .metadata ∨ ∃ d, a = .create request.walletId d := ha
      · simp
      · simp
  | commitSync w' snapshot scan now =>
      obtain ⟨wallet, _, rfl | ⟨d', rfl⟩ | ⟨d', rfl⟩⟩ :
        ∃ wallet, syncWallet env world.db w' scan = some wallet ∧ SyncAct wallet w' a := ha
      · simp
      · simp
      · simp
  | recheck requestId body now =>
      obtain ⟨r, p, _, rfl⟩ : ∃ r p,
        world.requests[requestId]? = some { request := r, phase := .preflighted p } ∧
        a = .attempt r.walletId r.draftId := ha
      simp
  | acknowledge requestId response =>
      obtain ⟨id, rfl⟩ : ∃ id, a = .acknowledge id := ha
      simp
  | acceptSignedPsbt w' d' payload =>
      obtain rfl : a = .accept w' d' := ha
      simp
  | finalizeDraft w' d' =>
      obtain rfl : a = .finalize w' d' := ha
      simp
  | restore now =>
      obtain rfl : a = .suspend := ha
      simp
  | _ =>
      obtain rfl : a = .metadata := ha
      simp

/-- The operation discards the draft. -/
def Discards (world : World State) (op : Op Scan) (w d : String) : Prop :=
  op = .discardDraft w d ∧ ∃ out, discardDraft world.db w d = .ok out

/-- An operation that does not discard the draft has no such effect. -/
theorem step_path_of_not_discards {world : World State} (hok : DraftsOk env world.db)
    {op : Op Scan} {w d : String} (hdiscard : ¬ Discards world op w d) :
    Path env (fun a => Allowed env world op a ∧ a ≠ .discard w d) world.db
      (step env world op).db := by
  by_cases hrefused : ∃ e, transact env world.db op = some (.error e)
  · obtain ⟨e, he⟩ := hrefused
    rw [step_refused env he]
  · refine (step_path env hok op).mono env fun a ha => ⟨ha, fun hact => ?_⟩
    obtain rfl := (allowed_ne env ha).1 hact
    refine hdiscard ⟨rfl, ?_⟩
    cases hrun : discardDraft world.db w d with
    | ok out => exact ⟨out, rfl⟩
    | error e => exact absurd ⟨e, by rw [transact, hrun]; rfl⟩ hrefused

/-- Every operation keeps the invariant of the draft tables. -/
theorem storeOk_step {world : World State} (h : StoreOk env world.db) (op : Op Scan) :
    StoreOk env (step env world op).db :=
  (step_path env h.drafts op).invariant env (fun _ _ _ _ hI he => hI.effect he) h

/-- The invariant holds after every run from a store that satisfies it. -/
theorem storeOk_runFrom {world : World State} (h : StoreOk env world.db) (ops : List (Op Scan)) :
    StoreOk env (runFrom env world ops).db :=
  Transition.run_invariant (I := fun world => StoreOk env world.db) (step env)
    (fun _ op hw => storeOk_step env hw op) h ops

/-- The invariant holds after every run from the empty store. -/
theorem storeOk_run (ops : List (Op Scan)) : StoreOk env (run env ops).db :=
  storeOk_runFrom env (StoreOk.empty env) ops

end Paths
end Tundra
