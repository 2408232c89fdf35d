/-
  Tundra.Provenance

  The labels and the provenance a sync writes for an observed draft.  A draft
  is marked when they are written, so this happens once; a written label or
  provenance row was absent before.  A run may restore the store it has built:
  the marker is part of a backup.
-/

import Tundra.Finality
import Tundra.Separation

namespace Tundra
namespace Provenance

open Checked Relational Engine Signing Broadcast Recovery Drafts Effects Tundra.System
  Paths Snapshots Separation

variable {State Wallet Scan : Type} (env : Env State Wallet Scan)

/-! ## What a sync sees -/

/-- A submission the wallet sees: the draft's review, its latest attempt and
    the final transaction. -/
structure Sighting where
  review : DraftReview
  info : BroadcastInfo
  tx : Transaction

/-- The exact transaction of the draft's latest attempt is in the wallet's
    chain or was last seen in the mempool. -/
structure Seen (db : Db State) (w : String) (wallet : Wallet) (d : String) (s : Sighting) :
    Prop where
  review : ∃ row, db.selectDraft w d = some row ∧ row.reviewJson.parsed = some s.review
  id : s.review.id = d
  latest : latest db w d = some s.info
  final : ∃ bytes, db.finalizedDrafts[(w, d)]? = some bytes ∧ env.deserializeTx bytes = some s.tx
  txid : env.displayTxid (env.computeTxid s.tx) = s.info.txid
  wtxid : env.displayTxid (env.computeWtxid s.tx) = s.info.wtxid
  observed : observeTx env wallet s.tx ≠ .notSeen

/-- The reference of an output of the seen transaction that pays to the wallet. -/
def OwnOutput (wallet : Wallet) (s : Sighting) (reference : String) : Prop :=
  ∃ (txid : Txid) (found : WalletTx) (vout : Nat) (output : TxOut), env.parseTxid s.info.txid = some txid ∧
    env.getTx wallet txid = some found ∧ found.tx.output[vout]? = some output ∧
    env.isMine wallet output.scriptPubkey = true ∧
    reference = s.info.txid ++ ":" ++ toString vout

/-- The references a sighting labels. -/
def Labelled (wallet : Wallet) (s : Sighting) (kind : LabelKind) (reference : String) : Prop :=
  (kind = .tx ∧ reference = s.info.txid) ∨ (kind = .output ∧ OwnOutput env wallet s reference)

/-- The draft is marked between two databases. -/
def Marks (db db' : Db State) (w d : String) : Prop :=
  db.draftLabelApplications[(w, d)]? = none ∧ db'.draftLabelApplications[(w, d)]? = some ()

/-- What the sweep of one sync writes: a new row is of a draft the sweep marks,
    which the wallet sees, and no row is changed or deleted. -/
structure Sweep (base : Db State) (w : String) (wallet : Wallet) (db db' : Db State) : Prop where
  marked : ∀ k : String × String, db.draftLabelApplications[k]? = some () →
    db'.draftLabelApplications[k]? = some ()
  marks : ∀ w' d, Marks db db' w' d → w' = w ∧ ∃ s, Seen env base w wallet d s
  labels : ∀ (k : String × LabelKind × String) (label : String), db.labels[k]? = some label →
    db'.labels[k]? = some label
  labelled : ∀ (w' : String) (kind : LabelKind) (reference label : String),
    db.labels[(w', kind, reference)]? = none → db'.labels[(w', kind, reference)]? = some label →
    w' = w ∧ ∃ d s, Seen env base w wallet d s ∧ Marks db db' w d ∧ label = s.review.label ∧
      Labelled env wallet s kind reference
  provenance : ∀ (k : String × String) (d : String), db.outputProvenance[k]? = some d →
    db'.outputProvenance[k]? = some d
  provided : ∀ w' reference d : String, db.outputProvenance[(w', reference)]? = none →
    db'.outputProvenance[(w', reference)]? = some d →
    w' = w ∧ ∃ s, Seen env base w wallet d s ∧ Marks db db' w d ∧ OwnOutput env wallet s reference

/-- Labels, markers and provenance are as they were. -/
structure SameLabels (db db' : Db State) : Prop where
  labels : db'.labels = db.labels
  applications : db'.draftLabelApplications = db.draftLabelApplications
  provenance : db'.outputProvenance = db.outputProvenance

@[refl] theorem SameLabels.refl (db : Db State) : SameLabels db db := ⟨rfl, rfl, rfl⟩

theorem SameLabels.trans {db₁ db₂ db₃ : Db State} (h : SameLabels db₁ db₂)
    (h' : SameLabels db₂ db₃) : SameLabels db₁ db₃ :=
  ⟨h'.labels.trans h.labels, h'.applications.trans h.applications,
    h'.provenance.trans h.provenance⟩

section Sweeps

variable {env} {base db : Db State} {w : String} {wallet : Wallet}

theorem Sweep.of_same {db' : Db State} (h : SameLabels db db') : Sweep env base w wallet db db' where
  marked k hk := by rw [h.applications]; exact hk
  marks w' d hmarks := by
    have hnone := hmarks.1
    have hsome := hmarks.2
    rw [h.applications, hnone] at hsome
    cases hsome
  labels k label hk := by rw [h.labels]; exact hk
  labelled w' kind reference label hnone hsome := by
    rw [h.labels, hnone] at hsome
    cases hsome
  provenance k d hk := by rw [h.provenance]; exact hk
  provided w' reference d hnone hsome := by
    rw [h.provenance, hnone] at hsome
    cases hsome

theorem Sweep.refl (db : Db State) : Sweep env base w wallet db db := .of_same (.refl db)

/-- A marker is set once, so the marks of either half are marks of the whole. -/
theorem Sweep.trans {db₁ db₂ db₃ : Db State} (h : Sweep env base w wallet db₁ db₂)
    (h' : Sweep env base w wallet db₂ db₃) : Sweep env base w wallet db₁ db₃ := by
  have hfirst : ∀ {w' d : String}, Marks db₁ db₂ w' d → Marks db₁ db₃ w' d :=
    fun hm => ⟨hm.1, h'.marked _ hm.2⟩
  have hsecond : ∀ {w' d : String}, Marks db₂ db₃ w' d → Marks db₁ db₃ w' d := by
    intro w' d hm
    refine ⟨?_, hm.2⟩
    cases hnone : db₁.draftLabelApplications[(w', d)]? with
    | none => rfl
    | some u =>
        have hsome := h.marked (w', d) hnone
        rw [hm.1] at hsome
        cases hsome
  constructor
  · exact fun k hk => h'.marked k (h.marked k hk)
  · intro w' d hm
    cases hmid : db₂.draftLabelApplications[(w', d)]? with
    | none => exact h'.marks w' d ⟨hmid, hm.2⟩
    | some u => exact h.marks w' d ⟨hm.1, hmid⟩
  · exact fun k label hk => h'.labels k label (h.labels k label hk)
  · intro w' kind reference label hnone hsome
    cases hmid : db₂.labels[(w', kind, reference)]? with
    | none =>
        obtain ⟨hw, d, s, hseen, hm, hlabel⟩ := h'.labelled w' kind reference label hmid hsome
        exact ⟨hw, d, s, hseen, hsecond hm, hlabel⟩
    | some label' =>
        obtain ⟨hw, d, s, hseen, hm, hlabel, hkey⟩ := h.labelled w' kind reference label' hnone hmid
        have hkept := h'.labels _ label' hmid
        rw [hsome, Option.some.injEq] at hkept
        exact ⟨hw, d, s, hseen, hfirst hm, hkept.trans hlabel, hkey⟩
  · exact fun k d hk => h'.provenance k d (h.provenance k d hk)
  · intro w' reference d hnone hsome
    cases hmid : db₂.outputProvenance[(w', reference)]? with
    | none =>
        obtain ⟨hw, s, hseen, hm, hown⟩ := h'.provided w' reference d hmid hsome
        exact ⟨hw, s, hseen, hsecond hm, hown⟩
    | some d' =>
        obtain ⟨hw, s, hseen, hm, hown⟩ := h.provided w' reference d' hnone hmid
        have hkept := h'.provenance _ d' hmid
        rw [hsome, Option.some.injEq] at hkept
        subst hkept
        exact ⟨hw, s, hseen, hfirst hm, hown⟩

end Sweeps

/-! ## One observation -/

/-- The rows of one draft: each new label is the draft's own, on its transaction
    or on an output of the wallet. -/
structure Rows (w d : String) (s : Sighting) (wallet : Wallet) (db db' : Db State) : Prop where
  applications : db'.draftLabelApplications = db.draftLabelApplications
  labels : ∀ (k : String × LabelKind × String) (label : String), db.labels[k]? = some label →
    db'.labels[k]? = some label
  labelled : ∀ (w' : String) (kind : LabelKind) (reference label : String),
    db.labels[(w', kind, reference)]? = none → db'.labels[(w', kind, reference)]? = some label →
    w' = w ∧ label = s.review.label ∧ Labelled env wallet s kind reference
  provenance : ∀ (k : String × String) (d : String), db.outputProvenance[k]? = some d →
    db'.outputProvenance[k]? = some d
  provided : ∀ w' reference d' : String, db.outputProvenance[(w', reference)]? = none →
    db'.outputProvenance[(w', reference)]? = some d' →
    w' = w ∧ d' = d ∧ OwnOutput env wallet s reference

section Observation

variable {env} {db : Db State} {w d : String} {s : Sighting} {wallet : Wallet}

theorem Rows.of_same {db' : Db State} (h : SameLabels db db') : Rows env w d s wallet db db' where
  applications := h.applications
  labels k label hk := by rw [h.labels]; exact hk
  labelled w' kind reference label hnone hsome := by
    rw [h.labels, hnone] at hsome
    cases hsome
  provenance k d hk := by rw [h.provenance]; exact hk
  provided w' reference d' hnone hsome := by
    rw [h.provenance, hnone] at hsome
    cases hsome

theorem Rows.trans {db₁ db₂ db₃ : Db State} (h : Rows env w d s wallet db₁ db₂)
    (h' : Rows env w d s wallet db₂ db₃) : Rows env w d s wallet db₁ db₃ where
  applications := h'.applications.trans h.applications
  labels k label hk := h'.labels k label (h.labels k label hk)
  labelled w' kind reference label hnone hsome := by
    cases hmid : db₂.labels[(w', kind, reference)]? with
    | none => exact h'.labelled w' kind reference label hmid hsome
    | some label' =>
        have hkept := h'.labels _ label' hmid
        rw [hsome, Option.some.injEq] at hkept
        exact hkept ▸ h.labelled w' kind reference label' hnone hmid
  provenance k d hk := h'.provenance k d (h.provenance k d hk)
  provided w' reference d' hnone hsome := by
    cases hmid : db₂.outputProvenance[(w', reference)]? with
    | none => exact h'.provided w' reference d' hmid hsome
    | some d'' =>
        have hkept := h'.provenance _ d'' hmid
        rw [hsome, Option.some.injEq] at hkept
        exact hkept ▸ h.provided w' reference d'' hnone hmid

theorem rows_insertLabelIfNew {kind : LabelKind} {reference : String}
    (h : Labelled env wallet s kind reference) :
    Rows env w d s wallet db (db.insertLabelIfNew w kind reference s.review.label) := by
  refine ⟨rfl, (insertLabelIfNew_keeps w kind reference s.review.label).labels, ?_,
    fun _ _ hk => hk, ?_⟩
  · intro w' kind' reference' label hnone hsome
    rw [Db.insertLabelIfNew, Table.get_insertIfNew] at hsome
    split_ifs at hsome with hk
    · simp only [Prod.mk.injEq] at hk
      obtain ⟨⟨rfl, rfl, rfl⟩, -⟩ := hk
      rw [Option.some.injEq] at hsome
      exact ⟨rfl, hsome.symm, h⟩
    · rw [hnone] at hsome
      cases hsome
  · intro w' reference' d' hnone hsome
    change db.outputProvenance[(w', reference')]? = none at hnone
    change db.outputProvenance[(w', reference')]? = some d' at hsome
    rw [hnone] at hsome
    cases hsome

theorem rows_provenance {reference : String} (h : OwnOutput env wallet s reference) :
    Rows env w d s wallet db
      { db with outputProvenance := db.outputProvenance.insertIfNew (w, reference) d } := by
  refine ⟨rfl, fun _ _ hk => hk, ?_, ?_, ?_⟩
  · intro w' kind reference' label hnone hsome
    change db.labels[(w', kind, reference')]? = none at hnone
    change db.labels[(w', kind, reference')]? = some label at hsome
    rw [hnone] at hsome
    cases hsome
  · intro k d' hk
    show (db.outputProvenance.insertIfNew (w, reference) d)[k]? = some d'
    rw [Table.get_insertIfNew]
    split_ifs with hnew
    · -- a row that is there is not overwritten
      obtain ⟨rfl, hnone⟩ := hnew
      rw [hk] at hnone
      cases hnone
    · exact hk
  · intro w' reference' d' hnone hsome
    change (db.outputProvenance.insertIfNew (w, reference) d)[(w', reference')]? = some d' at hsome
    rw [Table.get_insertIfNew] at hsome
    split_ifs at hsome with hk
    · simp only [Prod.mk.injEq] at hk
      obtain ⟨⟨rfl, rfl⟩, -⟩ := hk
      rw [Option.some.injEq] at hsome
      exact ⟨rfl, hsome.symm, h⟩
    · rw [hnone] at hsome
      cases hsome

theorem rows_applyOutputLabel {vout : Nat}
    (h : OwnOutput env wallet s (s.info.txid ++ ":" ++ toString vout)) :
    Rows env w d s wallet db (applyOutputLabel w d s.review.label s.info.txid vout db) := by
  unfold applyOutputLabel
  dsimp only
  split_ifs
  · exact rows_provenance h
  · exact (rows_provenance h).trans (rows_insertLabelIfNew (.inr ⟨rfl, h⟩))

/-- The loop over the outputs; `vout` numbers the first of those left. -/
theorem rows_applyOutputLabels {txid : Txid} {found : WalletTx}
    (hparse : env.parseTxid s.info.txid = some txid) (hfound : env.getTx wallet txid = some found)
    {vout : Nat} {outputs : List TxOut} (hrest : found.tx.output.drop vout = outputs) :
    Rows env w d s wallet db
      (applyOutputLabels env w d s.review.label s.info.txid wallet vout outputs db) := by
  induction outputs generalizing vout db with
  | nil => exact .of_same (.refl db)
  | cons output outputs ih =>
      have hget : found.tx.output[vout]? = some output := by
        rw [← List.head?_drop, hrest, List.head?_cons]
      have htail : found.tx.output.drop (vout + 1) = outputs := by
        rw [← List.tail_drop, hrest, List.tail_cons]
      unfold applyOutputLabels
      refine Rows.trans ?_ (ih htail)
      split_ifs with hmine
      · exact rows_applyOutputLabel ⟨txid, found, vout, output, hparse, hfound, hget, hmine, rfl⟩
      · exact .of_same (.refl db)

/-- The labels and provenance of a seen draft: nothing when it is marked, else
    its rows and the marker. -/
theorem sweep_applyObservedLabels {base db' : Db State} (hseen : Seen env base w wallet d s)
    (h : applyObservedLabels env db w s.review wallet s.info = .ok db') :
    Sweep env base w wallet db db' := by
  have hid := hseen.id
  unfold applyObservedLabels at h
  by_cases happlied : (db.draftLabelApplications[(w, s.review.id)]?).isSome = true
  · rw [if_pos happlied, Except.ok.injEq] at h
    exact h ▸ .refl db
  · rw [if_neg happlied] at h
    simp only [bind_eq_ok, exists_unit, okOr_eq_ok, Except.ok.injEq] at h
    obtain ⟨_, _, txid, hparse, found, hfound, rfl⟩ := h
    rw [hid] at happlied ⊢
    have hunmarked : db.draftLabelApplications[(w, d)]? = none := by
      cases hmark : db.draftLabelApplications[(w, d)]? with
      | none => rfl
      | some u => exact absurd (by rw [hmark]; rfl) happlied
    -- the rows are written over the database that has the marker
    let marked : Db State := { db with
      draftLabelApplications := db.draftLabelApplications.insert (w, d) () }
    have hrows : Rows env w d s wallet marked
        (applyOutputLabels env w d s.review.label s.info.txid wallet 0 found.tx.output
          (if s.review.label = "" then marked
           else marked.insertLabelIfNew w .tx s.info.txid s.review.label)) := by
      refine Rows.trans ?_ (rows_applyOutputLabels hparse hfound List.drop_zero)
      split_ifs
      · exact .of_same (.refl marked)
      · exact rows_insertLabelIfNew (.inl ⟨rfl, rfl⟩)
    have hmarks : Marks db (applyOutputLabels env w d s.review.label s.info.txid wallet 0
        found.tx.output (if s.review.label = "" then marked
          else marked.insertLabelIfNew w .tx s.info.txid s.review.label)) w d := by
      refine ⟨hunmarked, ?_⟩
      rw [hrows.applications]
      exact Table.get_insert_self ..
    constructor
    · intro k hk
      rw [hrows.applications]
      show (db.draftLabelApplications.insert (w, d) ())[k]? = some ()
      rw [Table.get_insert]
      split_ifs
      · rfl
      · exact hk
    · intro w' d' hm
      have hsome := hm.2
      rw [hrows.applications] at hsome
      change (db.draftLabelApplications.insert (w, d) ())[(w', d')]? = some () at hsome
      rw [Table.get_insert] at hsome
      split_ifs at hsome with hk
      · simp only [Prod.mk.injEq] at hk
        obtain ⟨rfl, rfl⟩ := hk
        exact ⟨rfl, s, hseen⟩
      · rw [hm.1] at hsome
        cases hsome
    · exact fun k label hk => hrows.labels k label hk
    · intro w' kind reference label hnone hsome
      obtain ⟨hw, hlabel, hkey⟩ := hrows.labelled w' kind reference label hnone hsome
      exact ⟨hw, d, s, hseen, hmarks, hlabel, hkey⟩
    · exact fun k d' hk => hrows.provenance k d' hk
    · intro w' reference d' hnone hsome
      obtain ⟨hw, hd, hown⟩ := hrows.provided w' reference d' hnone hsome
      subst hd
      exact ⟨hw, s, hseen, hmarks, hown⟩

end Observation

/-! ## The sweep of a sync -/

section Sync

variable {env} {base db db' : Db State} {w d : String} {wallet : Wallet}

/-- What a sweep reads of a draft it has not come to is as the sync found it. -/
structure Untouched (base db : Db State) (w d : String) : Prop where
  row : db.selectDraft w d = base.selectDraft w d
  attempts : db.broadcastAttempts = base.broadcastAttempts
  finalized : db.finalizedDrafts = base.finalizedDrafts

theorem updateReview_same (w d : String) (review : ReviewJson) :
    SameLabels db (db.updateReview w d review) := by
  unfold Db.updateReview
  split <;> exact ⟨rfl, rfl, rfl⟩

theorem updateReviewById_same (d : String) (review : ReviewJson) :
    SameLabels db (Sync.updateReviewById db d review) := by
  unfold Sync.updateReviewById
  split <;> exact ⟨rfl, rfl, rfl⟩

theorem deleteReservations_same (w d : String) : SameLabels db (db.deleteReservations w d) :=
  ⟨rfl, rfl, rfl⟩

theorem seen_of_observation {info : BroadcastInfo} {review : DraftReview} {row : DraftRow}
    {seen : BroadcastObservation} (hbase : Untouched base db w review.id)
    (hrow : db.selectDraft w review.id = some row) (hreview : row.reviewJson.parsed = some review)
    (hlatest : latest db w review.id = some info) (h : observation env db info wallet = .ok seen)
    (hseen : seen ≠ .notSeen) :
    ∃ tx, Seen env base w wallet review.id { review, info, tx } := by
  obtain ⟨hw, hd, _⟩ := latest_eq_some hlatest
  simp only [observation, bind_eq_ok, require_eq_ok, exists_unit, okOr_eq_ok, Except.ok.injEq,
    hw, hd] at h
  obtain ⟨bytes, hbytes, _, tx, htx, ⟨htxid, hwtxid⟩, rfl⟩ := h
  refine ⟨tx, ⟨row, ?_, hreview⟩, rfl, ?_, ⟨bytes, ?_, htx⟩, htxid, hwtxid, hseen⟩
  · rw [← hbase.row]
    exact hrow
  · have hattempts : latest base w review.id = latest db w review.id := by
      simp only [latest, attempts, hbase.attempts]
    rw [hattempts]
    exact hlatest
  · rw [← hbase.finalized]
    exact hbytes

theorem sweep_observeDraft {review : DraftReview} {row : DraftRow}
    (hbase : Untouched base db w review.id) (hrow : db.selectDraft w review.id = some row)
    (hreview : row.reviewJson.parsed = some review)
    (h : observeDraft env db w review wallet = .ok (some db')) :
    Sweep env base w wallet db db' := by
  unfold observeDraft at h
  cases hlatest : latest db w review.id with
  | none =>
      rw [hlatest] at h
      cases h
  | some info =>
      rw [hlatest] at h
      simp only [bind_eq_ok] at h
      obtain ⟨seen, hseen, h⟩ := h
      split_ifs at h with hnot
      · cases h
      · simp only [bind_eq_ok, Except.ok.injEq, Option.some.injEq] at h
        obtain ⟨db₁, hlabels, rfl⟩ := h
        obtain ⟨tx, hsighting⟩ := seen_of_observation hbase hrow hreview hlatest hseen hnot
        refine Sweep.trans (sweep_applyObservedLabels hsighting hlabels) (.of_same ?_)
        have hrecovered : SameLabels db₁ (db₁.deleteRecovered w review.id) := ⟨rfl, rfl, rfl⟩
        exact (hrecovered.trans (updateReview_same ..)).trans (deleteReservations_same ..)

theorem sweep_sweepDraft {row : DraftRow} {review : DraftReview}
    (hbase : Untouched base db w d) (hrow : db.selectDraft w d = some row)
    (hreview : row.reviewJson.parsed = some review) (hid : review.id = d)
    (h : Sync.sweepDraft env w wallet db (d, row.reviewJson) = .ok db') :
    Sweep env base w wallet db db' := by
  subst hid
  simp only [Sync.sweepDraft, parseReview, hreview, okOr_some, bind_eq_ok, Except.ok.injEq,
    exists_eq_left'] at h
  obtain ⟨observed, hobserve, h⟩ := h
  cases observed with
  | some db₁ =>
      cases h
      exact sweep_observeDraft hbase hrow hreview hobserve
  | none =>
      dsimp only at h
      split_ifs at h
      · cases h
        exact .of_same ((updateReviewById_same review.id _).trans (deleteReservations_same ..))
      · cases h
        exact .refl db

/-- The sweep over the texts read at its start. -/
theorem sweep_invalidateDrafts (hok : DraftsOk env db)
    (h : Sync.invalidateDrafts env db w wallet = .ok db') : Sweep env db w wallet db db' := by
  have hkeys : ((Sync.walletDrafts db w).map Prod.fst).Nodup := by
    have := Table.selectRows_nodup_keys db.drafts (fun _ row => decide (row.walletId = w))
    simpa only [Sync.walletDrafts, List.map_map, Function.comp_def] using this
  refine (foldlM_ok_scanned (fun done c => Sweep env db w wallet db c ∧
    (∀ e : String, e ∉ done.map Prod.fst → c.drafts[e]? = db.drafts[e]?) ∧
    c.broadcastAttempts = db.broadcastAttempts ∧ c.finalizedDrafts = db.finalizedDrafts) ?_
    ⟨.refl db, fun _ _ => rfl, rfl, rfl⟩ h).1
  rintro done ⟨d, text⟩ rest c c' hl ⟨hsweep, hframe, hattempts, hfinal⟩ hstep
  have hmem : (d, text) ∈ Sync.walletDrafts db w := hl ▸ by simp
  obtain ⟨⟨d', row⟩, hsel, heq⟩ := List.mem_map.mp hmem
  obtain ⟨rfl, rfl⟩ := Prod.mk.injEq .. ▸ heq
  obtain ⟨hget, hw⟩ := Table.mem_selectRows.mp hsel
  simp only [decide_eq_true_eq] at hget hw hstep
  have hnew : d' ∉ done.map Prod.fst := by
    rw [hl, List.map_append, List.nodup_append] at hkeys
    intro hin
    exact hkeys.2.2 d' hin d' (by simp) rfl
  obtain ⟨p, review, happ⟩ := hok d' row hget
  have hrow : c.selectDraft w d' = some row :=
    selectDraft_eq_some.mpr ⟨by rw [hframe d' hnew, hget], hw⟩
  have hbase : Untouched db c w d' := by
    refine ⟨?_, hattempts, hfinal⟩
    rw [hrow]
    exact (selectDraft_eq_some.mpr ⟨hget, hw⟩).symm
  obtain ⟨hpath, hframe'⟩ := sweepDraft_path env hrow happ.review happ.id hstep
  have hsame : c'.broadcastAttempts = c.broadcastAttempts ∧ c'.finalizedDrafts = c.finalizedDrafts := by
    refine hpath.invariant env (I := fun db => db.broadcastAttempts = c.broadcastAttempts ∧
      db.finalizedDrafts = c.finalizedDrafts) ?_ ⟨rfl, rfl⟩
    rintro a db₁ db₂ hact ⟨hattempts₁, hfinal₁⟩ heffect
    obtain rfl | ⟨e, rfl⟩ | ⟨e, rfl⟩ := hact
    · cases heffect with
      | metadata changed =>
          exact ⟨changed.same.broadcastAttempts.trans hattempts₁,
            changed.same.finalizedDrafts.trans hfinal₁⟩
    · cases heffect with
      | invalidate found =>
          rw [updateReview_of_some found]
          exact ⟨hattempts₁, hfinal₁⟩
    · cases heffect with
      | observe found =>
          rw [updateReview_of_some (by exact found)]
          exact ⟨hattempts₁, hfinal₁⟩
  refine ⟨hsweep.trans (sweep_sweepDraft hbase hrow happ.review happ.id hstep), ?_,
    hsame.1.trans hattempts, hsame.2.trans hfinal⟩
  intro e he
  simp only [List.map_append, List.map_cons, List.map_nil, List.mem_append, List.mem_singleton,
    not_or] at he
  rw [hframe' e he.2, hframe e he.1]

theorem save_same (db : Db State) (id : String) (l : Loaded State Wallet) :
    SameLabels db (save env db id l) := by
  unfold save Db.updateState
  split <;> exact ⟨rfl, rfl, rfl⟩

theorem updateSyncedAt_same (db : Db State) (w : String) (t : Nat) :
    SameLabels db (db.updateSyncedAt w t) := by
  unfold Db.updateSyncedAt
  split <;> exact ⟨rfl, rfl, rfl⟩

/-- A committed sync sweeps the drafts with the wallet it has brought up to date. -/
theorem sweep_commitSync (hok : DraftsOk env db) {snapshot : Sync.Snapshot} {scan : Scan}
    {now : Nat} {out : Unit × Db State}
    (h : Sync.commitSync env db w snapshot scan now = .ok out) :
    ∃ wallet, syncWallet env db w scan = some wallet ∧ Sweep env db w wallet db out.2 := by
  simp only [Sync.commitSync, bind_eq_ok, require_eq_ok, exists_unit, okOr_eq_ok,
    Except.ok.injEq] at h
  obtain ⟨loaded, hload, _, wallet₀, hwallet₀, wallet, hwallet, db₁, hsweep, rfl⟩ := h
  refine ⟨wallet, ?_, (sweep_invalidateDrafts hok hsweep).trans (.of_same ?_)⟩
  · simp only [syncWallet, hload, hwallet₀, Option.bind_some, hwallet]
  · have hbump : ∀ (db : Db State) (w e : String), SameLabels db (Sync.bumpRevision db w e) :=
      fun _ _ _ => ⟨rfl, rfl, rfl⟩
    exact ((save_same db₁ w _).trans (updateSyncedAt_same _ w _)).trans (hbump ..)

end Sync

/-! ## Operations -/

/-- The user's edit of a label: the operation names it. -/
def NamesLabel : Op Scan → String → LabelKind → String → Prop
  | .setLabel id text reference _, w, kind, o =>
      id = w ∧ LabelKind.parse text = some kind ∧ reference = o
  | .editCoins id references label _, w, kind, o =>
      id = w ∧ kind = .output ∧ label ≠ none ∧ o ∈ references
  | .importLabels id payload apply, w, kind, o =>
      id = w ∧ apply = true ∧ ∃ records skipped,
        Labels.parseLabels env payload = .ok (records, skipped) ∧
        ∃ r ∈ records, r.kind = kind ∧ r.reference = o ∧ r.label ≠ none
  | _, _, _, _ => False

/-- A label is written for the key the edit names, and no row is deleted. -/
structure Edited (named : String → LabelKind → String → Prop) (db db' : Db State) : Prop where
  applications : db'.draftLabelApplications = db.draftLabelApplications
  provenance : db'.outputProvenance = db.outputProvenance
  labels : ∀ (w : String) (kind : LabelKind) (o : String), ¬ named w kind o →
    db'.labels[(w, kind, o)]? = db.labels[(w, kind, o)]?
  labelled : ∀ (k : String × LabelKind × String) (label : String),
    db.labels[k]? = some label → ∃ label', db'.labels[k]? = some label'

/-- What an operation does to labels, markers and provenance. -/
inductive LabelEffect (db db' : Db State) : Op Scan → Prop where
  | kept {op : Op Scan} (same : SameLabels db db') : LabelEffect db db' op
  | edited {op : Op Scan} (edited : Edited (NamesLabel env op) db db') : LabelEffect db db' op
  | discarded {w d : String} (unsubmitted : db.submitted w d = false)
      (deleted : db' = db.deleteDraft w d) : LabelEffect db db' (.discardDraft w d)
  | synced {w : String} {snapshot : Sync.Snapshot} {scan : Scan} {now : Nat} {wallet : Wallet}
      (updated : syncWallet env db w scan = some wallet) (sweep : Sweep env db w wallet db db') :
      LabelEffect db db' (.commitSync w snapshot scan now)

section Edits

variable {env} {db : Db State}

theorem Edited.refl (named : String → LabelKind → String → Prop) (db : Db State) :
    Edited named db db :=
  ⟨rfl, rfl, fun _ _ _ _ => rfl, fun _ label h => ⟨label, h⟩⟩

theorem Edited.trans {named : String → LabelKind → String → Prop} {db₁ db₂ db₃ : Db State}
    (h : Edited named db₁ db₂) (h' : Edited named db₂ db₃) : Edited named db₁ db₃ where
  applications := h'.applications.trans h.applications
  provenance := h'.provenance.trans h.provenance
  labels w kind o hnot := (h'.labels w kind o hnot).trans (h.labels w kind o hnot)
  labelled k label hk := by
    obtain ⟨label', hk'⟩ := h.labelled k label hk
    exact h'.labelled k label' hk'

theorem edited_putLabel {named : String → LabelKind → String → Prop} {w : String}
    {kind : LabelKind} {reference : String} (label : String) (h : named w kind reference) :
    Edited named db (db.putLabel w kind reference label) := by
  refine ⟨rfl, rfl, fun w' kind' o hnot => ?_, fun k label' hk => ?_⟩
  · rw [Db.putLabel]
    refine Table.get_insert_ne _ _ fun hkey => hnot ?_
    simp only [Prod.mk.injEq] at hkey
    obtain ⟨rfl, rfl, rfl⟩ := hkey
    exact h
  · rw [Db.putLabel, Table.get_insert]
    split_ifs
    · exact ⟨label, rfl⟩
    · exact ⟨label', hk⟩

theorem edited_setFreeze (named : String → LabelKind → String → Prop) (w reference : String)
    (frozen : Bool) : Edited named db (db.setFreeze w reference frozen) :=
  ⟨rfl, rfl, fun _ _ _ _ => rfl, fun _ label h => ⟨label, h⟩⟩

theorem edited_editCoin {named : String → LabelKind → String → Prop} {w reference : String}
    {label : Option String} {frozen : Option Bool}
    (h : label ≠ none → named w .output reference) :
    Edited named db (editCoin w label frozen db reference) := by
  cases label with
  | none =>
      cases frozen with
      | none => exact .refl named db
      | some frozen => exact edited_setFreeze named w reference frozen
  | some label =>
      have hlabel : Edited named db (db.putLabel w .output reference label) :=
        edited_putLabel label (h (by simp))
      cases frozen with
      | none => exact hlabel
      | some frozen => exact hlabel.trans (edited_setFreeze named w reference frozen)

theorem edited_foldl {named : String → LabelKind → String → Prop} {w : String}
    {label : Option String} {frozen : Option Bool} {references : List String}
    (h : ∀ reference ∈ references, label ≠ none → named w .output reference) :
    Edited named db (references.foldl (editCoin w label frozen) db) := by
  induction references generalizing db with
  | nil => exact .refl named db
  | cons reference references ih =>
      obtain ⟨hfirst, hrest⟩ := List.forall_mem_cons.mp h
      exact (edited_editCoin hfirst).trans (ih hrest)

theorem edited_applyRecord {named : String → LabelKind → String → Prop} (apply : Bool)
    (w : String) {r : Labels.LabelRecord} (h : r.label ≠ none → named w r.kind r.reference) :
    Edited named db (applyRecord apply db w r).2 := by
  -- without a `spendable` the record is its label
  have hlabel : Edited named db (applyRecord apply db w { r with spendable := none }).2 := by
    unfold applyRecord
    dsimp only
    cases hl : r.label with
    | none => exact .refl named db
    | some label =>
        cases apply with
        | false => exact .refl named db
        | true => exact edited_putLabel label (h (by simp [hl]))
  unfold applyRecord
  cases r.spendable with
  | none => exact hlabel
  | some s =>
      cases apply with
      | false => exact hlabel
      | true => exact hlabel.trans (edited_setFreeze named w r.reference (!s))

theorem edited_importRecords {named : String → LabelKind → String → Prop} {apply : Bool}
    {w origin : String} {wallet : Wallet} {records : List Labels.LabelRecord}
    {seen : List (LabelKind × String)} {preview : Labels.LabelPreview}
    {out : Labels.LabelPreview × Db State}
    (hnamed : ∀ r ∈ records, r.label ≠ none → named w r.kind r.reference)
    (h : importRecords env apply w wallet origin records seen preview db = .ok out) :
    Edited named db out.2 := by
  induction records generalizing seen preview db with
  | nil =>
      cases h
      exact .refl named db
  | cons r rest ih =>
      obtain ⟨hfirst, hrest⟩ := List.forall_mem_cons.mp hnamed
      unfold importRecords at h
      split_ifs at h
      · simp only [bind_eq_ok, exists_unit] at h
        exact (edited_applyRecord apply w hfirst).trans (ih hrest h.2)
      · exact ih hrest h

theorem edited_importLabels {w payload : String} {apply : Bool}
    {out : Labels.LabelPreview × Db State}
    (h : importLabels env db w payload apply = .ok out) :
    Edited (NamesLabel env (.importLabels w payload apply : Op Scan)) db out.2 := by
  simp only [importLabels, bind_eq_ok, Prod.exists, Except.ok.injEq] at h
  obtain ⟨records, skipped, hparse, l, _, origin, _, preview, db', hrecords, rfl⟩ := h
  cases apply with
  | false => exact .refl _ db
  | true =>
      exact edited_importRecords
        (fun r hr hlabel => ⟨rfl, rfl, records, skipped, hparse, r, hr, rfl, rfl, hlabel⟩) hrecords

end Edits

section Operations

variable {env} {db : Db State}

/-- An effect on drafts that is neither a metadata change nor a discard. -/
theorem effect_same {a : Act Wallet} {db' : Db State} (h : Effect env a db db')
    (hmetadata : a ≠ .metadata) (hdiscard : ∀ w d, a ≠ .discard w d) : SameLabels db db' := by
  cases h with
  | metadata => exact absurd rfl hmetadata
  | create => exact ⟨rfl, rfl, rfl⟩
  | discard => exact absurd rfl (hdiscard _ _)
  | accept =>
      refine SameLabels.trans ?_ (updateReview_same ..)
      exact ⟨rfl, rfl, rfl⟩
  | finalize =>
      refine SameLabels.trans ?_ (updateReview_same ..)
      exact ⟨rfl, rfl, rfl⟩
  | @observe _ wallet w d =>
      have hrecovered : SameLabels db (db.deleteRecovered w d) := ⟨rfl, rfl, rfl⟩
      exact (hrecovered.trans (updateReview_same ..)).trans (deleteReservations_same ..)
  | invalidate => exact (updateReview_same ..).trans (deleteReservations_same ..)
  | attempt => exact ⟨rfl, rfl, rfl⟩
  | acknowledge => exact ⟨rfl, rfl, rfl⟩
  | @resume _ w d row r =>
      rw [reserveInputs_eq]
      refine (updateReview_same w d (reviewText env (r.withState .finalized))).trans ?_
      exact ⟨rfl, rfl, rfl⟩
  | suspend _ suspended =>
      rw [suspended.frame]
      exact ⟨rfl, rfl, rfl⟩

theorem transact_labels (hok : DraftsOk env db) {op : Op Scan} {db' : Db State}
    (h : transact env db op = some (.ok db')) : LabelEffect env db db' op := by
  have hsnd : ∀ {α : Type} {res : Result (α × Db State)},
      some (res.map Prod.snd) = some (.ok db') → ∃ out, res = .ok out ∧ out.2 = db' := by
    intro α res hres
    cases res with
    | error e => cases hres
    | ok out => exact ⟨out, rfl, by simpa [Except.map] using hres⟩
  cases op with
  | importWallet name payload network now =>
      obtain ⟨out, hout, rfl⟩ := hsnd h
      simp only [importWallet, bind_eq_ok, require_eq_ok, exists_unit, okOr_eq_ok,
        Except.ok.injEq] at hout
      obtain ⟨_, p, _, _, _, wallet, _, state, _, rfl⟩ := hout
      exact .kept ⟨rfl, rfl, rfl⟩
  | receiveAddress id =>
      obtain ⟨out, hout, rfl⟩ := hsnd h
      simp only [receiveAddress, bind_eq_ok, Except.ok.injEq] at hout
      obtain ⟨l, _, rfl⟩ := hout
      exact .kept (save_same db id _)
  | setLabel id kind reference label =>
      obtain ⟨out, hout, rfl⟩ := hsnd h
      simp only [setLabel, bind_eq_ok, exists_unit, okOr_eq_ok, Except.ok.injEq] at hout
      obtain ⟨_, _, _, kind', hkind, _, rfl⟩ := hout
      exact .edited (edited_putLabel label ⟨rfl, hkind, rfl⟩)
  | setFrozen id reference frozen =>
      obtain ⟨out, hout, rfl⟩ := hsnd h
      simp only [setFrozen, bind_eq_ok, exists_unit, Except.ok.injEq] at hout
      obtain ⟨op, _, _, _, _, rfl⟩ := hout
      exact .kept ⟨rfl, rfl, rfl⟩
  | editCoins id references label frozen =>
      obtain ⟨out, hout, rfl⟩ := hsnd h
      rw [editCoins_eq_ok env hout]
      refine .edited (edited_foldl fun reference href hlabel => ?_)
      exact ⟨rfl, rfl, hlabel, href⟩
  | importLabels id payload apply =>
      obtain ⟨out, hout, rfl⟩ := hsnd h
      exact .edited (edited_importLabels hout)
  | registerPolicy id fingerprint policyId hmac =>
      obtain ⟨out, hout, rfl⟩ := hsnd h
      simp only [registerPolicy, bind_eq_ok, exists_unit, Except.ok.injEq] at hout
      obtain ⟨_, _, _, rfl⟩ := hout
      exact .kept ⟨rfl, rfl, rfl⟩
  | createDraft request seed now =>
      obtain ⟨out, hout, rfl⟩ := hsnd h
      obtain ⟨l, p, wallet, row, _, _, _, _, _, _, _, _, hsaved⟩ := createDraft_facts env hout
      rw [hsaved]
      refine .kept (SameLabels.trans ?_ (save_same _ request.walletId _))
      exact ⟨rfl, rfl, rfl⟩
  | discardDraft id draftId =>
      obtain ⟨out, hout, rfl⟩ := hsnd h
      have heffect := discardDraft_effect env hout
      generalize out.2 = db₁ at heffect
      cases heffect with
      | discard found unsubmitted => exact .discarded unsubmitted rfl
  | acceptSignedPsbt id draftId payload =>
      obtain ⟨out, hout, rfl⟩ := hsnd h
      exact .kept (effect_same (acceptSignedPsbt_effect env hout) (by simp) (by simp))
  | finalizeDraft id draftId =>
      obtain ⟨out, hout, rfl⟩ := hsnd h
      rcases finalizeDraft_effect env hout with hsame | heffect
      · rw [hsame]
        exact .kept (.refl db)
      · exact .kept (effect_same heffect (by simp) (by simp))
  | commitSync id snapshot scan now =>
      obtain ⟨out, hout, rfl⟩ := hsnd h
      obtain ⟨wallet, hwallet, hsweep⟩ := sweep_commitSync hok hout
      exact .synced hwallet hsweep
  | resumeRecovered id draftId txid attempt ack =>
      obtain ⟨out, hout, rfl⟩ := hsnd h
      exact .kept (effect_same (resume_effect env hout) (by simp) (by simp))
  | restore now =>
      obtain ⟨out, hout, rfl⟩ := hsnd h
      exact .kept (effect_same (exportRestore_effect env hout) (by simp) (by simp))
  | preflight request => cases h
  | recheck requestId body now => cases h
  | post requestId => cases h
  | acknowledge requestId response => cases h
  | crash requestId => cases h

/-- **Every step, as it concerns labels and provenance.** -/
theorem step_labels {world : World State} (hok : DraftsOk env world.db) (op : Op Scan) :
    LabelEffect env world.db (step env world op).db op := by
  cases htransact : transact env world.db op with
  | some res =>
      rw [step_transact env htransact]
      cases res with
      | ok db' => exact transact_labels hok htransact
      | error e => exact .kept (.refl _)
  | none =>
      obtain ⟨attempts, sequence, hframe⟩ := request_frame env world htransact
      rw [hframe]
      exact .kept ⟨rfl, rfl, rfl⟩

end Operations

/-! ## Runs -/

/-- Only a submitted draft is marked, and provenance is of marked drafts. -/
structure MarksOk (db : Db State) : Prop where
  submitted : ∀ w d : String, db.draftLabelApplications[(w, d)]? = some () →
    db.submitted w d = true
  marked : ∀ w o d : String, db.outputProvenance[(w, o)]? = some d →
    db.draftLabelApplications[(w, d)]? = some ()

section Runs

variable {env} {world : World State}

/-- A marked draft is submitted, and so is not discarded. -/
theorem step_marked (hok : StoreOk env world.db) (h : MarksOk world.db) (op : Op Scan)
    {w d : String} (hmark : world.db.draftLabelApplications[(w, d)]? = some ()) :
    (step env world op).db.draftLabelApplications[(w, d)]? = some () := by
  have heffect := step_labels hok.drafts op
  generalize (step env world op).db = db' at heffect
  cases heffect with
  | kept same => rw [same.applications, hmark]
  | edited edited => rw [edited.applications, hmark]
  | @discarded w' d' unsubmitted deleted =>
      rw [deleted]
      refine (Table.get_erase ..).trans ?_
      rw [if_neg]
      · exact hmark
      · intro hkey
        simp only [Prod.mk.injEq] at hkey
        obtain ⟨rfl, rfl⟩ := hkey
        rw [h.submitted w' d' hmark] at unsubmitted
        cases unsubmitted
  | synced updated sweep => exact sweep.marked _ hmark

theorem step_provenance (hok : StoreOk env world.db) (h : MarksOk world.db) (op : Op Scan)
    {w o d : String} (hrow : world.db.outputProvenance[(w, o)]? = some d) :
    (step env world op).db.outputProvenance[(w, o)]? = some d := by
  have heffect := step_labels hok.drafts op
  generalize (step env world op).db = db' at heffect
  cases heffect with
  | kept same => rw [same.provenance, hrow]
  | edited edited => rw [edited.provenance, hrow]
  | @discarded w' d' unsubmitted deleted =>
      rw [deleted]
      refine Table.get_deleteWhere_eq_some.mpr ⟨hrow, decide_eq_false ?_⟩
      rintro ⟨rfl, rfl⟩
      rw [h.submitted w d (h.marked w o d hrow)] at unsubmitted
      cases unsubmitted
  | synced updated sweep => exact sweep.provenance _ _ hrow

/-- A new marker is of a draft that the sync sees. -/
theorem step_marks (hok : StoreOk env world.db) {op : Op Scan} {w d : String}
    (hmarks : Marks world.db (step env world op).db w d) :
    ∃ snapshot scan now wallet s, op = .commitSync w snapshot scan now ∧
      syncWallet env world.db w scan = some wallet ∧ Seen env world.db w wallet d s := by
  have heffect := step_labels hok.drafts op
  obtain ⟨hnone, hsome⟩ := hmarks
  generalize (step env world op).db = db' at heffect hsome
  cases heffect with
  | kept same =>
      rw [same.applications, hnone] at hsome
      cases hsome
  | edited edited =>
      rw [edited.applications, hnone] at hsome
      cases hsome
  | discarded unsubmitted deleted =>
      rw [deleted] at hsome
      have hold := ((Table.get_erase ..).symm.trans hsome)
      split_ifs at hold
      rw [hnone] at hold
      cases hold
  | @synced w' snapshot scan now wallet updated sweep =>
      obtain ⟨rfl, s, hseen⟩ := sweep.marks w d ⟨hnone, hsome⟩
      exact ⟨snapshot, scan, now, wallet, s, rfl, updated, hseen⟩

theorem MarksOk.step (hok : StoreOk env world.db) (h : MarksOk world.db) (op : Op Scan) :
    MarksOk (System.step env world op).db := by
  have hsubmitted : ∀ w d : String, world.db.submitted w d = true →
      (System.step env world op).db.submitted w d = true := fun w d hsub =>
    (Finality.kept_step hok (Finality.not_discards_of_submitted hsub op)).submitted hsub
  constructor
  · intro w d hmark
    cases hbefore : world.db.draftLabelApplications[(w, d)]? with
    | some u => exact hsubmitted w d (h.submitted w d hbefore)
    | none =>
        obtain ⟨snapshot, scan, now, wallet, s, rfl, -, hseen⟩ := step_marks hok ⟨hbefore, hmark⟩
        obtain ⟨-, -, a, ha, haw, had, -⟩ := latest_eq_some hseen.latest
        exact hsubmitted w d (submitted_eq_true.mpr ⟨_, a, ha, haw, had⟩)
  · intro w o d hrow
    have heffect := step_labels hok.drafts op
    cases hbefore : world.db.outputProvenance[(w, o)]? with
    | some d' =>
        have hkept := step_provenance hok h op hbefore
        rw [hrow, Option.some.injEq] at hkept
        subst hkept
        exact step_marked hok h op (h.marked w o d hbefore)
    | none =>
        generalize (System.step env world op).db = db' at heffect hrow
        cases heffect with
        | kept same =>
            rw [same.provenance, hbefore] at hrow
            cases hrow
        | edited edited =>
            rw [edited.provenance, hbefore] at hrow
            cases hrow
        | discarded unsubmitted deleted =>
            rw [deleted] at hrow
            have hold := (Table.get_deleteWhere_eq_some.mp hrow).1
            rw [hbefore] at hold
            cases hold
        | synced updated sweep =>
            obtain ⟨rfl, s, -, hmarks, -⟩ := sweep.provided w o d hbefore hrow
            exact hmarks.2

theorem marksOk_run (ops : List (Op Scan)) : MarksOk (run env ops).db := by
  refine (Transition.run_invariant (I := fun world => StoreOk env world.db ∧ MarksOk world.db)
    (System.step env) (fun world op h => ⟨storeOk_step env h.1 op, h.2.step h.1 op⟩) ?_ ops).2
  refine ⟨StoreOk.empty env, ⟨fun w d hmark => ?_, fun w o d hrow => ?_⟩⟩
  · simp at hmark
  · simp at hrow

/-- What both invariants give over a run from a world that has them. -/
theorem runFrom_marked (hok : StoreOk env world.db) (h : MarksOk world.db) (ops : List (Op Scan)) :
    (∀ w d : String, world.db.draftLabelApplications[(w, d)]? = some () →
      (runFrom env world ops).db.draftLabelApplications[(w, d)]? = some ()) ∧
    (∀ w o d : String, world.db.outputProvenance[(w, o)]? = some d →
      (runFrom env world ops).db.outputProvenance[(w, o)]? = some d) := by
  induction ops generalizing world with
  | nil => exact ⟨fun _ _ hmark => hmark, fun _ _ _ hrow => hrow⟩
  | cons op ops ih =>
      obtain ⟨hmarks, hrows⟩ := ih (storeOk_step env hok op) (h.step hok op)
      exact ⟨fun w d hmark => hmarks w d (step_marked hok h op hmark),
        fun w o d hrow => hrows w o d (step_provenance hok h op hrow)⟩

/-- A label no operation names stays through a step: a sync does not touch it. -/
theorem step_label_kept (hok : StoreOk env world.db) {op : Op Scan} {w : String}
    {kind : LabelKind} {o label : String} (hnot : ¬ NamesLabel env op w kind o)
    (hrow : world.db.labels[(w, kind, o)]? = some label) :
    (step env world op).db.labels[(w, kind, o)]? = some label := by
  have heffect := step_labels hok.drafts op
  generalize (step env world op).db = db' at heffect
  cases heffect with
  | kept same => rw [same.labels, hrow]
  | edited edited => rw [edited.labels w kind o hnot, hrow]
  | discarded unsubmitted deleted =>
      rw [deleted]
      exact hrow
  | synced updated sweep => exact sweep.labels _ _ hrow

theorem runFrom_label_kept (hok : StoreOk env world.db) {ops : List (Op Scan)} {w : String}
    {kind : LabelKind} {o label : String} (hnot : ∀ op ∈ ops, ¬ NamesLabel env op w kind o)
    (hrow : world.db.labels[(w, kind, o)]? = some label) :
    (runFrom env world ops).db.labels[(w, kind, o)]? = some label := by
  induction ops generalizing world with
  | nil => exact hrow
  | cons op ops ih =>
      obtain ⟨hop, hops⟩ := List.forall_mem_cons.mp hnot
      exact ih (storeOk_step env hok op) hops (step_label_kept hok hop hrow)

/-- A new label row: the user's edit, or a seen draft that the sync marks. -/
theorem step_labelled (hok : StoreOk env world.db) {op : Op Scan} {w : String}
    {kind : LabelKind} {o label : String} (hnone : world.db.labels[(w, kind, o)]? = none)
    (hsome : (step env world op).db.labels[(w, kind, o)]? = some label) :
    NamesLabel env op w kind o ∨ ∃ snapshot scan now wallet d s,
      op = .commitSync w snapshot scan now ∧ syncWallet env world.db w scan = some wallet ∧
      Seen env world.db w wallet d s ∧ Marks world.db (step env world op).db w d ∧
      label = s.review.label ∧ Labelled env wallet s kind o := by
  have heffect := step_labels hok.drafts op
  generalize (step env world op).db = db' at heffect hsome
  cases heffect with
  | kept same =>
      rw [same.labels, hnone] at hsome
      cases hsome
  | edited edited =>
      by_cases hnamed : NamesLabel env op w kind o
      · exact .inl hnamed
      · rw [edited.labels w kind o hnamed, hnone] at hsome
        cases hsome
  | discarded unsubmitted deleted =>
      rw [deleted] at hsome
      change world.db.labels[(w, kind, o)]? = some label at hsome
      rw [hnone] at hsome
      cases hsome
  | synced updated sweep =>
      obtain ⟨rfl, d, s, hseen, hmarks, hlabel, hkey⟩ := sweep.labelled w kind o label hnone hsome
      exact .inr ⟨_, _, _, _, d, s, rfl, updated, hseen, hmarks, hlabel, hkey⟩

theorem step_provided (hok : StoreOk env world.db) {op : Op Scan} {w o d : String}
    (hnone : world.db.outputProvenance[(w, o)]? = none)
    (hsome : (step env world op).db.outputProvenance[(w, o)]? = some d) :
    ∃ snapshot scan now wallet s, op = .commitSync w snapshot scan now ∧
      syncWallet env world.db w scan = some wallet ∧ Seen env world.db w wallet d s ∧
      Marks world.db (step env world op).db w d ∧ OwnOutput env wallet s o := by
  have heffect := step_labels hok.drafts op
  generalize (step env world op).db = db' at heffect hsome
  cases heffect with
  | kept same =>
      rw [same.provenance, hnone] at hsome
      cases hsome
  | edited edited =>
      rw [edited.provenance, hnone] at hsome
      cases hsome
  | discarded unsubmitted deleted =>
      rw [deleted] at hsome
      have hold := (Table.get_deleteWhere_eq_some.mp hsome).1
      rw [hnone] at hold
      cases hold
  | synced updated sweep =>
      obtain ⟨rfl, s, hseen, hmarks, hown⟩ := sweep.provided w o d hnone hsome
      exact ⟨_, _, _, _, s, rfl, updated, hseen, hmarks, hown⟩

end Runs

/-- What holds of the labels of drafts from a world on. -/
structure LabelsOnce (world : World State) : Prop where
  /-- A draft is marked by a committed sync that sees the exact transaction of
      its latest attempt. -/
  observed : ∀ (op : Op Scan) (w d : String), Marks world.db (step env world op).db w d →
    ∃ snapshot scan now wallet s, op = .commitSync w snapshot scan now ∧
      syncWallet env world.db w scan = some wallet ∧ Seen env world.db w wallet d s
  /-- It is marked once, whatever comes between. -/
  once : ∀ (op : Op Scan) (w d : String) (later : List (Op Scan)) (op' : Op Scan),
    Marks world.db (step env world op).db w d →
    ¬ Marks (runFrom env (step env world op) later).db
      (step env (runFrom env (step env world op) later) op').db w d
  /-- A label row that appears is the user's, or of a draft as it is marked. -/
  labelled : ∀ (op : Op Scan) (w : String) (kind : LabelKind) (o label : String),
    world.db.labels[(w, kind, o)]? = none →
    (step env world op).db.labels[(w, kind, o)]? = some label →
    NamesLabel env op w kind o ∨ ∃ snapshot scan now wallet d s,
      op = .commitSync w snapshot scan now ∧ syncWallet env world.db w scan = some wallet ∧
      Seen env world.db w wallet d s ∧ Marks world.db (step env world op).db w d ∧
      label = s.review.label ∧ Labelled env wallet s kind o
  /-- A label row, an empty label too, is changed by the user's edits of it alone. -/
  kept : ∀ (ops : List (Op Scan)) (w : String) (kind : LabelKind) (o label : String),
    world.db.labels[(w, kind, o)]? = some label → (∀ op ∈ ops, ¬ NamesLabel env op w kind o) →
    (runFrom env world ops).db.labels[(w, kind, o)]? = some label
  /-- A provenance row appears as its draft is marked, and stays. -/
  provided : ∀ (op : Op Scan) (w o d : String), world.db.outputProvenance[(w, o)]? = none →
    (step env world op).db.outputProvenance[(w, o)]? = some d →
    ∃ snapshot scan now wallet s, op = .commitSync w snapshot scan now ∧
      syncWallet env world.db w scan = some wallet ∧ Seen env world.db w wallet d s ∧
      Marks world.db (step env world op).db w d ∧ OwnOutput env wallet s o
  provenance : ∀ (ops : List (Op Scan)) (w o d : String),
    world.db.outputProvenance[(w, o)]? = some d →
    (runFrom env world ops).db.outputProvenance[(w, o)]? = some d

end Provenance
end Tundra
