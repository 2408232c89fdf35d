/-
  Tundra.Store

  The invariant of the draft tables.  Every draft is an approval, the tables
  refer to each other, and the reservations are an exact ledger of what the
  live drafts spend; every effect keeps all three.
-/

import Tundra.Effects

namespace Tundra
namespace Drafts

open Checked Relational Engine Signing Broadcast Recovery Effects

variable {State Wallet Scan : Type} (env : Env State Wallet Scan)

/-- A draft claims its inputs while it is live. -/
def Claims (db : Db State) (d : String) (k : String × String) : Prop :=
  ∃ row p r, db.drafts[d]? = some row ∧ Approval env d row p r ∧ row.walletId = k.1 ∧
    r.state.isLive = true ∧ k.2 ∈ outpoints r

structure StoreOk (db : Db State) : Prop where
  drafts : DraftsOk env db
  keys : DraftKeys db
  reserved : Ledger.Exact (fun k : String × String => db.reservations[k]?) (Claims env db)

section Rows

variable {env}
variable {db db' : Db State} {d : String} {row row' : DraftRow} {p : Psbt} {r r' : DraftReview}

/-! ## One row written -/

theorem claims_congr (h : db'.drafts = db.drafts) (e : String) (k : String × String) :
    Claims env db' e k ↔ Claims env db e k := by
  simp only [Claims, h]

theorem claims_insert (h : db'.drafts = db.drafts.insert d row') (happ : Approval env d row' p r')
    (e : String) (k : String × String) :
    Claims env db' e k ↔
      (e = d ∧ row'.walletId = k.1 ∧ r'.state.isLive = true ∧ k.2 ∈ outpoints r') ∨
        (e ≠ d ∧ Claims env db e k) := by
  by_cases he : e = d
  · subst he
    simp only [Claims, h, Table.get_insert_self, Option.some.injEq, true_and, ne_eq,
      not_true_eq_false, false_and, or_false]
    constructor
    · rintro ⟨_, q, s, rfl, hq, hw, hlive, hop⟩
      obtain ⟨rfl, rfl⟩ := happ.unique hq
      exact ⟨hw, hlive, hop⟩
    · rintro ⟨hw, hlive, hop⟩
      exact ⟨row', p, r', rfl, happ, hw, hlive, hop⟩
  · simp only [Claims, h, Table.get_insert_ne _ _ (Ne.symm he), he, false_and, false_or, ne_eq,
      not_false_eq_true, true_and]

theorem claims_of_dead (hrow : db.drafts[d]? = some row) (happ : Approval env d row p r)
    (hdead : r.state.isLive = false) (k : String × String) : ¬ Claims env db d k := by
  rintro ⟨row₁, q, s, hget, hq, _, hlive, _⟩
  rw [hrow, Option.some.injEq] at hget
  subst hget
  obtain ⟨rfl, rfl⟩ := happ.unique hq
  rw [hdead] at hlive
  cases hlive

theorem DraftsOk.insert (hok : DraftsOk env db) (h : db'.drafts = db.drafts.insert d row')
    (happ : Approval env d row' p r') : DraftsOk env db' := by
  intro e row₁ hrow₁
  rw [h, Table.get_insert] at hrow₁
  split_ifs at hrow₁ with he
  · rw [Option.some.injEq] at hrow₁
    exact ⟨p, r', hrow₁ ▸ he ▸ happ⟩
  · exact hok e row₁ hrow₁

/-- A draft that stays with its wallet is still found wherever it was. -/
theorem selectDraft_isSome_insert (hrow : db.drafts[d]? = some row)
    (h : db'.drafts = db.drafts.insert d row') (hw : row'.walletId = row.walletId)
    (w e : String) : (db'.selectDraft w e).isSome = (db.selectDraft w e).isSome := by
  rw [selectDraft_insert h]
  by_cases he : e = d
  · subst he
    rw [if_pos rfl, hw]
    by_cases hrw : row.walletId = w <;> simp [Db.selectDraft, hrow, hrw, Option.filter]
  · rw [if_neg he]

/-- The references only ask which drafts there are. -/
theorem DraftKeys.congr (h : DraftKeys db)
    (hselect : ∀ w e, (db.selectDraft w e).isSome = true → (db'.selectDraft w e).isSome = true)
    (hres : db'.reservations = db.reservations)
    (hsigs : db'.draftSignatures = db.draftSignatures)
    (hfinal : db'.finalizedDrafts = db.finalizedDrafts)
    (hatt : db'.broadcastAttempts = db.broadcastAttempts)
    (hrec : db'.recoveredSubmissions = db.recoveredSubmissions)
    (hholds : db'.recoveryHolds = db.recoveryHolds) : DraftKeys db' where
  reservations w op d hd := hselect w d (h.reservations w op d (hres ▸ hd))
  signatures w d b hb := hselect w d (h.signatures w d b (hsigs ▸ hb))
  finalized w d b hb := hselect w d (h.finalized w d b (hfinal ▸ hb))
  attempts id a ha := hfinal ▸ h.attempts id a (hatt ▸ ha)
  recovered w d hd := hfinal ▸ h.recovered w d (hrec ▸ hd)
  holds w op d hd := hrec ▸ h.holds w op d (hholds ▸ hd)

/-- One draft moves between states; the other tables stay. -/
theorem DraftKeys.setReview (h : DraftKeys db) (hrow : db.drafts[d]? = some row)
    (hw : row'.walletId = row.walletId) :
    DraftKeys { db with drafts := db.drafts.insert d row' } :=
  h.congr (fun w e he => by rwa [selectDraft_isSome_insert hrow rfl hw]) rfl rfl rfl rfl rfl rfl

theorem DraftKeys.deleteReservations (h : DraftKeys db) (w d : String) :
    DraftKeys (db.deleteReservations w d) where
  reservations w' op e he :=
    h.reservations w' op e ((deleteReservations_get db w d w' e op).mp he).1
  signatures := h.signatures
  finalized := h.finalized
  attempts := h.attempts
  recovered := h.recovered
  holds := h.holds

theorem DraftKeys.deleteRecovered (h : DraftKeys db) (w d : String) :
    DraftKeys (db.deleteRecovered w d) where
  reservations := h.reservations
  signatures := h.signatures
  finalized := h.finalized
  attempts := h.attempts
  recovered w' e he := h.recovered w' e ((deleteRecovered_recovered db w d w' e).mp he).1
  holds w' op e he := by
    obtain ⟨hold, hne⟩ := (deleteRecovered_holds db w d w' e op h.holds).mp he
    exact (deleteRecovered_recovered db w d w' e).mpr ⟨h.holds w' op e hold, hne⟩

end Rows

/-! ## The initial store -/

theorem StoreOk.empty : StoreOk env ({} : Db State) where
  drafts d row hrow := by simp at hrow
  keys := by constructor <;> intros <;> simp_all
  reserved := Ledger.Exact.empty (fun k => by simp) (fun d k => by simp [Claims])

/-! ## The effects -/

section Effects

variable {env}
variable {db db' : Db State} {w d : String}

theorem StoreOk.metadata (h : StoreOk env db) (same : SameDrafts db db') : StoreOk env db' where
  drafts e row hrow := h.drafts e row (same.drafts ▸ hrow)
  keys := h.keys.congr (fun w e he => by simpa only [Db.selectDraft, same.drafts] using he)
    same.reservations same.draftSignatures same.finalizedDrafts same.broadcastAttempts
    same.recoveredSubmissions same.recoveryHolds
  reserved := h.reserved.congr (fun k => by rw [same.reservations])
    (fun e k => claims_congr same.drafts e k)

/-- A draft that stays live keeps its reservations. -/
theorem StoreOk.keepLive (h : StoreOk env db) {row : DraftRow} {p : Psbt} {r : DraftReview}
    (hrow : db.drafts[d]? = some row) (happ : Approval env d row p r)
    (hlive : r.state.isLive = true) {s : DraftState} (hs : s.isLive = true)
    (hknown : s.isKnown = true) :
    StoreOk env { db with
      drafts := db.drafts.insert d { row with reviewJson := reviewText env (r.withState s) } } where
  drafts := DraftsOk.insert h.drafts rfl (happ.withState hknown)
  keys := h.keys.setReview hrow rfl
  reserved := by
    refine h.reserved.congr (fun k => rfl) (fun e k => ?_)
    rw [claims_insert rfl (happ.withState hknown)]
    by_cases he : e = d
    · subst he
      simp only [Claims, hrow, Option.some.injEq, true_and, ne_eq, not_true_eq_false, false_and,
        or_false, hs, DraftReview.withState_state, outpoints_withState]
      constructor
      · rintro ⟨hw, hop⟩
        exact ⟨row, p, r, rfl, happ, hw, hlive, hop⟩
      · rintro ⟨_, q, s', rfl, hq, hw, _, hop⟩
        obtain ⟨rfl, rfl⟩ := happ.unique hq
        exact ⟨hw, hop⟩
    · simp [he]

/-- A draft that is no longer live gives up its reservations. -/
theorem StoreOk.release (h : StoreOk env db) {row : DraftRow} {p : Psbt} {r : DraftReview}
    (hrow : db.drafts[d]? = some row) (hw : row.walletId = w) (happ : Approval env d row p r)
    {s : DraftState} (hs : s.isLive = false) (hknown : s.isKnown = true) :
    StoreOk env (Db.deleteReservations { db with
      drafts := db.drafts.insert d { row with reviewJson := reviewText env (r.withState s) } } w d)
    where
  drafts := DraftsOk.insert h.drafts rfl (happ.withState hknown)
  keys := by
    apply DraftKeys.deleteReservations
    exact h.keys.setReview hrow rfl
  reserved := by
    refine h.reserved.release d ?_ ?_
    · rintro ⟨w', op⟩ e
      refine (deleteReservations_get _ w d w' e op).trans (and_congr_right fun hres => ?_)
      refine not_congr ⟨fun hc => hc.2, fun he => ⟨?_, he⟩⟩
      subst he
      obtain ⟨row₁, hrow₁, hw₁⟩ := selectDraft_isSome.mp (h.keys.reservations w' op e hres)
      rw [hrow, Option.some.injEq] at hrow₁
      rw [← hw₁, ← hrow₁, hw]
    · intro e k
      refine (claims_insert rfl (happ.withState hknown) e k).trans ?_
      simp [hs, and_comm]

theorem StoreOk.deleteRecovered (h : StoreOk env db) (w d : String) :
    StoreOk env (db.deleteRecovered w d) where
  drafts := h.drafts
  keys := h.keys.deleteRecovered w d
  reserved := h.reserved.congr (fun _ => rfl) (fun e k => claims_congr rfl e k)

theorem StoreOk.create (h : StoreOk env db) {row : DraftRow} {p : Psbt} {r : DraftReview}
    (fresh : db.drafts[d]? = none) (wallet : row.walletId = w) (happ : Approval env d row p r)
    (state : r.state = .unsigned) (free : ∀ op ∈ outpoints r, db.isReserved w op = false) :
    StoreOk env { db with
      drafts := db.drafts.insert d row
      reservations := reserveAll w d (outpoints r) db.reservations } := by
  have hfree : ∀ op ∈ outpoints r, db.reservations[(w, op)]? = none := by
    intro op hop
    rw [Option.eq_none_iff_forall_ne_some]
    intro e he
    have hno := free op hop
    rw [isReserved_eq_true.mpr (.inl ⟨e, he⟩)] at hno
    cases hno
  have hselect : ∀ w' e, (db.selectDraft w' e).isSome = true →
      (Db.selectDraft { db with drafts := db.drafts.insert d row } w' e).isSome = true := by
    intro w' e he
    have hget := @selectDraft_insert State db { db with drafts := db.drafts.insert d row } d row rfl
    rw [hget]
    by_cases hed : e = d
    · obtain ⟨_, hrow, _⟩ := selectDraft_isSome.mp he
      rw [hed, fresh] at hrow
      cases hrow
    · rwa [if_neg hed]
  refine ⟨DraftsOk.insert h.drafts rfl happ, ?_, ?_⟩
  · have hkeys : DraftKeys { db with drafts := db.drafts.insert d row } :=
      h.keys.congr hselect rfl rfl rfl rfl rfl rfl
    refine ⟨?_, hkeys.signatures, hkeys.finalized, hkeys.attempts, hkeys.recovered, hkeys.holds⟩
    intro w' op e he
    simp only [reserveAll_get] at he
    split_ifs at he with hin
    · rw [Option.some.injEq] at he
      rw [← he, hin.1]
      exact selectDraft_isSome.mpr ⟨row, Table.get_insert_self .., wallet⟩
    · exact hkeys.reservations w' op e he
  · refine h.reserved.acquire d (fun k => k.1 = w ∧ k.2 ∈ outpoints r) ?_ ?_ ?_ ?_ ?_ ?_
    · rintro k ⟨row₁, _, _, hrow₁, _⟩
      rw [fresh] at hrow₁
      cases hrow₁
    · rintro ⟨w', op⟩ ⟨rfl, hop⟩
      exact hfree op hop
    · rintro ⟨w', op⟩ hin
      simp only [reserveAll_get, if_pos hin]
    · rintro ⟨w', op⟩ hout
      simp only [reserveAll_get, if_neg hout]
    · intro k
      rw [claims_insert rfl happ]
      simp [wallet, state, eq_comm]
    · intro e k he
      rw [claims_insert rfl happ]
      simp [he]

theorem StoreOk.discard (h : StoreOk env db) {row : DraftRow}
    (found : db.selectDraft w d = some row) (unsubmitted : db.submitted w d = false) :
    StoreOk env (db.deleteDraft w d) := by
  obtain ⟨hrow, hw⟩ := selectDraft_eq_some.mp found
  have hwallet : ∀ w', (db.selectDraft w' d).isSome = true → w' = w := by
    intro w' hs
    obtain ⟨row₁, hrow₁, hw₁⟩ := selectDraft_isSome.mp hs
    rw [hrow, Option.some.injEq] at hrow₁
    rw [← hw₁, ← hrow₁, hw]
  have hselect : ∀ w' e, (db.selectDraft w' e).isSome = true → ¬ (w' = w ∧ e = d) →
      ((db.deleteDraft w d).selectDraft w' e).isSome = true := by
    intro w' e hs hne
    have hed : d ≠ e := by
      rintro rfl
      exact hne ⟨hwallet w' hs, rfl⟩
    simpa only [Db.selectDraft, Db.deleteDraft, Table.get_erase, if_neg hed] using hs
  have hkey : ∀ w' e : String, ¬ (w' = w ∧ e = d) → ¬ ((w, d) = (w', e)) := by
    intro w' e hne heq
    obtain ⟨rfl, rfl⟩ := Prod.mk.injEq .. ▸ heq
    exact hne ⟨rfl, rfl⟩
  have hnot : ∀ (id : Nat) (a : AttemptRow), db.broadcastAttempts[id]? = some a →
      ¬ (a.walletId = w ∧ a.draftId = d) := by
    intro id a ha hc
    rw [submitted_eq_true.mpr ⟨id, a, ha, hc⟩] at unsubmitted
    cases unsubmitted
  refine ⟨?_, ?_, ?_⟩
  · intro e row₁ hrow₁
    simp only [Db.deleteDraft, Table.get_erase] at hrow₁
    split_ifs at hrow₁
    exact h.drafts e row₁ hrow₁
  · refine ⟨?_, ?_, ?_, ?_, ?_, ?_⟩
    · intro w' op e he
      obtain ⟨hres, hne⟩ := (deleteReservations_get db w d w' e op).mp he
      exact hselect w' e (h.keys.reservations w' op e hres) hne
    · intro w' e b hb
      simp only [Db.deleteDraft, Table.get_erase] at hb
      split_ifs at hb with hk
      exact hselect w' e (h.keys.signatures w' e b hb)
        (fun hc => hk (by rw [hc.1, hc.2]))
    · intro w' e b hb
      simp only [Db.deleteDraft, Table.get_erase] at hb
      split_ifs at hb with hk
      exact hselect w' e (h.keys.finalized w' e b hb)
        (fun hc => hk (by rw [hc.1, hc.2]))
    · intro id a ha
      obtain ⟨ha, _⟩ := Table.get_deleteWhere_eq_some.mp ha
      have hne := hnot id a ha
      simp only [Db.deleteDraft, Table.get_erase, if_neg (hkey _ _ hne)]
      exact h.keys.attempts id a ha
    · intro w' e he
      simp only [Db.deleteDraft, Table.get_erase] at he ⊢
      split_ifs at he ⊢ with hk
      exact h.keys.recovered w' e he
    · intro w' op e he
      obtain ⟨hold, hne⟩ := Table.get_deleteWhere_eq_some.mp he
      simp only [decide_eq_false_iff_not] at hne
      simp only [Db.deleteDraft, Table.get_erase, if_neg (hkey w' e hne)]
      exact h.keys.holds w' op e hold
  · refine h.reserved.release d ?_ ?_
    · rintro ⟨w', op⟩ e
      refine (deleteReservations_get db w d w' e op).trans (and_congr_right fun hres => ?_)
      refine not_congr ⟨fun hc => hc.2, fun he => ⟨?_, he⟩⟩
      subst he
      exact hwallet w' (h.keys.reservations w' op e hres)
    · intro e k
      simp only [Claims, Db.deleteDraft, Table.get_erase]
      by_cases he : e = d
      · simp [he]
      · simp [he, Ne.symm he]

/-- A resumed draft takes its reservations back. -/
theorem StoreOk.resume (h : StoreOk env db) {row : DraftRow} {p : Psbt} {r : DraftReview}
    (hrow : db.drafts[d]? = some row) (hw : row.walletId = w) (happ : Approval env d row p r)
    (hdead : r.state.isLive = false)
    (hreserved : ∀ op ∈ outpoints r,
      (reserveInputs w d r.inputs db).reservations[(w, op)]? = some d) :
    StoreOk env { db with
      drafts := db.drafts.insert d
        { row with reviewJson := reviewText env (r.withState .finalized) }
      reservations := (reserveInputs w d r.inputs db).reservations } := by
  have hkeys : DraftKeys { db with
      drafts := db.drafts.insert d
        { row with reviewJson := reviewText env (r.withState .finalized) } } :=
    h.keys.setReview hrow rfl
  have hnone := claims_of_dead hrow happ hdead
  have hfree : ∀ op ∈ outpoints r, db.reservations[(w, op)]? = none := by
    intro op hop
    have hget := hreserved op hop
    rw [reserveInputs_get] at hget
    split_ifs at hget with hin
    · exact hin.2
    · exact absurd ((h.reserved (w, op) d).mp hget) (hnone (w, op))
  refine ⟨DraftsOk.insert h.drafts rfl (happ.withState rfl), ?_, ?_⟩
  · refine ⟨?_, hkeys.signatures, hkeys.finalized, hkeys.attempts, hkeys.recovered, hkeys.holds⟩
    intro w' op e he
    simp only [reserveInputs_get] at he
    split_ifs at he with hin
    · rw [Option.some.injEq] at he
      rw [← he, hin.1.1]
      exact selectDraft_isSome.mpr ⟨_, Table.get_insert_self .., hw⟩
    · exact hkeys.reservations w' op e he
  · refine h.reserved.acquire d (fun k => k.1 = w ∧ k.2 ∈ outpoints r) hnone ?_ ?_ ?_ ?_ ?_
    · rintro ⟨w', op⟩ ⟨rfl, hop⟩
      exact hfree op hop
    · rintro ⟨w', op⟩ ⟨rfl, hop⟩
      exact hreserved op hop
    · rintro ⟨w', op⟩ hout
      simp only [reserveInputs_get]
      exact if_neg (fun hin => hout hin.1)
    · intro k
      rw [claims_insert rfl (happ.withState rfl)]
      simp [hw, eq_comm]
    · intro e k he
      rw [claims_insert rfl (happ.withState rfl)]
      simp [he]

/-- A suspended store: no draft is live and nothing is reserved. -/
theorem StoreOk.of_suspended (hkeys : DraftKeys db) (checked : Suspendable env db)
    (suspended : Suspended env db db') : StoreOk env db' := by
  have hres := suspended.reservations
  have hsigs := suspended.draftSignatures
  have hfinal := suspended.finalizedDrafts
  have hatt := suspended.broadcastAttempts
  have hselect := suspended.selectDraft_isSome
  refine ⟨?_, ⟨?_, ?_, ?_, ?_, ?_, ?_⟩, ?_⟩
  · intro e row hrow
    obtain ⟨_, p, r, _, _, _, happ⟩ := suspended.approval checked hrow
    exact ⟨p, _, happ⟩
  · intro w op e he
    simp [hres] at he
  · intro w e b hb
    rw [hselect]
    exact hkeys.signatures w e b (hsigs ▸ hb)
  · intro w e b hb
    rw [hselect]
    exact hkeys.finalized w e b (hfinal ▸ hb)
  · intro id a ha
    rw [hfinal]
    exact hkeys.attempts id a (hatt ▸ ha)
  · intro w e he
    obtain ⟨_, hsub⟩ := (suspended.recovered w e).mp he
    obtain ⟨id, a, ha, rfl, rfl⟩ := submitted_eq_true.mp hsub
    rw [hfinal]
    exact hkeys.attempts id a ha
  · intro w op e he
    obtain ⟨hsub, r, hr, _⟩ := (suspended.holds w op e).mp he
    obtain ⟨row, hrow, hw, _⟩ := reviewOf_eq_some.mp hr
    exact (suspended.recovered w e).mpr ⟨selectDraft_isSome.mpr ⟨row, hrow, hw⟩, hsub⟩
  · refine Ledger.Exact.empty (fun k => by simp [hres]) ?_
    intro e k
    by_cases he : ∃ row, db'.drafts[e]? = some row
    · obtain ⟨row, hrow⟩ := he
      obtain ⟨_, p, r, _, _, _, happ⟩ := suspended.approval checked hrow
      exact claims_of_dead hrow happ rfl k
    · rintro ⟨row, _, _, hrow, _⟩
      exact he ⟨row, hrow⟩

/-- The approval behind a found review. -/
theorem StoreOk.approval (h : StoreOk env db) {row : DraftRow} {r : DraftReview}
    (found : db.selectDraft w d = some row) (review : row.reviewJson.parsed = some r) :
    db.drafts[d]? = some row ∧ row.walletId = w ∧ ∃ p, Approval env d row p r := by
  obtain ⟨hrow, hw⟩ := selectDraft_eq_some.mp found
  obtain ⟨p, r', happ⟩ := h.drafts d row hrow
  have hr := happ.review
  rw [review, Option.some.injEq] at hr
  exact ⟨hrow, hw, p, hr ▸ happ⟩

/-- The approval behind a loaded draft. -/
theorem StoreOk.loaded (h : StoreOk env db) {draft : SigningDraft}
    (hload : loadDraft env db w d = .ok draft) :
    ∃ row, db.selectDraft w d = some row ∧ db.drafts[d]? = some row ∧
      Approval env d row draft.approved draft.review ∧ draft.review.state.isLive = true := by
  obtain ⟨loaded, row, facts⟩ := (loadDraft_eq_ok env).mp hload
  obtain ⟨hrow, _, p, happ⟩ := h.approval facts.found facts.review
  have hp := happ.psbt
  rw [facts.approved, Except.ok.injEq] at hp
  exact ⟨row, facts.found, hrow, hp ▸ happ, facts.live⟩

/-- Every effect keeps the invariant. -/
theorem StoreOk.effect (h : StoreOk env db) {a : Act Wallet} (heffect : Effect env a db db') :
    StoreOk env db' := by
  cases heffect with
  | metadata changed => exact h.metadata changed.same
  | create loaded label planned walletId id fresh row_wallet psbt review nodup =>
      rename_i w row p r _ _ _
      have happ : Approval env _ row p r :=
        { psbt := by
            rw [psbt]
            exact (parseResponse_psbtText env planned.wellFormed).mpr ⟨planned.limits, rfl⟩
          review := by rw [review]; rfl
          id
          walletId := by rw [planned.walletId, walletId, row_wallet]
          identity := by rw [← id, row_wallet, ← walletId, planned.id]
          inputs := planned.outpoints
          known := by rw [planned.state]; rfl }
      exact h.create fresh row_wallet happ planned.state
        (fun op hop => walletId ▸ planned.unreserved hop)
  | discard found unsubmitted => exact h.discard found unsubmitted
  | accept loaded unfinalized merge state =>
      obtain ⟨row, found, hrow, happ, hlive⟩ := h.loaded loaded
      rename_i w d draft response merged s
      have hs : s.isLive = true ∧ s.isKnown = true := by rcases state with rfl | rfl <;> exact ⟨rfl, rfl⟩
      have hsigned : StoreOk env { db with
          draftSignatures := db.draftSignatures.insert (w, d) (env.psbtText merged) } := by
        refine ⟨h.drafts, ?_, h.reserved.congr (fun _ => rfl) (fun e k => claims_congr rfl e k)⟩
        refine ⟨h.keys.reservations, ?_, h.keys.finalized, h.keys.attempts, h.keys.recovered,
          h.keys.holds⟩
        intro w' e b hb
        simp only [Table.get_insert] at hb
        split_ifs at hb with hk
        · obtain ⟨rfl, rfl⟩ := Prod.mk.injEq .. ▸ hk
          exact Option.isSome_iff_exists.mpr ⟨row, found⟩
        · exact h.keys.signatures w' e b hb
      rw [updateReview_of_some (by exact found)]
      exact hsigned.keepLive hrow happ hlive hs.1 hs.2
  | finalize loaded unfinalized final fresh =>
      obtain ⟨row, found, hrow, happ, hlive⟩ := h.loaded loaded
      rename_i w d draft tx
      have hfinal : StoreOk env { db with
          finalizedDrafts := db.finalizedDrafts.insert (w, d) (env.serializeTx tx) } := by
        refine ⟨h.drafts, ?_, h.reserved.congr (fun _ => rfl) (fun e k => claims_congr rfl e k)⟩
        have hmono : ∀ w' e : String, (db.finalizedDrafts[(w', e)]?).isSome = true →
            ((db.finalizedDrafts.insert (w, d) (env.serializeTx tx))[(w', e)]?).isSome = true := by
          intro w' e he
          rw [Table.get_insert]
          split_ifs
          · rfl
          · exact he
        refine ⟨h.keys.reservations, h.keys.signatures, ?_,
          fun id a ha => hmono _ _ (h.keys.attempts id a ha),
          fun w' e he => hmono _ _ (h.keys.recovered w' e he), h.keys.holds⟩
        intro w' e b hb
        simp only [Table.get_insert] at hb
        split_ifs at hb with hk
        · obtain ⟨rfl, rfl⟩ := Prod.mk.injEq .. ▸ hk
          exact Option.isSome_iff_exists.mpr ⟨row, found⟩
        · exact h.keys.finalized w' e b hb
      rw [updateReview_of_some (by exact found)]
      exact hfinal.keepLive hrow happ hlive rfl rfl
  | observe found review submitted final decoded seen =>
      obtain ⟨hrow, hw, p, happ⟩ := h.approval found review
      rw [updateReview_of_some (by exact found)]
      exact (h.deleteRecovered _ _).release hrow hw happ rfl rfl
  | invalidate found review =>
      obtain ⟨hrow, hw, p, happ⟩ := h.approval found review
      rw [updateReview_of_some found]
      exact h.release hrow hw happ rfl rfl
  | attempt validated wallet draft txid wtxid =>
      rename_i w d final row
      obtain ⟨draft', bytes, tx, _, hb, _⟩ := (validatedFinalized_eq_ok env).mp validated
      refine ⟨h.drafts, ?_, h.reserved.congr (fun _ => rfl) (fun e k => claims_congr rfl e k)⟩
      refine ⟨h.keys.reservations, h.keys.signatures, h.keys.finalized, ?_, h.keys.recovered,
        h.keys.holds⟩
      intro id a ha
      simp only [Table.get_insert] at ha
      split_ifs at ha with hk
      · rw [Option.some.injEq] at ha
        subst ha
        rw [wallet, draft]
        exact Option.isSome_iff_exists.mpr ⟨bytes, hb⟩
      · exact h.keys.attempts id a ha
  | acknowledge found =>
      rename_i id row
      refine ⟨h.drafts, ?_, h.reserved.congr (fun _ => rfl) (fun e k => claims_congr rfl e k)⟩
      refine ⟨h.keys.reservations, h.keys.signatures, h.keys.finalized, ?_, h.keys.recovered,
        h.keys.holds⟩
      intro id' a ha
      simp only [Table.get_insert] at ha
      split_ifs at ha with hk
      · rw [Option.some.injEq] at ha
        subst ha
        exact h.keys.attempts id row found
      · exact h.keys.attempts id' a ha
  | resume recovered found review state validated =>
      rename_i w d row r final
      obtain ⟨hrow, hw, p, happ⟩ := h.approval found review
      have hdead : r.state.isLive = false := by rw [state]; rfl
      rw [updateReview_of_some found] at validated ⊢
      obtain ⟨draft, _, _, hload, _⟩ := (validatedFinalized_eq_ok env).mp validated
      obtain ⟨loaded, row', facts⟩ := (loadDraft_eq_ok env).mp hload
      have hrow' : row' = { row with reviewJson := reviewText env (r.withState .finalized) } := by
        have hfound := (selectDraft_eq_some.mp facts.found).1
        rw [reserveInputs_eq] at hfound
        simp only [Table.get_insert_self, Option.some.injEq] at hfound
        exact hfound.symm
      have hp : draft.approved = p := by
        have happr := facts.approved
        rw [hrow'] at happr
        simp only [happ.psbt, Except.ok.injEq] at happr
        exact happr.symm
      have hres : ∀ op ∈ outpoints r,
          (reserveInputs w d r.inputs db).reservations[(w, op)]? = some d := by
        intro op hop
        rw [happ.inputs] at hop
        obtain ⟨o, ho, rfl⟩ := List.mem_map.mp hop
        obtain ⟨_, _, _, hin⟩ := facts.input (hp ▸ ho)
        have hget := hin.reserved
        rw [reserveInputs_eq] at hget ⊢
        exact hget
      have hresumed := h.resume hrow hw happ hdead hres
      rw [reserveInputs_eq] at hresumed ⊢
      exact hresumed.deleteRecovered w d
  | suspend checked suspended => exact StoreOk.of_suspended h.keys checked suspended

end Effects

end Drafts
end Tundra
