/-
  Tundra.Effects

  What can happen to the drafts of a store.  Every engine operation is a path
  of `Effect`s, each with everything it has checked, and an invariant of the
  draft tables is proved once for each effect.  The other tables (wallets,
  labels, freezes, sync state, registrations, provenance) change by `metadata`
  effects, about which only that much is said.
-/

import Tundra.Suspended
import Tundra.Planned
import Tundra.Lib.Ledger

namespace Tundra
namespace Effects

open Checked Relational Engine Signing Broadcast Recovery Drafts

variable {State Wallet Scan : Type} (env : Env State Wallet Scan)

theorem reserveInputs_eq (w d : String) (inputs : List ReviewedInput) (db : Db State) :
    reserveInputs w d inputs db =
      { db with
        reservations := db.reservations.insertIfNewAll (inputs.map (fun i => (w, i.outpoint))) d } := by
  induction inputs generalizing db with
  | nil => rfl
  | cons i inputs ih => exact ih _

/-- The draft tables of two databases agree. -/
structure SameDrafts (db db' : Db State) : Prop where
  drafts : db'.drafts = db.drafts
  reservations : db'.reservations = db.reservations
  draftSignatures : db'.draftSignatures = db.draftSignatures
  finalizedDrafts : db'.finalizedDrafts = db.finalizedDrafts
  broadcastAttempts : db'.broadcastAttempts = db.broadcastAttempts
  attemptSequence : db'.attemptSequence = db.attemptSequence
  recoveredSubmissions : db'.recoveredSubmissions = db.recoveredSubmissions
  recoveryHolds : db'.recoveryHolds = db.recoveryHolds

@[refl] theorem SameDrafts.refl (db : Db State) : SameDrafts db db := by
  constructor <;> rfl

theorem SameDrafts.trans {db₁ db₂ db₃ : Db State} (h : SameDrafts db₁ db₂)
    (h' : SameDrafts db₂ db₃) : SameDrafts db₁ db₃ where
  drafts := h'.drafts.trans h.drafts
  reservations := h'.reservations.trans h.reservations
  draftSignatures := h'.draftSignatures.trans h.draftSignatures
  finalizedDrafts := h'.finalizedDrafts.trans h.finalizedDrafts
  broadcastAttempts := h'.broadcastAttempts.trans h.broadcastAttempts
  attemptSequence := h'.attemptSequence.trans h.attemptSequence
  recoveredSubmissions := h'.recoveredSubmissions.trans h.recoveredSubmissions
  recoveryHolds := h'.recoveryHolds.trans h.recoveryHolds

/-- Every wallet id is a hash text, every label is valid and every freeze names
    an outpoint. -/
structure ValidMetadata (db : Db State) : Prop where
  wallets : ∀ (w : String) (row : WalletRow State), db.wallets[w]? = some row → w.length = 64
  labels : ∀ (k : String × LabelKind × String) (label : String), db.labels[k]? = some label →
    Labels.ValidLabel label
  freezes : ∀ (w op : String), db.freezes[(w, op)]? = some () → (env.parseOutPoint op).isSome = true

/-- Wallets are kept, each on its network. -/
def KeepsWallets (db db' : Db State) : Prop :=
  ∀ (w : String) (row : WalletRow State), db.wallets[w]? = some row →
    ∃ row', db'.wallets[w]? = some row' ∧ row'.network = row.network

/-- A change outside the draft tables. -/
structure Metadata (db db' : Db State) : Prop where
  same : SameDrafts db db'
  wallets : KeepsWallets db db'
  valid : ValidMetadata env db → ValidMetadata env db'

theorem KeepsWallets.of_eq {db db' : Db State} (h : db'.wallets = db.wallets) :
    KeepsWallets db db' := fun _ row hrow => ⟨row, h ▸ hrow, rfl⟩

@[refl] theorem Metadata.refl (db : Db State) : Metadata env db db :=
  ⟨.refl db, .of_eq rfl, id⟩

theorem Metadata.trans {db₁ db₂ db₃ : Db State} (h : Metadata env db₁ db₂)
    (h' : Metadata env db₂ db₃) : Metadata env db₁ db₃ where
  same := h.same.trans h'.same
  wallets w row hrow := by
    obtain ⟨row₂, hrow₂, hnet₂⟩ := h.wallets w row hrow
    obtain ⟨row₃, hrow₃, hnet₃⟩ := h'.wallets w row₂ hrow₂
    exact ⟨row₃, hrow₃, hnet₃.trans hnet₂⟩
  valid hv := h'.valid (h.valid hv)

/-- Reserve every outpoint of a list for a draft. -/
def reserveAll (w d : String) (ops : List String) (t : Table (String × String) String) :
    Table (String × String) String :=
  t.insertAll (ops.map (fun op => (w, op))) d

theorem reserveAll_get (w d : String) (ops : List String) (t : Table (String × String) String)
    (w' op : String) :
    (reserveAll w d ops t)[(w', op)]? = if w' = w ∧ op ∈ ops then some d else t[(w', op)]? := by
  rw [reserveAll, Table.get_insertAll]
  simp only [List.mem_map, Prod.mk.injEq]
  refine if_congr ⟨?_, ?_⟩ rfl rfl
  · rintro ⟨_, hop, rfl, rfl⟩
    exact ⟨rfl, hop⟩
  · rintro ⟨rfl, hop⟩
    exact ⟨op, hop, rfl, rfl⟩

theorem reserveInputs_get (w d : String) (inputs : List ReviewedInput) (db : Db State)
    (w' op : String) :
    (reserveInputs w d inputs db).reservations[(w', op)]? =
      if (w' = w ∧ op ∈ inputs.map ReviewedInput.outpoint) ∧ db.reservations[(w', op)]? = none
      then some d else db.reservations[(w', op)]? := by
  rw [reserveInputs_eq, Table.get_insertIfNewAll]
  simp only [List.mem_map, Prod.mk.injEq]
  refine if_congr (and_congr_left fun _ => ⟨?_, ?_⟩) rfl rfl
  · rintro ⟨i, hi, rfl, rfl⟩
    exact ⟨rfl, i, hi, rfl⟩
  · rintro ⟨rfl, i, hi, rfl⟩
    exact ⟨i, hi, rfl, rfl⟩

/-! ## Lookups after the statements -/

section Statements

variable (db : Db State) (w d w' d' op : String)

theorem deleteReservations_get :
    (db.deleteReservations w d).reservations[(w', op)]? = some d' ↔
      db.reservations[(w', op)]? = some d' ∧ ¬ (w' = w ∧ d' = d) := by
  rw [Db.deleteReservations, Table.get_deleteWhere_eq_some]
  simp

theorem deleteRecovered_recovered :
    (db.deleteRecovered w d).recoveredSubmissions[(w', d')]? = some () ↔
      db.recoveredSubmissions[(w', d')]? = some () ∧ ¬ (w' = w ∧ d' = d) := by
  rw [Db.deleteRecovered, Table.get_erase]
  by_cases h : (w, d) = (w', d')
  · obtain ⟨rfl, rfl⟩ := Prod.mk.injEq .. ▸ h
    simp
  · have h' : ¬ (w' = w ∧ d' = d) := fun hc => h (by rw [hc.1, hc.2])
    simp [h, h']

/-- The holds of a draft go with its recovery record, which each of them has. -/
theorem deleteRecovered_holds
    (hholds : ∀ w op d : String, db.recoveryHolds[(w, op, d)]? = some () →
      db.recoveredSubmissions[(w, d)]? = some ()) :
    (db.deleteRecovered w d).recoveryHolds[(w', op, d')]? = some () ↔
      db.recoveryHolds[(w', op, d')]? = some () ∧ ¬ (w' = w ∧ d' = d) := by
  simp only [Db.deleteRecovered]
  split_ifs with hrec
  · rw [Table.get_deleteWhere_eq_some]
    simp
  · refine ⟨fun h => ⟨h, ?_⟩, fun h => h.1⟩
    rintro ⟨rfl, rfl⟩
    exact hrec (isRecovered_eq_true.mpr (hholds _ _ _ h))

theorem selectDraft_insert {db db' : Db State} {d : String} {row : DraftRow}
    (h : db'.drafts = db.drafts.insert d row) (w e : String) :
    db'.selectDraft w e =
      if e = d then (if row.walletId = w then some row else none) else db.selectDraft w e := by
  simp only [Db.selectDraft, h, Table.get_insert]
  by_cases he : e = d
  · by_cases hw : row.walletId = w <;> simp [he, hw, Option.filter]
  · simp [he, Ne.symm he]

end Statements

/-! ## Effects -/

inductive Act (Wallet : Type) where
  | metadata
  | create (w d : String)
  | discard (w d : String)
  | accept (w d : String)
  | finalize (w d : String)
  | observe (wallet : Wallet) (w d : String)
  | invalidate (w d : String)
  | attempt (w d : String)
  | acknowledge (id : Nat)
  | resume (w d : String)
  | suspend

/-- One change of the draft tables, with what the engine checked before it. -/
inductive Effect : Act Wallet → Db State → Db State → Prop where
  | metadata {db db' : Db State} (changed : Metadata env db db') : Effect .metadata db db'
  | create {db : Db State} {w d : String} {row : DraftRow} {p : Psbt} {r : DraftReview}
      {l : Loaded State Wallet} {request : DraftRequest} {wallet : Wallet}
      (loaded : load env db w = .ok l)
      (label : Labels.ValidLabel request.label)
      (planned : PlanFacts env db l request p r wallet)
      (walletId : request.walletId = w)
      (id : r.id = d)
      (fresh : db.drafts[d]? = none)
      (row_wallet : row.walletId = w)
      (psbt : row.psbt = env.psbtText p)
      (review : row.reviewJson = reviewText env r)
      (nodup : (outpoints r).Nodup) :
      Effect (.create w d) db
        { db with
          drafts := db.drafts.insert d row
          reservations := reserveAll w d (outpoints r) db.reservations }
  | discard {db : Db State} {w d : String} {row : DraftRow}
      (found : db.selectDraft w d = some row)
      (unsubmitted : db.submitted w d = false) :
      Effect (.discard w d) db (db.deleteDraft w d)
  | accept {db : Db State} {w d : String} {draft : SigningDraft} {response merged : Psbt}
      {s : DraftState}
      (loaded : loadDraft env db w d = .ok draft)
      (unfinalized : draft.review.state ≠ .finalized)
      (merge : mergeResponse env draft.approved draft.stored response draft.trusted = .ok merged)
      (state : s = .signed ∨ s = .partiallySigned) :
      Effect (.accept w d) db
        ({ db with
            draftSignatures := db.draftSignatures.insert (w, d) (env.psbtText merged)
          }.updateReview w d (reviewText env (draft.review.withState s)))
  | finalize {db : Db State} {w d : String} {draft : SigningDraft} {tx : Transaction}
      (loaded : loadDraft env db w d = .ok draft)
      (unfinalized : draft.review.state ≠ .finalized)
      (final : finalizeTransaction env draft.approved draft.stored draft.trusted = .ok tx)
      (fresh : db.finalizedDrafts[(w, d)]? = none) :
      Effect (.finalize w d) db
        ({ db with
            finalizedDrafts := db.finalizedDrafts.insert (w, d) (env.serializeTx tx)
          }.updateReview w d (reviewText env (draft.review.withState .finalized)))
  | observe {db : Db State} {wallet : Wallet} {w d : String} {row : DraftRow} {r : DraftReview}
      {bytes : Bytes} {tx : Transaction}
      (found : db.selectDraft w d = some row)
      (review : row.reviewJson.parsed = some r)
      (submitted : db.submitted w d = true)
      (final : db.finalizedDrafts[(w, d)]? = some bytes)
      (decoded : env.deserializeTx bytes = some tx)
      (seen : observeTx env wallet tx ≠ .notSeen) :
      Effect (.observe wallet w d) db
        (((db.deleteRecovered w d).updateReview w d
          (reviewText env (r.withState .observed))).deleteReservations w d)
  | invalidate {db : Db State} {w d : String} {row : DraftRow} {r : DraftReview}
      (found : db.selectDraft w d = some row)
      (review : row.reviewJson.parsed = some r) :
      Effect (.invalidate w d) db
        ((db.updateReview w d (reviewText env (r.withState .invalidated))).deleteReservations w d)
  | attempt {db : Db State} {w d : String} {final : FinalizedReview} {row : AttemptRow}
      (validated : validatedFinalized env db w d = .ok (some final))
      (wallet : row.walletId = w)
      (draft : row.draftId = d)
      (txid : row.txid = final.txid)
      (wtxid : row.wtxid = final.wtxid) :
      Effect (.attempt w d) db
        { db with
          broadcastAttempts := db.broadcastAttempts.insert db.nextAttemptId row
          attemptSequence := db.nextAttemptId }
  | acknowledge {db : Db State} {id : Nat} {row : AttemptRow}
      (found : db.broadcastAttempts[id]? = some row) :
      Effect (.acknowledge id) db
        { db with
          broadcastAttempts := db.broadcastAttempts.insert id { row with acknowledged := true } }
  | resume {db : Db State} {w d : String} {row : DraftRow} {r : DraftReview}
      {final : FinalizedReview}
      (recovered : db.isRecovered w d = true)
      (found : db.selectDraft w d = some row)
      (review : row.reviewJson.parsed = some r)
      (state : r.state = .invalidated)
      (validated : validatedFinalized env (reserveInputs w d r.inputs
        (db.updateReview w d (reviewText env (r.withState .finalized)))) w d = .ok (some final)) :
      Effect (.resume w d) db
        ((reserveInputs w d r.inputs
          (db.updateReview w d (reviewText env (r.withState .finalized)))).deleteRecovered w d)
  | suspend {db db' : Db State} (checked : Suspendable env db) (suspended : Suspended env db db') :
      Effect .suspend db db'

/-- A path of effects, each of an allowed kind. -/
abbrev Path (allowed : Act Wallet → Prop) : Db State → Db State → Prop :=
  Relation.ReflTransGen (fun db db' => ∃ a, allowed a ∧ Effect env a db db')

/-- The path rule: what every allowed effect preserves, a path preserves. -/
theorem Path.invariant {allowed : Act Wallet → Prop} {I : Db State → Prop} {db db' : Db State}
    (hpath : Path env allowed db db')
    (hstep : ∀ a db db', allowed a → I db → Effect env a db db' → I db') (h : I db) : I db' := by
  induction hpath with
  | refl => exact h
  | tail _ hlast ih =>
      obtain ⟨a, ha, heffect⟩ := hlast
      exact hstep a _ _ ha ih heffect

theorem Path.mono {allowed allowed' : Act Wallet → Prop} (h : ∀ a, allowed a → allowed' a)
    {db db' : Db State} (hpath : Path env allowed db db') : Path env allowed' db db' := by
  induction hpath with
  | refl => exact .refl
  | tail _ hlast ih =>
      obtain ⟨a, ha, heffect⟩ := hlast
      exact ih.tail ⟨a, h a ha, heffect⟩

theorem Path.single {allowed : Act Wallet → Prop} {a : Act Wallet} (ha : allowed a)
    {db db' : Db State} (h : Effect env a db db') : Path env allowed db db' :=
  Relation.ReflTransGen.single ⟨a, ha, h⟩

end Effects
end Tundra
