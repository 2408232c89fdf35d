/-
  Tundra.Fixture.Evicted

  A reorganization takes the block away that confirmed the funding output, and
  the sync that sees it invalidates the payment.
-/

import Tundra.Fixture.Spending

namespace Tundra
namespace Fixture

open Ascii Wire Relational Checked Engine Signing

/-- What a scan finds once the confirming block is gone. -/
def evictedScan : ChainScan where
  blocks := (∅ : Table Nat BlockHash).insert 0 (genesisHash .regtest)
  update := {}

/-- The wallet without the funding output. -/
def evictedWallet : TestWallet :=
  { onChain (spentWallet []) evictedScan with
    unspent := []
    outputs := [] }

theorem apply_evicted : (onChain (spentWallet []) evictedScan).applyUpdate computeTxid evictedScan =
    some evictedWallet := by
  decide +kernel

/-- What the second sync starts from. -/
def evictedSnapshot : Sync.Snapshot where
  syncedAt := some 1000
  revision := 1
  serialized := env.stateJson (spentWallet [])
  endpoint := serverUrl

section Sweep

variable {script : Script} {address : String}

theorem walletDrafts_payment : Sync.walletDrafts (paymentStore script address []) walletId =
    [(paymentId script, reviewText env (paymentReview script address))] := by
  have hdrafts : (paymentStore script address []).drafts.toList =
      [(paymentId script, paymentRow script address [] 0)] := toList_singleton _ _
  have hwallet : (paymentRow script address [] 0).walletId = walletId := rfl
  rw [Sync.walletDrafts, Table.selectRows, hdrafts, List.filter_cons_of_pos (by simp [hwallet])]
  rfl

/-- The payment is invalidated, and its reservation ends. -/
def evictedDrafts (script : Script) (address : String) : Db TestWallet :=
  (Sync.updateReviewById (paymentStore script address []) (paymentId script)
    (reviewText env ((paymentReview script address).withState .invalidated))).deleteReservations
    walletId (paymentId script)

-- the record of crates is deeper than the default limit
set_option maxRecDepth 2000 in
theorem sweep_evicted : Sync.invalidateDrafts env (paymentStore script address []) walletId
    evictedWallet = .ok (evictedDrafts script address) := by
  have hobserve : Broadcast.observeDraft env (paymentStore script address []) walletId
      (paymentReview script address) evictedWallet = .ok none := by
    have hlatest : Broadcast.latest (paymentStore script address []) walletId
        (paymentReview script address).id = none := rfl
    rw [Broadcast.observeDraft, hlatest]
  have hgone : (paymentReview script address).state = .observed ∨
      ∃ i ∈ (paymentReview script address).inputs, i.outpoint ∉ Sync.eligible env evictedWallet := by
    refine .inr ⟨_, List.mem_singleton_self _, ?_⟩
    exact List.not_mem_nil
  have hsweep : Sync.sweepDraft env walletId evictedWallet (paymentStore script address [])
      (paymentId script, reviewText env (paymentReview script address)) =
      .ok (evictedDrafts script address) := by
    have hparse : parseReview (reviewText env (paymentReview script address)) =
      .ok (paymentReview script address) := rfl
    rw [Sync.sweepDraft, hparse, ok_bind, hobserve, ok_bind]
    dsimp only
    rw [if_pos hgone, evictedDrafts]
  rw [Sync.invalidateDrafts, walletDrafts_payment, List.foldlM_cons, hsweep]
  rfl

theorem evictedDrafts_eq : evictedDrafts script address =
    ({ paymentStore script address [] with
        drafts := (paymentStore script address []).drafts.insert (paymentId script)
          (phaseRow script address [] 0 .invalidated) } : Db TestWallet).deleteReservations walletId
      (paymentId script) := by
  have hget : (paymentStore script address []).drafts[paymentId script]? =
      some (paymentRow script address [] 0) := Table.get_insert_self _ _ _
  rw [evictedDrafts, Sync.updateReviewById, hget]
  rfl

end Sweep

/-- The payment to somebody else, and the sync that takes its input away. -/
def evictedRun : List (System.Op ChainScan) :=
  paymentRun payeeAddress [] ++ [.commitSync walletId evictedSnapshot evictedScan 2000]

-- the record of crates is deeper than the default limit
set_option maxRecDepth 2000 in
theorem run_evicted : Drafts.stateOf (System.run env evictedRun).db walletId
    (paymentId payeeScript) = some .invalidated := by
  have hheld := payment_held payeeScript payeeAddress []
  obtain ⟨db, hcommit, hdrafts⟩ : ∃ db, Sync.commitSync env
      (paymentStore payeeScript payeeAddress []) walletId evictedSnapshot evictedScan 2000 =
      .ok ((), db) ∧ db.drafts = (evictedDrafts payeeScript payeeAddress).drafts :=
    ⟨_, hheld.toHoldsAccount.commit evictedSnapshot 2000 rfl rfl apply_evicted sweep_evicted
      (by rw [evictedDrafts_eq]; rfl), rfl⟩
  have hstep : System.step env { db := paymentStore payeeScript payeeAddress [] }
      (.commitSync walletId evictedSnapshot evictedScan 2000) = { db } := by
    refine System.step_ok env ?_ (fun now => by rintro ⟨⟩)
    rw [System.transact, hcommit]
    rfl
  have hdraft : (evictedDrafts payeeScript payeeAddress).drafts[paymentId payeeScript]? =
      some (phaseRow payeeScript payeeAddress [] 0 .invalidated) := by
    rw [evictedDrafts_eq]
    exact Table.get_insert_self _ _ _
  rw [evictedRun, System.run_concat, run_payment payee_payable payee_fits, hstep]
  have hfound : db.drafts[paymentId payeeScript]? = _ := hdrafts ▸ hdraft
  exact Drafts.stateOf_eq_some.mpr ⟨_, Drafts.reviewOf_eq_some.mpr ⟨_, hfound, rfl, rfl⟩, rfl⟩

end Fixture
end Tundra
