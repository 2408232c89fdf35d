/-
  Tundra.Fixture.Rebuilt

  The block that confirmed the funding output comes back after the payment was
  invalidated.  The coin is available again, but the same payment cannot be
  built: its draft is still stored under the id of its transaction.
-/

import Tundra.Fixture.Evicted
import Tundra.Created

namespace Tundra
namespace Fixture

open Ascii Wire Relational Checked Engine Signing Created

/-! ## The block comes back -/

/-- The account's row after the reorganization, and after the block is back. -/
def evictedRow : WalletRow TestWallet := syncedRow (spentRow []) evictedWallet 2000

def rebuiltRow : WalletRow TestWallet := syncedRow evictedRow (spentWallet []) 3000

/-- The store after the sync that invalidated the payment. -/
def evictedStore : Db TestWallet where
  wallets := (∅ : Table String (WalletRow TestWallet)).insert walletId evictedRow
  drafts := (∅ : Table String DraftRow).insert (paymentId payeeScript)
    (phaseRow payeeScript payeeAddress [] 0 .invalidated)
  syncState := (∅ : Table String SyncStateRow).insert walletId
    { revision := 2, endpoint := serverUrl }

/-- What the third sync starts from. -/
def rebuiltSnapshot : Sync.Snapshot where
  syncedAt := some 2000
  revision := 2
  serialized := env.stateJson evictedWallet
  endpoint := serverUrl

/-- The store after the block is back. -/
def rebuiltStore : Db TestWallet :=
  { evictedStore with
    wallets := (∅ : Table String (WalletRow TestWallet)).insert walletId rebuiltRow
    syncState := (∅ : Table String SyncStateRow).insert walletId
      { revision := 3, endpoint := serverUrl } }

theorem spent_canonical : (spentWallet []).canonical = (fundedWallet []).canonical := rfl

/-- The funding output is the wallet's only one. -/
theorem spent_reindex : (spentWallet []).reindex = spentWallet [] := by
  have hown : (spentWallet []).ownOutputs
      (fundingId, { tx := fundingTx [], chainPosition := .confirmed 102 }) = [fundingCoin] := by
    decide
  have hspent : fundingCoin.outpoint ∉ (fundingTx []).previousOutputs := by decide
  rw [TestWallet.reindex, spent_canonical, funded_canonical, List.flatMap_singleton,
    List.flatMap_singleton, hown, List.filter_cons_of_pos (by simpa using hspent)]
  rfl

theorem apply_rebuilt : (onChain evictedWallet (confirmedScan [])).applyUpdate computeTxid
    (confirmedScan []) = some (spentWallet []) := by
  have hchain : ¬ (onChain evictedWallet (confirmedScan [])).chain.isEmpty := by
    have hblocks : (onChain evictedWallet (confirmedScan [])).chain = confirmedBlocks := rfl
    rw [hblocks]
    decide
  -- the transaction and its anchor are known already
  have hnew : (onChain evictedWallet (confirmedScan [])).newTxs computeTxid [fundingTx []] = [] := rfl
  have hanchors : [fundingAnchor].filter
      (fun a => a ∉ (onChain evictedWallet (confirmedScan [])).anchors) = [] := by
    have hsame : (onChain evictedWallet (confirmedScan [])).anchors = [fundingAnchor] := rfl
    rw [hsame]
    decide
  rw [TestWallet.applyUpdate, if_neg hchain]
  show some (TestWallet.reindex { onChain evictedWallet (confirmedScan []) with
    graph := [(fundingId, fundingTx [])] ++
      (onChain evictedWallet (confirmedScan [])).newTxs computeTxid [fundingTx []]
    anchors := [fundingAnchor] ++ [fundingAnchor].filter
      (fun a => a ∉ (onChain evictedWallet (confirmedScan [])).anchors) }) = _
  rw [hnew, hanchors]
  conv_rhs => rw [← spent_reindex]
  rfl

/-! ## The third sync -/

theorem evicted_held : HoldsAccount evictedStore evictedRow where
  wallets := rfl
  state := ⟨rfl, imported_ofAccount.receive, imported_ofAccount.change⟩
  name := rfl
  network := rfl
  policy := rfl

-- the record of crates is deeper than the default limit
set_option maxRecDepth 2000 in
/-- The invalidated payment is left as it is. -/
theorem sweep_rebuilt : Sync.invalidateDrafts env evictedStore walletId (spentWallet []) =
    .ok evictedStore := by
  let review := (paymentReview payeeScript payeeAddress).withState .invalidated
  have hdrafts : Sync.walletDrafts evictedStore walletId =
      [(paymentId payeeScript, reviewText env review)] := by
    have hrow : (phaseRow payeeScript payeeAddress [] 0 .invalidated).walletId = walletId := rfl
    have htable : evictedStore.drafts.toList =
        [(paymentId payeeScript, phaseRow payeeScript payeeAddress [] 0 .invalidated)] :=
      toList_singleton _ _
    rw [Sync.walletDrafts, Table.selectRows, htable, List.filter_cons_of_pos (by simp [hrow])]
    rfl
  have hobserve : Broadcast.observeDraft env evictedStore walletId review (spentWallet []) =
      .ok none := by
    have hlatest : Broadcast.latest evictedStore walletId review.id = none := rfl
    rw [Broadcast.observeDraft, hlatest]
  have heligible : fundingText ∈ Sync.eligible env (spentWallet []) := by
    have hunspent : env.listUnspent (spentWallet []) = [fundingCoin] := (spent_knows []).unspent
    have hspendable : spendable fundingCoin.chainPosition (env.tipHeight (spentWallet []))
        (isCoinbaseTx env (spentWallet []) fundingCoin.outpoint.txid) = true := by
      have hfunding : env.getTx (spentWallet []) fundingCoin.outpoint.txid = _ :=
        (spent_knows []).funding
      have hcrate : env.isCoinbase = isCoinbase := rfl
      have hcoinbase : isCoinbase (fundingTx []) = false := by decide
      rw [isCoinbaseTx, hfunding, Option.any_some, hcrate, hcoinbase]
      rfl
    have hmem : fundingCoin ∈ [fundingCoin].filter (fun c => spendable c.chainPosition
        (env.tipHeight (spentWallet [])) (isCoinbaseTx env (spentWallet []) c.outpoint.txid)) :=
      List.mem_filter.mpr ⟨List.mem_cons_self, hspendable⟩
    have hdisplay : env.displayOutPoint fundingCoin.outpoint = fundingText := rfl
    rw [Sync.eligible, hunspent]
    exact List.mem_map.mpr ⟨fundingCoin, hmem, hdisplay⟩
  have hkept : ¬ (review.state = .observed ∨
      ∃ i ∈ review.inputs, i.outpoint ∉ Sync.eligible env (spentWallet [])) := by
    rintro (hstate | ⟨i, hi, hgone⟩)
    · cases hstate
    · obtain rfl := List.mem_singleton.mp hi
      exact hgone heligible
  have hparse : parseReview (reviewText env review) = .ok review := rfl
  rw [Sync.invalidateDrafts, hdrafts, List.foldlM_cons, Sync.sweepDraft, hparse, ok_bind, hobserve,
    ok_bind]
  dsimp only
  rw [if_neg hkept]
  rfl

theorem evicted_revision : Sync.revision evictedStore walletId = 2 := by
  have hget : evictedStore.syncState[walletId]? = some { revision := 2, endpoint := serverUrl } :=
    Table.get_insert_self _ _ _
  rw [Sync.revision, hget]
  rfl

/-- A sync counts itself. -/
theorem bump_singleton {db : Db TestWallet} {revision : Nat}
    (h : db.syncState = (∅ : Table String SyncStateRow).insert walletId
      { revision, endpoint := serverUrl }) :
    Sync.bumpRevision db walletId serverUrl =
      { db with
        syncState := (∅ : Table String SyncStateRow).insert walletId
          { revision := revision + 1, endpoint := serverUrl } } := by
  rw [Sync.bumpRevision, h, Table.get_insert_self]
  dsimp only
  rw [insert_singleton]

-- the record of crates is deeper than the default limit
set_option maxRecDepth 2000 in
theorem commit_rebuilt : Sync.commitSync env evictedStore walletId rebuiltSnapshot
    (confirmedScan []) 3000 = .ok ((), rebuiltStore) := by
  rw [evicted_held.commit rebuiltSnapshot 3000 evicted_revision rfl apply_rebuilt sweep_rebuilt rfl]
  have hendpoint : rebuiltSnapshot.endpoint = serverUrl := rfl
  rw [hendpoint, @bump_singleton _ 2 rfl]
  rfl

theorem singleton_get {κ ν : Type} [Ord κ] [Std.TransOrd κ] [Std.LawfulEqOrd κ] [DecidableEq κ]
    {k a : κ} {u v : ν} (h : ((∅ : Table κ ν).insert k u)[a]? = some v) : a = k ∧ v = u := by
  rw [Table.get_insert] at h
  split_ifs at h with heq
  · exact ⟨heq.symm, by cases h; rfl⟩
  · rw [Std.ExtTreeMap.getElem?_empty] at h
    cases h

/-- The invalidated draft, and no reservation. -/
theorem evictedDrafts_store : { evictedDrafts payeeScript payeeAddress with
      wallets := (∅ : Table String (WalletRow TestWallet)).insert walletId evictedRow } =
    ({ evictedStore with
        syncState := (paymentStore payeeScript payeeAddress []).syncState } : Db TestWallet) := by
  have hdrafts : (paymentStore payeeScript payeeAddress []).drafts.insert (paymentId payeeScript)
      (phaseRow payeeScript payeeAddress [] 0 .invalidated) = evictedStore.drafts := insert_singleton ..
  have hreservations : (paymentStore payeeScript payeeAddress []).reservations.deleteWhere
      (fun k d => k.1 = walletId ∧ d = paymentId payeeScript) = ∅ := by
    apply Table.ext
    intro k
    rw [Std.ExtTreeMap.getElem?_empty, Option.eq_none_iff_forall_ne_some]
    intro d hd
    obtain ⟨hold, hkept⟩ := Table.get_deleteWhere_eq_some.mp hd
    -- the only reservation is the payment's
    obtain ⟨rfl, rfl⟩ := singleton_get hold
    simp at hkept
  rw [evictedDrafts_eq, hdrafts, Db.deleteReservations, hreservations]
  rfl

theorem commit_evicted : Sync.commitSync env (paymentStore payeeScript payeeAddress []) walletId
    evictedSnapshot evictedScan 2000 = .ok ((), evictedStore) := by
  rw [(payment_held payeeScript payeeAddress []).toHoldsAccount.commit evictedSnapshot 2000 rfl rfl
    apply_evicted sweep_evicted (by rw [evictedDrafts_eq]; rfl)]
  have hrow : syncedRow (spentRow []) evictedWallet (Sync.observedAt evictedSnapshot 2000) =
    evictedRow := rfl
  have hendpoint : evictedSnapshot.endpoint = serverUrl := rfl
  have hsync : (paymentStore payeeScript payeeAddress []).syncState =
      (∅ : Table String SyncStateRow).insert walletId { revision := 1, endpoint := serverUrl } := rfl
  have hbump := @bump_singleton { evictedStore with
    syncState := (paymentStore payeeScript payeeAddress []).syncState } 1 hsync
  rw [hrow, hendpoint, evictedDrafts_store, hbump]
  rfl

/-- The payment, the reorganization that takes its input away, and its return. -/
def rebuiltRun : List (System.Op ChainScan) :=
  evictedRun ++ [.commitSync walletId rebuiltSnapshot (confirmedScan []) 3000]

-- the record of crates is deeper than the default limit
set_option maxRecDepth 2000 in
theorem run_rebuilt : System.run env rebuiltRun = { db := rebuiltStore } := by
  have hevicted : System.step env { db := paymentStore payeeScript payeeAddress [] }
      (.commitSync walletId evictedSnapshot evictedScan 2000) = { db := evictedStore } := by
    refine System.step_ok env ?_ (fun now => by rintro ⟨⟩)
    rw [System.transact, commit_evicted]
    rfl
  have hrebuilt : System.step env { db := evictedStore }
      (.commitSync walletId rebuiltSnapshot (confirmedScan []) 3000) = { db := rebuiltStore } := by
    refine System.step_ok env ?_ (fun now => by rintro ⟨⟩)
    rw [System.transact, commit_rebuilt]
    rfl
  rw [rebuiltRun, System.run_concat, evictedRun, System.run_concat,
    run_payment payee_payable payee_fits, hevicted, hrebuilt]

/-! ## The payment again -/

theorem rebuilt_held : HoldsAccount rebuiltStore rebuiltRow where
  wallets := rfl
  state := ⟨rfl, imported_ofAccount.receive, imported_ofAccount.change⟩
  name := rfl
  network := rfl
  policy := rfl

theorem rebuilt_draft : rebuiltStore.drafts[paymentId payeeScript]? =
    some (phaseRow payeeScript payeeAddress [] 0 .invalidated) := Table.get_insert_self _ _ _

/-- No draft holds the funding output any more. -/
theorem rebuilt_unreserved : rebuiltStore.isReserved walletId fundingText = false :=
  isReserved_eq_false.mpr ⟨Std.ExtTreeMap.getElem?_empty, fun _ => Std.ExtTreeMap.getElem?_empty⟩

theorem rebuilt_coin : coinOf env rebuiltStore walletId (spentWallet []) fundingCoin =
    .ok fundingRow :=
  (spent_knows []).coin (by rw [getLabel]; rfl) rfl rebuilt_unreserved

theorem rebuilt_expired : Expired env rebuiltStore walletId (paymentId payeeScript)
    ((paymentReview payeeScript payeeAddress).withState .invalidated) where
  stored := Drafts.reviewOf_eq_some.mpr ⟨_, rebuilt_draft, rfl, rfl⟩
  ended := rfl
  available := by
    refine ⟨loadedAccount rebuiltRow, rebuilt_held.load, fun text htext => ⟨fundingCoin, ?_, ?_⟩⟩
    · have hunspent : env.listUnspent (spentWallet []) = [fundingCoin] := (spent_knows []).unspent
      refine availableOutput_iff.mpr ⟨?_, ((coinOf_fields env rebuilt_coin).2.2.2).symm⟩
      show fundingCoin ∈ env.listUnspent (spentWallet [])
      rw [hunspent]
      exact List.mem_cons_self
    · exact (List.mem_singleton.mp htext).symm

/-- A builder that returns the payment again. -/
def sameBuilder : Builder TestWallet := fun _ _ => some (paymentPsbt payeeScript [], false)

-- the record of crates is deeper than the default limit
set_option maxRecDepth 2000 in
theorem plan_rebuilt : planWith env sameBuilder rebuiltStore (loadedAccount rebuiltRow)
    (paymentRequest payeeAddress) =
      .ok (paymentPsbt payeeScript [], paymentReview payeeScript payeeAddress, spentWallet []) := by
  have hcoins : walletCoins env rebuiltStore walletId (loadedAccount rebuiltRow).wallet =
      .ok [fundingRow] :=
    (spent_knows []).walletCoins (by rw [getLabel]; rfl) rfl rebuilt_unreserved
  have hselect : ∀ cs, selectCoins env cs (paymentRequest payeeAddress).selectedOutpoints =
      .ok none := fun _ => rfl
  have htarget : paymentTarget env (loadedAccount rebuiltRow) (paymentRequest payeeAddress).payment
      none = .ok (payeeScript, spentWallet []) := payment_target payee_payable
  have hexcluded : excludedOutpoints env [fundingRow] = .ok [] := rfl
  have hbuilt : ∀ params : BuildParams, params.selected = none →
      buildWith env sameBuilder (spentWallet []) params =
        .ok (paymentPsbt payeeScript [], spentWallet []) := by
    intro params hparams
    rw [buildWith, hparams]
    rfl
  have horError : orError (.ok (paymentPsbt payeeScript [])) (Error.invalidInput
      "transaction exceeds signing payload limits") = .ok (paymentPsbt payeeScript []) := rfl
  have havailable : [fundingRow].filter (fun c => c.status = .available) = [fundingRow] := rfl
  have hsingle : isConsolidation (paymentRequest payeeAddress).payment = false := rfl
  have hnetwork : (loadedAccount rebuiltRow).summary.network = .regtest := rfl
  have hinputs : (paymentTx payeeScript []).input.mapM (reviewInput env [fundingRow]) =
      .ok (paymentReview payeeScript payeeAddress).inputs := payment_reviewed
  have houtputs : (paymentTx payeeScript []).output.mapM
      (reviewOutput env (spentWallet []) .regtest false payeeScript) =
        .ok (paymentReview payeeScript payeeAddress).outputs := payment_outputs payee_payable
  have hlen : false = true → (paymentReview payeeScript payeeAddress).outputs.length = 1 ∧
      ∀ o ∈ (paymentReview payeeScript payeeAddress).outputs.head?, o.isMine = true := by
    intro hconsolidate
    cases hconsolidate
  have hfee : env.calculateFee (spentWallet []) (paymentTx payeeScript []) = some 141 := payment_fee
  have hcap : (141 : UInt64) ≤ 1000000 := by decide
  have hid : draftIdentity env (paymentRequest payeeAddress).walletId (paymentTx payeeScript []) =
      paymentId payeeScript := paymentId_eq payeeScript
  rw [planWith]
  show (walletCoins env rebuiltStore walletId (loadedAccount rebuiltRow).wallet >>= _) = _
  rw [hcoins, ok_bind]
  dsimp only
  rw [hselect, ok_bind, htarget, ok_bind]
  dsimp only
  rw [hexcluded, ok_bind, hbuilt _ rfl, ok_bind]
  dsimp only
  rw [payment_parse payee_fits, horError, ok_bind, payment_unsigned, havailable, hsingle,
    Option.all_none, require_of rfl, ok_bind, hinputs, ok_bind, hnetwork, houtputs, ok_bind,
    require_of hlen, ok_bind, hfee, okOr, ok_bind, require_of hcap, ok_bind, hid]
  rfl

theorem rebuilt_buildable : Buildable env sameBuilder rebuiltStore (paymentRequest payeeAddress)
    (paymentPsbt payeeScript []) where
  label := Labels.validateLabel_eq_ok.mpr ⟨by decide, List.forall_iff_forall_mem.mp (by decide)⟩
  feeRate := by decide
  planned := ⟨loadedAccount rebuiltRow, _, _, rebuilt_held.load, by decide, Option.some_ne_none _,
    plan_rebuilt⟩
  distinct := List.nodup_singleton _

/-- The invalidated payment cannot be built again: its draft is in the way. -/
theorem payment_not_rebuilt : ¬ RebuildsExpired env := by
  intro h
  have hrun := h rebuiltRun sameBuilder (paymentRequest payeeAddress) 0 (paymentPsbt payeeScript [])
    (paymentId payeeScript) ((paymentReview payeeScript payeeAddress).withState .invalidated)
  rw [run_rebuilt] at hrun
  have hfresh := rebuilt_buildable.fresh (hrun rebuilt_expired rebuilt_buildable)
  have hid : draftIdentity env (paymentRequest payeeAddress).walletId
      (paymentPsbt payeeScript []).unsignedTx = paymentId payeeScript := by
    rw [payment_unsigned]
    exact paymentId_eq payeeScript
  rw [hid, rebuilt_draft] at hfresh
  cases hfresh

/-- The payment is refused exactly because its draft is stored. -/
theorem payment_rebuilt_iff :
    (∃ out, createWith env sameBuilder rebuiltStore (paymentRequest payeeAddress) 0 = .ok out) ↔
      rebuiltStore.drafts[draftIdentity env (paymentRequest payeeAddress).walletId
        (paymentPsbt payeeScript []).unsignedTx]? = none :=
  rebuild_iff rebuilt_buildable

end Fixture
end Tundra
