/-
  Tundra.Created

  What the creation of a draft commits.  The builder is not trusted: creation is
  written over a `Builder` that may return any PSBT, of which the crate's is one
  (`createDraft_eq`), and what is committed is stated of the PSBT, of the coins
  it spends and of the tables (`Commits`).
-/

import Tundra.Stable
import Tundra.Signing.Truth

namespace Tundra
namespace Created

open Checked Relational Engine Signing Drafts Effects

variable {State Wallet Scan : Type} (env : Env State Wallet Scan)

/-! ## Creation over any builder -/

/-- A transaction builder: the PSBT it returns, and whether it took a fresh
    change address. -/
abbrev Builder (Wallet : Type) := Wallet → BuildParams → Option (Psbt × Bool)

/-- The builder of the crate. -/
def crateBuilder (seed : Nat) : Builder Wallet := fun wallet params =>
  (env.finishTx seed wallet params).map (fun built => (built.psbt, built.revealsChange))

/-- Run a builder; the wallet it leaves may have revealed a change address. -/
def buildWith (builder : Builder Wallet) (wallet : Wallet) (params : BuildParams) :
    Result (Psbt × Wallet) := do
  require (params.selected.all (env.addUtxos wallet) = true) .unavailableCoin
  let (psbt, revealsChange) ← okOr (builder wallet params) .cannotBuild
  .ok (psbt, if revealsChange then (env.revealNextAddress wallet .internal).2 else wallet)

/-- `planDraft` with another builder. -/
def planWith (builder : Builder Wallet) (db : Db State) (l : Loaded State Wallet)
    (request : DraftRequest) : Result (Psbt × DraftReview × Wallet) := do
  let cs ← walletCoins env db request.walletId l.wallet
  let available := cs.filter (fun c => c.status = .available)
  let selected ← selectCoins env available request.selectedOutpoints
  let consolidate := isConsolidation request.payment
  let (target, wallet) ← paymentTarget env l request.payment selected
  let unspendable ← excludedOutpoints env cs
  let (psbt, wallet) ← buildWith env builder wallet
    { feeSatPerKwu := request.feeSatPerKwu
      unspendable
      selected
      target := buildTarget request.payment target }
  let _ ← orError (parseResponse env (env.serializePsbt psbt))
    (.invalidInput "transaction exceeds signing payload limits")
  let actual := psbt.unsignedTx.previousOutputs
  require (selected.all (fun chosen => (∀ op ∈ actual, op ∈ chosen) ∧ ∀ op ∈ chosen, op ∈ actual))
    .corruptState
  let inputs ← psbt.unsignedTx.input.mapM (reviewInput env available)
  let outputs ← psbt.unsignedTx.output.mapM
    (reviewOutput env wallet l.summary.network consolidate target)
  require (consolidate = true → outputs.length = 1 ∧ ∀ o ∈ outputs.head?, o.isMine = true)
    .corruptState
  let fee ← okOr (env.calculateFee wallet psbt.unsignedTx) .corruptState
  require (fee ≤ 1000000) (.invalidInput "fee exceeds the development safety cap")
  .ok (psbt,
    { id := draftIdentity env request.walletId psbt.unsignedTx
      walletId := request.walletId
      inputs
      outputs
      feeSats := fee
      feeSatPerKwu := some request.feeSatPerKwu
      label := request.label
      isConsolidation := consolidate
      state := .unsigned },
    wallet)

/-- `createDraft` with another builder. -/
def createWith (builder : Builder Wallet) (db : Db State) (request : DraftRequest) (now : Nat) :
    Result (DraftReview × Db State) := do
  Labels.validateLabel request.label
  require (1 ≤ request.feeSatPerKwu ∧ request.feeSatPerKwu ≤ 250000)
    (.invalidInput "fee rate must be 1–250000 sat/kwu")
  let l ← load env db request.walletId
  require (l.summary.network ≠ .mainnet) (.unavailable "mainnet spending")
  require (l.summary.syncedAt ≠ none) (.unavailable "blockchain synchronization")
  let (psbt, review, wallet) ← planWith env builder db l request
  let db ← db.insertDraft review.id
    { walletId := request.walletId
      psbt := env.psbtText psbt
      reviewJson := reviewText env review
      label := request.label
      createdAt := now }
  let db ← insertReservations request.walletId review.id review.inputs db
  .ok (review, save env db request.walletId { l with wallet })

theorem buildWith_crate (seed : Nat) (wallet : Wallet) (params : BuildParams) :
    buildWith env (crateBuilder env seed) wallet params =
      (do
        let (built, wallet) ← buildPsbt env seed wallet params
        .ok (built.psbt, wallet)) := by
  unfold buildWith buildPsbt crateBuilder
  by_cases hadd : params.selected.all (env.addUtxos wallet) = true
  · rw [require_of hadd, ok_bind, ok_bind]
    cases env.finishTx seed wallet params with
    | none => rfl
    | some built => rfl
  · rw [require_of_not hadd]
    rfl

theorem planDraft_eq (db : Db State) (l : Loaded State Wallet) (request : DraftRequest)
    (seed : Nat) :
    planDraft env db l request seed = planWith env (crateBuilder env seed) db l request := by
  simp only [planDraft, planWith, buildWith_crate, bind_assoc, ok_bind]

/-- The creation of the engine is creation over the builder of the crate. -/
theorem createDraft_eq (db : Db State) (request : DraftRequest) (seed now : Nat) :
    createDraft env db request seed now =
      createWith env (crateBuilder env seed) db request now := by
  simp only [createDraft, createWith, planDraft_eq]

/-! ## What is committed -/

/-- An output that may be spent: unspent, confirmed and mature, and neither
    frozen, reserved nor held. -/
structure AvailableOutput (db : Db State) (w : String) (wallet : Wallet) (c : LocalOutput) :
    Prop where
  unspent : c ∈ env.listUnspent wallet
  confirmed : ∃ height, c.chainPosition = .confirmed height ∧
    (isCoinbaseTx env wallet c.outpoint.txid = true → 100 ≤ env.tipHeight wallet - height + 1)
  unfrozen : db.isFrozen w (env.displayOutPoint c.outpoint) = false
  unreserved : db.reservations[(w, env.displayOutPoint c.outpoint)]? = none
  unheld : ∀ d : String, db.recoveryHolds[(w, env.displayOutPoint c.outpoint, d)]? = none

/-- The review of an input names the coin, its sats and its label. -/
structure ReviewsCoin (db : Db State) (w : String) (c : LocalOutput) (reviewed : ReviewedInput) :
    Prop where
  outpoint : reviewed.outpoint = env.displayOutPoint c.outpoint
  sats : reviewed.sats = c.txout.value
  label : reviewed.label = getLabel db w .output (env.displayOutPoint c.outpoint)

/-- A committed draft: its PSBT `p` spends the coins, and nothing else than the
    draft, its reservations and the wallet's snapshot has changed. -/
structure Commits (db : Db State) (request : DraftRequest) (review : DraftReview) (db' : Db State)
    (l l' : Loaded State Wallet) (p : Psbt) (coins : List LocalOutput) : Prop where
  loaded : load env db request.walletId = .ok l
  reloaded : load env db' request.walletId = .ok l'
  available : ∀ c ∈ coins, AvailableOutput env db request.walletId l.wallet c
  spends : coins.map LocalOutput.outpoint = p.unsignedTx.previousOutputs
  distinct : p.unsignedTx.previousOutputs.Nodup
  selected : ∀ ids, request.selectedOutpoints = some ids →
    (p.unsignedTx.previousOutputs.map env.displayOutPoint).Perm ids
  consolidated : isConsolidation request.payment = true →
    ∃ output, p.unsignedTx.output = [output] ∧ env.isMine l'.wallet output.scriptPubkey = true
  fee : ExactFee coins p.unsignedTx.output review.feeSats
  inputs : List.Forall₂ (ReviewsCoin env db request.walletId) coins review.inputs
  outputs : List.Forall₂ (TruthfulOutput env l.summary.network l'.wallet) p.unsignedTx.output
    review.outputs
  stored : ∃ row, db'.drafts = db.drafts.insert review.id row ∧ row.walletId = request.walletId ∧
    row.psbt = env.psbtText p ∧ row.reviewJson.parsed = some review
  reserved : ∀ w op, db'.reservations[(w, op)]? =
    if w = request.walletId ∧ op ∈ p.unsignedTx.previousOutputs.map env.displayOutPoint then
      some review.id
    else db.reservations[(w, op)]?
  wallets : ∀ w, w ≠ request.walletId → db'.wallets[w]? = db.wallets[w]?
  others : db' = { db with
    drafts := db'.drafts, reservations := db'.reservations, wallets := db'.wallets }

/-- What a plan has established about the PSBT the builder returned. -/
structure PlannedWith (db : Db State) (l : Loaded State Wallet) (request : DraftRequest) (p : Psbt)
    (review : DraftReview) (wallet : Wallet) (coins : List LocalOutput) : Prop where
  available : ∀ c ∈ coins, AvailableOutput env db request.walletId l.wallet c
  spends : coins.map LocalOutput.outpoint = p.unsignedTx.previousOutputs
  selected : ∀ ids, request.selectedOutpoints = some ids → ids.Nodup ∧
    ∀ text, text ∈ p.unsignedTx.previousOutputs.map env.displayOutPoint ↔ text ∈ ids
  inputs : List.Forall₂ (ReviewsCoin env db request.walletId) coins review.inputs
  outputs : ∃ target, List.Forall₂ (fun output reviewed =>
    reviewOutput env wallet l.summary.network (isConsolidation request.payment) target output =
      .ok reviewed) p.unsignedTx.output review.outputs
  consolidated : isConsolidation request.payment = true →
    review.outputs.length = 1 ∧ ∀ o ∈ review.outputs.head?, o.isMine = true
  fee : env.calculateFee wallet p.unsignedTx = some review.feeSats
  fee_le : review.feeSats ≤ 1000000
  revealed : ∃ n, wallet = env.revealAll l.wallet (List.replicate n .internal)
  identity : review.id = draftIdentity env request.walletId p.unsignedTx

/-- What a creation has checked and written. -/
structure CreatedWith (db : Db State) (request : DraftRequest) (now : Nat) (review : DraftReview)
    (db' : Db State) (l : Loaded State Wallet) (p : Psbt) (wallet : Wallet) : Prop where
  loaded : load env db request.walletId = .ok l
  fresh : db.drafts[review.id]? = none
  distinct : (outpoints review).Nodup
  saved : db' = save env { db with
    drafts := db.drafts.insert review.id
      { walletId := request.walletId
        psbt := env.psbtText p
        reviewJson := reviewText env review
        label := request.label
        createdAt := now }
    reservations := reserveAll request.walletId review.id (outpoints review) db.reservations }
    request.walletId { l with wallet }

section Facts

variable {env}
variable {db : Db State} {w : String} {wallet : Wallet}

theorem isReserved_eq_false {op : String} :
    db.isReserved w op = false ↔
      db.reservations[(w, op)]? = none ∧ ∀ d : String, db.recoveryHolds[(w, op, d)]? = none := by
  rw [← Bool.not_eq_true, isReserved_eq_true, not_or, not_exists, not_exists,
    Option.eq_none_iff_forall_ne_some]
  refine and_congr_right fun _ => forall_congr' fun d => ?_
  cases db.recoveryHolds[(w, op, d)]? with
  | none => simp
  | some u => simp

/-- The outputs that may be spent are those the wallet lists as available. -/
theorem availableOutput_iff {c : LocalOutput} :
    AvailableOutput env db w wallet c ↔
      c ∈ env.listUnspent wallet ∧ coinStatus env db w wallet c = .available := by
  rw [coinStatus_eq_available, isReserved_eq_false]
  constructor
  · rintro ⟨hunspent, ⟨height, hheight, hmature⟩, hfrozen, hres, hheld⟩
    have hconfirmed : isConfirmed c.chainPosition = true := by
      rw [hheight]
      rfl
    exact ⟨hunspent, hfrozen, ⟨hres, hheld⟩, hconfirmed, fun hcoinbase =>
      spendable_eq_true.mpr ⟨height, hheight, fun _ => hmature hcoinbase⟩⟩
  · rintro ⟨hunspent, hfrozen, ⟨hres, hheld⟩, hconfirmed, hmature⟩
    obtain ⟨height, hheight, hdeep⟩ := spendable_eq_true.mp
      (spendable_of_confirmed hconfirmed hmature)
    exact ⟨hunspent, ⟨height, hheight, hdeep⟩, hfrozen, hres, hheld⟩

theorem available_of_facts {op : OutPoint} {reviewed : ReviewedInput} {c : LocalOutput}
    (h : CoinFacts env db w wallet op reviewed c) :
    AvailableOutput env db w wallet c ∧ ReviewsCoin env db w c reviewed := by
  have hop := h.outpoint
  subst hop
  obtain ⟨hres, hheld⟩ := isReserved_eq_false.mp h.unreserved
  exact ⟨⟨h.unspent, spendable_eq_true.mp h.spendable, h.unfrozen, hres, hheld⟩,
    h.reviewed_outpoint, h.sats, h.label⟩

/-- The coins of the inputs, in order. -/
theorem exists_spent {cs : List Coin} (hcs : walletCoins env db w wallet = .ok cs)
    {inputs : List TxIn} {reviews : List ReviewedInput}
    (h : List.Forall₂ (fun txin reviewed =>
      reviewInput env (cs.filter (fun c => c.status = .available)) txin = .ok reviewed)
      inputs reviews) :
    ∃ coins : List LocalOutput, (∀ c ∈ coins, AvailableOutput env db w wallet c) ∧
      coins.map LocalOutput.outpoint = inputs.map TxIn.previousOutput ∧
      List.Forall₂ (ReviewsCoin env db w) coins reviews := by
  induction h with
  | nil => exact ⟨[], List.forall_mem_nil _, rfl, .nil⟩
  | cons hrow _ ih =>
      obtain ⟨c, hfacts⟩ := reviewInput_facts env hcs hrow
      obtain ⟨coins, havailable, hspends, hreviews⟩ := ih
      obtain ⟨hc, hreview⟩ := available_of_facts hfacts
      refine ⟨c :: coins, List.forall_mem_cons.mpr ⟨hc, havailable⟩, ?_, .cons hreview hreviews⟩
      rw [List.map_cons, List.map_cons, hspends, hfacts.outpoint]

/-- The selected outpoints are the texts they were given as. -/
theorem selectCoins_texts {cs : List Coin} (hcs : walletCoins env db w wallet = .ok cs)
    {ids : List String} {chosen : Option (List OutPoint)}
    (h : selectCoins env (cs.filter (fun c => c.status = .available)) (some ids) = .ok chosen) :
    ∃ ops, chosen = some ops ∧ ops.map env.displayOutPoint = ids ∧ ids.Nodup := by
  simp only [selectCoins, bind_eq_ok, require_eq_ok, exists_unit, mapM_eq_ok, Except.ok.injEq,
    outpoint, okOr_eq_ok] at h
  obtain ⟨-, hnodup, ops, hall, rfl⟩ := h
  refine ⟨ops, rfl, ?_, hnodup⟩
  clear hnodup
  induction hall with
  | nil => rfl
  | cons hrow _ ih =>
      obtain ⟨⟨coin, hcoin, rfl⟩, hparse⟩ := hrow
      obtain ⟨c, -, hc⟩ := walletCoins_mem env hcs (List.mem_filter.mp hcoin).1
      rw [(coinOf_fields env hc).1, env.parseOutPoint_display, Option.some.injEq] at hparse
      rw [List.map_cons, ih, ← hparse, (coinOf_fields env hc).1]

theorem planWith_facts {builder : Builder Wallet} {l : Loaded State Wallet}
    {request : DraftRequest} {p : Psbt} {review : DraftReview} {wallet : Wallet}
    (h : planWith env builder db l request = .ok (p, review, wallet)) :
    ∃ coins, PlannedWith env db l request p review wallet coins := by
  simp only [planWith, buildWith, bind_eq_ok, require_eq_ok, exists_unit, okOr_eq_ok,
    orError_eq_ok, Prod.exists, mapM_eq_ok, Except.ok.injEq, Prod.mk.injEq] at h
  obtain ⟨cs, hcs, chosen, hchosen, target, wallet₀, htarget, -, -, _, _, ⟨-, _, reveals, -, rfl, rfl⟩,
    -, -, hsame, inputs, hinputs, outputs, houtputs, hconsolidated, fee, hfee, hfeele, rfl, rfl, rfl⟩ := h
  obtain ⟨coins, havailable, hspends, hreviews⟩ := exists_spent hcs hinputs
  refine ⟨coins, havailable, hspends, ?_, hreviews, ⟨target, houtputs⟩, hconsolidated, hfee,
    hfeele, ?_, rfl⟩
  · rintro ids hids
    rw [hids] at hchosen
    obtain ⟨ops, rfl, rfl, hnodup⟩ := selectCoins_texts hcs hchosen
    simp only [Option.all_some, decide_eq_true_eq] at hsame
    refine ⟨hnodup, fun text => ⟨fun htext => ?_, fun htext => ?_⟩⟩
    · obtain ⟨op, hop, rfl⟩ := List.mem_map.mp htext
      exact List.mem_map_of_mem (hsame.1 op hop)
    · obtain ⟨op, hop, rfl⟩ := List.mem_map.mp htext
      exact List.mem_map_of_mem (hsame.2 op hop)
  · -- a consolidation has revealed one address, and the builder perhaps another
    have hone : ∀ w : Wallet, (env.revealNextAddress w .internal).2 =
        env.revealAll w (List.replicate 1 .internal) := fun _ => rfl
    rcases paymentTarget_revealed env htarget with rfl | rfl <;> split_ifs
    · exact ⟨1, rfl⟩
    · exact ⟨0, rfl⟩
    · exact ⟨2, rfl⟩
    · exact ⟨1, rfl⟩

theorem createWith_facts {builder : Builder Wallet} {request : DraftRequest} {now : Nat}
    {review : DraftReview} {db' : Db State}
    (h : createWith env builder db request now = .ok (review, db')) :
    ∃ l p wallet, planWith env builder db l request = .ok (p, review, wallet) ∧
      CreatedWith env db request now review db' l p wallet := by
  simp only [createWith, bind_eq_ok, require_eq_ok, exists_unit, Prod.exists, Except.ok.injEq,
    Prod.mk.injEq] at h
  obtain ⟨-, -, l, hload, -, -, p, _, wallet, hplan, db₁, hinsert, db₂, hreserve, rfl, rfl⟩ := h
  simp only [Db.insertDraft, bind_eq_ok, require_eq_ok, exists_unit, okOr_eq_ok,
    Table.insertNew_eq_some, Except.ok.injEq] at hinsert
  obtain ⟨-, _, ⟨hfresh, rfl⟩, rfl⟩ := hinsert
  obtain ⟨⟨hnodup, -⟩, rfl⟩ := (insertReservations_eq_ok (by
    exact selectDraft_isSome.mpr ⟨_, Table.get_insert_self .., rfl⟩)).mp hreserve
  refine ⟨l, p, wallet, hplan, hload, hfresh, hnodup, ?_⟩
  rw [reserveAll, outpoints, List.map_map]
  rfl

theorem save_others (l : Loaded State Wallet) :
    save env db w l = { db with wallets := (save env db w l).wallets } ∧
      ∀ w', w' ≠ w → (save env db w l).wallets[w']? = db.wallets[w']? := by
  unfold save Db.updateState
  split
  · exact ⟨rfl, fun w' hne => Table.get_insert_ne _ _ hne.symm⟩
  · exact ⟨rfl, fun _ _ => rfl⟩

section Planned

variable {l : Loaded State Wallet} {request : DraftRequest} {p : Psbt} {review : DraftReview}
  {coins : List LocalOutput}

/-- The review names the inputs of the PSBT, in order. -/
theorem PlannedWith.outpoints
    (h : PlannedWith env db l request p review wallet coins) :
    outpoints review = p.unsignedTx.previousOutputs.map env.displayOutPoint := by
  rw [← h.spends, List.map_map, Drafts.outpoints]
  have hreviews := h.inputs
  clear h
  generalize review.inputs = reviews at hreviews
  induction hreviews with
  | nil => rfl
  | cons hrow _ ih =>
      rw [List.map_cons, List.map_cons, ih, hrow.outpoint]
      rfl

/-- The outputs of the review are those of the PSBT, for a wallet that recognises
    the same scripts. -/
theorem PlannedWith.truthful {wallet' : Wallet}
    (h : PlannedWith env db l request p review wallet coins)
    (hmine : ∀ script, env.isMine wallet' script = env.isMine wallet script) :
    List.Forall₂ (TruthfulOutput env l.summary.network wallet') p.unsignedTx.output
      review.outputs := by
  obtain ⟨target, houtputs⟩ := h.outputs
  refine houtputs.imp fun output reviewed hreview => ?_
  simp only [reviewOutput, bind_eq_ok, okOr_eq_ok, Except.ok.injEq] at hreview
  obtain ⟨address, haddress, rfl⟩ := hreview
  refine ⟨haddress, rfl, (hmine _).symm, fun hchange => ?_⟩
  simp only [Bool.and_eq_true] at hchange
  rw [hmine, hchange.2]

/-- The coins pay for the outputs and the fee. -/
theorem PlannedWith.exactFee
    (h : PlannedWith env db l request p review wallet coins) :
    ExactFee coins p.unsignedTx.output review.feeSats := by
  obtain ⟨n, hreveal⟩ := h.revealed
  have hview : Stable.Extends env l.wallet wallet := hreveal ▸ Stable.extends_revealAll l.wallet _
  have hunspent : ∀ c ∈ coins, c ∈ env.listUnspent wallet := by
    intro c hc
    rw [hview.listUnspent]
    exact (h.available c hc).unspent
  obtain ⟨hsum, hlt⟩ := env.calculateFee_eq wallet p.unsignedTx review.feeSats coins h.fee hunspent
    h.spends
  exact ⟨by omega, hsum, UInt64.le_iff_toNat_le.mp h.fee_le⟩

/-- A consolidation pays one output, the wallet's own. -/
theorem PlannedWith.single {wallet' : Wallet}
    (h : PlannedWith env db l request p review wallet coins)
    (hmine : ∀ script, env.isMine wallet' script = env.isMine wallet script)
    (hconsolidation : isConsolidation request.payment = true) :
    ∃ output, p.unsignedTx.output = [output] ∧ env.isMine wallet' output.scriptPubkey = true := by
  obtain ⟨hlength, hhead⟩ := h.consolidated hconsolidation
  have htruth := h.truthful hmine
  obtain ⟨reviewed, hreviewed⟩ := List.length_eq_one_iff.mp hlength
  rw [hreviewed] at htruth hhead
  obtain ⟨output, houtput⟩ := List.length_eq_one_iff.mp htruth.length_eq
  rw [houtput] at htruth ⊢
  cases htruth with
  | cons hrow _ => exact ⟨output, rfl, by rw [← hrow.isMine, hhead reviewed rfl]⟩

end Planned

/-- A creation commits what its review shows, whatever the builder returned. -/
theorem createWith_commits {builder : Builder Wallet} {request : DraftRequest} {now : Nat}
    {review : DraftReview} {db' : Db State}
    (h : createWith env builder db request now = .ok (review, db')) :
    ∃ l l' p coins, Commits env db request review db' l l' p coins := by
  obtain ⟨l, p, wallet, hplan, hcreated⟩ := createWith_facts h
  obtain ⟨coins, hplanned⟩ := planWith_facts hplan
  obtain ⟨n, hreveal⟩ := hplanned.revealed
  let written : Db State := { db with
    drafts := db.drafts.insert review.id
      { walletId := request.walletId
        psbt := env.psbtText p
        reviewJson := reviewText env review
        label := request.label
        createdAt := now }
    reservations := reserveAll request.walletId review.id (outpoints review) db.reservations }
  have hsaved : db' = save env written request.walletId { l with wallet } := hcreated.saved
  obtain ⟨hothers, hwallets⟩ := @save_others _ _ _ env written request.walletId { l with wallet }
  rw [← hsaved] at hothers hwallets
  have hsame : written.wallets = db.wallets := rfl
  obtain ⟨l', hload', -, -, hmine⟩ := Stable.load_save hcreated.loaded hsame
    (List.replicate n .internal)
  rw [← hreveal, ← hsaved] at hload'
  rw [← hreveal] at hmine
  have hnodup := hcreated.distinct
  rw [hplanned.outpoints] at hnodup
  refine ⟨l, l', p, coins, ?_⟩
  exact
    { loaded := hcreated.loaded
      reloaded := hload'
      available := hplanned.available
      spends := hplanned.spends
      distinct := List.Nodup.of_map _ hnodup
      selected := fun ids hids => (List.perm_ext_iff_of_nodup hnodup (hplanned.selected ids hids).1).mpr
        (hplanned.selected ids hids).2
      consolidated := hplanned.single hmine
      fee := hplanned.exactFee
      inputs := hplanned.inputs
      outputs := hplanned.truthful hmine
      stored := ⟨_, congrArg Db.drafts hothers, rfl, rfl, rfl⟩
      reserved := by
        intro w op
        rw [congrArg Db.reservations hothers, ← hplanned.outpoints]
        exact reserveAll_get ..
      wallets := hwallets
      others := by
        rw [hothers] }

end Facts

/-- A draft that is created is committed with exactly what its review shows, whatever
    the builder returned, and a refused creation changes nothing. -/
theorem create_draft_commits :
    (∀ (builder : Builder Wallet) (db : Db State) (request : DraftRequest) (now : Nat)
      (review : DraftReview) (db' : Db State),
      createWith env builder db request now = .ok (review, db') →
        ∃ l l' p coins, Commits env db request review db' l l' p coins) ∧
    ∀ (world : System.World State) (request : DraftRequest) (seed now : Nat),
      System.step env world (.createDraft request seed now : System.Op Scan) =
        match createWith env (crateBuilder env seed) world.db request now with
        | .ok (_, db') => { world with db := db' }
        | .error _ => world := by
  refine ⟨fun _ _ _ _ _ _ h => createWith_commits h, fun world request seed now => ?_⟩
  rw [← createDraft_eq]
  unfold System.step System.transact
  dsimp only
  cases createDraft env world.db request seed now with
  | error e => rfl
  | ok out => rfl

/-! ## Building a draft again -/

/-- A request and a PSBT that pass every check of a creation: the builder returns
    the PSBT, its plan succeeds and its inputs are distinct. -/
structure Buildable (builder : Builder Wallet) (db : Db State) (request : DraftRequest) (p : Psbt) :
    Prop where
  label : Labels.validateLabel request.label = .ok ()
  feeRate : 1 ≤ request.feeSatPerKwu ∧ request.feeSatPerKwu ≤ 250000
  planned : ∃ l review wallet, load env db request.walletId = .ok l ∧
    l.summary.network ≠ .mainnet ∧ l.summary.syncedAt ≠ none ∧
    planWith env builder db l request = .ok (p, review, wallet)
  distinct : p.unsignedTx.previousOutputs.Nodup

/-- A stored draft that is no longer live, whose inputs may be spent again. -/
structure Expired (db : Db State) (w d : String) (r : DraftReview) : Prop where
  stored : reviewOf db w d = some r
  ended : r.state.isLive = false
  available : ∃ l, load env db w = .ok l ∧ ∀ text ∈ outpoints r,
    ∃ c, AvailableOutput env db w l.wallet c ∧ env.displayOutPoint c.outpoint = text

/-- In every reachable state an expired draft can be built again. -/
def RebuildsExpired : Prop :=
  ∀ (ops : List (System.Op Scan)) (builder : Builder Wallet) (request : DraftRequest) (now : Nat)
    (p : Psbt) (d : String) (r : DraftReview),
    Expired env (System.run env ops).db request.walletId d r →
    Buildable env builder (System.run env ops).db request p →
    ∃ out, createWith env builder (System.run env ops).db request now = .ok out

section Rebuilding

variable {env}
variable {db : Db State} {builder : Builder Wallet} {request : DraftRequest} {now : Nat} {p : Psbt}

/-- A stored draft of the same transaction stands in the way. -/
theorem Buildable.fresh (h : Buildable env builder db request p)
    (hout : ∃ out, createWith env builder db request now = .ok out) :
    db.drafts[draftIdentity env request.walletId p.unsignedTx]? = none := by
  obtain ⟨⟨review, db'⟩, hout⟩ := hout
  obtain ⟨l, _, _, hload, _, _, hplan⟩ := h.planned
  obtain ⟨l', p', wallet', hplan', hcreated⟩ := createWith_facts hout
  have hloaded := hcreated.loaded
  rw [hload, Except.ok.injEq] at hloaded
  subst hloaded
  rw [hplan, Except.ok.injEq, Prod.mk.injEq, Prod.mk.injEq] at hplan'
  obtain ⟨rfl, rfl, rfl⟩ := hplan'
  obtain ⟨_, hplanned⟩ := planWith_facts hplan
  rw [← hplanned.identity]
  exact hcreated.fresh

/-- Nothing but a stored draft of the same transaction stands in the way. -/
theorem Buildable.created (h : Buildable env builder db request p)
    (hfresh : db.drafts[draftIdentity env request.walletId p.unsignedTx]? = none) :
    ∃ out, createWith env builder db request now = .ok out := by
  obtain ⟨l, review, wallet, hload, hnetwork, hsynced, hplan⟩ := h.planned
  obtain ⟨coins, hplanned⟩ := planWith_facts hplan
  obtain ⟨wrow, _, hrow, _⟩ := Snapshots.load_row env hload
  rw [← hplanned.identity] at hfresh
  let row : DraftRow :=
    { walletId := request.walletId
      psbt := env.psbtText p
      reviewJson := reviewText env review
      label := request.label
      createdAt := now }
  have hinsert : db.insertDraft review.id row =
      .ok { db with drafts := db.drafts.insert review.id row } := by
    have hwallet : (db.wallets[row.walletId]?).isSome = true := by
      show (db.wallets[request.walletId]?).isSome = true
      rw [hrow]
      rfl
    rw [Db.insertDraft, require_of hwallet, ok_bind,
      Table.insertNew_eq_some.mpr ⟨hfresh, rfl⟩, okOr_some, ok_bind]
  -- the inputs are distinct and nobody has reserved them
  have hselect : (Db.selectDraft { db with drafts := db.drafts.insert review.id row }
      request.walletId review.id).isSome = true :=
    selectDraft_isSome.mpr ⟨row, Table.get_insert_self .., rfl⟩
  have hinputs : (review.inputs.map ReviewedInput.outpoint).Nodup ∧
      ∀ i ∈ review.inputs, db.reservations[(request.walletId, i.outpoint)]? = none := by
    have hnames : review.inputs.map ReviewedInput.outpoint =
        p.unsignedTx.previousOutputs.map env.displayOutPoint := hplanned.outpoints
    refine ⟨hnames ▸ h.distinct.map fun a b hab => displayOutPoint_inj env hab, fun i hi => ?_⟩
    obtain ⟨j, hj, rfl⟩ := List.getElem_of_mem hi
    have hj' : j < coins.length := hplanned.inputs.length_eq ▸ hj
    have hreviewed := hplanned.inputs.get hj' hj
    simp only [List.get_eq_getElem] at hreviewed
    rw [hreviewed.outpoint]
    exact (hplanned.available _ (List.getElem_mem hj')).unreserved
  have hreserve := (insertReservations_eq_ok hselect).mpr ⟨hinputs, rfl⟩
  rw [createWith, h.label, ok_bind, require_of h.feeRate, ok_bind, hload, ok_bind,
    require_of hnetwork, ok_bind, require_of hsynced, ok_bind, hplan, ok_bind]
  dsimp only
  rw [hinsert, ok_bind, hreserve, ok_bind]
  exact ⟨_, rfl⟩

/-- A draft can be built, whatever drafts are stored, exactly when none of them
    is stored under the id of its transaction. -/
theorem rebuild_iff (h : Buildable env builder db request p) :
    (∃ out, createWith env builder db request now = .ok out) ↔
      db.drafts[draftIdentity env request.walletId p.unsignedTx]? = none :=
  ⟨h.fresh, h.created⟩

end Rebuilding

end Created
end Tundra
