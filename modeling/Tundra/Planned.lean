/-
  Tundra.Planned

  What `planDraft` has established about a new draft: its PSBT is within the
  limits, each input is an available coin of the wallet, and the review says
  what the wallet said at that moment.
-/

import Tundra.Drafts

namespace Tundra
namespace Engine

open Checked Relational Signing Drafts

variable {State Wallet Scan : Type} (env : Env State Wallet Scan)

/-- The text of an outpoint names it. -/
theorem displayOutPoint_inj {a b : OutPoint} (h : env.displayOutPoint a = env.displayOutPoint b) :
    a = b := by
  have hp := congrArg env.parseOutPoint h
  simpa only [env.parseOutPoint_display, Option.some.injEq] using hp

theorem coinStatus_eq_available {db : Db State} {w : String} {wallet : Wallet} {c : LocalOutput} :
    coinStatus env db w wallet c = .available ↔
      db.isFrozen w (env.displayOutPoint c.outpoint) = false ∧
      db.isReserved w (env.displayOutPoint c.outpoint) = false ∧
      isConfirmed c.chainPosition = true ∧
      (isCoinbaseTx env wallet c.outpoint.txid = true →
        spendable c.chainPosition (env.tipHeight wallet) true = true) := by
  unfold coinStatus
  by_cases hf : db.isFrozen w (env.displayOutPoint c.outpoint) = true
  · simp [hf]
  · by_cases hr : db.isReserved w (env.displayOutPoint c.outpoint) = true
    · simp [hf, hr]
    · by_cases hc : isConfirmed c.chainPosition = true
      · by_cases hi : isCoinbaseTx env wallet c.outpoint.txid = true
        · by_cases hs : spendable c.chainPosition (env.tipHeight wallet) true = true <;>
            simp [hf, hr, hc, hi, hs]
        · simp [hf, hr, hc, hi]
      · simp [hf, hr, hc]

/-- A confirmed output is spendable, unless it is an immature coinbase. -/
theorem spendable_of_confirmed {position : ChainPosition} {tip : Nat} {coinbase : Bool}
    (hc : isConfirmed position = true)
    (h : coinbase = true → spendable position tip true = true) :
    spendable position tip coinbase = true := by
  cases coinbase with
  | true => exact h rfl
  | false =>
      cases position with
      | confirmed height => rfl
      | unconfirmed seen => cases hc

/-- Every coin the wallet lists is one of its unspent outputs. -/
theorem walletCoins_mem {db : Db State} {w : String} {wallet : Wallet} {cs : List Coin}
    (h : walletCoins env db w wallet = .ok cs) {coin : Coin} (hcoin : coin ∈ cs) :
    ∃ c ∈ env.listUnspent wallet, coinOf env db w wallet c = .ok coin := by
  simp only [walletCoins, bind_eq_ok, Except.ok.injEq, mapM_eq_ok] at h
  obtain ⟨out, hout, rfl⟩ := h
  rw [List.mem_insertionSort] at hcoin
  obtain ⟨i, hi, rfl⟩ := List.getElem_of_mem hcoin
  have hi' : i < (env.listUnspent wallet).length := hout.length_eq ▸ hi
  exact ⟨_, List.getElem_mem hi', hout.get hi' hi⟩

theorem coinOf_fields {db : Db State} {w : String} {wallet : Wallet} {c : LocalOutput} {coin : Coin}
    (h : coinOf env db w wallet c = .ok coin) :
    coin.outpoint = env.displayOutPoint c.outpoint ∧ coin.sats = c.txout.value ∧
      coin.label = getLabel db w .output (env.displayOutPoint c.outpoint) ∧
      coin.status = coinStatus env db w wallet c := by
  simp only [coinOf, bind_eq_ok, Except.ok.injEq] at h
  obtain ⟨_, _, rfl⟩ := h
  exact ⟨rfl, rfl, rfl, rfl⟩

/-- What a reviewed input says about the coin it spends. -/
structure CoinFacts (db : Db State) (w : String) (wallet : Wallet) (op : OutPoint)
    (reviewed : ReviewedInput) (c : LocalOutput) : Prop where
  unspent : c ∈ env.listUnspent wallet
  outpoint : c.outpoint = op
  reviewed_outpoint : reviewed.outpoint = env.displayOutPoint op
  sats : reviewed.sats = c.txout.value
  label : reviewed.label = getLabel db w .output (env.displayOutPoint op)
  unfrozen : db.isFrozen w (env.displayOutPoint op) = false
  unreserved : db.isReserved w (env.displayOutPoint op) = false
  spendable : spendable c.chainPosition (env.tipHeight wallet)
    (isCoinbaseTx env wallet op.txid) = true

theorem reviewInput_facts {db : Db State} {w : String} {wallet : Wallet} {cs : List Coin}
    (hcs : walletCoins env db w wallet = .ok cs) {txin : TxIn} {reviewed : ReviewedInput}
    (h : reviewInput env (cs.filter (fun c => c.status = .available)) txin = .ok reviewed) :
    ∃ c, CoinFacts env db w wallet txin.previousOutput reviewed c := by
  simp only [reviewInput, bind_eq_ok, okOr_eq_ok, Except.ok.injEq] at h
  obtain ⟨coin, hfind, rfl⟩ := h
  have hmem := List.mem_of_find?_eq_some hfind
  have hop := List.find?_some hfind
  simp only [List.mem_filter, decide_eq_true_eq] at hmem hop
  obtain ⟨c, hc, hcoin⟩ := walletCoins_mem env hcs hmem.1
  obtain ⟨h₁, h₂, h₃, h₄⟩ := coinOf_fields env hcoin
  have heq : c.outpoint = txin.previousOutput := displayOutPoint_inj env (h₁ ▸ hop)
  rw [hmem.2] at h₄
  obtain ⟨hf, hr, hconf, hmature⟩ := (coinStatus_eq_available env).mp h₄.symm
  rw [heq] at hf hr hmature h₃
  exact ⟨c, hc, heq, rfl, h₂, h₃, hf, hr, spendable_of_confirmed hconf hmature⟩

/-- What `planDraft` returns. -/
structure PlanFacts (db : Db State) (l : Loaded State Wallet) (request : DraftRequest) (p : Psbt)
    (r : DraftReview) (wallet : Wallet) : Prop where
  wellFormed : p.WellFormed
  limits : WithinLimits env p
  inputs : List.Forall₂ (fun op reviewed => ∃ c,
    CoinFacts env db request.walletId l.wallet op reviewed c) p.unsignedTx.previousOutputs r.inputs
  outputs : ∃ target, List.Forall₂ (fun output reviewed =>
    reviewOutput env wallet l.summary.network (isConsolidation request.payment) target output =
      .ok reviewed) p.unsignedTx.output r.outputs
  fee : env.calculateFee wallet p.unsignedTx = some r.feeSats
  fee_le : r.feeSats ≤ 1000000
  id : r.id = draftIdentity env request.walletId p.unsignedTx
  walletId : r.walletId = request.walletId
  label : r.label = request.label
  state : r.state = .unsigned
  revealed : ∃ n, wallet = env.revealAll l.wallet (List.replicate n .internal)

theorem paymentTarget_revealed {l : Loaded State Wallet} {payment : Payment}
    {selected : Option (List OutPoint)} {target : Script} {wallet : Wallet}
    (h : paymentTarget env l payment selected = .ok (target, wallet)) :
    wallet = l.wallet ∨ wallet = (env.revealNextAddress l.wallet .internal).2 := by
  unfold paymentTarget at h
  cases payment with
  | consolidate acknowledged =>
      simp only [bind_eq_ok, exists_unit, Except.ok.injEq, Prod.mk.injEq] at h
      exact .inr h.2.2.2.symm
  | send address sats =>
      simp only [bind_eq_ok, exists_unit, Except.ok.injEq, Prod.mk.injEq] at h
      obtain ⟨_, _, _, _, h⟩ := h
      exact .inl h.symm
  | sendMax address =>
      simp only [bind_eq_ok, exists_unit, Except.ok.injEq, Prod.mk.injEq] at h
      obtain ⟨_, _, _, _, h⟩ := h
      exact .inl h.symm

theorem planDraft_facts {db : Db State} {l : Loaded State Wallet} {request : DraftRequest}
    {seed : Nat} {p : Psbt} {r : DraftReview} {wallet : Wallet}
    (h : planDraft env db l request seed = .ok (p, r, wallet)) :
    PlanFacts env db l request p r wallet := by
  simp only [planDraft, bind_eq_ok, require_eq_ok, exists_unit, okOr_eq_ok, orError_eq_ok,
    Prod.exists, mapM_eq_ok, Except.ok.injEq, Prod.mk.injEq, buildPsbt] at h
  obtain ⟨cs, hcs, selected, _, target, wallet₀, htarget, unspendable, _, _, _,
    ⟨_, built, _, rfl, rfl⟩, _, hlimits, _, inputs, hinputs, outputs, houtputs, _, fee, hfee, hfeele,
    rfl, rfl, rfl⟩ := h
  have hwf := built.wellFormed
  refine ⟨hwf, ((parseResponse_serializePsbt env hwf).mp hlimits).1, ?_,
    ⟨target, houtputs⟩, hfee, hfeele, rfl, rfl, rfl, rfl, ?_⟩
  · rw [Transaction.previousOutputs, List.forall₂_map_left_iff]
    exact hinputs.imp (fun _ _ hin => reviewInput_facts env hcs hin)
  · have hone : ∀ w : Wallet, (env.revealNextAddress w .internal).2 =
        env.revealAll w (List.replicate 1 .internal) := fun _ => rfl
    rcases paymentTarget_revealed env htarget with rfl | rfl <;> split_ifs
    · exact ⟨1, rfl⟩
    · exact ⟨0, rfl⟩
    · exact ⟨2, rfl⟩
    · exact ⟨1, rfl⟩

section Facts

variable {env}
variable {db : Db State} {l : Loaded State Wallet} {request : DraftRequest} {p : Psbt}
  {r : DraftReview} {wallet : Wallet}

/-- The review names the inputs of the transaction, in order. -/
theorem PlanFacts.outpoints (h : PlanFacts env db l request p r wallet) :
    outpoints r = p.unsignedTx.previousOutputs.map env.displayOutPoint := by
  unfold Drafts.outpoints
  have hin := h.inputs
  generalize p.unsignedTx.previousOutputs = ops at hin ⊢
  generalize r.inputs = reviews at hin ⊢
  induction hin with
  | nil => rfl
  | cons hfirst _ ih =>
      obtain ⟨c, hc⟩ := hfirst
      simp only [List.map_cons, hc.reviewed_outpoint, ih]

theorem PlanFacts.unreserved (h : PlanFacts env db l request p r wallet) {op : String}
    (hop : op ∈ Drafts.outpoints r) : db.isReserved request.walletId op = false := by
  obtain ⟨reviewed, hr, rfl⟩ := List.mem_map.mp hop
  obtain ⟨i, hi, rfl⟩ := List.getElem_of_mem hr
  have hi' : i < p.unsignedTx.previousOutputs.length := h.inputs.length_eq ▸ hi
  obtain ⟨c, hc⟩ := h.inputs.get hi' hi
  simp only [List.get_eq_getElem] at hc
  rw [hc.reviewed_outpoint]
  exact hc.unreserved

end Facts

/-- Inserting the reservations of a new draft, one input after the other. -/
theorem insertReservations_eq_ok {w d : String} {inputs : List ReviewedInput} {db db' : Db State}
    (hrow : (db.selectDraft w d).isSome = true) :
    insertReservations w d inputs db = .ok db' ↔
      ((inputs.map ReviewedInput.outpoint).Nodup ∧
        ∀ i ∈ inputs, db.reservations[(w, i.outpoint)]? = none) ∧
      db' = { db with
        reservations := db.reservations.insertAll (inputs.map (fun i => (w, i.outpoint))) d } := by
  unfold insertReservations
  induction inputs generalizing db with
  | nil =>
      rw [List.foldlM_nil, pure_eq_ok]
      exact ⟨fun h => ⟨⟨List.nodup_nil, fun i hi => by cases hi⟩, h.symm⟩, fun h => h.2.symm⟩
  | cons i inputs ih =>
      simp only [List.foldlM_cons, bind_eq_ok, Db.insertReservation, require_eq_ok, hrow,
        exists_unit, okOr_eq_ok, Table.insertNew_eq_some, Except.ok.injEq, true_and]
      have hstep := @ih { db with reservations := db.reservations.insert (w, i.outpoint) d } hrow
      constructor
      · rintro ⟨_, ⟨_, ⟨hnone, rfl⟩, rfl⟩, h⟩
        obtain ⟨⟨hnodup, hfresh⟩, rfl⟩ := hstep.mp h
        have hnot : i.outpoint ∉ inputs.map ReviewedInput.outpoint := by
          rintro hmem
          obtain ⟨j, hj, hij⟩ := List.mem_map.mp hmem
          have hf := hfresh j hj
          simp [hij] at hf
        refine ⟨⟨List.nodup_cons.mpr ⟨hnot, hnodup⟩, ?_⟩, rfl⟩
        intro j hj
        rcases List.mem_cons.mp hj with rfl | hj
        · exact hnone
        · have hf := hfresh j hj
          rw [Table.get_insert_ne] at hf
          · exact hf
          · intro heq
            simp only [Prod.mk.injEq] at heq
            exact hnot (List.mem_map.mpr ⟨j, hj, heq.2.symm⟩)
      · rintro ⟨⟨hnodup, hfresh⟩, rfl⟩
        obtain ⟨hnot, hnodup⟩ := List.nodup_cons.mp hnodup
        refine ⟨_, ⟨_, ⟨hfresh i (List.mem_cons_self ..), rfl⟩, rfl⟩, hstep.mpr ⟨⟨hnodup, ?_⟩, rfl⟩⟩
        intro j hj
        rw [Table.get_insert_ne]
        · exact hfresh j (List.mem_cons_of_mem _ hj)
        · intro heq
          simp only [Prod.mk.injEq] at heq
          exact hnot (List.mem_map.mpr ⟨j, hj, heq.2.symm⟩)

end Engine
end Tundra
