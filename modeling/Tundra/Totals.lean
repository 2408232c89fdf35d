/-
  Tundra.Totals

  The sums the engine shows: the balances of a wallet's summary and the delta of
  every transaction of its history, with their 64-bit arithmetic in a build that
  checks overflow and in one that wraps.  They are exact, and nothing panics,
  exactly when the balances stay below 2^64 and every amount of the history
  below 2^63 (`exactTotals_iff`).
-/

import Tundra.Created
import Tundra.Lib.Overflow

namespace Tundra
namespace Totals

open Checked Relational Engine Overflow

/-! ## The arithmetic of BDK -/

/-- The crates with what the sums of a transaction are made of.  BDK adds
    `Amount`s, whose addition panics in every build when it does not fit. -/
structure BalanceEnv (State Wallet Scan : Type) extends Env State Wallet Scan where
  /-- The values of the wallet's own outputs that a transaction spends. -/
  spentValues : Wallet → Transaction → List UInt64
  sentAndReceived_eq : ∀ w tx (sent received : UInt64),
    sumU64 .checked (spentValues w tx) = some sent →
    sumU64 .checked ((tx.output.filter (fun o => isMine w o.scriptPubkey)).map TxOut.value) =
      some received →
    sentAndReceived w tx = (sent, received)

variable {State Wallet Scan : Type} (env : BalanceEnv State Wallet Scan)

/-- The values a transaction pays to the wallet. -/
def receivedValues (w : Wallet) (tx : Transaction) : List UInt64 :=
  (tx.output.filter (fun o => env.isMine w o.scriptPubkey)).map TxOut.value

/-- `sent_and_received`; `none` is a panic. -/
def sentAndReceived (w : Wallet) (tx : Transaction) : Option (UInt64 × UInt64) := do
  let sent ← sumU64 .checked (env.spentValues w tx)
  let received ← sumU64 .checked (receivedValues env w tx)
  some (sent, received)

/-! ## The operations -/

/-- One row of the history; `none` is a panic. -/
def activityRow (build : Build) (db : Db State) (id : String) (w : Wallet) (t : WalletTx) :
    Option Activity := do
  let (sent, received) ← sentAndReceived env w t.tx
  let delta ← subI64 build received.toInt64 sent.toInt64
  some
    { txid := env.displayTxid (env.computeTxid t.tx)
      label := getLabel db id .tx (env.displayTxid (env.computeTxid t.tx))
      deltaSats := delta.toInt
      confirmed := isConfirmed t.chainPosition }

/-- `activity`, in a build. -/
def activity (build : Build) (db : Db State) (id : String) : Option (Result (List Activity)) :=
  match load env.toEnv db id with
  | .error e => some (.error e)
  | .ok l =>
      ((env.listTransactions l.wallet).mapM (activityRow env build db id l.wallet)).map .ok

/-- `summary`, in a build. -/
def summary (build : Build) (db : Db State) (id : String) : Option (Result WalletSummary) :=
  match load env.toEnv db id with
  | .error e => some (.error e)
  | .ok l =>
      match l.summary.syncedAt with
      | none => some (.ok l.summary)
      | some _ =>
          match walletCoins env.toEnv db id l.wallet with
          | .error e => some (.error e)
          | .ok cs => do
              let total ← sumU64 build (cs.map Coin.sats)
              let available ← sumU64 build
                ((cs.filter (fun c => c.status = .available)).map Coin.sats)
              some (.ok
                { l.summary with
                  totalSats := some total
                  availableSats := some available })

/-- The results of a list of calls, up to the first error. -/
def collect {α : Type} (f : String → Option (Result α)) : List String → Option (Result (List α))
  | [] => some (.ok [])
  | id :: ids =>
      match f id with
      | none => none
      | some (.error e) => some (.error e)
      | some (.ok a) => (collect f ids).map (fun rest => rest.map (fun rest => a :: rest))

/-- The ids of the wallets by creation time and id. -/
def walletIds (db : Db State) : List String :=
  (db.wallets.toList.insertionSort (fun a b => a.2.createdAt ≤ b.2.createdAt)).map Prod.fst

/-- `wallets`, in a build. -/
def wallets (build : Build) (db : Db State) : Option (Result (List WalletSummary)) :=
  collect (summary env build db) (walletIds db)

section Rows

variable {env}
variable {db : Db State} {id : String} {w : Wallet}

theorem mapM_eq_some {α β : Type} {f : α → Option β} {l : List α} {l' : List β} :
    l.mapM f = some l' ↔ List.Forall₂ (fun a b => f a = some b) l l' := by
  induction l generalizing l' with
  | nil => simp [eq_comm]
  | cons a l ih =>
      rw [List.mapM_cons, List.forall₂_cons_left_iff]
      simp only [Option.bind_eq_bind, Option.bind_eq_some_iff, ih, Option.pure_def,
        Option.some.injEq]
      constructor
      · rintro ⟨b, hb, bs, hbs, rfl⟩
        exact ⟨b, bs, hb, hbs, rfl⟩
      · rintro ⟨b, bs, hb, hbs, rfl⟩
        exact ⟨b, hb, bs, hbs, rfl⟩

theorem mapM_total {α β : Type} {f : α → Option β} {R : α → β → Prop} {l : List α}
    (h : ∀ a ∈ l, ∃ b, f a = some b ∧ R a b) : ∃ l', l.mapM f = some l' ∧ List.Forall₂ R l l' := by
  induction l with
  | nil => exact ⟨[], rfl, .nil⟩
  | cons a l ih =>
      obtain ⟨⟨b, hb, hR⟩, hall⟩ := List.forall_mem_cons.mp h
      obtain ⟨bs, hbs, hRs⟩ := ih hall
      exact ⟨b :: bs, mapM_eq_some.mpr (.cons hb (mapM_eq_some.mp hbs)), .cons hR hRs⟩

theorem sentAndReceived_eq_some {tx : Transaction} {sent received : UInt64} :
    sentAndReceived env w tx = some (sent, received) ↔
      sumU64 .checked (env.spentValues w tx) = some sent ∧
      sumU64 .checked (receivedValues env w tx) = some received := by
  simp [sentAndReceived, Option.bind_eq_some_iff]

theorem activityRow_eq_some {build : Build} {t : WalletTx} {row : Activity} :
    activityRow env build db id w t = some row ↔
      ∃ sent received, sentAndReceived env w t.tx = some (sent, received) ∧
      ∃ delta, subI64 build received.toInt64 sent.toInt64 = some delta ∧
        { txid := env.displayTxid (env.computeTxid t.tx)
          label := getLabel db id .tx (env.displayTxid (env.computeTxid t.tx))
          deltaSats := delta.toInt
          confirmed := isConfirmed t.chainPosition } = row := by
  simp only [activityRow, Option.bind_eq_bind, Option.bind_eq_some_iff, Prod.exists,
    Option.some.injEq]

end Rows

/-- The history of a build that wraps is the engine's, unless BDK panics. -/
theorem activity_wrapping {db : Db State} {id : String} {result : Result (List Activity)}
    (h : activity env .wrapping db id = some result) : Engine.activity env.toEnv db id = result := by
  unfold activity at h
  unfold Engine.activity
  cases hload : load env.toEnv db id with
  | error e =>
      rw [hload] at h
      cases h
      rfl
  | ok l =>
      rw [hload] at h
      obtain ⟨rows, hrows, rfl⟩ := Option.map_eq_some_iff.mp h
      rw [ok_bind, Except.ok.injEq, ← List.forall₂_eq_eq_eq, List.forall₂_map_left_iff]
      refine (mapM_eq_some.mp hrows).imp fun t row hrow => ?_
      obtain ⟨sent, received, hsums, delta, hdelta, rfl⟩ := activityRow_eq_some.mp hrow
      obtain ⟨hsent, hreceived⟩ := sentAndReceived_eq_some.mp hsums
      have hwrap : delta = received.toInt64 - sent.toInt64 := by
        unfold subI64 settle at hdelta
        split_ifs at hdelta <;> cases hdelta <;> rfl
      rw [env.sentAndReceived_eq l.wallet t.tx sent received hsent hreceived, hwrap]

/-! ## When they are exact -/

/-- What the wallet's unspent outputs hold. -/
def unspentSats (w : Wallet) : Nat :=
  exactSum ((env.listUnspent w).map (fun c => c.txout.value))

/-- What its available coins hold. -/
def availableSats (db : Db State) (id : String) (w : Wallet) : Nat :=
  exactSum (((env.listUnspent w).filter (fun c => coinStatus env.toEnv db id w c = .available)).map
    (fun c => c.txout.value))

/-- The balances of a summary are the exact sums, once the wallet is synced. -/
def ExactSummary (db : Db State) (s : WalletSummary) : Prop :=
  ∀ l, load env.toEnv db s.id = .ok l → l.summary.syncedAt ≠ none →
    s.totalSats.map UInt64.toNat = some (unspentSats env l.wallet) ∧
    s.availableSats.map UInt64.toNat = some (availableSats env db s.id l.wallet)

/-- The delta of a row is the exact difference of two sums that were neither
    wrapped nor changed by a cast. -/
def ExactDelta (w : Wallet) (t : WalletTx) (row : Activity) : Prop :=
  ∃ sent received, sentAndReceived env w t.tx = some (sent, received) ∧
    sent.toInt64.toInt = exactSum (env.spentValues w t.tx) ∧
    received.toInt64.toInt = exactSum (receivedValues env w t.tx) ∧
    row.deltaSats = (exactSum (receivedValues env w t.tx) : Int) -
      exactSum (env.spentValues w t.tx)

/-- No call panics, and what is returned is exact, in either build. -/
structure ExactTotals (db : Db State) : Prop where
  wallets : ∀ build, ∃ result, wallets env build db = some result ∧
    ∀ summaries, result = .ok summaries → ∀ s ∈ summaries, ExactSummary env db s
  summary : ∀ build id, ∃ result, summary env build db id = some result ∧
    ∀ s, result = .ok s → s.id = id ∧ ExactSummary env db s
  activity : ∀ build id, ∃ result, activity env build db id = some result ∧
    ∀ rows, result = .ok rows → ∃ l, load env.toEnv db id = .ok l ∧
      List.Forall₂ (ExactDelta env l.wallet) (env.listTransactions l.wallet) rows

/-- The balances fit in 64 bits, and the amounts of the history in 63. -/
structure InRange (db : Db State) : Prop where
  balances : ∀ id l cs, load env.toEnv db id = .ok l → l.summary.syncedAt ≠ none →
    walletCoins env.toEnv db id l.wallet = .ok cs → unspentSats env l.wallet < 2 ^ 64
  amounts : ∀ id l, load env.toEnv db id = .ok l → ∀ t ∈ env.listTransactions l.wallet,
    exactSum (env.spentValues l.wallet t.tx) < 2 ^ 63 ∧
    exactSum (receivedValues env l.wallet t.tx) < 2 ^ 63

section Exact

variable {env}
variable {db : Db State} {id : String} {w : Wallet}

/-- The coins of a wallet hold what its unspent outputs hold. -/
theorem exactSum_coins {cs : List Coin} (h : walletCoins env.toEnv db id w = .ok cs) :
    exactSum (cs.map Coin.sats) = unspentSats env w ∧
    exactSum ((cs.filter (fun c => c.status = .available)).map Coin.sats) =
      availableSats env db id w := by
  simp only [walletCoins, bind_eq_ok, mapM_eq_ok, Except.ok.injEq] at h
  obtain ⟨out, hout, rfl⟩ := h
  have hperm := List.perm_insertionSort (fun a b : Coin => a.outpoint ≤ b.outpoint) out
  rw [exactSum_perm (hperm.map Coin.sats),
    exactSum_perm ((hperm.filter (fun c => c.status = .available)).map Coin.sats)]
  clear hperm
  unfold unspentSats availableSats
  generalize env.listUnspent w = outputs at hout
  induction hout with
  | nil => exact ⟨rfl, rfl⟩
  | @cons c coin outputs coins hrow _ ih =>
      obtain ⟨-, hsats, -, hstatus⟩ := coinOf_fields env.toEnv hrow
      obtain ⟨htotal, havailable⟩ := ih
      refine ⟨?_, ?_⟩
      · rw [List.map_cons, List.map_cons, exactSum_cons, exactSum_cons, htotal, hsats]
      · by_cases hc : coinStatus env.toEnv db id w c = .available
        · rw [List.filter_cons_of_pos (by simp [hstatus, hc]), List.filter_cons_of_pos (by simp [hc]),
            List.map_cons, List.map_cons, exactSum_cons, exactSum_cons, havailable, hsats]
        · rw [List.filter_cons_of_neg (by simp [hstatus, hc]),
            List.filter_cons_of_neg (by simp [hc]), havailable]

theorem available_le_unspent : availableSats env db id w ≤ unspentSats env w := by
  unfold availableSats unspentSats exactSum
  exact List.Sublist.sum_le_sum ((List.filter_sublist.map _).map _) (fun _ _ => Nat.zero_le _)

theorem load_id {l : Loaded State Wallet} (h : load env.toEnv db id = .ok l) :
    l.summary.id = id := by
  simp only [load, bind_eq_ok, Except.ok.injEq] at h
  obtain ⟨_, _, _, _, _, _, _, _, rfl⟩ := h
  rfl

theorem summary_synced {build : Build} {l : Loaded State Wallet} {t : Nat} {cs : List Coin}
    {total available : UInt64} (hload : load env.toEnv db id = .ok l)
    (hsynced : l.summary.syncedAt = some t)
    (hcs : walletCoins env.toEnv db id l.wallet = .ok cs)
    (htotal : sumU64 build (cs.map Coin.sats) = some total)
    (havailable : sumU64 build ((cs.filter (fun c => c.status = .available)).map Coin.sats) =
      some available) :
    summary env build db id = some (.ok
      { l.summary with
        totalSats := some total
        availableSats := some available }) := by
  rw [summary, hload]
  dsimp only
  rw [hsynced]
  dsimp only
  rw [hcs]
  dsimp only
  rw [htotal, havailable]
  rfl

/-- In range, a summary is returned with the exact sums. -/
theorem InRange.summary (h : InRange env db) (build : Build) (id : String) :
    ∃ result, summary env build db id = some result ∧
      ∀ s, result = .ok s → s.id = id ∧ ExactSummary env db s := by
  cases hload : load env.toEnv db id with
  | error e =>
      refine ⟨.error e, ?_, fun s hs => by cases hs⟩
      rw [Totals.summary, hload]
  | ok l =>
      have hname := load_id hload
      have hfound : ∀ l', load env.toEnv db l.summary.id = .ok l' → l' = l := by
        intro l' hload'
        rw [hname, hload, Except.ok.injEq] at hload'
        exact hload'.symm
      cases hsynced : l.summary.syncedAt with
      | none =>
          refine ⟨.ok l.summary, ?_, fun s hs => ?_⟩
          · rw [Totals.summary, hload]
            dsimp only
            rw [hsynced]
          · cases hs
            refine ⟨hname, fun l' hload' hsynced' => absurd ?_ hsynced'⟩
            rw [hfound l' hload', hsynced]
      | some t =>
          cases hcs : walletCoins env.toEnv db id l.wallet with
          | error e =>
              refine ⟨.error e, ?_, fun s hs => by cases hs⟩
              rw [Totals.summary, hload]
              dsimp only
              rw [hsynced]
              dsimp only
              rw [hcs]
          | ok cs =>
              have hne : l.summary.syncedAt ≠ none := by
                rw [hsynced]
                exact Option.some_ne_none t
              have hfits := h.balances id l cs hload hne hcs
              have hle := @available_le_unspent _ _ _ env db id l.wallet
              obtain ⟨htotal, havailable⟩ := exactSum_coins hcs
              obtain ⟨total, hrun, hexact⟩ := @sumU64_exact build _ (htotal ▸ hfits)
              obtain ⟨available, hrun', hexact'⟩ := @sumU64_exact build _
                (havailable ▸ hle.trans_lt hfits)
              refine ⟨_, summary_synced hload hsynced hcs hrun hrun', fun s hs => ?_⟩
              cases hs
              refine ⟨hname, fun l' hload' _ => ?_⟩
              obtain rfl := hfound l' hload'
              show some total.toNat = _ ∧ some available.toNat = _
              rw [hexact, htotal, hexact', havailable, hname]
              exact ⟨rfl, rfl⟩

/-- In range, every row of the history is exact. -/
theorem InRange.activity (h : InRange env db) (build : Build) (id : String) :
    ∃ result, activity env build db id = some result ∧
      ∀ rows, result = .ok rows → ∃ l, load env.toEnv db id = .ok l ∧
        List.Forall₂ (ExactDelta env l.wallet) (env.listTransactions l.wallet) rows := by
  unfold Totals.activity
  cases hload : load env.toEnv db id with
  | error e => exact ⟨_, rfl, fun rows hrows => by cases hrows⟩
  | ok l =>
      dsimp only
      have hrow : ∀ t ∈ env.listTransactions l.wallet, ∃ row,
          activityRow env build db id l.wallet t = some row ∧ ExactDelta env l.wallet t row := by
        intro t ht
        obtain ⟨hsentFits, hreceivedFits⟩ := h.amounts id l hload t ht
        obtain ⟨sent, hsent, hsentExact⟩ := @sumU64_exact .checked (env.spentValues l.wallet t.tx)
          (by omega)
        obtain ⟨received, hreceived, hreceivedExact⟩ := @sumU64_exact .checked
          (receivedValues env l.wallet t.tx) (by omega)
        have hsentCast := (toInt_toInt64 sent).mpr (by omega)
        have hreceivedCast := (toInt_toInt64 received).mpr (by omega)
        obtain ⟨hdelta, hdeltaExact⟩ := @subI64_exact build received.toInt64 sent.toInt64 (by omega)
          (by omega)
        have hsums := sentAndReceived_eq_some.mpr ⟨hsent, hreceived⟩
        refine ⟨_, activityRow_eq_some.mpr ⟨sent, received, hsums, _, hdelta, rfl⟩,
          sent, received, hsums, by omega, by omega, ?_⟩
        show (received.toInt64 - sent.toInt64).toInt = _
        omega
      obtain ⟨rows, hrows, hexact⟩ := mapM_total hrow
      refine ⟨.ok rows, by rw [hrows]; rfl, fun rows' hrows' => ?_⟩
      cases hrows'
      exact ⟨l, rfl, hexact⟩

theorem collect_exact {α : Type} {f : String → Option (Result α)} {P : α → Prop}
    (h : ∀ id, ∃ result, f id = some result ∧ ∀ a, result = .ok a → P a) (ids : List String) :
    ∃ result, collect f ids = some result ∧ ∀ out, result = .ok out → ∀ a ∈ out, P a := by
  induction ids with
  | nil => exact ⟨.ok [], rfl, fun out hout a ha => by cases hout; cases ha⟩
  | cons id ids ih =>
      obtain ⟨result, hresult, hfirst⟩ := h id
      obtain ⟨rest, hrest, hall⟩ := ih
      cases result with
      | error e => exact ⟨.error e, by rw [collect, hresult], fun out hout => by cases hout⟩
      | ok a =>
          refine ⟨rest.map (fun rest => a :: rest), by rw [collect, hresult, hrest]; rfl, ?_⟩
          intro out hout
          cases rest with
          | error e => cases hout
          | ok as =>
              cases hout
              exact List.forall_mem_cons.mpr ⟨hfirst a rfl, hall as rfl⟩

/-- In range, everything is exact. -/
theorem InRange.exactTotals (h : InRange env db) : ExactTotals env db where
  wallets build := collect_exact (fun id => by
    obtain ⟨result, hresult, hexact⟩ := h.summary build id
    exact ⟨result, hresult, fun s hs => (hexact s hs).2⟩) (walletIds db)
  summary := h.summary
  activity := h.activity

/-- A balance that is exact fits. -/
theorem ExactTotals.balances (h : ExactTotals env db) {l : Loaded State Wallet} {cs : List Coin}
    (hload : load env.toEnv db id = .ok l) (hsynced : l.summary.syncedAt ≠ none)
    (hcs : walletCoins env.toEnv db id l.wallet = .ok cs) : unspentSats env l.wallet < 2 ^ 64 := by
  obtain ⟨result, hresult, hexact⟩ := h.summary .checked id
  obtain ⟨t, ht⟩ := Option.ne_none_iff_exists'.mp hsynced
  -- a summary that did not panic has its two sums
  have hsums := hresult
  rw [Totals.summary, hload] at hsums
  dsimp only at hsums
  rw [ht] at hsums
  dsimp only at hsums
  rw [hcs] at hsums
  simp only [Option.bind_eq_bind, Option.bind_eq_some_iff, Option.some.injEq] at hsums
  obtain ⟨total, -, available, -, rfl⟩ := hsums
  obtain ⟨-, hsummary⟩ := hexact _ rfl
  obtain ⟨htotal, -⟩ := hsummary l (by rw [← hload, ← load_id hload]) hsynced
  rw [Option.map_some, Option.some.injEq] at htotal
  exact lt_of_exact htotal

/-- An amount that survives its cast fits. -/
theorem ExactTotals.amounts (h : ExactTotals env db) {l : Loaded State Wallet}
    (hload : load env.toEnv db id = .ok l) {t : WalletTx} (ht : t ∈ env.listTransactions l.wallet) :
    exactSum (env.spentValues l.wallet t.tx) < 2 ^ 63 ∧
      exactSum (receivedValues env l.wallet t.tx) < 2 ^ 63 := by
  obtain ⟨result, hresult, hexact⟩ := h.activity .checked id
  rw [Totals.activity, hload] at hresult
  obtain ⟨rows, hrows, rfl⟩ := Option.map_eq_some_iff.mp hresult
  obtain ⟨l', hload', hall⟩ := hexact rows rfl
  rw [hload, Except.ok.injEq] at hload'
  subst hload'
  obtain ⟨i, hi, rfl⟩ := List.getElem_of_mem ht
  obtain ⟨sent, received, -, hsent, hreceived, -⟩ := hall.get hi (hall.length_eq ▸ hi)
  have hlt := sent.toInt64.toInt_lt
  have hlt' := received.toInt64.toInt_lt
  simp only [List.get_eq_getElem] at hsent hreceived
  omega

end Exact

/-- The sums the engine shows are exact, in every build, exactly when they are in
    range. -/
theorem exactTotals_iff (db : Db State) : ExactTotals env db ↔ InRange env db := by
  constructor
  · intro h
    exact ⟨fun _ _ _ hload hsynced hcs => h.balances hload hsynced hcs,
      fun _ _ hload _ ht => h.amounts hload ht⟩
  · exact InRange.exactTotals

/-- In every reachable state the sums are exact. -/
def AlwaysExact : Prop :=
  ∀ ops : List (System.Op Scan), ExactTotals env (System.run env.toEnv ops).db

end Totals
end Tundra
