/-
  Tundra.Genesis

  The block map of a scan.  The reported tip is entered over the genesis block
  when its height is 0, and the final check compares it with the server's own
  earlier answer only; so the map starts at the genesis block exactly when the
  reported height is not 0 or the server named the genesis block as the tip.
-/

import Tundra.Integrity
import Tundra.Snapshots
import Tundra.Fixture.Server

namespace Tundra
namespace Scan

open Checked Relational Engine Esplora Snapshots Tundra.System

variable {State Wallet : Type} {env : ChainEnv State Wallet} {out : Outside}

/-! ## The blocks of one scan -/

/-- Collecting checkpoints replaces no block. -/
theorem scanBlocks_blocks {wallet : Wallet} {endpoint : String} {height : Nat} {tip : BlockHash}
    {found : Found} (h : scanBlocks env out wallet endpoint = .ok (height, tip, found)) :
    found.blocks[height]? = some tip ∧
    found.blocks[0]? =
      some (if height = 0 then tip else env.genesisHash (env.walletNetwork wallet)) := by
  simp only [scanBlocks, bind_eq_ok, require_eq_ok, exists_unit] at h
  obtain ⟨⟨first, _⟩, _, _, ⟨height', _⟩, _, ⟨tip', http⟩, _, next, hfold, heq⟩ := h
  cases heq
  have hgrow := foldlM_ok_inv (Grows _) (fun b checkpoint b' _ hb hstep => by
    simp only [addCheckpoint] at hstep
    split_ifs at hstep
    · exact hb.trans (fetchBlock_eq_ok hstep).1
    · cases hstep
      exact hb) (.refl _) hfold
  refine ⟨hgrow.blocks _ _ (Table.get_insert_self _ _ _), hgrow.blocks _ _ ?_⟩
  dsimp only
  rw [Table.get_insert]
  by_cases hzero : height' = 0
  · rw [if_pos hzero, if_pos hzero]
  · rw [if_neg hzero, if_neg hzero, Table.get_insert_self]

/-- The last two answers of a scan name the same tip again. -/
def Rechecked (env : ChainEnv State Wallet) (http : Http) (height : Nat) (tip : BlockHash) : Prop :=
  ∃ before body body' text text', http.log = before ++
    [("/block-height/" ++ toString height, body), ("/blocks/tip/height", body')] ∧
    Http.decodeUtf8 body = some text ∧ env.parseBlockHash text = some tip ∧
    Http.decodeUtf8 body' = some text' ∧ parseU32 text' = some height

theorem scanAll_rechecked {wallet : Wallet} {endpoint : String} {observedAt height : Nat}
    {tip : BlockHash} {found : Found}
    (h : scanAll env out wallet endpoint observedAt = .ok (height, tip, found)) :
    Rechecked env found.http height tip := by
  simp only [scanAll, bind_eq_ok, require_eq_ok, exists_unit] at h
  obtain ⟨⟨height', tip', started⟩, _, searched, _, downloaded, _, ⟨last, http₁⟩, hlast, hsame,
    ⟨reported, http₂⟩, hreported, hsame', heq⟩ := h
  cases heq
  obtain ⟨body, text, hlog, hdecode, hparse⟩ := Http.hash_log hlast
  obtain ⟨body', text', hlog', hdecode', hparse'⟩ := tipHeight_log hreported
  have hlast' : last = tip' := hsame
  have hreported' : reported = height' := hsame'
  subst hlast' hreported'
  refine ⟨(evict env observedAt wallet downloaded).http.log, body, body', text, text', ?_, hdecode,
    hparse, hdecode', hparse'⟩
  show http₂.log = _
  rw [hlog', hlog, List.append_assoc]
  rfl

/-- The block map sends height 0 to the genesis block and the reported height
    to the tip, as the final check confirmed. -/
structure Rooted (env : ChainEnv State Wallet) (wallet : Wallet) (height : Nat) (tip : BlockHash)
    (found : Found) : Prop where
  genesis : found.blocks[0]? = some (env.genesisHash (env.walletNetwork wallet))
  atTip : found.blocks[height]? = some tip
  rechecked : Rechecked env found.http height tip

theorem scanAll_rooted_iff {wallet : Wallet} {endpoint : String} {observedAt height : Nat}
    {tip : BlockHash} {found : Found}
    (h : scanAll env out wallet endpoint observedAt = .ok (height, tip, found)) :
    Rooted env wallet height tip found ↔
      height ≠ 0 ∨ tip = env.genesisHash (env.walletNetwork wallet) := by
  obtain ⟨started, searched, downloaded, _, _, hblocks, _, _, _, _, _, _, hsame, hgrow, _, _, _,
    hfinal⟩ := scanAll_eq_ok h
  obtain ⟨htip, hzero⟩ := scanBlocks_blocks hblocks
  have hkeep : ∀ (height : Nat) (hash : BlockHash), started.blocks[height]? = some hash →
      found.blocks[height]? = some hash := by
    intro height' hash hget
    rw [hfinal]
    exact hgrow.blocks _ _ (hsame ▸ hget)
  have hfirst := hkeep _ _ hzero
  constructor
  · intro hrooted
    by_cases hheight : height = 0
    · refine .inr ?_
      rw [hrooted.genesis, if_pos hheight, Option.some.injEq] at hfirst
      exact hfirst.symm
    · exact .inl hheight
  · intro hcond
    refine ⟨?_, hkeep _ _ htip, scanAll_rechecked h⟩
    rw [hfirst]
    rcases hcond with hheight | htip'
    · rw [if_neg hheight]
    · rw [htip', ite_self]

/-! ## The chains of a store -/

/-- Every stored chain starts at its network's genesis block. -/
def GenesisOk (env : ChainEnv State Wallet) (db : Db State) : Prop :=
  ∀ (id : String) (row : WalletRow State) (network : Network), db.wallets[id]? = some row →
    Network.parse row.network = .ok network →
    (env.chainBlocks row.state)[0]? = some (env.genesisHash network)

/-- The result of a sync comes from an accepted scan of the wallet's network
    that did not report the genesis height with another block. -/
def GenuineScan (env : ChainEnv State Wallet) (world : World State) : Op ChainScan → Prop
  | .commitSync id _ result _ => ∀ l, load env.toEnv world.db id = .ok l →
      ∃ out wallet endpoint observedAt height tip found,
        env.walletNetwork wallet = l.summary.network ∧
        scanAll env out wallet endpoint observedAt = .ok (height, tip, found) ∧
        result = { blocks := found.blocks, update := found.update } ∧
        (height ≠ 0 ∨ tip = env.genesisHash (env.walletNetwork wallet))
  | _ => True

/-- One step keeps every chain at its genesis block. -/
theorem step_genesis {world : World State} {op : Op ChainScan} (h : GenesisOk env world.db)
    (hop : GenuineScan env world op) : GenesisOk env (step env.toEnv world op).db := by
  intro id row network hrow hnetwork
  have hstep := step_snapshot env.toEnv world op
  generalize (step env.toEnv world op).db = db' at hstep hrow
  cases hstep with
  | kept hsame => exact h id row network (hsame.wallets ▸ hrow) hnetwork
  | @imported name payload network' now p wallet row' fresh created staged on _ wallets _ =>
      rw [wallets, Table.get_insert] at hrow
      split_ifs at hrow with hid
      · cases hrow
        rw [on, Network.parse_key, Except.ok.injEq] at hnetwork
        subst hnetwork
        exact (env.createWallet_chain _ _ _ _ _ created staged).1
      · exact h id row network hrow hnetwork
  | @revealed _ id' l keychains row' loaded found wallets _ =>
      rw [wallets, Table.get_insert] at hrow
      split_ifs at hrow with hid
      · cases hrow
        obtain ⟨row₀, n, hrow₀, hn, hload, hstate, _⟩ := load_row env.toEnv loaded
        rw [found, Option.some.injEq] at hrow₀
        subst hrow₀
        rw [hstate, (env.savedState_revealAll _ _ _ keychains hload).1]
        exact h id' row' network found hnetwork
      · exact h id row network hrow hnetwork
  | @committed id' snapshot result now l replaced updated row' loaded found _ _ reloaded applied
      wallets _ =>
      rw [wallets, Table.get_insert] at hrow
      split_ifs at hrow with hid
      · cases hrow
        obtain ⟨row₀, n, hrow₀, hn, hload, hstate, hsummary, _⟩ := load_row env.toEnv loaded
        rw [found, Option.some.injEq] at hrow₀
        subst hrow₀
        have hsame : n = network := by
          rw [hn, Except.ok.injEq] at hnetwork
          exact hnetwork
        obtain ⟨out, wallet, endpoint, observedAt, height, tip, scanned, hwallet, hscan, rfl,
          hcond⟩ := hop l loaded
        have hrooted := (scanAll_rooted_iff hscan).mpr hcond
        rw [(env.applyUpdate_chain _ _ _ _ _ reloaded applied).1,
          (env.replaceBlocks_chain _ _).1]
        have hgenesis := hrooted.genesis
        rw [hwallet, hsummary, hsame] at hgenesis
        exact hgenesis
      · exact h id row network hrow hnetwork
  | @restored now wallets _ =>
      rw [wallets, Option.map_eq_some_iff] at hrow
      obtain ⟨row', hrow', rfl⟩ := hrow
      exact h id row' network hrow' hnetwork

/-- **The genesis block of a scan and of every stored chain.**  An accepted
    scan roots its block map at the genesis block if and only if it reports
    another height than 0 or the genesis block itself; and while every
    committed scan does, every stored chain starts at its network's genesis. -/
theorem scan_genesis (env : ChainEnv State Wallet) :
    (∀ (out : Outside) (wallet : Wallet) (endpoint : String) (observedAt height : Nat)
      (tip : BlockHash) (found : Found),
      scanAll env out wallet endpoint observedAt = .ok (height, tip, found) →
      (Rooted env wallet height tip found ↔
        height ≠ 0 ∨ tip = env.genesisHash (env.walletNetwork wallet))) ∧
    ∀ ops : List (Op ChainScan), Transition.Along (step env.toEnv) (GenuineScan env) {} ops →
      GenesisOk env (run env.toEnv ops).db := by
  refine ⟨fun out wallet endpoint observedAt height tip found h => scanAll_rooted_iff h, ?_⟩
  intro ops hops
  refine Transition.run_along (step env.toEnv) (I := fun world => GenesisOk env world.db)
    (fun world op h hop => step_genesis h hop) ?_ hops
  intro id row network hrow
  simp at hrow

open Fixture in
/-- A server that reports height 0 and first names the genesis block and then
    another one: the scan is accepted and its chain starts at the other block. -/
theorem scan_genesis_forged :
    ∃ height tip found,
      scanAll chainEnv (quiet 0 (genesisHash .mainnet)) importedWallet "" 0 =
        .ok (height, tip, found) ∧
      ¬ Rooted chainEnv importedWallet height tip found := by
  obtain ⟨⟨height, tip, found⟩, hscan, hcheck⟩ := exists_ok_of_any
    (x := scanAll chainEnv (quiet 0 (genesisHash .mainnet)) importedWallet "" 0)
    (p := fun r => r.2.2.blocks[0]? ≠ some (genesisHash .regtest)) (by decide +kernel)
  refine ⟨height, tip, found, hscan, fun hrooted => ?_⟩
  simp only [decide_eq_true_eq] at hcheck
  exact hcheck hrooted.genesis

end Scan
end Tundra
