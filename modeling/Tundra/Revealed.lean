/-
  Tundra.Revealed

  No wallet update is lost between connections.  A sync commits only onto the
  wallet it started from, and onto that wallet's stored snapshot; so what other
  operations revealed stays revealed, labels and freezes stay, and no address is
  handed out twice.
-/

import Tundra.Observed
import Mathlib.Data.List.Induction

namespace Tundra

/-- The second index is at least the first one. -/
def AtLeast (i j : Option Nat) : Prop := ∀ n, i = some n → ∃ m, j = some m ∧ n ≤ m

theorem AtLeast.refl (i : Option Nat) : AtLeast i i := fun n h => ⟨n, h, Nat.le_refl n⟩

theorem AtLeast.trans {i j k : Option Nat} (h : AtLeast i j) (h' : AtLeast j k) : AtLeast i k := by
  intro n hn
  obtain ⟨m, hm, hle⟩ := h n hn
  obtain ⟨l, hl, hle'⟩ := h' m hm
  exact ⟨l, hl, hle.trans hle'⟩

/-- The index after the last revealed one. -/
def nextIndex (last : Option Nat) : Nat := (last.map (· + 1)).getD 0

theorem atLeast_nextIndex (last : Option Nat) : AtLeast last (some (nextIndex last)) := by
  rintro n rfl
  exact ⟨n + 1, rfl, Nat.le_succ n⟩

/-- A chain environment whose wallets count the addresses they reveal. -/
structure KeychainEnv (State Wallet : Type) extends ChainEnv State Wallet where
  /-- The addresses of a snapshot's descriptors on its network. -/
  addresses : State → KeychainKind → Nat → String
  peekAddress_load : ∀ n state w, loadWallet n state = some w → peekAddress w = addresses state
  savedState_addresses : ∀ n state w keychains, loadWallet n state = some w →
    addresses (toEnv.savedState state (toEnv.revealAll w keychains)) = addresses state
  replaceBlocks_addresses : ∀ state scan, addresses (replaceBlocks state scan) = addresses state
  applyUpdate_addresses : ∀ n state w scan w', loadWallet n state = some w →
    applyUpdate w scan = some w' → addresses (toEnv.savedState state w') = addresses state
  /-- A loaded wallet goes on from the snapshot's last revealed indices. -/
  derivationIndex_load : ∀ n state w, loadWallet n state = some w →
    derivationIndex w = lastRevealed state
  /-- `reveal_next_address` takes the index after the last revealed one. -/
  revealNextAddress_index : ∀ w k,
    (revealNextAddress w k).1.index = nextIndex (derivationIndex w k) ∧
    ∀ k', derivationIndex (revealNextAddress w k).2 k' =
      if k' = k then some (nextIndex (derivationIndex w k)) else derivationIndex w k'
  revealNextAddress_address : ∀ w k,
    (revealNextAddress w k).1.address = peekAddress w k (revealNextAddress w k).1.index
  /-- A saved snapshot has the indices of its wallet. -/
  savedState_index : ∀ n state w keychains, loadWallet n state = some w →
    lastRevealed (toEnv.savedState state (toEnv.revealAll w keychains)) =
      derivationIndex (toEnv.revealAll w keychains)
  /-- An update reveals up to its last active indices, and hides none. -/
  applyUpdate_index : ∀ n state w scan w', loadWallet n state = some w →
    applyUpdate w scan = some w' →
    ∀ k, AtLeast (lastRevealed state k) (lastRevealed (toEnv.savedState state w') k)

namespace Connections

open Checked Relational Engine Snapshots

variable {State Wallet : Type} {env : KeychainEnv State Wallet}

/-! ## Revealed indices -/

/-- Revealing addresses takes no index back. -/
theorem atLeast_revealAll (w : Wallet) (keychains : List KeychainKind) (k : KeychainKind) :
    AtLeast (env.derivationIndex w k) (env.derivationIndex (env.revealAll w keychains) k) := by
  induction keychains generalizing w with
  | nil => exact AtLeast.refl _
  | cons k' keychains ih =>
      have hstep : AtLeast (env.derivationIndex w k)
          (env.derivationIndex (env.revealNextAddress w k').2 k) := by
        rw [(env.revealNextAddress_index w k').2]
        split_ifs with hk
        · rw [hk]
          exact atLeast_nextIndex _
        · exact AtLeast.refl _
      exact hstep.trans (ih (env.revealNextAddress w k').2)

/-- A snapshot with the same addresses and at least the same indices. -/
structure Extends (env : KeychainEnv State Wallet) (state state' : State) : Prop where
  addresses : env.addresses state' = env.addresses state
  index : ∀ k, AtLeast (env.lastRevealed state k) (env.lastRevealed state' k)

theorem Extends.refl (state : State) : Extends env state state := ⟨rfl, fun _ => AtLeast.refl _⟩

theorem Extends.trans {s₁ s₂ s₃ : State} (h : Extends env s₁ s₂) (h' : Extends env s₂ s₃) :
    Extends env s₁ s₃ :=
  ⟨h'.addresses.trans h.addresses, fun k => (h.index k).trans (h'.index k)⟩

/-- Every wallet stays, with the addresses and at least the indices it had. -/
def Kept (env : KeychainEnv State Wallet) (db db' : Db State) : Prop :=
  ∀ (id : String) (row : WalletRow State), db.wallets[id]? = some row →
    ∃ row', db'.wallets[id]? = some row' ∧ Extends env row.state row'.state

theorem Kept.refl (db : Db State) : Kept env db db :=
  fun _ row hrow => ⟨row, hrow, .refl _⟩

theorem Kept.trans {db₁ db₂ db₃ : Db State} (h : Kept env db₁ db₂) (h' : Kept env db₂ db₃) :
    Kept env db₁ db₃ := by
  intro id row hrow
  obtain ⟨row₂, hrow₂, hle⟩ := h id row hrow
  obtain ⟨row₃, hrow₃, hle'⟩ := h' id row₂ hrow₂
  exact ⟨row₃, hrow₃, hle.trans hle'⟩

/-- A row that replaces a wallet's own. -/
theorem Kept.insert {db db' : Db State} {id : String} {row row' : WalletRow State}
    (hrow : db.wallets[id]? = some row) (hwallets : db'.wallets = db.wallets.insert id row')
    (hle : Extends env row.state row'.state) : Kept env db db' := by
  intro id' row₀ hrow₀
  rw [hwallets]
  simp only [Table.get_insert]
  by_cases hid : id = id'
  · subst hid
    rw [hrow, Option.some.injEq] at hrow₀
    subst hrow₀
    exact ⟨row', if_pos rfl, hle⟩
  · exact ⟨row₀, by rw [if_neg hid]; exact hrow₀, .refl _⟩

/-- Revealing addresses of a wallet extends its snapshot. -/
theorem extends_revealAll {n : Network} {state : State} {w : Wallet} (keychains : List KeychainKind)
    (h : env.loadWallet n state = some w) :
    Extends env state (env.savedState state (env.revealAll w keychains)) := by
  refine ⟨env.savedState_addresses n state w keychains h, fun k => ?_⟩
  rw [env.savedState_index n state w keychains h, ← env.derivationIndex_load n state w h]
  exact atLeast_revealAll w keychains k

/-- A scan's update extends the snapshot it is applied to. -/
theorem extends_update {n : Network} {state : State} {w w' : Wallet} {scan : ChainScan}
    (h : env.loadWallet n (env.replaceBlocks state scan) = some w)
    (happly : env.applyUpdate w scan = some w') :
    Extends env state (env.savedState (env.replaceBlocks state scan) w') := by
  constructor
  · rw [env.applyUpdate_addresses _ _ _ _ _ h happly, env.replaceBlocks_addresses]
  · intro k
    -- The chain is replaced in the stored snapshot, which keeps its indices.
    have hreplaced := (env.replaceBlocks_chain state scan).2.1
    rw [← hreplaced]
    exact env.applyUpdate_index _ _ _ _ _ h happly k

/-- No operation takes a revealed index back. -/
theorem kept_of_effect {db db' : Db State} {op : System.Op ChainScan}
    (h : SnapshotEffect env.toEnv db db' op) : Kept env db db' := by
  cases h with
  | kept hsame =>
      intro id row hrow
      exact ⟨row, by rw [hsame.wallets]; exact hrow, .refl _⟩
  | @imported _ _ _ _ p _ row' fresh _ _ _ _ wallets _ =>
      intro id row hrow
      refine ⟨row, ?_, .refl _⟩
      rw [wallets, Table.get_insert, if_neg]
      · exact hrow
      · rintro rfl
        rw [hrow] at fresh
        cases fresh
  | @revealed _ id l keychains row loaded found wallets _ =>
      refine Kept.insert found wallets ?_
      obtain ⟨row₀, n, hrow₀, -, hload, hstate, -⟩ := load_row env.toEnv loaded
      rw [found, Option.some.injEq] at hrow₀
      subst hrow₀
      rw [hstate]
      exact extends_revealAll keychains hload
  | @committed id snapshot scan now l replaced updated row loaded found _ _ reloaded applied
      wallets _ =>
      refine Kept.insert found wallets ?_
      obtain ⟨row₀, n, hrow₀, -, -, hstate, -⟩ := load_row env.toEnv loaded
      rw [found, Option.some.injEq] at hrow₀
      subst hrow₀
      rw [← hstate]
      exact extends_update reloaded applied
  | @restored now wallets _ =>
      intro id row hrow
      refine ⟨{ row with syncedAt := none }, ?_, .refl _⟩
      rw [wallets, hrow, Option.map_some]

theorem kept_step (shared : Shared State Wallet) (op : Op) :
    Kept env shared.world.db (step env.toChainEnv shared op).world.db := by
  have hstep := step_cases env.toChainEnv shared op
  generalize step env.toChainEnv shared op = shared' at hstep
  cases hstep with
  | refused => exact Kept.refl _
  | prepared => exact Kept.refl _
  | @committed n out now p result db found scanned ok effect =>
      exact kept_of_effect (commitSync_snapshot env.toEnv ok)
  | restored => exact kept_of_effect (Snapshots.step_snapshot env.toEnv shared.world _)
  | other => exact kept_of_effect (Snapshots.step_snapshot env.toEnv shared.world _)

theorem kept_runFrom (shared : Shared State Wallet) (ops : List Op) :
    Kept env shared.world.db (runFrom env.toChainEnv shared ops).world.db :=
  Transition.run_relation (step env.toChainEnv) (I := fun _ => True)
    (R := fun s s' => Kept env s.world.db s'.world.db) (fun s => Kept.refl s.world.db)
    (fun _ _ _ h h' => h.trans h') (fun _ _ _ => trivial) (fun s op _ => kept_step s op)
    trivial ops

theorem kept_run (ops later : List Op) :
    Kept env (run env.toChainEnv ops).world.db (run env.toChainEnv (ops ++ later)).world.db := by
  rw [run_append]
  exact kept_runFrom _ later

/-! ## Where a prepared sync comes from -/

/-- A sync was prepared from a store: what it remembers is what was there. -/
structure PreparedFrom (env : KeychainEnv State Wallet) (db : Db State)
    (p : Prepared State Wallet) (row : WalletRow State) : Prop where
  found : db.wallets[p.walletId]? = some row
  loaded : load env.toEnv db p.walletId = .ok p.loaded
  revision : p.snapshot.revision = Sync.revision db p.walletId
  serialized : p.snapshot.serialized = env.stateJson row.state

theorem prepare_from {db : Db State} {id source : String} {consent : Bool}
    {p : Prepared State Wallet} (h : prepare env.toChainEnv db id source consent = .ok p) :
    ∃ row, PreparedFrom env db p row := by
  simp only [prepare, Sync.prepareSync, bind_eq_ok, Except.ok.injEq] at h
  obtain ⟨l, hload, snapshot, ⟨l', hload', endpoint, -, rfl⟩, rfl⟩ := h
  rw [hload, Except.ok.injEq] at hload'
  subst hload'
  obtain ⟨row, _, hrow, -, -, hstate, -⟩ := load_row env.toEnv hload
  exact ⟨row, hrow, hload, rfl, by rw [← hstate]⟩

/-- Every prepared sync was prepared at some point of the run. -/
theorem prepared_from (ops : List Op) {n : Nat} {p : Prepared State Wallet}
    (h : (run env.toChainEnv ops).prepared[n]? = some p) :
    ∃ pre post row, ops = pre ++ post ∧
      PreparedFrom env (run env.toChainEnv pre).world.db p row := by
  induction ops using List.reverseRecOn generalizing n p with
  | nil => simp [run, runFrom] at h
  | append_singleton ops op ih =>
      have hearlier : ∀ {n : Nat} {p : Prepared State Wallet},
          (run env.toChainEnv ops).prepared[n]? = some p → ∃ pre post row,
            ops ++ [op] = pre ++ post ∧
              PreparedFrom env (run env.toChainEnv pre).world.db p row := by
        intro n p hp
        obtain ⟨pre, post, row, rfl, hfrom⟩ := ih hp
        exact ⟨pre, post ++ [op], row, List.append_assoc .., hfrom⟩
      rw [run_concat] at h
      have hstep := step_cases env.toChainEnv (run env.toChainEnv ops) op
      generalize step env.toChainEnv (run env.toChainEnv ops) op = shared' at hstep h
      cases hstep with
      | refused => exact hearlier h
      | @prepared n' id source consent p' ok =>
          rw [Table.get_insert] at h
          split_ifs at h
          · cases h
            obtain ⟨row, hfrom⟩ := prepare_from ok
            exact ⟨ops, [_], row, rfl, hfrom⟩
          · exact hearlier h
      | committed => exact hearlier h
      | restored => simp at h
      | other => exact hearlier h

/-! ## Addresses -/

/-- The next address of a wallet: the one after its last revealed index. -/
theorem receiveAddress_next {db : Db State} {id : String} {out : ReceiveAddress × Db State}
    (h : receiveAddress env.toEnv db id = .ok out) :
    ∃ row row', db.wallets[id]? = some row ∧ out.2.wallets[id]? = some row' ∧
      out.1.index = nextIndex (env.lastRevealed row.state .external) ∧
      out.1.address = env.addresses row.state .external out.1.index ∧
      env.lastRevealed row'.state .external = some out.1.index := by
  simp only [receiveAddress, bind_eq_ok, Except.ok.injEq] at h
  obtain ⟨l, hload, rfl⟩ := h
  obtain ⟨row, n, hrow, -, hwallet, hstate, -⟩ := load_row env.toEnv hload
  obtain ⟨hwallets, -⟩ := save_wallets env.toEnv
    { l with wallet := (env.revealNextAddress l.wallet .external).2 } hrow
  have hindex := env.revealNextAddress_index l.wallet .external
  have hlast := env.derivationIndex_load n row.state l.wallet hwallet
  rw [hlast] at hindex
  refine ⟨row, _, hrow, by rw [hwallets, Table.get_insert_self], hindex.1, ?_, ?_⟩
  · show (env.revealNextAddress l.wallet .external).1.address = _
    rw [env.revealNextAddress_address, env.peekAddress_load n row.state l.wallet hwallet]
  · show env.lastRevealed (env.savedState l.state (env.revealAll l.wallet [.external])) .external = _
    rw [hstate, env.savedState_index n row.state l.wallet [.external] hwallet]
    show env.derivationIndex (env.revealNextAddress l.wallet .external).2 .external = _
    rw [hindex.2 .external, if_pos rfl, hindex.1]

/-- A draft's wallet is saved with the addresses it used. -/
theorem createDraft_used {db : Db State} {request : DraftRequest} {seed now : Nat}
    {out : DraftReview × Db State} {l : Loaded State Wallet} {p : Psbt} {review : DraftReview}
    {wallet : Wallet} (h : createDraft env.toEnv db request seed now = .ok out)
    (hload : load env.toEnv db request.walletId = .ok l)
    (hplan : planDraft env.toEnv db l request seed = .ok (p, review, wallet)) :
    ∃ row', out.2.wallets[request.walletId]? = some row' ∧
      env.lastRevealed row'.state = env.derivationIndex wallet := by
  obtain ⟨l', p', wallet', row, hload', -, hplan', -, -, -, -, -, hout⟩ :=
    Paths.createDraft_facts env.toEnv h
  rw [hload, Except.ok.injEq] at hload'
  subst hload'
  rw [hplan, Except.ok.injEq, Prod.mk.injEq, Prod.mk.injEq] at hplan'
  obtain ⟨-, -, rfl⟩ := hplan'
  obtain ⟨wrow, n, hrow, -, hwallet, hstate, -⟩ := load_row env.toEnv hload
  let stored : Db State := { db with
    drafts := db.drafts.insert out.1.id row
    reservations := Effects.reserveAll request.walletId out.1.id (Drafts.outpoints out.1)
      db.reservations }
  have hstored : stored.wallets[request.walletId]? = some wrow := hrow
  obtain ⟨hwallets, -⟩ := save_wallets env.toEnv { l with wallet } hstored
  obtain ⟨m, hreveal⟩ := (planDraft_facts env.toEnv hplan).revealed
  refine ⟨{ wrow with state := env.savedState l.state wallet }, ?_, ?_⟩
  · rw [hout, hwallets, Table.get_insert_self]
  · show env.lastRevealed (env.savedState l.state wallet) = _
    rw [hreveal, hstate]
    exact env.savedState_index n wrow.state l.wallet _ hwallet

/-! ## Runs -/

/-- The step of a receive address that was given out. -/
theorem run_received {ops : List Op} {id : String} {out : ReceiveAddress × Db State}
    (h : receiveAddress env.toEnv (run env.toChainEnv ops).world.db id = .ok out) :
    (run env.toChainEnv (ops ++ [.engine (.receiveAddress id)])).world.db = out.2 := by
  rw [run_concat]
  have htransact : System.transact env.toEnv (run env.toChainEnv ops).world.db
      (.receiveAddress id) = some (.ok out.2) := by
    unfold System.transact
    dsimp only
    rw [h]
    rfl
  exact Paths.step_transact env.toEnv htransact

/-- The step of a draft that was created. -/
theorem run_drafted {ops : List Op} {request : DraftRequest} {seed now : Nat}
    {out : DraftReview × Db State}
    (h : createDraft env.toEnv (run env.toChainEnv ops).world.db request seed now = .ok out) :
    (run env.toChainEnv (ops ++ [.engine (.createDraft request seed now)])).world.db = out.2 := by
  rw [run_concat]
  have htransact : System.transact env.toEnv (run env.toChainEnv ops).world.db
      (.createDraft request seed now) = some (.ok out.2) := by
    unfold System.transact
    dsimp only
    rw [h]
    rfl
  exact Paths.step_transact env.toEnv htransact

/-- What a wallet keeps from one state of a run to all later ones. -/
structure NoLostUpdate (env : KeychainEnv State Wallet) (ops : List Op) : Prop where
  /-- A sync that commits here started from the stored snapshot and revision. -/
  started : ∀ n out now p result row row',
    Commits env.toChainEnv (run env.toChainEnv ops) n out now p result row row' →
    ∃ pre post row₀, ops = pre ++ post ∧
      PreparedFrom env (run env.toChainEnv pre).world.db p row₀ ∧
      env.stateJson row.state = env.stateJson row₀.state ∧
      Sync.revision (run env.toChainEnv ops).world.db p.walletId =
        Sync.revision (run env.toChainEnv pre).world.db p.walletId
  /-- A commit changes no freeze, and no label that is there. -/
  freezes : ∀ n out now, (run env.toChainEnv (ops ++ [.commit n out now])).world.db.freezes =
    (run env.toChainEnv ops).world.db.freezes
  labels : ∀ n out now (k : String × LabelKind × String) (label : String),
    (run env.toChainEnv ops).world.db.labels[k]? = some label →
    (run env.toChainEnv (ops ++ [.commit n out now])).world.db.labels[k]? = some label
  /-- No wallet is lost, and no last revealed index decreases. -/
  kept : ∀ later, Kept env (run env.toChainEnv ops).world.db
    (run env.toChainEnv (ops ++ later)).world.db
  /-- An address that was given out stays revealed. -/
  received : ∀ id out, receiveAddress env.toEnv (run env.toChainEnv ops).world.db id = .ok out →
    ∀ later, ∃ row',
      (run env.toChainEnv (ops ++ [.engine (.receiveAddress id)] ++ later)).world.db.wallets[id]? =
        some row' ∧
      AtLeast (some out.1.index) (env.lastRevealed row'.state .external)
  /-- So do the addresses of the wallet a draft was built with. -/
  drafted : ∀ request seed now out l p review wallet,
    createDraft env.toEnv (run env.toChainEnv ops).world.db request seed now = .ok out →
    load env.toEnv (run env.toChainEnv ops).world.db request.walletId = .ok l →
    planDraft env.toEnv (run env.toChainEnv ops).world.db l request seed = .ok (p, review, wallet) →
    ∀ later, ∃ row', (run env.toChainEnv
        (ops ++ [.engine (.createDraft request seed now)] ++ later)).world.db.wallets[request.walletId]? =
        some row' ∧
      ∀ k, AtLeast (env.derivationIndex wallet k) (env.lastRevealed row'.state k)
  /-- No two addresses that are given out have one index; they are the same
      only if two indices of the wallet have the same address. -/
  fresh : ∀ id out later out',
    receiveAddress env.toEnv (run env.toChainEnv ops).world.db id = .ok out →
    receiveAddress env.toEnv (run env.toChainEnv
      (ops ++ [.engine (.receiveAddress id)] ++ later)).world.db id = .ok out' →
    out.1.index < out'.1.index ∧
    ∃ row, (run env.toChainEnv ops).world.db.wallets[id]? = some row ∧
      out.1.address = env.addresses row.state .external out.1.index ∧
      out'.1.address = env.addresses row.state .external out'.1.index

/-- A commit, as it concerns labels and freezes. -/
theorem commit_marks (shared : Shared State Wallet) (n : Nat) (out : Scan.Outside) (now : Nat) :
    (commit env.toChainEnv shared n out now).world.db.freezes = shared.world.db.freezes ∧
    ∀ (k : String × LabelKind × String) (label : String), shared.world.db.labels[k]? = some label →
      (commit env.toChainEnv shared n out now).world.db.labels[k]? = some label := by
  have hcommit := commit_cases env.toChainEnv shared n out now
  generalize commit env.toChainEnv shared n out now = shared' at hcommit
  cases hcommit with
  | refused => exact ⟨rfl, fun _ _ h => h⟩
  | committed found scanned ok effect =>
      obtain @⟨_, _, _, _, _, _, _, _, _, _, _, _, freezes, labels⟩ := effect
      exact ⟨freezes, labels⟩

theorem started_of_commits {ops : List Op} {n : Nat} {out : Scan.Outside} {now : Nat}
    {p : Prepared State Wallet} {result : ChainScan} {row row' : WalletRow State}
    (h : Commits env.toChainEnv (run env.toChainEnv ops) n out now p result row row') :
    ∃ pre post row₀, ops = pre ++ post ∧
      PreparedFrom env (run env.toChainEnv pre).world.db p row₀ ∧
      env.stateJson row.state = env.stateJson row₀.state ∧
      Sync.revision (run env.toChainEnv ops).world.db p.walletId =
        Sync.revision (run env.toChainEnv pre).world.db p.walletId := by
  obtain ⟨db, hok, -⟩ := h.ok
  obtain @⟨l, _, _, _, loaded, _, fresh, unchanged, _, _, _, _, _, _⟩ :=
    commitSync_effect env.toEnv hok
  obtain ⟨row₁, _, hrow₁, -, -, hstate, -⟩ := load_row env.toEnv loaded
  rw [h.found, Option.some.injEq] at hrow₁
  subst hrow₁
  obtain ⟨pre, post, row₀, hops, hfrom⟩ := prepared_from ops h.prepared
  refine ⟨pre, post, row₀, hops, hfrom, ?_, ?_⟩
  · rw [← hstate, unchanged, hfrom.serialized]
  · rw [fresh, hfrom.revision]

/-- What was revealed by a step is in every later snapshot. -/
theorem revealed_later {ops : List Op} {op : Op} {id : String} {row : WalletRow State}
    (hrow : (run env.toChainEnv (ops ++ [op])).world.db.wallets[id]? = some row) (later : List Op) :
    ∃ row', (run env.toChainEnv (ops ++ [op] ++ later)).world.db.wallets[id]? = some row' ∧
      Extends env row.state row'.state :=
  kept_run (ops ++ [op]) later id row hrow

/-- **No lost update.**  Whatever the connections do between a sync's start and
    its commit, and in whatever order. -/
theorem run_no_lost_update (env : KeychainEnv State Wallet) (ops : List Op) :
    NoLostUpdate env ops where
  started := fun _ _ _ _ _ _ _ h => started_of_commits h
  freezes := fun n out now => by
    rw [run_concat]
    exact (commit_marks (run env.toChainEnv ops) n out now).1
  labels := fun n out now => by
    rw [run_concat]
    exact (commit_marks (run env.toChainEnv ops) n out now).2
  kept := kept_run ops
  received := fun id out hout later => by
    obtain ⟨row, row', -, hrow', -, -, hlast⟩ := receiveAddress_next hout
    rw [← run_received hout] at hrow'
    obtain ⟨row'', hrow'', hext⟩ := revealed_later hrow' later
    exact ⟨row'', hrow'', hlast ▸ hext.index .external⟩
  drafted := fun request seed now out l p review wallet hout hload hplan later => by
    obtain ⟨row', hrow', hlast⟩ := createDraft_used hout hload hplan
    rw [← run_drafted hout] at hrow'
    obtain ⟨row'', hrow'', hext⟩ := revealed_later hrow' later
    exact ⟨row'', hrow'', fun k => hlast ▸ hext.index k⟩
  fresh := fun id out later out' hout hout' => by
    obtain ⟨row, row₁, hrow, hrow₁, -, haddress, hlast⟩ := receiveAddress_next hout
    obtain ⟨row₂, _, hrow₂, -, hindex, haddress', -⟩ := receiveAddress_next hout'
    have hfirst : (run env.toChainEnv (ops ++ [.engine (.receiveAddress id)])).world.db.wallets[id]? =
        some row₁ := by
      rw [run_received hout, hrow₁]
    obtain ⟨row₂', hrow₂', hext⟩ := revealed_later hfirst later
    rw [hrow₂, Option.some.injEq] at hrow₂'
    subst hrow₂'
    -- The index that was given out is still revealed, and the next one is past it.
    obtain ⟨m, hm, hle⟩ := hext.index .external out.1.index hlast
    have hkept := kept_run ops ([.engine (.receiveAddress id)] ++ later) id row hrow
    rw [← List.append_assoc] at hkept
    obtain ⟨row₂', hrow₂', hext'⟩ := hkept
    rw [hrow₂, Option.some.injEq] at hrow₂'
    subst hrow₂'
    refine ⟨?_, row, hrow, haddress, by rw [haddress', hext'.addresses]⟩
    rw [hindex, hm]
    exact Nat.lt_succ_of_le hle

end Connections
end Tundra
