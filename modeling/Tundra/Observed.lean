/-
  Tundra.Observed

  Observation times.  A sync's time is later than the wallet's last recorded
  sync, and that is later than every stamp in the wallet's snapshot; but a
  restore forgets the recorded time and keeps the stamps, so the first sync of a
  restored wallet is later than they are only if its clock is.
-/

import Tundra.Connections
import Tundra.Integrity
import Tundra.Fixture.Unconfirmed

namespace Tundra
namespace Connections

open Checked Relational Engine Snapshots

variable {State Wallet : Type} (env : ChainEnv State Wallet)

/-! ## Stamps -/

/-- Every time recorded for a transaction satisfies `P`. -/
def Stamps (state : State) (P : Nat → Prop) : Prop :=
  (∀ txid x, env.lastSeen state txid = some x → P x) ∧
  ∀ txid x, env.lastEvicted state txid = some x → P x

/-- Every seen and evicted time of a snapshot is before `t`. -/
def StampsBelow (state : State) (t : Nat) : Prop := Stamps env state (· < t)

theorem Stamps.mono {state : State} {P Q : Nat → Prop} (h : Stamps env state P)
    (hpq : ∀ x, P x → Q x) : Stamps env state Q :=
  ⟨fun txid x hx => hpq x (h.1 txid x hx), fun txid x hx => hpq x (h.2 txid x hx)⟩

/-- The latest of times that are all `t`, after earlier ones. -/
theorem latestTime_eq {recorded : Option Nat} {times : List Nat} {t : Nat}
    (htimes : ∀ x ∈ times, x = t) (hbefore : ∀ x, recorded = some x → x < t) :
    latestTime recorded times = if times = [] then recorded else some t := by
  have hmany : ∀ (times : List Nat), (∀ x ∈ times, x = t) → latestTime (some t) times = some t := by
    intro times
    induction times with
    | nil => exact fun _ => rfl
    | cons x times ih =>
        intro hall
        have hx : x = t := hall x List.mem_cons_self
        subst hx
        show latestTime (some (max x x)) times = some x
        rw [Nat.max_self]
        exact ih fun y hy => hall y (List.mem_cons_of_mem _ hy)
  cases times with
  | nil => exact (if_pos rfl).symm
  | cons x times =>
      have hx : x = t := htimes x List.mem_cons_self
      subst hx
      rw [if_neg (List.cons_ne_nil x times)]
      have hmax : max x (recorded.getD 0) = x := by
        rcases recorded with _ | y
        · exact Nat.max_eq_left (Nat.zero_le x)
        · exact Nat.max_eq_left (hbefore y rfl).le
      show latestTime (some (max x (recorded.getD 0))) times = some x
      rw [hmax]
      exact hmany times fun y hy => htimes y (List.mem_cons_of_mem _ hy)

theorem mem_timesOf {rows : List (Txid × Nat)} {txid : Txid} {x : Nat} :
    x ∈ timesOf rows txid ↔ (txid, x) ∈ rows := by
  simp only [timesOf, List.mem_map, List.mem_filter, decide_eq_true_eq, Prod.exists]
  constructor
  · rintro ⟨id, y, ⟨hmem, rfl⟩, rfl⟩
    exact hmem
  · exact fun hmem => ⟨txid, x, ⟨hmem, rfl⟩, rfl⟩

/-! ## Syncs that commit -/

/-- Sync `n` commits in a state: its prepared wallet, what its scan found, and
    the wallet's row before and after. -/
structure Commits (shared : Shared State Wallet) (n : Nat) (out : Scan.Outside) (now : Nat)
    (p : Prepared State Wallet) (result : ChainScan) (row row' : WalletRow State) : Prop where
  prepared : shared.prepared[n]? = some p
  found : shared.world.db.wallets[p.walletId]? = some row
  scanned : Scan.scan env out p.loaded.wallet p.snapshot.endpoint
    (Sync.observedAt p.snapshot now) = .ok result
  ok : ∃ db, Sync.commitSync env.toEnv shared.world.db p.walletId p.snapshot result now = .ok ((), db) ∧
    db.wallets[p.walletId]? = some row'

/-- The wallet was synced since it was imported or restored, or the clock is
    past every time its snapshot records. -/
def Timely (row : WalletRow State) (now : Nat) : Prop :=
  row.syncedAt ≠ none ∨ StampsBelow env row.state now

/-- A sync commits only at such a time. -/
def TimelyOp (shared : Shared State Wallet) : Op → Prop
  | .commit n out now => ∀ p result row row',
      Commits env shared n out now p result row row' → Timely env row now
  | _ => True

structure TimeInv (shared : Shared State Wallet) : Prop where
  /-- No stamp is 0, and none is later than the recorded sync. -/
  positive : ∀ (id : String) (row : WalletRow State), shared.world.db.wallets[id]? = some row →
    Stamps env row.state (0 < ·)
  synced : ∀ (id : String) (row : WalletRow State) (s : Nat),
    shared.world.db.wallets[id]? = some row → row.syncedAt = some s →
    Stamps env row.state (· ≤ s)
  /-- A prepared sync whose revision is still current knows the recorded sync. -/
  prepared : ∀ (n : Nat) (p : Prepared State Wallet), shared.prepared[n]? = some p →
    ∃ row, shared.world.db.wallets[p.walletId]? = some row ∧
      p.snapshot.revision ≤ Sync.revision shared.world.db p.walletId ∧
      (p.snapshot.revision = Sync.revision shared.world.db p.walletId →
        p.snapshot.syncedAt = row.syncedAt)

section

variable {env} {shared : Shared State Wallet} {n : Nat} {out : Scan.Outside} {now : Nat}
  {p : Prepared State Wallet} {result : ChainScan} {row row' : WalletRow State}

/-- The rows of a committed sync, before and after. -/
theorem Commits.rows (h : Commits env shared n out now p result row row') :
    ∃ (w updated : Wallet) (network : Network),
      p.snapshot.revision = Sync.revision shared.world.db p.walletId ∧
      env.loadWallet network (env.replaceBlocks row.state result) = some w ∧
      env.applyUpdate w result = some updated ∧
      row' = { row with
        state := env.savedState (env.replaceBlocks row.state result) updated
        syncedAt := some (Sync.observedAt p.snapshot now) } := by
  obtain ⟨db, hok, hrow'⟩ := h.ok
  obtain @⟨l, replaced, updated, row₀, loaded, found, fresh, -, reloaded, applied, wallets, -, -, -⟩ :=
    commitSync_effect env.toEnv hok
  have hsame : row₀ = row := by
    rw [h.found, Option.some.injEq] at found
    exact found.symm
  subst hsame
  obtain ⟨row₁, network, hrow₁, -, -, hstate, -, -⟩ := load_row env.toEnv loaded
  rw [h.found, Option.some.injEq] at hrow₁
  subst hrow₁
  rw [hstate] at reloaded wallets
  refine ⟨replaced, updated, l.summary.network, fresh.symm, reloaded, applied, ?_⟩
  rw [wallets, Table.get_insert_self, Option.some.injEq] at hrow'
  exact hrow'.symm

/-- The stamps of the row a sync leaves. -/
theorem Commits.stamps (h : Commits env shared n out now p result row row') :
    (∀ txid, env.lastSeen row'.state txid =
      latestTime (env.lastSeen row.state txid) (timesOf result.update.seenAts txid)) ∧
    ∀ txid, env.lastEvicted row'.state txid =
      latestTime (env.lastEvicted row.state txid) (timesOf result.update.evictedAts txid) := by
  obtain ⟨w, updated, network, -, hload, happly, rfl⟩ := h.rows
  obtain ⟨-, hseen, hevicted⟩ := env.applyUpdate_chain _ _ _ _ _ hload happly
  obtain ⟨-, -, hseen', hevicted'⟩ := env.replaceBlocks_chain row.state result
  refine ⟨fun txid => ?_, fun txid => ?_⟩
  · rw [hseen, hseen']
  · rw [hevicted, hevicted']

/-- A scan's times are the time of its sync, and it does not both see and evict
    a transaction. -/
theorem Commits.times (h : Commits env shared n out now p result row row') :
    (∀ txid, ∀ x ∈ timesOf result.update.seenAts txid, x = Sync.observedAt p.snapshot now) ∧
    (∀ txid, ∀ x ∈ timesOf result.update.evictedAts txid, x = Sync.observedAt p.snapshot now) ∧
    ∀ txid, timesOf result.update.seenAts txid = [] ∨ timesOf result.update.evictedAts txid = [] := by
  obtain ⟨height, tip, found, hscan, rfl⟩ := Scan.scan_eq_ok.mp h.scanned
  have haccurate := Scan.scanAll_accurate hscan
  have hseen : ∀ txid, ∀ x ∈ timesOf found.update.seenAts txid,
      x = Sync.observedAt p.snapshot now ∧ ∃ status, Scan.Listed found.visits txid status := by
    intro txid x hx
    rw [mem_timesOf] at hx
    obtain ⟨status, hlisted, hpending⟩ := haccurate.onlySeen txid x hx
    exact ⟨((haccurate.unconfirmed txid status hlisted hpending).1 x).mp hx, status, hlisted⟩
  have hevicted : ∀ txid, ∀ x ∈ timesOf found.update.evictedAts txid,
      x = Sync.observedAt p.snapshot now ∧ ∀ status, ¬ Scan.Listed found.visits txid status := by
    intro txid x hx
    rw [mem_timesOf, haccurate.evicted] at hx
    exact ⟨hx.1, hx.2.2⟩
  refine ⟨fun txid x hx => (hseen txid x hx).1, fun txid x hx => (hevicted txid x hx).1,
    fun txid => ?_⟩
  by_contra hboth
  rw [not_or] at hboth
  obtain ⟨x, hx⟩ := List.exists_mem_of_ne_nil _ hboth.1
  obtain ⟨y, hy⟩ := List.exists_mem_of_ne_nil _ hboth.2
  obtain ⟨status, hlisted⟩ := (hseen txid x hx).2
  exact (hevicted txid y hy).2 status hlisted

theorem observedAt_pos (snapshot : Sync.Snapshot) (now : Nat) :
    0 < Sync.observedAt snapshot now := by
  unfold Sync.observedAt
  omega

/-- Whatever was recorded before, the stamps a sync leaves are old ones or its
    own time. -/
theorem latestTime_mem {recorded : Option Nat} {times : List Nat} {P : Nat → Prop} {x : Nat}
    (hrecorded : ∀ y, recorded = some y → P y) (htimes : ∀ y ∈ times, P y)
    (h : latestTime recorded times = some x) : P x := by
  induction times generalizing recorded with
  | nil => exact hrecorded x h
  | cons y times ih =>
      refine ih ?_ (fun z hz => htimes z (List.mem_cons_of_mem _ hz)) h
      intro z hz
      rw [Option.some.injEq] at hz
      have hy : P y := htimes y List.mem_cons_self
      rcases recorded with _ | r
      · rw [Option.getD_none, Nat.max_eq_left (Nat.zero_le y)] at hz
        exact hz ▸ hy
      · rw [Option.getD_some] at hz
        rcases Nat.le_total y r with hle | hle
        · rw [Nat.max_eq_right hle] at hz
          exact hz ▸ hrecorded r rfl
        · rw [Nat.max_eq_left hle] at hz
          exact hz ▸ hy

theorem Commits.stamps_of (h : Commits env shared n out now p result row row') {P : Nat → Prop}
    (hrow : Stamps env row.state P) (hnow : P (Sync.observedAt p.snapshot now)) :
    Stamps env row'.state P := by
  obtain ⟨hseen, hevicted⟩ := h.stamps
  obtain ⟨htimes, htimes', -⟩ := h.times
  refine ⟨fun txid x hx => ?_, fun txid x hx => ?_⟩
  · rw [hseen] at hx
    exact latestTime_mem (hrow.1 txid) (fun y hy => (htimes txid y hy).symm ▸ hnow) hx
  · rw [hevicted] at hx
    exact latestTime_mem (hrow.2 txid) (fun y hy => (htimes' txid y hy).symm ▸ hnow) hx

/-- The time of a committed sync is past every stamp exactly if the clock or a
    recorded sync makes it so. -/
theorem Commits.below_iff (h : Commits env shared n out now p result row row')
    (hinv : TimeInv env shared) :
    StampsBelow env row.state (Sync.observedAt p.snapshot now) ↔ Timely env row now := by
  obtain ⟨_, _, _, hrevision, -, -, -⟩ := h.rows
  obtain ⟨row₀, hrow₀, -, hsynced⟩ := hinv.prepared n p h.prepared
  rw [h.found, Option.some.injEq] at hrow₀
  subst hrow₀
  have hsame := hsynced hrevision
  constructor
  · intro hbelow
    rcases hat : row.syncedAt with _ | s
    · -- Never synced: the time is the clock's, or 1 when the clock says 0.
      right
      have hpositive := hinv.positive p.walletId row h.found
      have htime : Sync.observedAt p.snapshot now = max now 1 := by
        unfold Sync.observedAt
        rw [hsame, hat, Option.getD_none]
      rw [htime] at hbelow
      refine ⟨fun txid x hx => ?_, fun txid x hx => ?_⟩
      · have hlt := hbelow.1 txid x hx
        have hpos := hpositive.1 txid x hx
        omega
      · have hlt := hbelow.2 txid x hx
        have hpos := hpositive.2 txid x hx
        omega
    · exact Or.inl (by rw [hat]; simp)
  · rintro (hat | hbelow)
    · obtain ⟨s, hs⟩ := Option.ne_none_iff_exists'.mp hat
      have hle := hinv.synced p.walletId row s h.found hs
      refine hle.mono env fun x hx => ?_
      have htime : s + 1 ≤ Sync.observedAt p.snapshot now := by
        unfold Sync.observedAt
        rw [hsame, hs, Option.getD_some]
        exact Nat.le_max_right _ _
      omega
    · refine hbelow.mono env fun x hx => ?_
      have htime : now ≤ Sync.observedAt p.snapshot now := Nat.le_max_left _ _
      omega

/-- Past every stamp, what is listed counts as seen and what is missing as
    evicted. -/
structure Decided (env : ChainEnv State Wallet) (state : State) (result : ChainScan) (t : Nat) :
    Prop where
  seen : ∀ txid, (txid, t) ∈ result.update.seenAts → env.lastSeen state txid = some t ∧
    ∀ x, env.lastEvicted state txid = some x → x < t
  evicted : ∀ txid, (txid, t) ∈ result.update.evictedAts → env.lastEvicted state txid = some t ∧
    ∀ x, env.lastSeen state txid = some x → x < t

theorem Commits.decided (h : Commits env shared n out now p result row row')
    (hbelow : StampsBelow env row.state (Sync.observedAt p.snapshot now)) :
    Decided env row'.state result (Sync.observedAt p.snapshot now) := by
  obtain ⟨hseen, hevicted⟩ := h.stamps
  obtain ⟨htimes, htimes', hone⟩ := h.times
  constructor
  · intro txid hlisted
    have hmem := mem_timesOf.mpr hlisted
    have hother := (hone txid).resolve_left (List.ne_nil_of_mem hmem)
    refine ⟨?_, fun x hx => ?_⟩
    · rw [hseen, latestTime_eq (htimes txid) (hbelow.1 txid),
        if_neg (List.ne_nil_of_mem hmem)]
    · rw [hevicted, hother] at hx
      exact hbelow.2 txid x hx
  · intro txid hmissing
    have hmem := mem_timesOf.mpr hmissing
    have hother := (hone txid).resolve_right (List.ne_nil_of_mem hmem)
    refine ⟨?_, fun x hx => ?_⟩
    · rw [hevicted, latestTime_eq (htimes' txid) (hbelow.2 txid),
        if_neg (List.ne_nil_of_mem hmem)]
    · rw [hseen, hother] at hx
      exact hbelow.1 txid x hx

end

/-! ## Runs -/

/-- What an operation other than a sync leaves of the stamps and the recorded
    syncs. -/
structure KeepsTimes (env : ChainEnv State Wallet) (db db' : Db State) : Prop where
  rows : ∀ (id : String) (row' : WalletRow State), db'.wallets[id]? = some row' →
    (∃ row, db.wallets[id]? = some row ∧
      (∀ P, Stamps env row.state P → Stamps env row'.state P) ∧
      (row'.syncedAt = row.syncedAt ∨ row'.syncedAt = none)) ∨
    ((∀ P, Stamps env row'.state P) ∧ row'.syncedAt = none)
  revision : ∀ id, Sync.revision db' id = Sync.revision db id

theorem revision_congr {db db' : Db State} (h : db'.syncState = db.syncState) (id : String) :
    Sync.revision db' id = Sync.revision db id := by
  unfold Sync.revision
  rw [h]

variable {env}

theorem keepsTimes_of_effect {db db' : Db State} {op : System.Op ChainScan}
    (h : SnapshotEffect env.toEnv db db' op) (hop : ∀ id s r now, op ≠ .commitSync id s r now) :
    KeepsTimes env db db' := by
  cases h with
  | kept hsame =>
      refine ⟨fun id row' hrow' => Or.inl ⟨row', ?_, fun _ hP => hP, Or.inl rfl⟩,
        revision_congr hsame.syncState⟩
      rw [← hsame.wallets]
      exact hrow'
  | @imported name payload network now p wallet row fresh created staged on unsynced wallets sync =>
      refine ⟨fun id row' hrow' => ?_, revision_congr sync⟩
      rw [wallets, Table.get_insert] at hrow'
      split_ifs at hrow'
      · rw [Option.some.injEq] at hrow'
        subst hrow'
        obtain ⟨-, -, hseen, hevicted⟩ := env.createWallet_chain _ _ _ _ _ created staged
        refine Or.inr ⟨fun P => ⟨fun txid x hx => ?_, fun txid x hx => ?_⟩, unsynced⟩
        · rw [hseen] at hx
          cases hx
        · rw [hevicted] at hx
          cases hx
      · exact Or.inl ⟨row', hrow', fun _ hP => hP, Or.inl rfl⟩
  | @revealed _ id' l keychains row loaded found wallets sync =>
      refine ⟨fun id row' hrow' => ?_, revision_congr sync⟩
      rw [wallets, Table.get_insert] at hrow'
      split_ifs at hrow' with hid
      · rw [Option.some.injEq] at hrow'
        subst hrow' hid
        obtain ⟨row₀, n, hrow₀, -, hload, hstate, -⟩ := load_row env.toEnv loaded
        rw [found, Option.some.injEq] at hrow₀
        subst hrow₀
        obtain ⟨-, hseen, hevicted⟩ := env.savedState_revealAll _ _ _ keychains hload
        refine Or.inl ⟨row, found, fun P hP => ⟨fun txid x hx => ?_, fun txid x hx => ?_⟩,
          Or.inl rfl⟩
        · rw [hstate, hseen] at hx
          exact hP.1 txid x hx
        · rw [hstate, hevicted] at hx
          exact hP.2 txid x hx
      · exact Or.inl ⟨row', hrow', fun _ hP => hP, Or.inl rfl⟩
  | committed => exact absurd rfl (hop _ _ _ _)
  | @restored now wallets sync =>
      refine ⟨fun id row' hrow' => ?_, revision_congr sync⟩
      rw [wallets, Option.map_eq_some_iff] at hrow'
      obtain ⟨row, hrow, rfl⟩ := hrow'
      exact Or.inl ⟨row, hrow, fun _ hP => hP, Or.inr rfl⟩

/-- A wallet that is there stays, with its recorded sync, unless the store is
    restored. -/
theorem row_of_effect {db db' : Db State} {op : System.Op ChainScan}
    (h : SnapshotEffect env.toEnv db db' op) (hcommit : ∀ id s r now, op ≠ .commitSync id s r now)
    (hrestore : ∀ now, op ≠ .restore now) {id : String} {row : WalletRow State}
    (hrow : db.wallets[id]? = some row) :
    ∃ row', db'.wallets[id]? = some row' ∧ row'.syncedAt = row.syncedAt := by
  cases h with
  | kept hsame => exact ⟨row, by rw [hsame.wallets]; exact hrow, rfl⟩
  | @imported _ _ _ _ p _ _ fresh _ _ _ _ wallets _ =>
      refine ⟨row, ?_, rfl⟩
      rw [wallets, Table.get_insert, if_neg]
      · exact hrow
      · rintro rfl
        rw [hrow] at fresh
        cases fresh
  | @revealed _ id' l keychains row₀ _ found wallets _ =>
      rw [wallets]
      simp only [Table.get_insert]
      by_cases hid : id' = id
      · subst hid
        rw [found, Option.some.injEq] at hrow
        subst hrow
        exact ⟨_, if_pos rfl, rfl⟩
      · exact ⟨row, by rw [if_neg hid]; exact hrow, rfl⟩
  | committed => exact absurd rfl (hcommit _ _ _ _)
  | restored => exact absurd rfl (hrestore _)

theorem TimeInv.rows_of {shared : Shared State Wallet} (h : TimeInv env shared) {db' : Db State}
    (hkeep : KeepsTimes env shared.world.db db') :
    (∀ (id : String) (row : WalletRow State), db'.wallets[id]? = some row →
      Stamps env row.state (0 < ·)) ∧
    ∀ (id : String) (row : WalletRow State) (s : Nat), db'.wallets[id]? = some row →
      row.syncedAt = some s → Stamps env row.state (· ≤ s) := by
  refine ⟨fun id row' hrow' => ?_, fun id row' s hrow' hs => ?_⟩
  · rcases hkeep.rows id row' hrow' with ⟨row, hrow, hstamps, -⟩ | ⟨hnone, -⟩
    · exact hstamps _ (h.positive id row hrow)
    · exact hnone _
  · rcases hkeep.rows id row' hrow' with ⟨row, hrow, hstamps, hsame | hforgot⟩ | ⟨hnone, -⟩
    · exact hstamps _ (h.synced id row s hrow (by rw [← hsame]; exact hs))
    · rw [hforgot] at hs
      cases hs
    · exact hnone _

/-- One step, at which a sync commits only when it is timely. -/
theorem TimeInv.step {shared : Shared State Wallet} {op : Op} (h : TimeInv env shared)
    (htimely : TimelyOp env shared op) : TimeInv env (step env shared op) := by
  have hstep := step_cases env shared op
  generalize Connections.step env shared op = shared' at hstep
  cases hstep with
  | refused => exact h
  | @prepared n id source consent p ok =>
      refine ⟨h.positive, h.synced, fun n' p' hp' => ?_⟩
      rw [Table.get_insert] at hp'
      split_ifs at hp' with hn
      · rw [Option.some.injEq] at hp'
        subst hp'
        simp only [prepare, Sync.prepareSync, bind_eq_ok, Except.ok.injEq] at ok
        obtain ⟨l, hload, snapshot, ⟨l', hload', endpoint, -, rfl⟩, rfl⟩ := ok
        rw [hload, Except.ok.injEq] at hload'
        subst hload'
        obtain ⟨row, _, hrow, -, -, -, -, hsynced⟩ := load_row env.toEnv hload
        exact ⟨row, hrow, Nat.le_refl _, fun _ => hsynced⟩
      · exact h.prepared n' p' hp'
  | @committed n out now p result db found scanned ok effect =>
      obtain @⟨l, replaced, updated, row, loaded, hrow, -, -, -, -, wallets, revision, -, -⟩ := effect
      have hcommits : ∀ row', db.wallets[p.walletId]? = some row' →
          Commits env shared n out now p result row row' :=
        fun row' hrow' => ⟨found, hrow, scanned, db, ok, hrow'⟩
      have hother : ∀ (id : String), p.walletId ≠ id → db.wallets[id]? = shared.world.db.wallets[id]? := by
        intro id hid
        rw [wallets, Table.get_insert, if_neg hid]
      refine ⟨fun id row' hrow' => ?_, fun id row' s hrow' hs => ?_, fun n' p' hp' => ?_⟩
      · by_cases hid : p.walletId = id
        · subst hid
          exact (hcommits row' hrow').stamps_of (h.positive p.walletId row hrow)
            (observedAt_pos p.snapshot now)
        · exact h.positive id row' (by rw [← hother id hid]; exact hrow')
      · by_cases hid : p.walletId = id
        · subst hid
          have hrow'' := hcommits row' hrow'
          -- The sync's time is the recorded one, and past every earlier stamp.
          have hbelow := (hrow''.below_iff h).mpr (htimely p result row row' hrow'')
          obtain ⟨_, _, _, -, -, -, hafter⟩ := hrow''.rows
          rw [hafter] at hs
          have htime : Sync.observedAt p.snapshot now = s := Option.some.inj hs
          rw [← htime]
          exact hrow''.stamps_of (hbelow.mono env fun x hx => hx.le) (Nat.le_refl _)
        · exact h.synced id row' s (by rw [← hother id hid]; exact hrow') hs
      · obtain ⟨row₀, hrow₀, hle, hsame⟩ := h.prepared n' p' hp'
        by_cases hid : p.walletId = p'.walletId
        · rw [wallets]
          simp only [Table.get_insert, revision, hid, if_true]
          exact ⟨_, rfl, Nat.le_succ_of_le hle, fun heq => absurd heq (by omega)⟩
        · simp only [hother _ hid, revision, if_neg (Ne.symm hid)]
          exact ⟨row₀, hrow₀, hle, hsame⟩
  | @restored now =>
      have hkeep := keepsTimes_of_effect
        (Snapshots.step_snapshot env.toEnv shared.world (.restore now)) (fun _ _ _ _ hop => by cases hop)
      obtain ⟨hpositive, hsynced⟩ := h.rows_of hkeep
      refine ⟨hpositive, hsynced, fun n' p' hp' => ?_⟩
      simp at hp'
  | @other op notCommit notRestore =>
      have heffect := Snapshots.step_snapshot env.toEnv shared.world op
      have hkeep := keepsTimes_of_effect heffect notCommit
      obtain ⟨hpositive, hsynced⟩ := h.rows_of hkeep
      refine ⟨hpositive, hsynced, fun n' p' hp' => ?_⟩
      obtain ⟨row, hrow, hle, hsame⟩ := h.prepared n' p' hp'
      obtain ⟨row', hrow', hsync'⟩ := row_of_effect heffect notCommit notRestore hrow
      refine ⟨row', hrow', ?_, fun heq => ?_⟩
      · rw [hkeep.revision]
        exact hle
      · rw [hkeep.revision] at heq
        rw [hsync']
        exact hsame heq

theorem timeInv_run {ops : List Op} (hops : Transition.Along (step env) (TimelyOp env) {} ops) :
    TimeInv env (run env ops) := by
  refine Transition.run_along (step env) (I := TimeInv env) (fun _ _ h hop => h.step hop) ?_ hops
  refine ⟨fun id row hrow => ?_, fun id row s hrow => ?_, fun n p hp => ?_⟩
  · simp at hrow
  · simp at hrow
  · simp at hp

/-- **Observation times.**  In a run whose syncs are timely, the time of a sync
    that commits is past every seen and evicted time of the wallet it is applied
    to if and only if it is timely too; and then what it lists counts as seen and
    what it misses as evicted. -/
theorem run_observation_time (env : ChainEnv State Wallet) {ops : List Op}
    (hops : Transition.Along (step env) (TimelyOp env) {} ops) {n : Nat} {out : Scan.Outside}
    {now : Nat} {p : Prepared State Wallet} {result : ChainScan} {row row' : WalletRow State}
    (h : Commits env (run env ops) n out now p result row row') :
    (StampsBelow env row.state (Sync.observedAt p.snapshot now) ↔ Timely env row now) ∧
    (StampsBelow env row.state (Sync.observedAt p.snapshot now) →
      Decided env row'.state result (Sync.observedAt p.snapshot now)) :=
  ⟨h.below_iff (timeInv_run hops), h.decided⟩

open Fixture in
/-- The first sync of an imported wallet commits, and is timely. -/
theorem run_observation_time_first :
    ∃ row', Commits chainEnv (run chainEnv preparedRun) 0 mempool 1000
        (preparedAccount (accountRow 0) 0) (pendingScan 1000) (accountRow 0) row' ∧
      ((StampsBelow chainEnv (accountRow 0).state 1000 ↔ Timely chainEnv (accountRow 0) 1000) ∧
        (StampsBelow chainEnv (accountRow 0).state 1000 →
          Decided chainEnv row'.state (pendingScan 1000) 1000)) := by
  have hcommits : Commits chainEnv (run chainEnv preparedRun) 0 mempool 1000
      (preparedAccount (accountRow 0) 0) (pendingScan 1000) (accountRow 0)
      (syncedRow (accountRow 0) pendingWallet 1000) := by
    rw [run_prepared]
    exact ⟨Table.get_insert_self _ _ _, (account_fresh 0).get, scan_imported, syncedDb, first_commit,
      synced_fresh.get⟩
  have halong : Transition.Along (step chainEnv) (TimelyOp chainEnv) {} preparedRun :=
    ⟨trivial, trivial, trivial⟩
  exact ⟨_, hcommits, run_observation_time chainEnv halong hcommits⟩

open Fixture in
/-- **A restored wallet's first sync need not be later than what it has seen.**
    The funding transaction was seen at 1000; the restore forgets that time, and
    a clock at 500 gives the sync the time 500. -/
theorem restored_sync_time : ∃ row', Commits chainEnv (run chainEnv restoredRun) 1 mempool 500
      (preparedAccount restoredRow (Sync.revision restoredDb walletId)) (pendingScan 500) restoredRow
      row' ∧
    chainEnv.lastSeen restoredRow.state fundingId = some 1000 ∧
    ¬ StampsBelow chainEnv restoredRow.state (Sync.observedAt
      (preparedAccount restoredRow (Sync.revision restoredDb walletId)).snapshot 500) := by
  obtain ⟨w, happly⟩ := apply_pending
  have hcommit := restored_fresh.commit
    (preparedAccount restoredRow (Sync.revision restoredDb walletId)).snapshot 500 rfl rfl happly
  have hcommits : Commits chainEnv (run chainEnv restoredRun) 1 mempool 500
      (preparedAccount restoredRow (Sync.revision restoredDb walletId)) (pendingScan 500) restoredRow
      (syncedRow restoredRow w 500) := by
    rw [run_restored]
    exact ⟨Table.get_insert_self _ _ _, restored_fresh.get, scan_pending, _, hcommit,
      Table.get_insert_self _ _ _⟩
  have hseen : chainEnv.lastSeen restoredRow.state fundingId = some 1000 :=
    Table.get_insert_self _ _ _
  refine ⟨_, hcommits, hseen, fun hbelow => ?_⟩
  have hlt : 1000 < Sync.observedAt
      (preparedAccount restoredRow (Sync.revision restoredDb walletId)).snapshot 500 :=
    hbelow.1 fundingId 1000 hseen
  exact absurd hlt (by decide)

end Connections
end Tundra
