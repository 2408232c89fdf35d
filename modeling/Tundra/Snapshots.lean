/-
  Tundra.Snapshots

  What can happen to the stored wallets: an import adds one, a receive address
  or a draft reveals addresses, a committed sync replaces the chain, and a
  restore forgets when wallets were synced.  Every other operation leaves the
  wallets and the sync state alone.
-/

import Tundra.Paths

namespace Tundra
namespace Snapshots

open Checked Relational Engine Signing Broadcast Recovery Drafts Effects Tundra.System
  Paths

variable {State Wallet Scan : Type} (env : Env State Wallet Scan)

/-! ## What other operations leave alone -/

/-- The wallets and the sync state of two databases agree. -/
structure SameWallets (db db' : Db State) : Prop where
  wallets : db'.wallets = db.wallets
  syncState : db'.syncState = db.syncState

@[refl] theorem SameWallets.refl (db : Db State) : SameWallets db db := ⟨rfl, rfl⟩

theorem SameWallets.trans {db₁ db₂ db₃ : Db State} (h : SameWallets db₁ db₂)
    (h' : SameWallets db₂ db₃) : SameWallets db₁ db₃ :=
  ⟨h'.wallets.trans h.wallets, h'.syncState.trans h.syncState⟩

/-- Freezes are as they were, and every label is still there. -/
structure KeepsMarks (db db' : Db State) : Prop extends SameWallets db db' where
  freezes : db'.freezes = db.freezes
  labels : ∀ (k : String × LabelKind × String) (label : String), db.labels[k]? = some label →
    db'.labels[k]? = some label

@[refl] theorem KeepsMarks.refl (db : Db State) : KeepsMarks db db :=
  ⟨.refl db, rfl, fun _ _ h => h⟩

theorem KeepsMarks.trans {db₁ db₂ db₃ : Db State} (h : KeepsMarks db₁ db₂)
    (h' : KeepsMarks db₂ db₃) : KeepsMarks db₁ db₃ :=
  ⟨h.toSameWallets.trans h'.toSameWallets, h'.freezes.trans h.freezes,
    fun k label hl => h'.labels k label (h.labels k label hl)⟩

section Statements

variable {db : Db State}

theorem updateReview_keeps (w d : String) (review : ReviewJson) :
    KeepsMarks db (db.updateReview w d review) := by
  unfold Db.updateReview
  split <;> exact ⟨⟨rfl, rfl⟩, rfl, fun _ _ h => h⟩

theorem updateReviewById_keeps (d : String) (review : ReviewJson) :
    KeepsMarks db (Sync.updateReviewById db d review) := by
  unfold Sync.updateReviewById
  split <;> exact ⟨⟨rfl, rfl⟩, rfl, fun _ _ h => h⟩

theorem deleteReservations_keeps (w d : String) : KeepsMarks db (db.deleteReservations w d) :=
  ⟨⟨rfl, rfl⟩, rfl, fun _ _ h => h⟩

theorem deleteRecovered_keeps (w d : String) : KeepsMarks db (db.deleteRecovered w d) :=
  ⟨⟨rfl, rfl⟩, rfl, fun _ _ h => h⟩

/-- INSERT OR IGNORE overwrites no label. -/
theorem insertLabelIfNew_keeps (w : String) (kind : LabelKind) (reference label : String) :
    KeepsMarks db (db.insertLabelIfNew w kind reference label) := by
  refine ⟨⟨rfl, rfl⟩, rfl, fun k l hl => ?_⟩
  rw [Db.insertLabelIfNew, Table.get_insertIfNew]
  split_ifs with hk
  · obtain ⟨rfl, hnone⟩ := hk
    rw [hl] at hnone
    cases hnone
  · exact hl

theorem applyOutputLabel_keeps (w d label txid : String) (vout : Nat) :
    KeepsMarks db (applyOutputLabel w d label txid vout db) := by
  unfold applyOutputLabel
  have hprovenance : KeepsMarks db { db with
      outputProvenance := db.outputProvenance.insertIfNew (w, txid ++ ":" ++ toString vout) d } :=
    ⟨⟨rfl, rfl⟩, rfl, fun _ _ h => h⟩
  dsimp only
  split_ifs
  · exact hprovenance
  · exact hprovenance.trans (insertLabelIfNew_keeps ..)

theorem applyOutputLabels_keeps (w d label txid : String) (wallet : Wallet) (vout : Nat)
    (outputs : List TxOut) :
    KeepsMarks db (applyOutputLabels env w d label txid wallet vout outputs db) := by
  induction outputs generalizing vout db with
  | nil => exact .refl db
  | cons output outputs ih =>
      unfold applyOutputLabels
      refine KeepsMarks.trans ?_ (ih (vout + 1))
      split_ifs
      · exact applyOutputLabel_keeps ..
      · exact .refl db

theorem applyObservedLabels_keeps {w : String} {review : DraftReview} {wallet : Wallet}
    {info : BroadcastInfo} {db' : Db State}
    (h : applyObservedLabels env db w review wallet info = .ok db') : KeepsMarks db db' := by
  unfold applyObservedLabels at h
  by_cases happlied : (db.draftLabelApplications[(w, review.id)]?).isSome = true
  · rw [if_pos happlied, Except.ok.injEq] at h
    exact h ▸ .refl db
  · rw [if_neg happlied] at h
    simp only [bind_eq_ok, exists_unit, Except.ok.injEq] at h
    obtain ⟨_, _, txid, _, found, _, rfl⟩ := h
    have hmarker : KeepsMarks db { db with
        draftLabelApplications := db.draftLabelApplications.insert (w, review.id) () } :=
      ⟨⟨rfl, rfl⟩, rfl, fun _ _ h => h⟩
    refine hmarker.trans (KeepsMarks.trans ?_ (applyOutputLabels_keeps ..))
    split_ifs
    · exact .refl _
    · exact insertLabelIfNew_keeps ..

theorem observeDraft_keeps {w : String} {review : DraftReview} {wallet : Wallet} {db' : Db State}
    (h : observeDraft env db w review wallet = .ok (some db')) : KeepsMarks db db' := by
  unfold observeDraft at h
  split at h
  · cases h
  · simp only [bind_eq_ok] at h
    obtain ⟨seen, _, h⟩ := h
    split_ifs at h
    · cases h
    · simp only [bind_eq_ok, Except.ok.injEq, Option.some.injEq] at h
      obtain ⟨db₁, hlabels, rfl⟩ := h
      exact ((applyObservedLabels_keeps env hlabels).trans (deleteRecovered_keeps ..)).trans
        ((updateReview_keeps ..).trans (deleteReservations_keeps ..))

theorem sweepDraft_keeps {w : String} {wallet : Wallet} {draft : String × ReviewJson}
    {db' : Db State} (h : Sync.sweepDraft env w wallet db draft = .ok db') : KeepsMarks db db' := by
  simp only [Sync.sweepDraft, bind_eq_ok] at h
  obtain ⟨review, _, observed, hobserve, h⟩ := h
  cases observed with
  | some db₁ =>
      cases h
      exact observeDraft_keeps env hobserve
  | none =>
      dsimp only at h
      split_ifs at h
      · cases h
        exact (updateReviewById_keeps ..).trans (deleteReservations_keeps ..)
      · cases h
        exact .refl db

/-- The sweep of a sync. -/
theorem invalidateDrafts_keeps {w : String} {wallet : Wallet} {db' : Db State}
    (h : Sync.invalidateDrafts env db w wallet = .ok db') : KeepsMarks db db' :=
  foldlM_ok_inv (KeepsMarks db)
    (fun _ _ _ _ hb hstep => hb.trans (sweepDraft_keeps env hstep)) (.refl db) h

end Statements

/-- An effect on drafts that is neither a metadata change nor a restore. -/
theorem effect_wallets {a : Act Wallet} {db db' : Db State} (h : Effect env a db db')
    (hmetadata : a ≠ .metadata) (hsuspend : a ≠ .suspend) : SameWallets db db' := by
  cases h with
  | metadata => exact absurd rfl hmetadata
  | create => exact ⟨rfl, rfl⟩
  | discard => exact ⟨rfl, rfl⟩
  | @accept db w d =>
      exact ⟨(updateReview_keeps w d _).wallets, (updateReview_keeps w d _).syncState⟩
  | @finalize db w d =>
      exact ⟨(updateReview_keeps w d _).wallets, (updateReview_keeps w d _).syncState⟩
  | @observe db wallet w d =>
      exact ((deleteRecovered_keeps w d).trans ((updateReview_keeps w d _).trans
        (deleteReservations_keeps w d))).toSameWallets
  | @invalidate db w d =>
      exact ((updateReview_keeps w d _).trans (deleteReservations_keeps w d)).toSameWallets
  | attempt => exact ⟨rfl, rfl⟩
  | acknowledge => exact ⟨rfl, rfl⟩
  | @resume db w d row r =>
      have hreserve : SameWallets (db.updateReview w d (reviewText env (r.withState .finalized)))
          (reserveInputs w d r.inputs
            (db.updateReview w d (reviewText env (r.withState .finalized)))) := by
        rw [reserveInputs_eq]
        exact ⟨rfl, rfl⟩
      exact ((updateReview_keeps w d _).toSameWallets.trans hreserve).trans
        (deleteRecovered_keeps w d).toSameWallets
  | suspend => exact absurd rfl hsuspend

/-! ## Edits of labels, freezes and registrations -/

section Edits

variable {db : Db State}

theorem putLabel_wallets (w : String) (kind : LabelKind) (reference label : String) :
    SameWallets db (db.putLabel w kind reference label) := ⟨rfl, rfl⟩

theorem setFreeze_wallets (w reference : String) (frozen : Bool) :
    SameWallets db (db.setFreeze w reference frozen) := ⟨rfl, rfl⟩

theorem editCoin_wallets (w : String) (label : Option String) (frozen : Option Bool)
    (reference : String) : SameWallets db (editCoin w label frozen db reference) := by
  unfold editCoin
  cases label <;> cases frozen <;> exact ⟨rfl, rfl⟩

theorem editCoins_wallets {w : String} {references : List String} {label : Option String}
    {frozen : Option Bool} {out : Unit × Db State}
    (h : editCoins env db w references label frozen = .ok out) : SameWallets db out.2 := by
  have hout : out = ((), references.foldl (editCoin w label frozen) db) := by
    cases label <;> simp only [editCoins, bind_eq_ok, exists_unit, Except.ok.injEq] at h
    · obtain ⟨_, _, l, _, _, _, rfl⟩ := h
      rfl
    · obtain ⟨_, _, l, _, _, _, rfl⟩ := h
      rfl
  subst hout
  have hfold : ∀ (refs : List String) (db : Db State),
      SameWallets db (refs.foldl (editCoin w label frozen) db) := by
    intro refs
    induction refs with
    | nil => exact fun db => .refl db
    | cons reference refs ih =>
        intro db
        exact (editCoin_wallets w label frozen reference).trans (ih _)
  exact hfold references db

theorem applyRecord_wallets (apply : Bool) (w : String) (r : Labels.LabelRecord) :
    SameWallets db (applyRecord apply db w r).2 := by
  unfold applyRecord
  cases r.label <;> cases r.spendable <;> cases apply <;> exact ⟨rfl, rfl⟩

theorem importRecords_wallets {apply : Bool} {w origin : String} {wallet : Wallet}
    {records : List Labels.LabelRecord} {seen : List (LabelKind × String)}
    {preview : Labels.LabelPreview} {out : Labels.LabelPreview × Db State}
    (h : importRecords env apply w wallet origin records seen preview db = .ok out) :
    SameWallets db out.2 := by
  induction records generalizing seen preview db with
  | nil =>
      cases h
      exact .refl db
  | cons r rest ih =>
      unfold importRecords at h
      split_ifs at h
      · simp only [bind_eq_ok, exists_unit] at h
        exact (applyRecord_wallets apply w r).trans (ih h.2)
      · exact ih h

theorem importLabels_wallets {w payload : String} {apply : Bool}
    {out : Labels.LabelPreview × Db State}
    (h : importLabels env db w payload apply = .ok out) : SameWallets db out.2 := by
  simp only [importLabels, bind_eq_ok, Prod.exists, Except.ok.injEq] at h
  obtain ⟨records, skipped, _, l, _, origin, _, preview, db', hrecords, rfl⟩ := h
  cases apply with
  | true => exact importRecords_wallets env hrecords
  | false => exact .refl db

end Edits

/-! ## Operations -/

/-- What an operation does to the stored wallets and the sync state. -/
inductive SnapshotEffect (db db' : Db State) : Op Scan → Prop where
  | kept {op : Op Scan} (h : SameWallets db db') : SnapshotEffect db db' op
  | imported {name payload : String} {network : Network} {now : Nat} {p : ImportPreview}
      {wallet : Wallet} {row : WalletRow State} (fresh : db.wallets[p.id]? = none)
      (created : env.createWallet network p.receiveDescriptor p.changeDescriptor = some wallet)
      (staged : env.takeStaged wallet = some row.state) (on : row.network = network.key)
      (unsynced : row.syncedAt = none) (wallets : db'.wallets = db.wallets.insert p.id row)
      (syncState : db'.syncState = db.syncState) :
      SnapshotEffect db db' (.importWallet name payload network now)
  | revealed {op : Op Scan} {id : String} {l : Loaded State Wallet} (keychains : List KeychainKind)
      {row : WalletRow State} (loaded : load env db id = .ok l)
      (found : db.wallets[id]? = some row)
      (wallets : db'.wallets = db.wallets.insert id
        { row with state := env.savedState l.state (env.revealAll l.wallet keychains) })
      (syncState : db'.syncState = db.syncState) : SnapshotEffect db db' op
  | committed {id : String} {snapshot : Sync.Snapshot} {scan : Scan} {now : Nat}
      {l : Loaded State Wallet} {replaced updated : Wallet} {row : WalletRow State}
      (loaded : load env db id = .ok l) (found : db.wallets[id]? = some row)
      (fresh : Sync.revision db id = snapshot.revision)
      (unchanged : env.stateJson l.state = snapshot.serialized)
      (reloaded : env.loadWallet l.summary.network (env.replaceBlocks l.state scan) = some replaced)
      (applied : env.applyUpdate replaced scan = some updated)
      (wallets : db'.wallets = db.wallets.insert id
        { row with
          state := env.savedState (env.replaceBlocks l.state scan) updated
          syncedAt := some (Sync.observedAt snapshot now) })
      (revision : ∀ w, Sync.revision db' w =
        if w = id then Sync.revision db id + 1 else Sync.revision db w) :
      SnapshotEffect db db' (.commitSync id snapshot scan now)
  | restored {now : Nat}
      (wallets : ∀ w : String, db'.wallets[w]? =
        (db.wallets[w]?).map (fun row => { row with syncedAt := none }))
      (syncState : db'.syncState = db.syncState) :
      SnapshotEffect db db' (.restore now)

section Transactions

variable {db : Db State}

theorem load_row {id : String} {l : Loaded State Wallet} (h : load env db id = .ok l) :
    ∃ row network, db.wallets[id]? = some row ∧ Network.parse row.network = .ok network ∧
      env.loadWallet network row.state = some l.wallet ∧ l.state = row.state ∧
      l.summary.network = network ∧ l.summary.syncedAt = row.syncedAt := by
  simp only [load, bind_eq_ok, okOr_eq_ok, Except.ok.injEq] at h
  obtain ⟨row, hrow, network, hnetwork, policy, _, wallet, hwallet, rfl⟩ := h
  exact ⟨row, network, hrow, hnetwork, hwallet, rfl, rfl, rfl⟩

/-- `save` writes the snapshot of one wallet. -/
theorem save_wallets {id : String} {row : WalletRow State} (l : Loaded State Wallet)
    (h : db.wallets[id]? = some row) :
    (save env db id l).wallets =
      db.wallets.insert id { row with state := env.savedState l.state l.wallet } ∧
    (save env db id l).syncState = db.syncState := by
  simp only [save, Db.updateState, h]
  exact ⟨trivial, trivial⟩

theorem importWallet_snapshot {name payload : String} {network : Network} {now : Nat}
    {out : WalletSummary × Db State} (h : importWallet env db name payload network now = .ok out) :
    SnapshotEffect env db out.2 (.importWallet name payload network now) := by
  simp only [importWallet, bind_eq_ok, require_eq_ok, exists_unit, okOr_eq_ok,
    Except.ok.injEq] at h
  obtain ⟨_, p, _, hnew, _, wallet, hcreate, state, hstaged, rfl⟩ := h
  exact .imported hnew hcreate hstaged rfl rfl rfl rfl

theorem receiveAddress_snapshot {id : String} {out : ReceiveAddress × Db State} {op : Op Scan}
    (h : receiveAddress env db id = .ok out) : SnapshotEffect env db out.2 op := by
  simp only [receiveAddress, bind_eq_ok, Except.ok.injEq] at h
  obtain ⟨l, hload, rfl⟩ := h
  obtain ⟨row, _, hrow, _⟩ := load_row env hload
  obtain ⟨hwallets, hsync⟩ := save_wallets env
    { l with wallet := (env.revealNextAddress l.wallet .external).2 } hrow
  exact .revealed [.external] hload hrow hwallets hsync

theorem createDraft_snapshot {request : DraftRequest} {seed now : Nat}
    {out : DraftReview × Db State} {op : Op Scan}
    (h : createDraft env db request seed now = .ok out) : SnapshotEffect env db out.2 op := by
  obtain ⟨l, p, wallet, row, hload, _, hplan, _, _, _, _, _, hout⟩ := createDraft_facts env h
  obtain ⟨n, hreveal⟩ := (planDraft_facts env hplan).revealed
  obtain ⟨wrow, _, hrow, _⟩ := load_row env hload
  rw [hout]
  have hrow' : ({ db with
      drafts := db.drafts.insert out.1.id row
      reservations := reserveAll request.walletId out.1.id (outpoints out.1) db.reservations } :
      Db State).wallets[request.walletId]? = some wrow := hrow
  obtain ⟨hwallets, hsync⟩ := save_wallets env { l with wallet } hrow'
  rw [hreveal] at hwallets
  rw [hreveal] at hsync
  rw [hreveal]
  exact .revealed (List.replicate n .internal) hload hrow hwallets hsync

theorem revision_bump (w endpoint : String) (w' : String) :
    Sync.revision (Sync.bumpRevision db w endpoint) w' =
      if w' = w then Sync.revision db w + 1 else Sync.revision db w' := by
  unfold Sync.revision Sync.bumpRevision
  rw [Table.get_insert]
  by_cases h : w' = w
  · subst h
    rw [if_pos rfl, if_pos rfl]
    cases db.syncState[w']? <;> rfl
  · rw [if_neg h, if_neg (Ne.symm h)]

/-- What a committed sync does: the wallet is the one the scan started from, its
    chain is replaced, the sync is counted, and freezes and labels stay. -/
inductive CommitEffect (db db' : Db State) (id : String) (snapshot : Sync.Snapshot) (scan : Scan)
    (now : Nat) : Prop where
  | intro {l : Loaded State Wallet} {replaced updated : Wallet} {row : WalletRow State}
      (loaded : load env db id = .ok l) (found : db.wallets[id]? = some row)
      (fresh : Sync.revision db id = snapshot.revision)
      (unchanged : env.stateJson l.state = snapshot.serialized)
      (reloaded : env.loadWallet l.summary.network (env.replaceBlocks l.state scan) = some replaced)
      (applied : env.applyUpdate replaced scan = some updated)
      (wallets : db'.wallets = db.wallets.insert id
        { row with
          state := env.savedState (env.replaceBlocks l.state scan) updated
          syncedAt := some (Sync.observedAt snapshot now) })
      (revision : ∀ w, Sync.revision db' w =
        if w = id then Sync.revision db id + 1 else Sync.revision db w)
      (freezes : db'.freezes = db.freezes)
      (labels : ∀ (k : String × LabelKind × String) (label : String),
        db.labels[k]? = some label → db'.labels[k]? = some label)

theorem updateSyncedAt_marks (db : Db State) (w : String) (t : Nat) :
    (db.updateSyncedAt w t).freezes = db.freezes ∧ (db.updateSyncedAt w t).labels = db.labels ∧
      (db.updateSyncedAt w t).syncState = db.syncState := by
  unfold Db.updateSyncedAt
  split <;> exact ⟨rfl, rfl, rfl⟩

theorem save_marks (db : Db State) (id : String) (l : Loaded State Wallet) :
    (save env db id l).freezes = db.freezes ∧ (save env db id l).labels = db.labels := by
  unfold save Db.updateState
  split <;> exact ⟨rfl, rfl⟩

theorem commitSync_effect {id : String} {snapshot : Sync.Snapshot} {scan : Scan} {now : Nat}
    {out : Unit × Db State} (h : Sync.commitSync env db id snapshot scan now = .ok out) :
    CommitEffect env db out.2 id snapshot scan now := by
  simp only [Sync.commitSync, bind_eq_ok, require_eq_ok, exists_unit, okOr_eq_ok,
    Except.ok.injEq] at h
  obtain ⟨l, hload, ⟨hfresh, hsame⟩, replaced, hreplaced, updated, hupdated, db₁, hsweep, rfl⟩ := h
  obtain ⟨row, _, hrow, _⟩ := load_row env hload
  have hkeep := invalidateDrafts_keeps env hsweep
  have hrow₁ : db₁.wallets[id]? = some row := by rw [hkeep.wallets, hrow]
  obtain ⟨hwallets, hsync⟩ := save_wallets env
    { l with wallet := updated, state := env.replaceBlocks l.state scan } hrow₁
  obtain ⟨hfreezes, hlabels⟩ := save_marks env db₁ id
    { l with wallet := updated, state := env.replaceBlocks l.state scan }
  obtain ⟨hfreezes', hlabels', hsync'⟩ := updateSyncedAt_marks (save env db₁ id
    { l with wallet := updated, state := env.replaceBlocks l.state scan }) id
    (Sync.observedAt snapshot now)
  refine .intro hload hrow hfresh hsame hreplaced hupdated ?_ (fun w => ?_) ?_ ?_
  · show (Sync.bumpRevision _ _ _).wallets = _
    have hbump : ∀ (db : Db State) (w e : String),
        (Sync.bumpRevision db w e).wallets = db.wallets := fun _ _ _ => rfl
    rw [hbump]
    have hsaved : (save env db₁ id
        { l with wallet := updated, state := env.replaceBlocks l.state scan }).wallets[id]? =
        some { row with state := env.savedState (env.replaceBlocks l.state scan) updated } := by
      rw [hwallets, Table.get_insert_self]
    simp only [Db.updateSyncedAt, hsaved]
    rw [hwallets, hkeep.wallets]
    apply Table.ext
    intro k
    simp only [Table.get_insert]
    split_ifs <;> rfl
  · have hsame' : ∀ w', Sync.revision (Db.updateSyncedAt (save env db₁ id
        { l with wallet := updated, state := env.replaceBlocks l.state scan }) id
        (Sync.observedAt snapshot now)) w' = Sync.revision db w' := by
      intro w'
      unfold Sync.revision
      rw [hsync', hsync, hkeep.syncState]
    rw [revision_bump, hsame', hsame']
  · exact hfreezes'.trans (hfreezes.trans hkeep.freezes)
  · intro k label hk
    have hkept := hkeep.labels k label hk
    show (Sync.bumpRevision _ _ _).labels[k]? = _
    have hbump : ∀ (db : Db State) (w e : String),
        (Sync.bumpRevision db w e).labels = db.labels := fun _ _ _ => rfl
    rw [hbump, hlabels', hlabels]
    exact hkept

theorem commitSync_snapshot {id : String} {snapshot : Sync.Snapshot} {scan : Scan} {now : Nat}
    {out : Unit × Db State} (h : Sync.commitSync env db id snapshot scan now = .ok out) :
    SnapshotEffect env db out.2 (.commitSync id snapshot scan now) := by
  obtain ⟨hload, hrow, hfresh, hsame, hreplaced, hupdated, hwallets, hrevision, -, -⟩ :=
    commitSync_effect env h
  exact .committed hload hrow hfresh hsame hreplaced hupdated hwallets hrevision

theorem suspend_suspended {db db' : Db State} (h : Effect env .suspend db db') :
    Suspended env db db' := by
  cases h with
  | suspend _ suspended => exact suspended

theorem exportRestore_snapshot {now : Nat} {out : Unit × Db State}
    (h : exportRestore env db now = .ok out) : SnapshotEffect env db out.2 (.restore now) := by
  have hframe := (suspend_suspended env (exportRestore_effect env h)).frame
  refine .restored (fun w => ?_) ?_
  · rw [hframe]
    exact Table.get_updateAll ..
  · rw [hframe]

/-- A transaction, by its operation. -/
theorem transact_snapshot {op : Op Scan} {db' : Db State}
    (h : transact env db op = some (.ok db')) : SnapshotEffect env db db' op := by
  have hsnd : ∀ {α : Type} {res : Result (α × Db State)},
      some (res.map Prod.snd) = some (.ok db') → ∃ out, res = .ok out ∧ out.2 = db' := by
    intro α res hres
    cases res with
    | error e => cases hres
    | ok out => exact ⟨out, rfl, by simpa [Except.map] using hres⟩
  cases op with
  | importWallet name payload network now =>
      obtain ⟨out, hout, rfl⟩ := hsnd h
      exact importWallet_snapshot env hout
  | receiveAddress id =>
      obtain ⟨out, hout, rfl⟩ := hsnd h
      exact receiveAddress_snapshot env hout
  | setLabel id kind reference label =>
      obtain ⟨out, hout, rfl⟩ := hsnd h
      simp only [setLabel, bind_eq_ok, exists_unit, okOr_eq_ok, Except.ok.injEq] at hout
      obtain ⟨_, _, _, _, _, _, rfl⟩ := hout
      exact .kept (putLabel_wallets ..)
  | setFrozen id reference frozen =>
      obtain ⟨out, hout, rfl⟩ := hsnd h
      simp only [setFrozen, bind_eq_ok, exists_unit, Except.ok.injEq] at hout
      obtain ⟨_, _, _, _, _, rfl⟩ := hout
      exact .kept (setFreeze_wallets ..)
  | editCoins id references label frozen =>
      obtain ⟨out, hout, rfl⟩ := hsnd h
      exact .kept (editCoins_wallets env hout)
  | importLabels id payload apply =>
      obtain ⟨out, hout, rfl⟩ := hsnd h
      exact .kept (importLabels_wallets env hout)
  | registerPolicy id fingerprint policyId hmac =>
      obtain ⟨out, hout, rfl⟩ := hsnd h
      simp only [registerPolicy, bind_eq_ok, exists_unit, Except.ok.injEq] at hout
      obtain ⟨_, _, _, rfl⟩ := hout
      exact .kept ⟨rfl, rfl⟩
  | createDraft request seed now =>
      obtain ⟨out, hout, rfl⟩ := hsnd h
      exact createDraft_snapshot env hout
  | discardDraft id draftId =>
      obtain ⟨out, hout, rfl⟩ := hsnd h
      exact .kept (effect_wallets env (discardDraft_effect env hout) (by simp) (by simp))
  | acceptSignedPsbt id draftId payload =>
      obtain ⟨out, hout, rfl⟩ := hsnd h
      exact .kept (effect_wallets env (acceptSignedPsbt_effect env hout) (by simp) (by simp))
  | finalizeDraft id draftId =>
      obtain ⟨out, hout, rfl⟩ := hsnd h
      rcases finalizeDraft_effect env hout with hsame | heffect
      · rw [hsame]
        exact .kept (.refl db)
      · exact .kept (effect_wallets env heffect (by simp) (by simp))
  | commitSync id snapshot scan now =>
      obtain ⟨out, hout, rfl⟩ := hsnd h
      exact commitSync_snapshot env hout
  | resumeRecovered id draftId txid attempt ack =>
      obtain ⟨out, hout, rfl⟩ := hsnd h
      exact .kept (effect_wallets env (resume_effect env hout) (by simp) (by simp))
  | restore now =>
      obtain ⟨out, hout, rfl⟩ := hsnd h
      exact exportRestore_snapshot env hout
  | preflight request => cases h
  | recheck requestId body now => cases h
  | post requestId => cases h
  | acknowledge requestId response => cases h
  | crash requestId => cases h

end Transactions

/-- **Every step, as it concerns the stored wallets.** -/
theorem step_snapshot (world : World State) (op : Op Scan) :
    SnapshotEffect env world.db (step env world op).db op := by
  cases htransact : transact env world.db op with
  | some res =>
      rw [step_transact env htransact]
      cases res with
      | ok db' => exact transact_snapshot env htransact
      | error e => exact .kept (.refl _)
  | none =>
      cases op with
      | preflight request =>
          refine .kept ?_
          show SameWallets world.db (world.preflight env request).db
          unfold World.preflight
          split <;> exact .refl _
      | post requestId =>
          refine .kept ?_
          show SameWallets world.db (world.post requestId).db
          unfold World.post
          split <;> exact .refl _
      | crash requestId => exact .kept (.refl _)
      | recheck requestId body now =>
          refine .kept ?_
          show SameWallets world.db (world.recheck env requestId body now).db
          unfold World.recheck
          split
          · split
            · rename_i hrun
              simp only [bind_eq_ok, exists_unit] at hrun
              exact effect_wallets env (insertAttempt_effect env hrun.2) (by simp) (by simp)
            · exact .refl _
          · exact .refl _
      | acknowledge requestId response =>
          refine .kept ?_
          show SameWallets world.db (world.acknowledge requestId response).db
          unfold World.acknowledge
          split
          · rename_i r p attemptId hreq
            simp only [World.endRequest]
            split_ifs
            · rcases acknowledge_effect env r attemptId with hsame | heffect
              · rw [hsame]
              · exact effect_wallets env heffect (by simp) (by simp)
            · exact .refl _
          · exact .refl _
      | importWallet => cases htransact
      | receiveAddress => cases htransact
      | setLabel => cases htransact
      | setFrozen => cases htransact
      | editCoins => cases htransact
      | importLabels => cases htransact
      | registerPolicy => cases htransact
      | createDraft => cases htransact
      | discardDraft => cases htransact
      | acceptSignedPsbt => cases htransact
      | finalizeDraft => cases htransact
      | commitSync => cases htransact
      | resumeRecovered => cases htransact
      | restore => cases htransact

end Snapshots
end Tundra
