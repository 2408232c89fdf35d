/-
  Tundra.Separation

  The three sources of a coin's status are kept apart.  A freeze is changed by
  `set_frozen`, `edit_coins` and an applied label file, and only for the
  outputs they name; a reservation or a recovery hold is changed by the
  lifecycle of drafts, by syncs and by a restore.  What fails changes nothing.
-/

import Tundra.Snapshots
import Tundra.Restored

namespace Tundra
namespace Separation

open Checked Relational Engine Signing Broadcast Recovery Drafts Effects Tundra.System
  Paths Snapshots

variable {State Wallet Scan : Type} (env : Env State Wallet Scan)

/-! ## What an operation names -/

/-- The operation names the output `o` of wallet `w` for a change of its freeze. -/
def NamesFreeze : Op Scan → String → String → Prop
  | .setFrozen id reference _, w, o =>
      id = w ∧ ∃ op, env.parseOutPoint reference = some op ∧ env.displayOutPoint op = o
  | .editCoins id references _ frozen, w, o => id = w ∧ frozen ≠ none ∧ o ∈ references
  | .importLabels id payload apply, w, o =>
      id = w ∧ apply = true ∧ ∃ records skipped,
        Labels.parseLabels env payload = .ok (records, skipped) ∧
        ∃ r ∈ records, r.kind = .output ∧ r.reference = o ∧ r.spendable ≠ none
  | _, _, _ => False

/-- The operation creates, discards, sweeps, resumes or suspends drafts. -/
def ChangesClaims : Op Scan → Prop
  | .createDraft .. | .discardDraft .. | .commitSync .. | .resumeRecovered .. | .restore .. => True
  | _ => False

/-- Freezes, claims and labels are as they were. -/
structure SameMarks (db db' : Db State) : Prop where
  freezes : db'.freezes = db.freezes
  reservations : db'.reservations = db.reservations
  recoveryHolds : db'.recoveryHolds = db.recoveryHolds
  labels : db'.labels = db.labels

@[refl] theorem SameMarks.refl (db : Db State) : SameMarks db db := ⟨rfl, rfl, rfl, rfl⟩

/-! ## Freezes -/

section Freezes

variable {db : Db State}

theorem setFreeze_get_ne (w reference : String) (frozen : Bool) {w' o : String}
    (h : ¬ (w = w' ∧ reference = o)) :
    (db.setFreeze w reference frozen).freezes[(w', o)]? = db.freezes[(w', o)]? := by
  have hkey : (w, reference) ≠ (w', o) := fun hk => h (Prod.mk.injEq .. ▸ hk)
  unfold Db.setFreeze
  cases frozen with
  | true =>
      simp only [if_true, Table.get_insertIfNew]
      rw [if_neg (fun hk => hkey hk.1)]
  | false =>
      simp only [Bool.false_eq_true, if_false, Table.get_erase]
      rw [if_neg hkey]

theorem editCoin_freezes_ne (w : String) (label : Option String) (frozen : Option Bool)
    (reference : String) {w' o : String}
    (h : ¬ (w = w' ∧ frozen ≠ none ∧ reference = o)) :
    (editCoin w label frozen db reference).freezes[(w', o)]? = db.freezes[(w', o)]? := by
  cases frozen with
  | none => cases label <;> rfl
  | some frozen =>
      have hkey : ¬ (w = w' ∧ reference = o) := fun hk => h ⟨hk.1, by simp, hk.2⟩
      cases label with
      | none => exact setFreeze_get_ne w reference frozen hkey
      | some label =>
          -- the label is written first, and freezes do not see it
          show ((db.putLabel w .output reference label).setFreeze w reference frozen).freezes[(w', o)]?
            = (db.putLabel w .output reference label).freezes[(w', o)]?
          exact setFreeze_get_ne w reference frozen hkey

theorem editCoin_foldl_freezes (w : String) (label : Option String) (frozen : Option Bool)
    (references : List String) {w' o : String}
    (h : ¬ (w = w' ∧ frozen ≠ none ∧ o ∈ references)) :
    (references.foldl (editCoin w label frozen) db).freezes[(w', o)]? = db.freezes[(w', o)]? := by
  induction references generalizing db with
  | nil => rfl
  | cons reference references ih =>
      have hrest : ¬ (w = w' ∧ frozen ≠ none ∧ o ∈ references) :=
        fun hk => h ⟨hk.1, hk.2.1, List.mem_cons_of_mem _ hk.2.2⟩
      have hfirst : ¬ (w = w' ∧ frozen ≠ none ∧ reference = o) :=
        fun hk => h ⟨hk.1, hk.2.1, hk.2.2 ▸ List.mem_cons_self ..⟩
      rw [List.foldl_cons, ih hrest, editCoin_freezes_ne w label frozen reference hfirst]

/-- The loop of `edit_coins`: a coin is checked, edited, and the next one is checked. -/
def editCoinsLoop (known : List String) (w : String) (label : Option String)
    (frozen : Option Bool) : List String → Db State → Result (Db State)
  | [], db => .ok db
  | reference :: rest, db => do
      require (reference ∈ known) .unavailableCoin
      editCoinsLoop known w label frozen rest (editCoin w label frozen db reference)

/-- The loop succeeds when every check does: what it wrote before a check that
    fails goes with the transaction. -/
theorem editCoinsLoop_eq (known : List String) (w : String) (label : Option String)
    (frozen : Option Bool) (references : List String) (db : Db State) :
    editCoinsLoop known w label frozen references db = (do
      require (∀ reference ∈ references, reference ∈ known) .unavailableCoin
      .ok (references.foldl (editCoin w label frozen) db)) := by
  induction references generalizing db with
  | nil =>
      rw [editCoinsLoop, require_of (by simp)]
      rfl
  | cons reference rest ih =>
      rw [editCoinsLoop]
      by_cases hknown : reference ∈ known
      · rw [require_of hknown, ok_bind, ih, List.foldl_cons]
        by_cases hrest : ∀ r ∈ rest, r ∈ known
        · rw [require_of hrest, require_of (List.forall_mem_cons.mpr ⟨hknown, hrest⟩)]
        · rw [require_of_not hrest,
            require_of_not (fun hall => hrest (List.forall_mem_cons.mp hall).2)]
      · rw [require_of_not hknown,
          require_of_not (fun hall => hknown (List.forall_mem_cons.mp hall).1)]
        rfl

theorem editCoins_eq_ok {w : String} {references : List String} {label : Option String}
    {frozen : Option Bool} {out : Unit × Db State}
    (h : editCoins env db w references label frozen = .ok out) :
    out.2 = references.foldl (editCoin w label frozen) db := by
  cases label <;> simp only [editCoins, bind_eq_ok, exists_unit, Except.ok.injEq] at h
  · obtain ⟨_, _, l, _, _, _, rfl⟩ := h
    rfl
  · obtain ⟨_, _, l, _, _, _, rfl⟩ := h
    rfl

theorem applyRecord_freezes_ne (apply : Bool) (w : String) (r : Labels.LabelRecord) {w' o : String}
    (h : ¬ (w = w' ∧ r.reference = o ∧ r.spendable ≠ none)) :
    (applyRecord apply db w r).2.freezes[(w', o)]? = db.freezes[(w', o)]? := by
  unfold applyRecord
  cases hs : r.spendable with
  | none => cases r.label <;> cases apply <;> rfl
  | some s =>
      have hkey : ¬ (w = w' ∧ r.reference = o) := fun hk => h ⟨hk.1, hk.2, by simp [hs]⟩
      cases apply with
      | false => cases r.label <;> rfl
      | true =>
          cases r.label with
          | none => exact setFreeze_get_ne w r.reference (!s) hkey
          | some label =>
              show ((db.putLabel w r.kind r.reference label).setFreeze w r.reference
                (!s)).freezes[(w', o)]? = (db.putLabel w r.kind r.reference label).freezes[(w', o)]?
              exact setFreeze_get_ne w r.reference (!s) hkey

theorem importRecords_freezes_ne {apply : Bool} {w origin : String} {wallet : Wallet}
    {records : List Labels.LabelRecord} {seen : List (LabelKind × String)}
    {preview : Labels.LabelPreview} {out : Labels.LabelPreview × Db State} {w' o : String}
    (hnot : ∀ r ∈ records, ¬ (w = w' ∧ r.reference = o ∧ r.spendable ≠ none))
    (h : importRecords env apply w wallet origin records seen preview db = .ok out) :
    out.2.freezes[(w', o)]? = db.freezes[(w', o)]? := by
  induction records generalizing seen preview db with
  | nil =>
      cases h
      rfl
  | cons r rest ih =>
      obtain ⟨hfirst, hrest⟩ := List.forall_mem_cons.mp hnot
      unfold importRecords at h
      split_ifs at h
      · simp only [bind_eq_ok, exists_unit] at h
        rw [ih hrest h.2, applyRecord_freezes_ne apply w r hfirst]
      · exact ih hrest h

/-- A record names an output only as one: `spendable` is refused elsewhere. -/
theorem importLabels_freezes_ne {w payload : String} {apply : Bool}
    {out : Labels.LabelPreview × Db State} {w' o : String}
    (hnot : ¬ NamesFreeze env (.importLabels w payload apply) w' o)
    (h : importLabels env db w payload apply = .ok out) :
    out.2.freezes[(w', o)]? = db.freezes[(w', o)]? := by
  simp only [importLabels, bind_eq_ok, Prod.exists, Except.ok.injEq] at h
  obtain ⟨records, skipped, hparse, l, _, origin, _, preview, db', hrecords, rfl⟩ := h
  cases apply with
  | false => rfl
  | true =>
      refine importRecords_freezes_ne env (fun r hr hname => hnot ?_) hrecords
      obtain ⟨hw, ho, hspendable⟩ := hname
      have hkind := (Labels.parseLabels_recordOk env hparse r hr).spendable hspendable
      exact ⟨hw, rfl, records, skipped, hparse, r, hr, hkind, ho, hspendable⟩

/-- An effect on drafts that is not a metadata change leaves the freezes alone. -/
theorem effect_freezes {a : Act Wallet} {db db' : Db State} (h : Effect env a db db')
    (hmetadata : a ≠ .metadata) : db'.freezes = db.freezes := by
  cases h with
  | metadata => exact absurd rfl hmetadata
  | create => rfl
  | discard => rfl
  | @accept db w d => exact (updateReview_keeps w d _).freezes
  | @finalize db w d => exact (updateReview_keeps w d _).freezes
  | @observe db wallet w d =>
      exact ((deleteRecovered_keeps w d).trans ((updateReview_keeps w d _).trans
        (deleteReservations_keeps w d))).freezes
  | @invalidate db w d =>
      exact ((updateReview_keeps w d _).trans (deleteReservations_keeps w d)).freezes
  | attempt => rfl
  | acknowledge => rfl
  | @resume db w d row r =>
      rw [reserveInputs_eq]
      show (db.updateReview w d _).freezes = db.freezes
      exact (updateReview_keeps w d _).freezes
  | suspend _ suspended => rw [suspended.frame]

theorem createDraft_freezes {request : DraftRequest} {seed now : Nat} {out : DraftReview × Db State}
    (h : createDraft env db request seed now = .ok out) : out.2.freezes = db.freezes := by
  obtain ⟨l, p, wallet, row, _, _, _, _, _, _, _, _, hout⟩ := createDraft_facts env h
  rw [hout, (save_marks env _ _ _).1]

/-- A transaction changes the freezes it names. -/
theorem transact_freezes {op : Op Scan} {db' : Db State}
    (h : transact env db op = some (.ok db')) {w o : String} (hnot : ¬ NamesFreeze env op w o) :
    db'.freezes[(w, o)]? = db.freezes[(w, o)]? := by
  have hsnd : ∀ {α : Type} {res : Result (α × Db State)},
      some (res.map Prod.snd) = some (.ok db') → ∃ out, res = .ok out ∧ out.2 = db' := by
    intro α res hres
    cases res with
    | error e => cases hres
    | ok out => exact ⟨out, rfl, by simpa [Except.map] using hres⟩
  cases op with
  | importWallet name payload network now =>
      obtain ⟨out, hout, rfl⟩ := hsnd h
      simp only [importWallet, bind_eq_ok, require_eq_ok, exists_unit, okOr_eq_ok,
        Except.ok.injEq] at hout
      obtain ⟨_, p, _, _, _, wallet, _, state, _, rfl⟩ := hout
      rfl
  | receiveAddress id =>
      obtain ⟨out, hout, rfl⟩ := hsnd h
      simp only [receiveAddress, bind_eq_ok, Except.ok.injEq] at hout
      obtain ⟨l, _, rfl⟩ := hout
      rw [(save_marks env _ _ _).1]
  | setLabel id kind reference label =>
      obtain ⟨out, hout, rfl⟩ := hsnd h
      simp only [setLabel, bind_eq_ok, exists_unit, okOr_eq_ok, Except.ok.injEq] at hout
      obtain ⟨_, _, _, _, _, _, rfl⟩ := hout
      rfl
  | setFrozen id reference frozen =>
      obtain ⟨out, hout, rfl⟩ := hsnd h
      simp only [setFrozen, bind_eq_ok, exists_unit, Except.ok.injEq, outpoint, okOr_eq_ok] at hout
      obtain ⟨op, hop, _, _, _, rfl⟩ := hout
      exact setFreeze_get_ne id _ frozen fun hk => hnot ⟨hk.1, op, hop, hk.2⟩
  | editCoins id references label frozen =>
      obtain ⟨out, hout, rfl⟩ := hsnd h
      rw [editCoins_eq_ok env hout]
      exact editCoin_foldl_freezes id label frozen references hnot
  | importLabels id payload apply =>
      obtain ⟨out, hout, rfl⟩ := hsnd h
      exact importLabels_freezes_ne env hnot hout
  | registerPolicy id fingerprint policyId hmac =>
      obtain ⟨out, hout, rfl⟩ := hsnd h
      simp only [registerPolicy, bind_eq_ok, exists_unit, Except.ok.injEq] at hout
      obtain ⟨_, _, _, rfl⟩ := hout
      rfl
  | createDraft request seed now =>
      obtain ⟨out, hout, rfl⟩ := hsnd h
      rw [createDraft_freezes env hout]
  | discardDraft id draftId =>
      obtain ⟨out, hout, rfl⟩ := hsnd h
      rw [effect_freezes env (discardDraft_effect env hout) (by simp)]
  | acceptSignedPsbt id draftId payload =>
      obtain ⟨out, hout, rfl⟩ := hsnd h
      rw [effect_freezes env (acceptSignedPsbt_effect env hout) (by simp)]
  | finalizeDraft id draftId =>
      obtain ⟨out, hout, rfl⟩ := hsnd h
      rcases finalizeDraft_effect env hout with hsame | heffect
      · rw [hsame]
      · rw [effect_freezes env heffect (by simp)]
  | commitSync id snapshot scan now =>
      obtain ⟨out, hout, rfl⟩ := hsnd h
      obtain ⟨-, -, -, -, -, -, -, -, hfreezes, -⟩ := commitSync_effect env hout
      rw [hfreezes]
  | resumeRecovered id draftId txid attempt ack =>
      obtain ⟨out, hout, rfl⟩ := hsnd h
      rw [effect_freezes env (resume_effect env hout) (by simp)]
  | restore now =>
      obtain ⟨out, hout, rfl⟩ := hsnd h
      rw [effect_freezes env (exportRestore_effect env hout) (by simp)]
  | preflight request => cases h
  | recheck requestId body now => cases h
  | post requestId => cases h
  | acknowledge requestId response => cases h
  | crash requestId => cases h

end Freezes

/-! ## Requests -/

/-- A broadcast request writes attempts, and nothing else. -/
theorem request_frame (world : World State) {op : Op Scan} (h : transact env world.db op = none) :
    ∃ attempts sequence, (step env world op).db =
      { world.db with broadcastAttempts := attempts, attemptSequence := sequence } := by
  have hsame : ∃ attempts sequence, world.db =
      { world.db with broadcastAttempts := attempts, attemptSequence := sequence } := ⟨_, _, rfl⟩
  cases op with
  | preflight request =>
      show ∃ attempts sequence, (world.preflight env request).db = _
      unfold World.preflight
      split <;> exact hsame
  | post requestId =>
      show ∃ attempts sequence, (world.post requestId).db = _
      unfold World.post
      split <;> exact hsame
  | crash requestId => exact hsame
  | recheck requestId body now =>
      show ∃ attempts sequence, (world.recheck env requestId body now).db = _
      unfold World.recheck
      split
      · split
        · rename_i hrun
          simp only [bind_eq_ok, exists_unit, Broadcast.insertAttempt, Db.insertAttempt,
            require_eq_ok, okOr_eq_ok, Except.ok.injEq, Prod.mk.injEq] at hrun
          obtain ⟨-, _, _, _, _, _, _, _, _, _, rfl⟩ := hrun
          exact ⟨_, _, rfl⟩
        · exact hsame
      · exact hsame
  | acknowledge requestId response =>
      show ∃ attempts sequence, (world.acknowledge requestId response).db = _
      unfold World.acknowledge
      split
      · simp only [World.endRequest]
        split_ifs
        · unfold Broadcast.acknowledge
          split
          · split_ifs
            · exact ⟨_, _, rfl⟩
            · exact hsame
          · exact hsame
        · exact hsame
      · exact hsame
  | importWallet => cases h
  | receiveAddress => cases h
  | setLabel => cases h
  | setFrozen => cases h
  | editCoins => cases h
  | importLabels => cases h
  | registerPolicy => cases h
  | createDraft => cases h
  | discardDraft => cases h
  | acceptSignedPsbt => cases h
  | finalizeDraft => cases h
  | commitSync => cases h
  | resumeRecovered => cases h
  | restore => cases h

/-- So it changes no freeze, claim or label, failed or not. -/
theorem step_request (world : World State) {op : Op Scan} (h : transact env world.db op = none) :
    SameMarks world.db (step env world op).db := by
  obtain ⟨attempts, sequence, hframe⟩ := request_frame env world h
  rw [hframe]
  exact ⟨rfl, rfl, rfl, rfl⟩

/-- A transaction that fails leaves the whole world as it is. -/
theorem step_error {world : World State} {op : Op Scan} {e : Error}
    (h : transact env world.db op = some (.error e)) : step env world op = world := by
  cases op
  case restore now =>
    simp only [transact, Option.some.injEq] at h
    unfold step
    dsimp only
    cases hrun : exportRestore env world.db now with
    | error e => rfl
    | ok out =>
        rw [hrun] at h
        cases h
  case preflight => cases h
  case recheck => cases h
  case post => cases h
  case acknowledge => cases h
  case crash => cases h
  all_goals
    unfold step
    dsimp only
    rw [h]

theorem step_freezes (world : World State) (op : Op Scan) {w o : String}
    (hnot : ¬ NamesFreeze env op w o) :
    (step env world op).db.freezes[(w, o)]? = world.db.freezes[(w, o)]? := by
  cases htransact : transact env world.db op with
  | none => rw [(step_request env world htransact).freezes]
  | some res =>
      rw [step_transact env htransact]
      cases res with
      | ok db' => exact transact_freezes env htransact hnot
      | error e => rfl

/-! ## Reservations and holds -/

/-- The effects that are not of the lifecycle leave the claims on coins alone. -/
theorem effect_claims {a : Act Wallet} {db db' : Db State} (h : Effect env a db db')
    (hcreate : ∀ w d, a ≠ .create w d) (hdiscard : ∀ w d, a ≠ .discard w d)
    (hobserve : ∀ wallet w d, a ≠ .observe wallet w d) (hinvalidate : ∀ w d, a ≠ .invalidate w d)
    (hresume : ∀ w d, a ≠ .resume w d) (hsuspend : a ≠ .suspend) :
    db'.reservations = db.reservations ∧ db'.recoveryHolds = db.recoveryHolds := by
  cases h with
  | metadata changed => exact ⟨changed.same.reservations, changed.same.recoveryHolds⟩
  | create => exact absurd rfl (hcreate _ _)
  | discard => exact absurd rfl (hdiscard _ _)
  | @accept db w d =>
      unfold Db.updateReview
      split <;> exact ⟨rfl, rfl⟩
  | @finalize db w d =>
      unfold Db.updateReview
      split <;> exact ⟨rfl, rfl⟩
  | observe => exact absurd rfl (hobserve _ _ _)
  | invalidate => exact absurd rfl (hinvalidate _ _)
  | attempt => exact ⟨rfl, rfl⟩
  | acknowledge => exact ⟨rfl, rfl⟩
  | resume => exact absurd rfl (hresume _ _)
  | suspend => exact absurd rfl hsuspend

/-- What an operation outside the lifecycle may do to drafts. -/
theorem allowed_of_not_claims {world : World State} {op : Op Scan} {a : Act Wallet}
    (hop : ¬ ChangesClaims op) (ha : Allowed env world op a) :
    a = .metadata ∨ (∃ w d, a = .accept w d) ∨ (∃ w d, a = .finalize w d) ∨
      (∃ w d, a = .attempt w d) ∨ ∃ id, a = .acknowledge id := by
  cases op with
  | createDraft => exact absurd trivial hop
  | discardDraft => exact absurd trivial hop
  | commitSync => exact absurd trivial hop
  | resumeRecovered => exact absurd trivial hop
  | restore => exact absurd trivial hop
  | acceptSignedPsbt w d payload => exact .inr (.inl ⟨w, d, ha⟩)
  | finalizeDraft w d => exact .inr (.inr (.inl ⟨w, d, ha⟩))
  | recheck requestId body now =>
      obtain ⟨r, p, _, rfl⟩ : ∃ r p,
        world.requests[requestId]? = some { request := r, phase := .preflighted p } ∧
        a = .attempt r.walletId r.draftId := ha
      exact .inr (.inr (.inr (.inl ⟨_, _, rfl⟩)))
  | acknowledge requestId response => exact .inr (.inr (.inr (.inr ha)))
  | _ => exact .inl ha

theorem step_claims {world : World State} (hok : DraftsOk env world.db) {op : Op Scan}
    (hop : ¬ ChangesClaims op) :
    (step env world op).db.reservations = world.db.reservations ∧
      (step env world op).db.recoveryHolds = world.db.recoveryHolds := by
  refine (step_path env hok op).invariant env (I := fun db =>
    db.reservations = world.db.reservations ∧ db.recoveryHolds = world.db.recoveryHolds) ?_
    ⟨rfl, rfl⟩
  intro a db db' ha ⟨hreservations, hholds⟩ heffect
  have hsame : db'.reservations = db.reservations ∧ db'.recoveryHolds = db.recoveryHolds := by
    rcases allowed_of_not_claims env hop ha with rfl | ⟨w, d, rfl⟩ | ⟨w, d, rfl⟩ | ⟨w, d, rfl⟩ |
      ⟨id, rfl⟩ <;> refine effect_claims env heffect ?_ ?_ ?_ ?_ ?_ ?_ <;> simp
  exact ⟨hsame.1.trans hreservations, hsame.2.trans hholds⟩

/-! ## Runs -/

/-- What a run of operations from a world leaves alone. -/
structure Separate (world : World State) (ops : List (Op Scan)) : Prop where
  freezes : ∀ w o : String, (∀ op ∈ ops, ¬ NamesFreeze env op w o) →
    (runFrom env world ops).db.freezes[(w, o)]? = world.db.freezes[(w, o)]?
  claims : (∀ op ∈ ops, ¬ ChangesClaims op) →
    (runFrom env world ops).db.reservations = world.db.reservations ∧
      (runFrom env world ops).db.recoveryHolds = world.db.recoveryHolds
  failed : ∀ (op : Op Scan) (e : Error), transact env world.db op = some (.error e) →
    step env world op = world
  requests : ∀ op : Op Scan, transact env world.db op = none →
    SameMarks world.db (step env world op).db

theorem runFrom_freezes (world : World State) (ops : List (Op Scan)) {w o : String}
    (hnot : ∀ op ∈ ops, ¬ NamesFreeze env op w o) :
    (runFrom env world ops).db.freezes[(w, o)]? = world.db.freezes[(w, o)]? := by
  induction ops generalizing world with
  | nil => rfl
  | cons op ops ih =>
      obtain ⟨hop, hops⟩ := List.forall_mem_cons.mp hnot
      have hrun : runFrom env world (op :: ops) = runFrom env (step env world op) ops := rfl
      rw [hrun, ih _ hops, step_freezes env world op hop]

theorem runFrom_claims {world : World State} (hok : StoreOk env world.db) (ops : List (Op Scan))
    (hnot : ∀ op ∈ ops, ¬ ChangesClaims op) :
    (runFrom env world ops).db.reservations = world.db.reservations ∧
      (runFrom env world ops).db.recoveryHolds = world.db.recoveryHolds := by
  induction ops generalizing world with
  | nil => exact ⟨rfl, rfl⟩
  | cons op ops ih =>
      obtain ⟨hop, hops⟩ := List.forall_mem_cons.mp hnot
      have hrun : runFrom env world (op :: ops) = runFrom env (step env world op) ops := rfl
      obtain ⟨hreservations, hholds⟩ := ih (storeOk_step env hok op) hops
      obtain ⟨hreservations', hholds'⟩ := step_claims env hok.drafts hop
      rw [hrun]
      exact ⟨hreservations.trans hreservations', hholds.trans hholds'⟩

/-- A restored store has the freezes and labels of its backup. -/
theorem restoreImage_marks {image output : Backup.Image State} {summary : Backup.BackupSummary}
    (h : Backup.restoreImage env image (fun _ => .ok ()) = .ok (summary, output)) :
    output.db.freezes = image.db.freezes ∧ output.db.labels = image.db.labels := by
  obtain ⟨hkeys, hchecked, hsuspended, -⟩ := Restored.restoreImage_eq_ok env h
  have heffect := (Restored.restoreEffect_of_suspended env hkeys hchecked hsuspended).of_migrate
  exact ⟨heffect.freezes, heffect.labels⟩

/-- **Freezes, reservations and holds do not leak into each other**, after any
    run and over any run after it, nor does a restored backup lose one. -/
theorem run_marks_separate (before ops : List (Op Scan)) :
    Separate env (run env before) ops ∧
      ∀ (image output : Backup.Image State) (summary : Backup.BackupSummary),
        Backup.restoreImage env image (fun _ => .ok ()) = .ok (summary, output) →
          output.db.freezes = image.db.freezes ∧ output.db.labels = image.db.labels := by
  refine ⟨⟨?_, ?_, ?_, ?_⟩, fun image output summary h => restoreImage_marks env h⟩
  · exact fun _ _ hnot => runFrom_freezes env _ ops hnot
  · exact fun hnot => runFrom_claims env (storeOk_run env before) ops hnot
  · exact fun _ _ herror => step_error env herror
  · exact fun _ hnone => step_request env _ hnone

end Separation
end Tundra
