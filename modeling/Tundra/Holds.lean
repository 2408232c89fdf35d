/-
  Tundra.Holds

  Recovery holds over whole runs.  A restore holds every input of a submitted
  draft, and of all effects only an observation or a resume of that draft lets
  go of its holds: a discard is refused, and a further restore holds them anew
  (`Held.effect`).
-/

import Tundra.Finality
import Tundra.Permanence
import Tundra.Restored

namespace Tundra
namespace Holds

open Checked Relational Engine Signing Broadcast Recovery Drafts Effects Paths Permanence Finality
  Tundra.System
open Transition (Along)

variable {State Wallet Scan : Type} (env : Env State Wallet Scan)

/-- A submitted draft with PSBT `p`, each of whose inputs is held for it. -/
structure Held (db : Db State) (w d : String) (p : Psbt) : Prop where
  submitted : db.submitted w d = true
  row : ∃ row, db.selectDraft w d = some row ∧ parseResponse env row.psbt = .ok p
  holds : ∀ op ∈ p.unsignedTx.previousOutputs,
    db.recoveryHolds[(w, env.displayOutPoint op, d)]? = some ()

section Effects

variable {env}
variable {db db' : Db State} {w d : String} {p : Psbt}

/-- The review of a held draft names the inputs of its PSBT. -/
theorem Held.review (h : Held env db w d p) (hok : StoreOk env db) {r : DraftReview}
    (hr : reviewOf db w d = some r) :
    outpoints r = p.unsignedTx.previousOutputs.map env.displayOutPoint := by
  obtain ⟨row, hrow, hp⟩ := h.row
  obtain ⟨row', hrow', hw, hreview⟩ := reviewOf_eq_some.mp hr
  have hsel := selectDraft_eq_some.mpr ⟨hrow', hw⟩
  rw [hrow, Option.some.injEq] at hsel
  subst hsel
  obtain ⟨_, _, q, happ⟩ := hok.approval hrow hreview
  have hq := happ.psbt
  rw [hp, Except.ok.injEq] at hq
  exact hq ▸ happ.inputs

/-- The review of a held draft. -/
theorem Held.exists_review (h : Held env db w d p) (hok : StoreOk env db) :
    ∃ r, reviewOf db w d = some r := by
  obtain ⟨row, hrow, _⟩ := h.row
  obtain ⟨hget, hw⟩ := selectDraft_eq_some.mp hrow
  obtain ⟨_, r, happ⟩ := hok.drafts d row hget
  exact ⟨r, reviewOf_eq_some.mpr ⟨row, hget, hw, happ.review⟩⟩

theorem Held.effect (h : Held env db w d p) (hok : StoreOk env db) {a : Act Wallet}
    (heffect : Effect env a db db') (hobserve : ∀ wallet, a ≠ .observe wallet w d)
    (hresume : a ≠ .resume w d) : Held env db' w d p := by
  have hdiscard : a ≠ .discard w d := by
    rintro rfl
    cases heffect with
    | discard found unsubmitted =>
        rw [h.submitted] at unsubmitted
        cases unsubmitted
  have hkept := kept_effect hok heffect hdiscard
  refine ⟨hkept.submitted h.submitted, ?_, ?_⟩
  · obtain ⟨row, hrow, hp⟩ := h.row
    obtain ⟨row', hrow', hsame⟩ := hkept.row row hrow
    exact ⟨row', hrow', hsame ▸ hp⟩
  intro op hop
  have hold := h.holds op hop
  cases heffect with
  | metadata changed => rw [changed.same.recoveryHolds]; exact hold
  | create => exact hold
  | discard found unsubmitted =>
      rename_i w' e row
      -- the cascade deletes the holds of the discarded draft, which is another one
      have hne : ¬ (w = w' ∧ d = e) := by
        rintro ⟨rfl, rfl⟩
        exact hdiscard rfl
      simp only [Db.deleteDraft]
      exact Table.get_deleteWhere_eq_some.mpr ⟨hold, by simpa using hne⟩
  | accept loaded unfinalized merge state =>
      obtain ⟨row, found, _⟩ := hok.loaded loaded
      rw [updateReview_of_some (by exact found)]
      exact hold
  | finalize loaded unfinalized final fresh =>
      obtain ⟨row, found, _⟩ := hok.loaded loaded
      rw [updateReview_of_some (by exact found)]
      exact hold
  | observe found review submitted final decoded seen =>
      rename_i wallet w' e row r bytes tx
      rw [updateReview_of_some (by exact found)]
      refine (deleteRecovered_holds db w' e w d _ hok.keys.holds).mpr ⟨hold, ?_⟩
      rintro ⟨rfl, rfl⟩
      exact hobserve wallet rfl
  | invalidate found review =>
      rw [updateReview_of_some found]
      exact hold
  | attempt => exact hold
  | acknowledge => exact hold
  | resume recovered found review state validated =>
      rename_i w' e row r final
      rw [updateReview_of_some found, reserveInputs_eq]
      refine (deleteRecovered_holds _ w' e w d _ hok.keys.holds).mpr ⟨hold, ?_⟩
      rintro ⟨rfl, rfl⟩
      exact hresume rfl
  | suspend checked suspended =>
      obtain ⟨r, hr⟩ := h.exists_review hok
      refine (suspended.holds w _ d).mpr ⟨h.submitted, r, hr, ?_⟩
      rw [h.review hok hr]
      exact List.mem_map_of_mem hop

/-- A held input is not available. -/
theorem Held.coins_status (h : Held env db w d p) {op : OutPoint}
    (hop : op ∈ p.unsignedTx.previousOutputs) {cs : List Coin} (hcs : coins env db w = .ok cs)
    {c : Coin} (hc : c ∈ cs) (hname : c.outpoint = env.displayOutPoint op) :
    c.status ≠ .available := by
  simp only [coins, bind_eq_ok] at hcs
  obtain ⟨l, _, hcs⟩ := hcs
  obtain ⟨output, _, hcoin⟩ := walletCoins_mem env hcs hc
  obtain ⟨houtpoint, _, _, hstatus⟩ := coinOf_fields env hcoin
  rw [hstatus]
  intro havailable
  have hreserved := ((coinStatus_eq_available env).mp havailable).2.1
  rw [← houtpoint, hname] at hreserved
  exact absurd (isReserved_eq_true.mpr (.inr ⟨d, h.holds op hop⟩)) (by simp [hreserved])

/-- A held input is not an input of a new draft. -/
theorem Held.createDraft_inputs (h : Held env db w d p) {op : OutPoint}
    (hop : op ∈ p.unsignedTx.previousOutputs) {request : DraftRequest} {seed now : Nat}
    (hwallet : request.walletId = w) {out : DraftReview × Db State}
    (hout : createDraft env db request seed now = .ok out) {row : DraftRow} {q : Psbt}
    (hrow : out.2.selectDraft w out.1.id = some row) (hq : parseResponse env row.psbt = .ok q) :
    op ∉ q.unsignedTx.previousOutputs := by
  subst hwallet
  intro hin
  obtain ⟨db₁, heffect, hmeta⟩ := createDraft_path env hout
  rw [Db.selectDraft, hmeta.same.drafts] at hrow
  generalize hd : out.1.id = e at heffect hrow
  generalize hw : request.walletId = w' at heffect hrow h
  cases heffect with
  | create loaded label planned walletId id fresh row_wallet psbt review nodup =>
      simp only [Table.get_insert_self, Option.filter_eq_some_iff, Option.some.injEq] at hrow
      obtain ⟨rfl, _⟩ := hrow
      rw [psbt, parseResponse_psbtText env planned.wellFormed] at hq
      have hspent := List.mem_map_of_mem (f := env.displayOutPoint) hin
      rw [hq.2, ← planned.outpoints] at hspent
      have hreserved := planned.unreserved hspent
      rw [walletId] at hreserved
      exact absurd (isReserved_eq_true.mpr (.inr ⟨d, h.holds op hop⟩)) (by simp [hreserved])

/-- A resume reserves every input for the draft. -/
theorem Held.resume_reserves (h : Held env db w d p) (hok : StoreOk env db) {txid : String}
    {attempt : Nat} {ack : Bool} {out : FinalizedReview × Db State}
    (hout : resumeRecoveredSubmission env db w d txid attempt ack = .ok out) {op : OutPoint}
    (hop : op ∈ p.unsignedTx.previousOutputs) :
    out.2.reservations[(w, env.displayOutPoint op)]? = some d := by
  have heffect := resume_effect env hout
  have hok' := hok.effect heffect
  generalize out.2 = db' at heffect hok'
  cases heffect with
  | resume recovered found review state validated =>
      rename_i row r final
      obtain ⟨hrow, hw, q, happ⟩ := hok.approval found review
      rw [updateReview_of_some found, reserveInputs_eq] at hok' ⊢
      refine (hok'.reserved (w, env.displayOutPoint op) d).mpr
        ⟨_, q, _, Table.get_insert_self .., happ.withState (s := .finalized) rfl, hw, rfl, ?_⟩
      rw [outpoints_withState, h.review hok (reviewOf_eq_some.mpr ⟨row, hrow, hw, review⟩)]
      exact List.mem_map_of_mem hop

end Effects

/-! ## Runs -/

/-- The operation is a committed sync that sees the transaction of the draft's
    final bytes. -/
def Observes (world : World State) (op : Op Scan) (w d : String) : Prop :=
  ∃ snapshot scan now, op = .commitSync w snapshot scan now ∧
    (∃ out, Sync.commitSync env world.db w snapshot scan now = .ok out) ∧
    ∃ wallet bytes tx, syncWallet env world.db w scan = some wallet ∧
      world.db.finalizedDrafts[(w, d)]? = some bytes ∧ env.deserializeTx bytes = some tx ∧
      observeTx env wallet tx ≠ .notSeen

section Runs

variable {env}
variable {world : World State} {w d : String} {p : Psbt}

/-- Only a sync observes. -/
theorem allowed_observe {op : Op Scan} {wallet : Wallet}
    (ha : Allowed env world op (.observe wallet w d)) :
    ∃ snapshot scan now, op = .commitSync w snapshot scan now ∧
      syncWallet env world.db w scan = some wallet := by
  cases op with
  | commitSync w' snapshot scan now =>
      obtain ⟨wallet', hwallet, ha | ⟨d', ha⟩ | ⟨d', ha⟩⟩ := ha
      · cases ha
      · cases ha
      · cases ha
        exact ⟨snapshot, scan, now, rfl, hwallet⟩
  | createDraft request seed now =>
      rcases ha with ha | ⟨_, ha⟩
      · cases ha
      · cases ha
  | recheck requestId body now =>
      obtain ⟨_, _, _, ha⟩ := ha
      cases ha
  | acknowledge requestId response =>
      obtain ⟨_, ha⟩ := ha
      cases ha
  | _ => cases ha

theorem Held.step (h : Held env world.db w d p) (hok : StoreOk env world.db) {op : Op Scan}
    (hobserve : ¬ Observes env world op w d) (hresume : ¬ Resumes env world op w d) :
    Held env (step env world op).db w d p := by
  by_cases hrefused : ∃ e, transact env world.db op = some (.error e)
  · obtain ⟨e, he⟩ := hrefused
    rwa [step_refused env he]
  -- the final bytes at an observation are those before the step
  refine ((step_path env hok.drafts op).invariant env (I := fun db => StoreOk env db ∧
    Held env db w d p ∧ Kept w d world.db db) ?_ ⟨hok, h, .refl _ w d⟩).2.1
  rintro a db db' ha ⟨hdb, hheld, hkept⟩ heffect
  have hdiscard : a ≠ .discard w d := by
    rintro rfl
    cases heffect with
    | discard found unsubmitted =>
        rw [hheld.submitted] at unsubmitted
        cases unsubmitted
  refine ⟨hdb.effect heffect, hheld.effect hdb heffect ?_ ?_,
    hkept.trans (kept_effect hdb heffect hdiscard)⟩
  · rintro wallet rfl
    obtain ⟨snapshot, scan, now, rfl, hwallet⟩ := allowed_observe ha
    cases heffect with
    | observe found review submitted final decoded seen =>
        rename_i row r bytes tx
        refine hobserve ⟨snapshot, scan, now, rfl, ?_, wallet, bytes, tx, hwallet, ?_, decoded, seen⟩
        · cases hrun : Sync.commitSync env world.db w snapshot scan now with
          | ok out => exact ⟨out, rfl⟩
          | error e => exact absurd ⟨e, by rw [transact, hrun]; rfl⟩ hrefused
        · obtain ⟨id, attempt, hget, rfl, rfl⟩ := submitted_eq_true.mp h.submitted
          obtain ⟨b, hb⟩ := Option.isSome_iff_exists.mp (hok.keys.attempts id attempt hget)
          have hsame := hkept.finalized b hb
          rw [final] at hsame
          rw [hb, hsame]
  · rintro rfl
    obtain ⟨txid, attempt, ack, rfl⟩ := (allowed_ne env ha).2 rfl
    refine hresume ⟨txid, attempt, ack, rfl, ?_⟩
    cases hrun : resumeRecoveredSubmission env world.db w d txid attempt ack with
    | ok out => exact ⟨out, rfl⟩
    | error e => exact absurd ⟨e, by rw [transact, hrun]; rfl⟩ hrefused

/-- The inputs of a submitted draft of an accepted backup are held in the
    restored store. -/
theorem held_of_restore {image output : Backup.Image State} {summary : Backup.BackupSummary}
    (h : Backup.restoreImage env image (fun _ => .ok ()) = .ok (summary, output)) {row : DraftRow}
    (hsub : image.db.submitted w d = true) (hrow : image.db.selectDraft w d = some row)
    (hp : parseResponse env row.psbt = .ok p) :
    StoreOk env output.db ∧ Held env output.db w d p := by
  obtain ⟨hkeys, hchecked, hsuspended, _⟩ := Restored.restoreImage_eq_ok env h
  have heffect := (Restored.restoreEffect_of_suspended env hkeys hchecked hsuspended).of_migrate
  refine ⟨StoreOk.of_suspended hkeys hchecked hsuspended, ?_, ?_, ?_⟩
  · simpa only [Db.submitted, heffect.broadcastAttempts] using hsub
  · obtain ⟨hget, hw⟩ := selectDraft_eq_some.mp hrow
    have hkept := heffect.drafts_kept d
    rw [hget, Option.isSome_some, Option.isSome_iff_exists] at hkept
    obtain ⟨row', hrow'⟩ := hkept
    obtain ⟨row₀, r, hrow₀, _, rfl⟩ := (heffect.drafts d row').mp hrow'
    rw [hget, Option.some.injEq] at hrow₀
    subst hrow₀
    exact ⟨_, selectDraft_eq_some.mpr ⟨hrow', hw⟩, hp⟩
  · intro op hop
    exact (heffect.holds w _ d).mpr ⟨hsub, row, p, hrow, hp, List.mem_map_of_mem hop⟩

end Runs

/-- **Recovery holds protect submitted inputs.**  In every run from a restored
    store, until a committed sync observes the transaction of a draft submitted
    in the backup or a resume of that draft succeeds, no input of the draft is
    reported available and none is an input of a new draft; when a resume
    succeeds, the inputs are reserved for the draft. -/
theorem restored_inputs_held {fs fs' : Backup.FileSystem State}
    {source destination password : String} {storageKey : Bytes} {size : Nat}
    {summary : Backup.BackupSummary} {path target key key' : String} {sourceSize targetSize : Nat}
    {image output : Backup.Image State} {w d : String} {row : DraftRow} {p : Psbt}
    (restored : Backup.restoreBackup env fs source destination password storageKey size =
      (.ok summary, fs'))
    (source_path : fs.canonicalize source = some path)
    (target_path : fs.canonicalize destination = some target)
    (backup : fs.files[path]? = some (.database key sourceSize image))
    (installed : fs'.files[target]? = some (.database key' targetSize output))
    (submitted : image.db.submitted w d = true)
    (found : image.db.selectDraft w d = some row)
    (psbt : parseResponse env row.psbt = .ok p)
    {start : World State} (opened : start.db = output.db) (ops : List (Op Scan))
    (along : Along (step env)
      (fun world op => ¬ Observes env world op w d ∧ ¬ Resumes env world op w d) start ops) :
    ∀ op ∈ p.unsignedTx.previousOutputs,
      (∀ cs, coins env (runFrom env start ops).db w = .ok cs → ∀ c ∈ cs,
        c.outpoint = env.displayOutPoint op → c.status ≠ .available) ∧
      (∀ request seed now out, request.walletId = w →
        createDraft env (runFrom env start ops).db request seed now = .ok out →
        ∀ row' q, out.2.selectDraft w out.1.id = some row' → parseResponse env row'.psbt = .ok q →
          op ∉ q.unsignedTx.previousOutputs) ∧
      (∀ txid attempt ack out,
        resumeRecoveredSubmission env (runFrom env start ops).db w d txid attempt
          ack = .ok out →
        out.2.reservations[(w, env.displayOutPoint op)]? = some d) := by
  obtain ⟨path', target', _, _, image', output', hpath, htarget, hbackup, _, hrestore, rfl⟩ :=
    Restored.restoreBackup_eq_ok env restored
  rw [source_path, Option.some.injEq] at hpath
  rw [target_path, Option.some.injEq] at htarget
  subst hpath htarget
  rw [backup, Option.some.injEq, Backup.File.database.injEq] at hbackup
  rw [Table.get_insert_self, Option.some.injEq, Backup.File.database.injEq] at installed
  obtain ⟨rfl, rfl, rfl⟩ := hbackup
  obtain ⟨rfl, rfl, rfl⟩ := installed
  obtain ⟨hstart, hheld⟩ := held_of_restore hrestore submitted found psbt
  have hrun := Transition.run_along
    (I := fun world => StoreOk env world.db ∧ Held env world.db w d p) (step env)
    (fun world op hw hcond => ⟨storeOk_step env hw.1 op, hw.2.step hw.1 hcond.1 hcond.2⟩)
    ⟨opened ▸ hstart, opened ▸ hheld⟩ along
  change StoreOk env (runFrom env start ops).db ∧ Held env (runFrom env start ops).db w d p at hrun
  obtain ⟨hok, hheld⟩ := hrun
  intro op hop
  refine ⟨?_, ?_, ?_⟩
  · intro cs hcs c hc hname
    exact hheld.coins_status hop hcs hc hname
  · intro request seed now out hwallet hout row' q hrow' hq
    exact hheld.createDraft_inputs hop hwallet hout hrow' hq
  · intro txid attempt ack out hout
    exact hheld.resume_reserves hok hout hop

end Holds
end Tundra
