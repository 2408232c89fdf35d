/-
  Tundra.Restored

  The exact effect of a restore: the rows an accepted backup is installed
  with, and what a restore does to the files.
-/

import Tundra.Store

namespace Tundra
namespace Restored

open Checked Relational Engine Signing Recovery Drafts Backup

variable {State Wallet Scan : Type} (env : Env State Wallet Scan)

/-- The installed database against the one in the backup. -/
structure RestoreEffect (db db' : Db State) : Prop where
  reservations : db'.reservations = ∅
  recovered : ∀ w d : String, db'.recoveredSubmissions[(w, d)]? = some () ↔
    db.submitted w d = true
  holds : ∀ w op d : String, db'.recoveryHolds[(w, op, d)]? = some () ↔
    db.submitted w d = true ∧ ∃ row p, db.selectDraft w d = some row ∧
      parseResponse env row.psbt = .ok p ∧
      op ∈ p.unsignedTx.previousOutputs.map env.displayOutPoint
  drafts : ∀ (d : String) (row' : DraftRow), db'.drafts[d]? = some row' ↔
    ∃ row r, db.drafts[d]? = some row ∧ row.reviewJson.parsed = some r ∧
      row' = { row with reviewJson := reviewText env (r.withState .invalidated) }
  drafts_kept : ∀ d : String, (db'.drafts[d]?).isSome = (db.drafts[d]?).isSome
  wallets : ∀ w : String, db'.wallets[w]? =
    (db.wallets[w]?).map (fun row => { row with syncedAt := none })
  labels : db'.labels = db.labels
  freezes : db'.freezes = db.freezes
  syncState : db'.syncState = db.syncState
  draftSignatures : db'.draftSignatures = db.draftSignatures
  finalizedDrafts : db'.finalizedDrafts = db.finalizedDrafts
  hardwareRegistrations : db'.hardwareRegistrations = db.hardwareRegistrations
  broadcastAttempts : db'.broadcastAttempts = db.broadcastAttempts
  attemptSequence : db'.attemptSequence = db.attemptSequence
  draftLabelApplications : db'.draftLabelApplications = db.draftLabelApplications
  outputProvenance : db'.outputProvenance = db.outputProvenance

/-- The references of an accepted image. -/
theorem validate_keys {image : Image State} {summary : BackupSummary}
    (h : validate env image = .ok summary) : DraftKeys image.db := by
  simp only [validate, integrity, bind_eq_ok, require_eq_ok, exists_unit] at h
  obtain ⟨_, _, _, _, _, _, ⟨_, hforeign⟩, _⟩ := h
  exact draftKeys_of_foreignKeys hforeign

/-- The migration changes the recovery tables only, and keeps the references. -/
theorem migrate_keys {db : Db State} (h : DraftKeys db) (version : Nat) :
    DraftKeys (migrate version db) := by
  unfold migrate
  split_ifs
  · refine ⟨h.reservations, h.signatures, h.finalized, h.attempts, ?_, ?_⟩
    · intro w d hd
      simp at hd
    · intro w op d hd
      simp at hd
  · exact h

theorem migrate_eq (version : Nat) (db : Db State) :
    migrate version db = { db with
      recoveredSubmissions := (migrate version db).recoveredSubmissions
      recoveryHolds := (migrate version db).recoveryHolds } := by
  unfold migrate
  split_ifs <;> rfl

/-- What `restoreImage` has checked and done. -/
theorem restoreImage_eq_ok {image output : Image State} {summary : BackupSummary}
    (h : restoreImage env image (fun _ => .ok ()) = .ok (summary, output)) :
    DraftKeys (migrate image.userVersion image.db) ∧
      Suspendable env (migrate image.userVersion image.db) ∧
      Suspended env (migrate image.userVersion image.db) output.db ∧
      output = restoredImage image output.db := by
  simp only [restoreImage, bind_eq_ok, exists_unit, Except.ok.injEq, Prod.mk.injEq] at h
  obtain ⟨summary', hvalid, db', hsuspend, _, _, _, _, _, _, rfl⟩ := h
  have hkeys := migrate_keys (validate_keys env hvalid) image.userVersion
  exact ⟨hkeys, (suspend_ok_iff env hkeys.holds).mp ⟨db', hsuspend⟩,
    suspended_of_ok env hkeys.holds hsuspend, rfl⟩

theorem restoreEffect_of_suspended {db db' : Db State} (hkeys : DraftKeys db)
    (checked : Suspendable env db) (h : Suspended env db db') : RestoreEffect env db db' where
  reservations := h.reservations
  recovered w d := by
    rw [h.recovered]
    refine ⟨fun hd => hd.2, fun hsub => ⟨?_, hsub⟩⟩
    obtain ⟨id, a, ha, rfl, rfl⟩ := submitted_eq_true.mp hsub
    obtain ⟨b, hb⟩ := Option.isSome_iff_exists.mp (hkeys.attempts id a ha)
    exact hkeys.finalized _ _ b hb
  holds w op d := by
    rw [h.holds]
    refine and_congr_right fun _ => ?_
    constructor
    · rintro ⟨r, hr, hop⟩
      obtain ⟨row, hrow, hw, hreview⟩ := reviewOf_eq_some.mp hr
      obtain ⟨r', hr', _⟩ := checked.drafts d row hrow
      obtain ⟨row', p, hrow', happ⟩ := verifyDraft_approval env hr'
      have hget := (selectDraft_eq_some.mp hrow').1
      rw [hrow, Option.some.injEq] at hget
      subst hget
      have hsame := happ.review
      rw [hreview, Option.some.injEq] at hsame
      refine ⟨row, p, selectDraft_eq_some.mpr ⟨hrow, hw⟩, happ.psbt, ?_⟩
      rw [← happ.inputs, ← hsame]
      exact hop
    · rintro ⟨row, p, hsel, hp, hop⟩
      obtain ⟨hrow, hw⟩ := selectDraft_eq_some.mp hsel
      obtain ⟨r, hr, _⟩ := checked.drafts d row hrow
      obtain ⟨row', p', hrow', happ⟩ := verifyDraft_approval env hr
      have hget := (selectDraft_eq_some.mp hrow').1
      rw [hrow, Option.some.injEq] at hget
      subst hget
      have hsame := happ.psbt
      rw [hp, Except.ok.injEq] at hsame
      refine ⟨r, reviewOf_eq_some.mpr ⟨row, hrow, hw, happ.review⟩, ?_⟩
      rw [happ.inputs, ← hsame]
      exact hop
  drafts d row' := by
    constructor
    · intro hrow'
      obtain ⟨row, p, r, hrow, happ, rfl, _⟩ := h.approval checked hrow'
      exact ⟨row, r, hrow, happ.review, rfl⟩
    · rintro ⟨row, r, hrow, hreview, rfl⟩
      rw [h.drafts, hrow, Option.map_some, suspendRow_of_review env hreview]
  drafts_kept d := by rw [h.drafts, Option.isSome_map]
  wallets w := by
    rw [h.frame]
    exact Table.get_updateAll ..
  labels := by rw [h.frame]
  freezes := by rw [h.frame]
  syncState := by rw [h.frame]
  draftSignatures := by rw [h.frame]
  finalizedDrafts := by rw [h.frame]
  hardwareRegistrations := by rw [h.frame]
  broadcastAttempts := by rw [h.frame]
  attemptSequence := by rw [h.frame]
  draftLabelApplications := by rw [h.frame]
  outputProvenance := by rw [h.frame]

/-- The recovery tables of a backup have no part in what is installed. -/
theorem RestoreEffect.of_migrate {version : Nat} {db db' : Db State}
    (h : RestoreEffect env (migrate version db) db') : RestoreEffect env db db' := by
  rw [migrate_eq] at h
  exact ⟨h.reservations, h.recovered, h.holds, h.drafts, h.drafts_kept, h.wallets, h.labels,
    h.freezes, h.syncState, h.draftSignatures, h.finalizedDrafts, h.hardwareRegistrations,
    h.broadcastAttempts, h.attemptSequence, h.draftLabelApplications, h.outputProvenance⟩

/-- The file a backup is restored from. -/
theorem openSnapshot_eq_ok {fs : FileSystem State} {path key : String} {image : Image State}
    (h : openSnapshot fs path key = .ok image) :
    ∃ size, fs.files[path]? = some (.database key size image) := by
  simp only [openSnapshot, bind_eq_ok, require_eq_ok, exists_unit] at h
  obtain ⟨_, h⟩ := h
  unfold openFile at h
  split at h
  · rename_i fileKey size image' hfile
    simp only [bind_eq_ok, require_eq_ok, exists_unit, Except.ok.injEq] at h
    obtain ⟨_, rfl, rfl⟩ := h
    exact ⟨size, hfile⟩
  · cases h

/-- A restore that succeeds installs the suspended rows of the backup at the
    destination. -/
theorem restoreBackup_eq_ok {fs fs' : FileSystem State} {source destination password : String}
    {storageKey : Bytes} {size : Nat} {summary : BackupSummary}
    (h : restoreBackup env fs source destination password storageKey size = (.ok summary, fs')) :
    ∃ path target key sourceSize image output,
      fs.canonicalize source = some path ∧ fs.canonicalize destination = some target ∧
      fs.files[path]? = some (.database key sourceSize image) ∧ fs.files[target]? = none ∧
      restoreImage env image (fun _ => .ok ()) = .ok (summary, output) ∧
      fs' = { fs with
        files := fs.files.insert target (.database (rawKey storageKey) size output) } := by
  unfold restoreBackup restoreSnapshot at h
  cases hprep : prepareRestore env fs source destination password storageKey (fun _ => .ok ()) with
  | error e =>
      rw [hprep] at h
      cases h
  | ok out =>
      obtain ⟨summary', target, output⟩ := out
      rw [hprep] at h
      simp only [ok_bind, Prod.mk.injEq, Except.ok.injEq] at h
      obtain ⟨rfl, rfl⟩ := h
      simp only [prepareRestore, bind_eq_ok, require_eq_ok, exists_unit, okOr_eq_ok, Prod.exists,
        Except.ok.injEq, Prod.mk.injEq] at hprep
      obtain ⟨_, key, _, path, hpath, target', htarget, _, hfree, image, himage, summary',
        output', hrestore, rfl, rfl, rfl⟩ := hprep
      obtain ⟨sourceSize, hfile⟩ := openSnapshot_eq_ok himage
      exact ⟨path, target', key, sourceSize, image, output', hpath, htarget, hfile, hfree, hrestore,
        rfl⟩

/-- A restore that fails changes no file. -/
theorem restoreBackup_eq_error {fs fs' : FileSystem State} {source destination password : String}
    {storageKey : Bytes} {size : Nat} {e : Error}
    (h : restoreBackup env fs source destination password storageKey size = (.error e, fs')) :
    fs' = fs := by
  unfold restoreBackup restoreSnapshot at h
  split at h
  · cases h
    rfl
  · cases h

end Restored
end Tundra
