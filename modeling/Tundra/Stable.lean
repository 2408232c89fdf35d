/-
  Tundra.Stable

  A draft under activity that is not about it.  Revealing an address only
  extends a wallet (`Extends`): its coins and transactions stay, and one more
  script is recognised.  A loaded draft loads alike from an extended wallet as
  long as none of its outputs has become recognised.
-/

import Tundra.Paths
import Tundra.Fixture.Spending

namespace Tundra
namespace Stable

open Checked Relational Engine Signing Broadcast Recovery Drafts Effects Paths Tundra.System
open Transition (Along)

variable {State Wallet Scan : Type} (env : Env State Wallet Scan)

/-! ## Extended wallets -/

/-- A wallet with the same coins and transactions that recognises more scripts. -/
structure Extends (w w' : Wallet) : Prop where
  listUnspent : env.listUnspent w' = env.listUnspent w
  getTx : env.getTx w' = env.getTx w
  tipHeight : env.tipHeight w' = env.tipHeight w
  publicDescriptor : env.publicDescriptor w' = env.publicDescriptor w
  derivation : ∀ script found, env.derivationOfSpk w script = some found →
    env.derivationOfSpk w' script = some found

section Wallets

variable {env}
variable {w w' w'' : Wallet}

theorem Extends.refl (w : Wallet) : Extends env w w :=
  ⟨rfl, rfl, rfl, rfl, fun _ _ h => h⟩

theorem Extends.trans (h : Extends env w w') (h' : Extends env w' w'') : Extends env w w'' where
  listUnspent := h'.listUnspent.trans h.listUnspent
  getTx := h'.getTx.trans h.getTx
  tipHeight := h'.tipHeight.trans h.tipHeight
  publicDescriptor := h'.publicDescriptor.trans h.publicDescriptor
  derivation script found hfound := h'.derivation script found (h.derivation script found hfound)

theorem extends_reveal (w : Wallet) (k : KeychainKind) :
    Extends env w (env.revealNextAddress w k).2 := by
  obtain ⟨hunspent, _, htx, htip, hdesc⟩ := env.revealNextAddress_frame w k
  refine ⟨hunspent, htx, htip, hdesc, fun script found hfound => ?_⟩
  rw [env.revealNextAddress_derivation, hfound]

theorem extends_revealAll (w : Wallet) (keychains : List KeychainKind) :
    Extends env w (env.revealAll w keychains) := by
  induction keychains generalizing w with
  | nil => exact .refl w
  | cons k keychains ih => exact (extends_reveal w k).trans (ih _)

/-- A script that an extension does not newly recognise has the same derivation. -/
theorem Extends.derivation_eq (h : Extends env w w') {script : Script}
    (hmine : env.isMine w' script = env.isMine w script) :
    env.derivationOfSpk w' script = env.derivationOfSpk w script := by
  rw [env.isMine_eq, env.isMine_eq] at hmine
  cases hfound : env.derivationOfSpk w script with
  | some found => exact h.derivation script found hfound
  | none =>
      rw [hfound] at hmine
      simpa using hmine

end Wallets

/-! ## Loading from an extended wallet -/

section Loading

variable {env}
variable {db db' : Db State} {w d : String}

theorem inputFacts_extended {wallet wallet' : Wallet} (h : Extends env wallet wallet')
    (hres : ∀ op : String, db.reservations[(w, op)]? = some d → db'.reservations[(w, op)]? = some d)
    (hfrozen : ∀ op, db'.isFrozen w op = db.isFrozen w op) {op : OutPoint}
    {reviewed : ReviewedInput} {t : TrustedInput}
    (facts : InputFacts env db w d wallet op reviewed t) :
    InputFacts env db' w d wallet' op reviewed t := by
  obtain ⟨coin, funding, keychain, index, hcoin, hfunding, hspend, hsats, hder, hderive, hprev⟩ :=
    facts.coin
  refine ⟨⟨coin, funding, keychain, index, ?_, ?_, ?_, hsats, h.derivation _ _ hder, ?_, hprev⟩,
    hres _ facts.reserved, (hfrozen _).trans facts.unfrozen, facts.outpoint⟩
  · rw [h.listUnspent, hcoin]
  · rw [h.getTx, hfunding]
  · rw [h.tipHeight, hspend]
  · rw [h.publicDescriptor, hderive]

theorem loadOutputs_extended {network : Network} {wallet wallet' : Wallet}
    (h : Extends env wallet wallet') {outputs : List TxOut} (reviews : List ReviewedOutput)
    (metadata : List PsbtOutput) (sum : UInt64)
    (hmine : ∀ o ∈ outputs, env.isMine wallet' o.scriptPubkey = env.isMine wallet o.scriptPubkey) :
    loadOutputs env network wallet' outputs reviews metadata sum =
      loadOutputs env network wallet outputs reviews metadata sum := by
  induction outputs generalizing reviews metadata sum with
  | nil => rfl
  | cons output outputs ih =>
      cases reviews with
      | nil => rfl
      | cons reviewed reviews =>
          cases metadata with
          | nil => rfl
          | cons m metadata =>
              have hfirst := hmine output (List.mem_cons_self ..)
              have hrest := fun sum => ih reviews metadata sum
                (fun o ho => hmine o (List.mem_cons_of_mem _ ho))
              simp only [loadOutputs, hrest, checkDraftOutput, expectedOutput, hfirst,
                h.derivation_eq hfirst, h.publicDescriptor]

/-- A draft loads alike from an extended wallet that recognises no further
    output of it. -/
theorem loadFacts_extended {l l' : Loaded State Wallet} {row : DraftRow} {draft : SigningDraft}
    (facts : LoadFacts env db w d l row draft) (hload : load env db' w = .ok l')
    (hsummary : l'.summary = l.summary) (hview : Extends env l.wallet l'.wallet)
    (hmine : ∀ o ∈ draft.approved.unsignedTx.output,
      env.isMine l'.wallet o.scriptPubkey = env.isMine l.wallet o.scriptPubkey)
    (hrow : db'.selectDraft w d = db.selectDraft w d)
    (hres : ∀ op : String, db.reservations[(w, op)]? = some d → db'.reservations[(w, op)]? = some d)
    (hfrozen : ∀ op, db'.isFrozen w op = db.isFrozen w op)
    (hsigs : db'.draftSignatures[(w, d)]? = db.draftSignatures[(w, d)]?) :
    LoadFacts env db' w d l' row draft := by
  obtain ⟨inputSum, outputSum, hinputs, houtputs, hsums⟩ := facts.sums
  have hlen : draft.review.inputs.length = draft.approved.unsignedTx.previousOutputs.length := by
    rw [facts.inputs_length, (parseResponse_lengths env facts.approved).1,
      Transaction.previousOutputs, List.length_map]
  have hxpubs : expectedXpubs env l'.wallet = expectedXpubs env l.wallet := by
    simp only [expectedXpubs, hview.publicDescriptor]
  refine ⟨hload, hsummary ▸ facts.network, hsummary ▸ facts.synced, hrow.trans facts.found,
    facts.approved, facts.review, facts.live, facts.identity, facts.id, facts.walletId,
    facts.inputs_length, facts.outputs_length, hxpubs ▸ facts.xpub, facts.unknown,
    facts.proprietary, ⟨inputSum, outputSum, ?_, ?_, hsums⟩, ?_⟩
  · obtain ⟨hall, hnodup, hfresh, hsum⟩ := (loadInputs_eq_ok env hlen).mp hinputs
    refine (loadInputs_eq_ok env hlen).mpr ⟨hall.imp ?_, hnodup, hfresh, hsum⟩
    exact fun _ _ hfacts => inputFacts_extended hview hres hfrozen hfacts
  · rw [hsummary, loadOutputs_extended hview _ _ _ hmine]
    exact houtputs
  · rw [← facts.stored]
    simp only [loadStored, hsigs]

end Loading

/-! ## Saving revealed addresses -/

section Saving

variable {env}
variable {db : Db State} {w : String}

theorem load_save_ne {l : Loaded State Wallet} {w' : String} (h : w' ≠ w) :
    load env (save env db w' l) w = load env db w := by
  unfold save Db.updateState
  split
  · simp only [load, Table.get_insert_ne _ _ h]
  · rfl

/-- A saved wallet loads again, extended by the addresses it has revealed. -/
theorem load_save {db' : Db State} {l : Loaded State Wallet} (hload : load env db w = .ok l)
    (hwallets : db'.wallets = db.wallets) (keychains : List KeychainKind) :
    ∃ l', load env (save env db' w { l with wallet := env.revealAll l.wallet keychains }) w =
        .ok l' ∧ l'.summary = l.summary ∧ Extends env l.wallet l'.wallet ∧
      ∀ script, env.isMine l'.wallet script =
        env.isMine (env.revealAll l.wallet keychains) script := by
  simp only [load, bind_eq_ok, okOr_eq_ok, Except.ok.injEq] at hload
  obtain ⟨row, hrow, network, hnetwork, policy, hpolicy, wallet, hwallet, rfl⟩ := hload
  obtain ⟨wallet', hwallet', hsame⟩ := env.loadWallet_savedState network row.state wallet keychains
    hwallet
  have hrow' : db'.wallets[w]? = some row := by rw [hwallets, hrow]
  refine ⟨{ wallet := wallet', state := env.savedState row.state (env.revealAll wallet keychains)
            summary := { id := w, name := row.name, network, policy, syncedAt := row.syncedAt
                         totalSats := none, availableSats := none } },
    ?_, rfl, (extends_revealAll wallet keychains).trans ⟨hsame.listUnspent, hsame.getTx,
      hsame.tipHeight, hsame.publicDescriptor, ?_⟩, ?_⟩
  · simp only [load, save, Db.updateState, hrow', Table.get_insert_self, okOr_some, ok_bind,
      hnetwork, hpolicy, hwallet']
  · intro script found hfound
    rw [hsame.derivationOfSpk, hfound]
  · intro script
    rw [env.isMine_eq, env.isMine_eq, hsame.derivationOfSpk]

end Saving

/-! ## Unrelated activity -/

/-- Address reveals, label changes that touch no freeze, and creations and
    discards of other drafts. -/
def Unrelated (world : World State) (w d : String) : Op Scan → Prop
  | .receiveAddress _ | .setLabel _ _ _ _ | .createDraft _ _ _ => True
  | .editCoins _ _ _ frozen => frozen = none
  | .importLabels id payload apply => ∀ out, importLabels env world.db id payload apply = .ok out →
      out.2.freezes = world.db.freezes
  | .discardDraft w' e => ¬ (w' = w ∧ e = d)
  | _ => False

/-- The wallet after the addresses an operation reveals. -/
inductive Reveals (db : Db State) (w : String) (l : Loaded State Wallet) :
    Op Scan → Wallet → Prop where
  | receive : Reveals db w l (.receiveAddress w) (env.revealNextAddress l.wallet .external).2
  | create {request : DraftRequest} {seed now : Nat} {p : Psbt} {r : DraftReview} {wallet : Wallet}
      (same : request.walletId = w) (planned : planDraft env db l request seed = .ok (p, r, wallet)) :
      Reveals db w l (.createDraft request seed now) wallet

/-- The operation reveals an address by which the wallet comes to recognise
    the script. -/
def Recognises (db : Db State) (w : String) (op : Op Scan) (script : Script) : Prop :=
  ∃ l wallet, load env db w = .ok l ∧ Reveals env db w l op wallet ∧
    env.isMine l.wallet script = false ∧ env.isMine wallet script = true

section Steps

variable {env}
variable {db : Db State} {w : String}

/-- Receiving reveals one address, and brings one script within the lookahead. -/
theorem recognises_receiveAddress {l : Loaded State Wallet} (hload : load env db w = .ok l)
    (script : Script) :
    Recognises env db w (.receiveAddress w) script ↔
      env.isMine l.wallet script = false ∧ script = env.nextRecognised l.wallet .external := by
  have hmine : env.isMine l.wallet script = false →
      (env.isMine (env.revealNextAddress l.wallet .external).2 script = true ↔
        script = env.nextRecognised l.wallet .external) := by
    intro hnot
    rw [env.isMine_eq] at hnot ⊢
    rw [env.revealNextAddress_derivation]
    cases hfound : env.derivationOfSpk l.wallet script with
    | some found =>
        rw [hfound] at hnot
        cases hnot
    | none =>
        simp only
        split_ifs with hnext
        · simp [hnext]
        · simp [hnext]
  constructor
  · rintro ⟨l', wallet, hload', hreveals, hnot, hyes⟩
    rw [hload, Except.ok.injEq] at hload'
    subst hload'
    cases hreveals with
    | receive => exact ⟨hnot, (hmine hnot).mp hyes⟩
  · rintro ⟨hnot, hnext⟩
    exact ⟨l, _, hload, .receive, hnot, (hmine hnot).mpr hnext⟩

/-- The draft loads as before from a store that keeps its row, reservations,
    freezes and signatures, with a wallet that has revealed addresses. -/
theorem loadDraft_saved {db' : Db State} {d : String} {draft : SigningDraft} {op : Op Scan}
    {w' : String} {l : Loaded State Wallet} (keychains : List KeychainKind)
    (hdraft : loadDraft env db w d = .ok draft) (hload : load env db w' = .ok l)
    (hwallets : db'.wallets = db.wallets)
    (hreveals : w' = w → Reveals env db w l op (env.revealAll l.wallet keychains))
    (hrec : ∀ o ∈ draft.approved.unsignedTx.output, ¬ Recognises env db w op o.scriptPubkey)
    (hrow : db'.selectDraft w d = db.selectDraft w d)
    (hres : ∀ op : String, db.reservations[(w, op)]? = some d → db'.reservations[(w, op)]? = some d)
    (hfreezes : db'.freezes = db.freezes)
    (hsigs : db'.draftSignatures[(w, d)]? = db.draftSignatures[(w, d)]?) :
    loadDraft env (save env db' w' { l with wallet := env.revealAll l.wallet keychains }) w d =
      .ok draft := by
  obtain ⟨loaded, row, facts⟩ := (loadDraft_eq_ok env).mp hdraft
  have hsame : SameDrafts db' (db'.updateState w'
      (env.savedState l.state (env.revealAll l.wallet keychains))) :=
    (updateState_metadata env w' _).same
  have hfrozen : ∀ op, (save env db' w' { l with wallet := env.revealAll l.wallet keychains }).isFrozen
      w op = db.isFrozen w op := by
    intro op
    unfold save Db.updateState
    split <;> simp only [Db.isFrozen, hfreezes]
  refine (loadDraft_eq_ok env).mpr ?_
  by_cases hw : w' = w
  · subst hw
    rw [facts.wallet, Except.ok.injEq] at hload
    subst hload
    obtain ⟨l', hload', hsummary, hview, hmine⟩ := load_save facts.wallet hwallets keychains
    refine ⟨l', row, loadFacts_extended facts hload' hsummary hview ?_ ?_ ?_ hfrozen ?_⟩
    · intro o ho
      rw [hmine]
      have hno := hrec o ho
      cases hold : env.isMine loaded.wallet o.scriptPubkey with
      | true =>
          rw [env.isMine_eq, Option.isSome_iff_exists] at hold ⊢
          obtain ⟨found, hfound⟩ := hold
          exact ⟨found, (extends_revealAll loaded.wallet keychains).derivation _ _ hfound⟩
      | false =>
          by_contra hnew
          exact hno ⟨loaded, _, facts.wallet, hreveals rfl, hold, by simpa using hnew⟩
    · rw [Db.selectDraft, save, hsame.drafts]
      exact hrow
    · intro op hop
      rw [save, hsame.reservations]
      exact hres op hop
    · rw [save, hsame.draftSignatures]
      exact hsigs
  · refine ⟨loaded, row, loadFacts_extended facts ?_ rfl (.refl _) (fun _ _ => rfl) ?_ ?_ hfrozen ?_⟩
    · rw [load_save_ne hw]
      simp only [load, hwallets]
      exact facts.wallet
    · rw [Db.selectDraft, save, hsame.drafts]
      exact hrow
    · intro op hop
      rw [save, hsame.reservations]
      exact hres op hop
    · rw [save, hsame.draftSignatures]
      exact hsigs

end Steps

/-! ## Label changes -/

section Labels

variable {env}
variable {db db' : Db State}

/-- Only labels and freezes differ. -/
def LabelsOnly (db db' : Db State) : Prop :=
  db' = { db with labels := db'.labels, freezes := db'.freezes }

theorem LabelsOnly.trans {db'' : Db State} (h : LabelsOnly db db') (h' : LabelsOnly db' db'') :
    LabelsOnly db db'' := by
  unfold LabelsOnly at h h' ⊢
  rw [h', h]

theorem LabelsOnly.putLabel (w : String) (kind : LabelKind) (reference label : String) :
    LabelsOnly db (db.putLabel w kind reference label) := rfl

theorem LabelsOnly.setFreeze (w reference : String) (frozen : Bool) :
    LabelsOnly db (db.setFreeze w reference frozen) := rfl

theorem editCoin_labelsOnly (db : Db State) (w reference : String) (label : Option String) :
    LabelsOnly db (editCoin w label none db reference) ∧
      (editCoin w label none db reference).freezes = db.freezes := by
  cases label with
  | none => exact ⟨rfl, rfl⟩
  | some label => exact ⟨rfl, rfl⟩

theorem editCoins_labelsOnly {w : String} {references : List String} {label : Option String}
    {out : Unit × Db State} (h : editCoins env db w references label none = .ok out) :
    LabelsOnly db out.2 ∧ out.2.freezes = db.freezes := by
  have hout : out.2 = references.foldl (editCoin w label none) db := by
    cases label with
    | none =>
        simp only [editCoins, bind_eq_ok, exists_unit, Except.ok.injEq] at h
        obtain ⟨_, _, _, _, _, _, rfl⟩ := h
        rfl
    | some label =>
        simp only [editCoins, bind_eq_ok, exists_unit, Except.ok.injEq] at h
        obtain ⟨_, _, _, _, _, _, rfl⟩ := h
        rfl
  rw [hout]
  clear h hout
  induction references generalizing db with
  | nil => exact ⟨rfl, rfl⟩
  | cons reference references ih =>
      obtain ⟨hfirst, hfreeze⟩ := editCoin_labelsOnly db w reference label
      obtain ⟨hrest, hfreezes⟩ := @ih (editCoin w label none db reference)
      exact ⟨hfirst.trans hrest, hfreezes.trans hfreeze⟩

theorem applyRecord_labelsOnly (apply : Bool) (w : String) (r : Labels.LabelRecord) :
    LabelsOnly db (applyRecord apply db w r).2 := by
  unfold applyRecord
  cases apply <;> cases r.label <;> cases r.spendable <;> rfl

theorem importRecords_labelsOnly {apply : Bool} {w origin : String} {wallet : Wallet}
    {records : List Labels.LabelRecord} {seen : List (LabelKind × String)}
    {preview : Labels.LabelPreview} {out : Labels.LabelPreview × Db State}
    (h : importRecords env apply w wallet origin records seen preview db = .ok out) :
    LabelsOnly db out.2 := by
  induction records generalizing seen preview db with
  | nil =>
      cases h
      rfl
  | cons r records ih =>
      unfold importRecords at h
      split at h
      · simp only [bind_eq_ok, exists_unit] at h
        exact (applyRecord_labelsOnly apply w r).trans (ih h.2)
      · exact ih h

theorem importLabels_labelsOnly {w payload : String} {apply : Bool}
    {out : Labels.LabelPreview × Db State} (h : importLabels env db w payload apply = .ok out) :
    LabelsOnly db out.2 := by
  simp only [importLabels, bind_eq_ok, Prod.exists, Except.ok.injEq] at h
  obtain ⟨_, _, _, _, _, _, _, preview, db', hrun, rfl⟩ := h
  cases apply with
  | true => exact importRecords_labelsOnly hrun
  | false => rfl

/-- Label changes do not touch what loading a draft reads. -/
theorem loadDraft_labelsOnly (h : LabelsOnly db db') (hfreezes : db'.freezes = db.freezes)
    (w d : String) : loadDraft env db' w d = loadDraft env db w d := by
  rw [h]
  refine loadDraft_congr env rfl rfl (fun _ => rfl) (fun op => ?_) rfl
  simp only [Db.isFrozen, hfreezes]

end Labels

/-! ## Runs -/

section Runs

variable {env}
variable {world : World State} {w d : String} {draft : SigningDraft}

/-- The draft is still loaded alike after a discard of another one. -/
theorem loadDraft_discard (h : loadDraft env world.db w d = .ok draft) {w' e : String}
    {out : Unit × Db State} (hne : ¬ (w' = w ∧ e = d))
    (hout : discardDraft world.db w' e = .ok out) : loadDraft env out.2 w d = .ok draft := by
  obtain ⟨loaded, row, facts⟩ := (loadDraft_eq_ok env).mp h
  simp only [discardDraft, bind_eq_ok, require_eq_ok, exists_unit, Option.isSome_iff_exists,
    Except.ok.injEq] at hout
  obtain ⟨_, ⟨row', hrow'⟩, rfl⟩ := hout
  have he : e ≠ d := by
    rintro rfl
    obtain ⟨hget, hw⟩ := selectDraft_eq_some.mp facts.found
    obtain ⟨hget', hw'⟩ := selectDraft_eq_some.mp hrow'
    rw [hget, Option.some.injEq] at hget'
    exact hne ⟨by rw [← hw', ← hw, hget'], rfl⟩
  refine (loadDraft_eq_ok env).mpr ⟨loaded, row, loadFacts_extended facts facts.wallet rfl (.refl _)
    (fun _ _ => rfl) ?_ ?_ (fun _ => rfl) ?_⟩
  · simp only [Db.selectDraft, Db.deleteDraft, Table.get_erase, if_neg he]
  · intro op hop
    refine Table.get_deleteWhere_eq_some.mpr ⟨hop, ?_⟩
    simp [Ne.symm he]
  · simp only [Db.deleteDraft, Table.get_erase, Prod.mk.injEq, he, and_false, if_false]

/-- One unrelated step that makes no output of the draft recognised. -/
theorem loadDraft_step (h : loadDraft env world.db w d = .ok draft) {op : Op Scan}
    (hunrelated : Unrelated env world w d op)
    (hrec : ∀ o ∈ draft.approved.unsignedTx.output,
      ¬ Recognises env world.db w op o.scriptPubkey) :
    loadDraft env (step env world op).db w d = .ok draft := by
  have hcommit : ∀ {α : Type} {res : Result (α × Db State)},
      transact env world.db op = some (res.map Prod.snd) →
      (∀ out, res = .ok out → loadDraft env out.2 w d = .ok draft) →
      loadDraft env (step env world op).db w d = .ok draft := by
    intro α res htransact hok
    rw [step_transact env htransact]
    cases res with
    | error e => exact h
    | ok out => exact hok out rfl
  cases op with
  | receiveAddress id =>
      refine hcommit rfl fun out hout => ?_
      simp only [receiveAddress, bind_eq_ok, Except.ok.injEq] at hout
      obtain ⟨l, hload, rfl⟩ := hout
      exact loadDraft_saved [.external] h hload rfl
        (by rintro rfl; exact .receive) hrec rfl (fun _ hop => hop) rfl rfl
  | createDraft request seed now =>
      refine hcommit rfl fun out hout => ?_
      obtain ⟨l, p, wallet, row, hload, _, hplan, hfresh, hw, _, _, _, hout⟩ :=
        createDraft_facts env hout
      have planned := planDraft_facts env hplan
      obtain ⟨n, rfl⟩ := planned.revealed
      obtain ⟨loaded, row₀, facts⟩ := (loadDraft_eq_ok env).mp h
      have hne : out.1.id ≠ d := by
        intro heq
        rw [heq, (selectDraft_eq_some.mp facts.found).1] at hfresh
        cases hfresh
      rw [hout]
      refine loadDraft_saved _ h hload (by rfl) (fun hsame => .create hsame hplan) hrec ?_ ?_ rfl rfl
      · simp only [Db.selectDraft, Table.get_insert_ne _ _ hne]
      · -- the new reservations are on outpoints that were free
        intro op hop
        rw [reserveAll_get, if_neg]
        · exact hop
        rintro ⟨rfl, hmem⟩
        have hfree := planned.unreserved hmem
        exact absurd (isReserved_eq_true.mpr (.inl ⟨d, hop⟩)) (by simp [hfree])
  | setLabel id kind reference label =>
      refine hcommit rfl fun out hout => ?_
      simp only [setLabel, bind_eq_ok, exists_unit, Except.ok.injEq] at hout
      obtain ⟨_, _, _, _, _, _, rfl⟩ := hout
      exact (loadDraft_labelsOnly (LabelsOnly.putLabel ..) rfl w d).trans h
  | editCoins id references label frozen =>
      obtain rfl : frozen = none := hunrelated
      refine hcommit rfl fun out hout => ?_
      obtain ⟨honly, hfreezes⟩ := editCoins_labelsOnly hout
      exact (loadDraft_labelsOnly honly hfreezes w d).trans h
  | importLabels id payload apply =>
      refine hcommit rfl fun out hout => ?_
      exact (loadDraft_labelsOnly (importLabels_labelsOnly hout) (hunrelated out hout) w d).trans h
  | discardDraft w' e => exact hcommit rfl fun out hout => loadDraft_discard h hunrelated hout
  | _ => exact absurd hunrelated (by simp [Unrelated])

end Runs

/-- **A draft stays loadable until an output of it becomes the wallet's own.**
    After any run, along any later run of unrelated operations none of which
    reveals an address that makes the wallet recognise an output of the draft
    it did not recognise, the draft loads with the same approved PSBT, review,
    aggregate and progress. -/
theorem run_draft_stays_loadable (ops later : List (Op Scan)) {w d : String} {draft : SigningDraft}
    (loaded : loadDraft env (run env ops).db w d = .ok draft)
    (along : Along (step env) (fun world op => Unrelated env world w d op ∧
      ∀ o ∈ draft.approved.unsignedTx.output, ¬ Recognises env world.db w op o.scriptPubkey)
      (run env ops) later) :
    loadDraft env (run env (ops ++ later)).db w d = .ok draft ∧
      signingProgress env (run env (ops ++ later)).db w d =
        signingProgress env (run env ops).db w d := by
  have hlater : loadDraft env (run env (ops ++ later)).db w d = .ok draft := by
    rw [run_append]
    refine Transition.run_along (I := fun world => loadDraft env world.db w d = .ok draft)
      (step env) ?_ loaded along
    rintro world op hworld ⟨hunrelated, hrec⟩
    exact loadDraft_step hworld hunrelated hrec
  refine ⟨hlater, ?_⟩
  simp only [signingProgress, hlater, loaded]

open Fixture in
/-- A payment to somebody else loads after the next address has been revealed. -/
theorem run_draft_stays_loadable_payee :
    loadDraft Fixture.env
      (run Fixture.env (paymentRun payeeAddress [] ++ [.receiveAddress walletId])).db walletId
      (paymentId payeeScript) = .ok (loadedPayment payeeScript payeeAddress [] .unsigned none) := by
  have hrun := run_payment payee_payable payee_fits
  have hstart : loadDraft Fixture.env (run Fixture.env (paymentRun payeeAddress [])).db walletId
      (paymentId payeeScript) = .ok (loadedPayment payeeScript payeeAddress [] .unsigned none) := by
    rw [hrun]
    exact payment_loads payee_payable payee_fits
  refine (run_draft_stays_loadable Fixture.env (paymentRun payeeAddress [])
    [.receiveAddress walletId] hstart ?_).1
  refine ⟨⟨trivial, fun o ho hrec => ?_⟩, trivial⟩
  have hheld := payment_held payeeScript payeeAddress []
  rw [hrun, recognises_receiveAddress hheld.toHoldsAccount.load] at hrec
  have hout : o ∈ (paymentTx payeeScript []).output := by
    rw [← payment_unsigned payeeScript []]
    exact ho
  rcases List.mem_cons.mp hout with rfl | hchange
  · exact payee_not_next hrec.2
  · obtain rfl := List.mem_singleton.mp hchange
    have hmine : Fixture.env.isMine (spentWallet []) changeScript = true := by
      rw [Fixture.env.isMine_eq]
      show ((spentWallet []).derivationOfSpk changeScript).isSome = true
      rw [(spent_knows []).change]
      rfl
    exact absurd (hmine.symm.trans hrec.1) (by decide)

open Fixture in
/-- **A reveal makes a valid draft unreadable.**  The payment goes to the
    wallet's own receive script at index 26, which the wallet recognises once
    index 1 is revealed. -/
theorem receive_unloads_draft :
    loadDraft Fixture.env (run Fixture.env (paymentRun hiddenAddress [])).db walletId
        (paymentId hiddenScript) =
      .ok (loadedPayment hiddenScript hiddenAddress [] .unsigned none) ∧
    ∀ draft, loadDraft Fixture.env
      (run Fixture.env (paymentRun hiddenAddress [] ++ [.receiveAddress walletId])).db walletId
        (paymentId hiddenScript) ≠ .ok draft := by
  have hrun := run_payment hidden_payable hidden_fits
  have hheld := payment_held hiddenScript hiddenAddress []
  rw [run_concat, hrun, step_receive hheld.toHoldsAccount]
  exact ⟨payment_loads hidden_payable hidden_fits, hheld.reveal.not_loaded hidden_revealed⟩

end Stable
end Tundra
