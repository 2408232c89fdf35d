/-
  Tundra.Signing.Loaded

  What a loaded draft has been checked against: `loadDraft_eq_ok` and the
  characterisations of its two loops, over the inputs and over the outputs.
-/

import Tundra.Signing.Draft

namespace Tundra
namespace Signing

open Checked Relational Engine

variable {State Wallet Scan : Type} (env : Env State Wallet Scan)

/-! ## Checked sums -/

theorem checkedAdd_eq_some {a b c : UInt64} :
    checkedAdd a b = some c ↔ c.toNat = a.toNat + b.toNat := by
  unfold checkedAdd
  constructor
  · intro h
    split_ifs at h with hlt
    cases h
    rw [UInt64.toNat_add, Nat.mod_eq_of_lt hlt]
  · intro h
    have hlt : a.toNat + b.toNat < 2 ^ 64 := h ▸ c.toNat_lt
    rw [if_pos hlt, Option.some.injEq]
    apply UInt64.toNat_inj.mp
    rw [UInt64.toNat_add, Nat.mod_eq_of_lt hlt, h]

theorem checkedSub_eq_some {a b c : UInt64} :
    checkedSub a b = some c ↔ a.toNat = b.toNat + c.toNat := by
  unfold checkedSub
  constructor
  · intro h
    split_ifs at h with hle
    cases h
    rw [UInt64.toNat_sub_of_le _ _ hle]
    have := UInt64.le_iff_toNat_le.mp hle
    omega
  · intro h
    have hle : b ≤ a := UInt64.le_iff_toNat_le.mpr (by omega)
    rw [if_pos hle, Option.some.injEq]
    apply UInt64.toNat_inj.mp
    rw [UInt64.toNat_sub_of_le _ _ hle]
    omega

/-! ## The inputs -/

/-- What loading one input has checked. -/
structure InputFacts (db : Db State) (w d : String) (wallet : Wallet) (op : OutPoint)
    (reviewed : ReviewedInput) (t : TrustedInput) : Prop where
  coin : ∃ coin funding keychain index,
    (env.listUnspent wallet).find? (fun c => c.outpoint = op) = some coin ∧
    env.getTx wallet op.txid = some funding ∧
    spendable coin.chainPosition (env.tipHeight wallet) (env.isCoinbase funding.tx) = true ∧
    reviewed.sats = coin.txout.value ∧
    env.derivationOfSpk wallet coin.txout.scriptPubkey = some (keychain, index) ∧
    env.deriveInput (env.publicDescriptor wallet keychain) index =
      some (t.metadata, t.descriptor) ∧
    t.prevout = coin.txout
  reserved : db.reservations[(w, env.displayOutPoint op)]? = some d
  unfrozen : db.isFrozen w (env.displayOutPoint op) = false
  outpoint : reviewed.outpoint = env.displayOutPoint op

theorem loadInput_eq_ok {db : Db State} {w d : String} {wallet : Wallet} {seen : List OutPoint}
    {op : OutPoint} {reviewed : ReviewedInput} {t : TrustedInput} :
    loadInput env db w d wallet seen op reviewed = .ok t ↔
      InputFacts env db w d wallet op reviewed t ∧ op ∉ seen := by
  simp only [loadInput, bind_eq_ok, okOr_eq_ok, require_eq_ok, exists_unit, Prod.exists,
    Except.ok.injEq]
  constructor
  · rintro ⟨coin, hcoin, funding, hfund, ⟨hres, hfrozen, hseen, hspend⟩, ⟨hop, hsats⟩, keychain,
      index, hder, metadata, descriptor, hinput, rfl⟩
    exact ⟨⟨⟨coin, funding, keychain, index, hcoin, hfund, hspend, hsats, hder, hinput, rfl⟩,
      hres, hfrozen, hop⟩, hseen⟩
  · rintro ⟨⟨⟨coin, funding, keychain, index, hcoin, hfund, hspend, hsats, hder, hinput, hprev⟩,
      hres, hfrozen, hop⟩, hseen⟩
    refine ⟨coin, hcoin, funding, hfund, ⟨hres, hfrozen, hseen, hspend⟩, ⟨hop, hsats⟩, keychain,
      index, hder, t.metadata, t.descriptor, hinput, ?_⟩
    cases t
    simp_all

/-- The loop over the inputs: every input is checked, no outpoint comes twice,
    and the sats add up. -/
theorem loadInputs_eq_ok {db : Db State} {w d : String} {wallet : Wallet} {ops : List OutPoint}
    {reviews : List ReviewedInput} {seen : List OutPoint} {sum total : UInt64}
    {trusted : List TrustedInput} (hlen : reviews.length = ops.length) :
    loadInputs env db w d wallet ops reviews seen sum = .ok (trusted, total) ↔
      List.Forall₂ (fun row t => InputFacts env db w d wallet row.1 row.2 t)
        (ops.zip reviews) trusted ∧
      ops.Nodup ∧ (∀ op ∈ ops, op ∉ seen) ∧
      total.toNat = sum.toNat + (reviews.map (fun i => i.sats.toNat)).sum := by
  induction ops generalizing reviews seen sum total trusted with
  | nil =>
      obtain rfl := List.length_eq_zero_iff.mp hlen
      simp only [loadInputs, Except.ok.injEq, Prod.mk.injEq, List.zip_nil_left,
        List.forall₂_nil_left_iff, List.nodup_nil, List.map_nil, List.sum_nil, Nat.add_zero,
        List.not_mem_nil, false_implies, implies_true, true_and, ← UInt64.toNat_inj]
      constructor
      · rintro ⟨rfl, h⟩
        exact ⟨rfl, h.symm⟩
      · rintro ⟨rfl, h⟩
        exact ⟨rfl, h.symm⟩
  | cons op ops ih =>
      obtain ⟨reviewed, reviews, rfl⟩ := List.exists_cons_of_length_eq_add_one hlen
      simp only [List.length_cons, Nat.add_right_cancel_iff] at hlen
      simp only [loadInputs, bind_eq_ok, loadInput_eq_ok, okOr_eq_ok, checkedAdd_eq_some,
        Prod.exists, ih hlen, Except.ok.injEq, Prod.mk.injEq, List.zip_cons_cons,
        List.forall₂_cons_left_iff, List.nodup_cons, List.map_cons, List.sum_cons,
        List.mem_cons, not_or, forall_eq_or_imp]
      constructor
      · rintro ⟨t, ⟨hfacts, hseen⟩, sum', hsum, rest, _, ⟨hall, hnodup, hfresh, htotal⟩, rfl, rfl⟩
        refine ⟨⟨t, rest, hfacts, hall, rfl⟩, ⟨fun hmem => (hfresh op hmem).1 rfl, hnodup⟩,
          ⟨hseen, fun op' hop' => (hfresh op' hop').2⟩, ?_⟩
        omega
      · rintro ⟨⟨t, rest, hfacts, hall, rfl⟩, ⟨hnot, hnodup⟩, ⟨hseen, hfresh⟩, htotal⟩
        have hlt : sum.toNat + reviewed.sats.toNat < 2 ^ 64 := by
          have := total.toNat_lt
          omega
        have hmid : (UInt64.ofNat (sum.toNat + reviewed.sats.toNat)).toNat =
            sum.toNat + reviewed.sats.toNat := UInt64.toNat_ofNat_of_lt' hlt
        refine ⟨t, ⟨hfacts, hseen⟩, _, hmid, rest, total, ⟨hall, hnodup, ?_, ?_⟩, rfl, rfl⟩
        · exact fun op' hop' => ⟨fun heq => hnot (heq ▸ hop'), hfresh op' hop'⟩
        · omega

/-! ## The outputs -/

/-- The loop over the outputs: every output is checked, and the sats add up. -/
theorem loadOutputs_eq_ok {network : Network} {wallet : Wallet} {outputs : List TxOut}
    {reviews : List ReviewedOutput} {metadata : List PsbtOutput} {sum total : UInt64}
    (hlen : reviews.length = outputs.length) (hmeta : metadata.length = outputs.length) :
    loadOutputs env network wallet outputs reviews metadata sum = .ok total ↔
      List.Forall₂ (fun row m => checkDraftOutput env network wallet row.1 row.2 m = .ok ())
        (outputs.zip reviews) metadata ∧
      total.toNat = sum.toNat + (reviews.map (fun o => o.sats.toNat)).sum := by
  induction outputs generalizing reviews metadata sum with
  | nil =>
      obtain rfl := List.length_eq_zero_iff.mp hlen
      obtain rfl := List.length_eq_zero_iff.mp hmeta
      simp only [loadOutputs, Except.ok.injEq, List.zip_nil_left, List.forall₂_nil_left_iff,
        List.map_nil, List.sum_nil, Nat.add_zero, true_and, ← UInt64.toNat_inj]
      exact eq_comm
  | cons output outputs ih =>
      obtain ⟨reviewed, reviews, rfl⟩ := List.exists_cons_of_length_eq_add_one hlen
      obtain ⟨m, metadata, rfl⟩ := List.exists_cons_of_length_eq_add_one hmeta
      simp only [List.length_cons, Nat.add_right_cancel_iff] at hlen hmeta
      simp only [loadOutputs, bind_eq_ok, okOr_eq_ok, checkedAdd_eq_some, exists_unit,
        ih hlen hmeta, List.zip_cons_cons, List.forall₂_cons, List.map_cons, List.sum_cons]
      constructor
      · rintro ⟨hcheck, sum', hsum, hall, htotal⟩
        exact ⟨⟨hcheck, hall⟩, by omega⟩
      · rintro ⟨⟨hcheck, hall⟩, htotal⟩
        have hlt : sum.toNat + reviewed.sats.toNat < 2 ^ 64 := by
          have := total.toNat_lt
          omega
        have hmid : (UInt64.ofNat (sum.toNat + reviewed.sats.toNat)).toNat =
            sum.toNat + reviewed.sats.toNat := UInt64.toNat_ofNat_of_lt' hlt
        exact ⟨hcheck, _, hmid, hall, by omega⟩

/-! ## The draft -/

/-- What `loadDraft` has checked, with the wallet and the row it read. -/
structure LoadFacts (db : Db State) (w d : String) (loaded : Loaded State Wallet) (row : DraftRow)
    (draft : SigningDraft) : Prop where
  wallet : load env db w = .ok loaded
  network : loaded.summary.network ≠ .mainnet
  synced : loaded.summary.syncedAt ≠ none
  found : db.selectDraft w d = some row
  approved : parseResponse env row.psbt = .ok draft.approved
  review : row.reviewJson.parsed = some draft.review
  live : draft.review.state.isLive = true
  identity : draftIdentity env w draft.approved.unsignedTx = d
  id : draft.review.id = d
  walletId : draft.review.walletId = w
  inputs_length : draft.review.inputs.length = draft.approved.inputs.length
  outputs_length : draft.review.outputs.length = draft.approved.outputs.length
  xpub : subset draft.approved.xpub (expectedXpubs env loaded.wallet) = true
  unknown : draft.approved.unknown = []
  proprietary : draft.approved.proprietary = []
  sums : ∃ inputSum outputSum,
    loadInputs env db w d loaded.wallet draft.approved.unsignedTx.previousOutputs
      draft.review.inputs [] 0 = .ok (draft.trusted, inputSum) ∧
    loadOutputs env loaded.summary.network loaded.wallet draft.approved.unsignedTx.output
      draft.review.outputs draft.approved.outputs 0 = .ok outputSum ∧
    inputSum ≤ maxSats ∧ checkedSub inputSum outputSum = some draft.review.feeSats ∧
    draft.review.feeSats ≤ 1000000
  stored : loadStored env db w d = .ok draft.stored

theorem loadDraft_eq_ok {db : Db State} {w d : String} {draft : SigningDraft} :
    loadDraft env db w d = .ok draft ↔
      ∃ loaded row, LoadFacts env db w d loaded row draft := by
  simp only [loadDraft, bind_eq_ok, require_eq_ok, exists_unit, okOr_eq_ok, orError_eq_ok,
    parseReview, Prod.exists, Except.ok.injEq]
  constructor
  · rintro ⟨loaded, hload, hnet, hsync, row, hrow, approved, happ, review, hrev, hlive,
      ⟨hident, hid, hw, hin, hout⟩, ⟨hx, hu, hp⟩, trusted, inputSum, hinputs, outputSum, houtputs,
      hsums, stored, hstored, rfl⟩
    exact ⟨loaded, row, hload, hnet, hsync, hrow, happ, hrev, hlive, hident, hid, hw, hin, hout,
      hx, hu, hp, ⟨inputSum, outputSum, hinputs, houtputs, hsums⟩, hstored⟩
  · rintro ⟨loaded, row, hload, hnet, hsync, hrow, happ, hrev, hlive, hident, hid, hw, hin, hout,
      hx, hu, hp, ⟨inputSum, outputSum, hinputs, houtputs, hsums⟩, hstored⟩
    exact ⟨loaded, hload, hnet, hsync, row, hrow, draft.approved, happ, draft.review, hrev, hlive,
      ⟨hident, hid, hw, hin, hout⟩, ⟨hx, hu, hp⟩, draft.trusted, inputSum, hinputs, outputSum,
      houtputs, hsums, draft.stored, hstored, rfl⟩

theorem parseResponse_lengths {payload : Bytes} {p : Psbt}
    (h : parseResponse env payload = .ok p) :
    p.inputs.length = p.unsignedTx.input.length ∧
      p.outputs.length = p.unsignedTx.output.length := by
  simp only [parseResponse, parseBytes, bind_eq_ok, okOr_eq_ok, Prod.exists, exists_unit,
    Except.ok.injEq] at h
  obtain ⟨_, b, _, _, q, rest, hq, _, rfl⟩ := h
  exact env.deserializePsbt_lengths b q rest hq

section Facts

variable {env}
variable {db : Db State} {w d : String} {loaded : Loaded State Wallet} {row : DraftRow}
  {draft : SigningDraft}

/-- The loop over the inputs of a loaded draft. -/
theorem LoadFacts.inputs (h : LoadFacts env db w d loaded row draft) :
    List.Forall₂ (fun row t => InputFacts env db w d loaded.wallet row.1 row.2 t)
      (draft.approved.unsignedTx.previousOutputs.zip draft.review.inputs) draft.trusted ∧
    draft.approved.unsignedTx.previousOutputs.Nodup := by
  obtain ⟨_, _, hinputs, _⟩ := h.sums
  have hlen : draft.review.inputs.length =
      draft.approved.unsignedTx.previousOutputs.length := by
    rw [h.inputs_length, (parseResponse_lengths env h.approved).1, Transaction.previousOutputs,
      List.length_map]
  obtain ⟨hall, hnodup, _⟩ := (loadInputs_eq_ok env hlen).mp hinputs
  exact ⟨hall, hnodup⟩

/-- Every previous output of a loaded draft is reserved for it and not frozen. -/
theorem LoadFacts.input (h : LoadFacts env db w d loaded row draft) {op : OutPoint}
    (hop : op ∈ draft.approved.unsignedTx.previousOutputs) :
    ∃ reviewed t, reviewed ∈ draft.review.inputs ∧
      InputFacts env db w d loaded.wallet op reviewed t := by
  obtain ⟨hall, _⟩ := h.inputs
  have hlen : draft.review.inputs.length =
      draft.approved.unsignedTx.previousOutputs.length := by
    rw [h.inputs_length, (parseResponse_lengths env h.approved).1, Transaction.previousOutputs,
      List.length_map]
  obtain ⟨i, hi, rfl⟩ := List.getElem_of_mem hop
  have hzip : i < (draft.approved.unsignedTx.previousOutputs.zip draft.review.inputs).length := by
    rw [List.length_zip, hlen]
    omega
  have ht : i < draft.trusted.length := hall.length_eq ▸ hzip
  have hfacts := hall.get hzip ht
  simp only [List.get_eq_getElem, List.getElem_zip] at hfacts
  exact ⟨_, _, List.getElem_mem _, hfacts⟩

end Facts

/-! ## What loading reads -/

theorem loadInputs_congr {db db' : Db State} {w d : String} {wallet : Wallet}
    (hres : ∀ op : String, db'.reservations[(w, op)]? = db.reservations[(w, op)]?)
    (hfrozen : ∀ op, db'.isFrozen w op = db.isFrozen w op) (ops : List OutPoint)
    (reviews : List ReviewedInput) (seen : List OutPoint) (sum : UInt64) :
    loadInputs env db' w d wallet ops reviews seen sum =
      loadInputs env db w d wallet ops reviews seen sum := by
  induction ops generalizing reviews seen sum with
  | nil => rfl
  | cons op ops ih =>
      cases reviews with
      | nil => rfl
      | cons reviewed reviews =>
          simp only [loadInputs, loadInput, hres, hfrozen, ih]

/-- Loading reads the wallet, the draft's row, reservations, freezes and
    signatures of one wallet. -/
theorem loadDraft_congr {db db' : Db State} {w d : String}
    (hload : load env db' w = load env db w) (hrow : db'.selectDraft w d = db.selectDraft w d)
    (hres : ∀ op : String, db'.reservations[(w, op)]? = db.reservations[(w, op)]?)
    (hfrozen : ∀ op, db'.isFrozen w op = db.isFrozen w op)
    (hsigs : db'.draftSignatures[(w, d)]? = db.draftSignatures[(w, d)]?) :
    loadDraft env db' w d = loadDraft env db w d := by
  simp only [loadDraft, hload, hrow, loadInputs_congr env hres hfrozen, loadStored, hsigs]

/-! ## Validated bytes -/

theorem validatedFinalized_congr {db db' : Db State} {w d : String}
    (hload : loadDraft env db' w d = loadDraft env db w d)
    (hfinal : db'.finalizedDrafts[(w, d)]? = db.finalizedDrafts[(w, d)]?) :
    validatedFinalized env db' w d = validatedFinalized env db w d := by
  simp only [validatedFinalized, hload, hfinal]

theorem validatedFinalized_eq_ok {db : Db State} {w d : String} {final : FinalizedReview} :
    validatedFinalized env db w d = .ok (some final) ↔
      ∃ draft bytes tx, loadDraft env db w d = .ok draft ∧
        db.finalizedDrafts[(w, d)]? = some bytes ∧ draft.review.state = .finalized ∧
        finalizeTransaction env draft.approved draft.stored draft.trusted = .ok tx ∧
        bytes = env.serializeTx tx ∧ final = finalizedReview env draft tx := by
  simp only [validatedFinalized, bind_eq_ok]
  constructor
  · rintro ⟨draft, hdraft, h⟩
    cases hb : db.finalizedDrafts[(w, d)]? with
    | none =>
        rw [hb] at h
        simp only at h
        split_ifs at h
        cases h
    | some bytes =>
        rw [hb] at h
        simp only [bind_eq_ok, require_eq_ok, exists_unit, Except.ok.injEq, Option.some.injEq] at h
        obtain ⟨hstate, tx, htx, hbytes, rfl⟩ := h
        exact ⟨draft, bytes, tx, hdraft, rfl, hstate, htx, hbytes, rfl⟩
  · rintro ⟨draft, bytes, tx, hdraft, hb, hstate, htx, hbytes, rfl⟩
    refine ⟨draft, hdraft, ?_⟩
    rw [hb]
    simp only [bind_eq_ok, require_eq_ok, exists_unit, Except.ok.injEq, Option.some.injEq]
    exact ⟨hstate, tx, htx, hbytes, rfl⟩

end Signing
end Tundra
