/-
  Tundra.Signing.Truth

  A draft that is loaded tells the truth.  Whatever the database holds, its
  review is that of the approved transaction in the current wallet, its inputs
  are the wallet's own reserved coins, its fee is exact, and the derivations a
  merge accepts are the wallet's.
-/

import Tundra.Signing.Loaded
import Tundra.Signing.MergeSound

namespace Tundra
namespace Signing

open Checked Relational Engine

variable {State Wallet Scan : Type} (env : Env State Wallet Scan)

/-! ## What a review says -/

/-- A coin of the wallet that a draft may spend: unspent, confirmed and, when it
    is a coinbase, mature. -/
structure SpendableCoin (wallet : Wallet) (coin : LocalOutput) : Prop where
  unspent : coin ∈ env.listUnspent wallet
  mature : ∃ height funding, coin.chainPosition = .confirmed height ∧
    env.getTx wallet coin.outpoint.txid = some funding ∧
    (env.isCoinbase funding.tx = true → 100 ≤ env.tipHeight wallet - height + 1)

/-- One input and its review: the coin it spends, held for this draft. -/
structure TruthfulInput (db : Db State) (w d : String) (wallet : Wallet) (op : OutPoint)
    (reviewed : ReviewedInput) (coin : LocalOutput) : Prop where
  outpoint : reviewed.outpoint = env.displayOutPoint op
  spendable : SpendableCoin env wallet coin
  spends : coin.outpoint = op
  sats : reviewed.sats = coin.txout.value
  unfrozen : db.isFrozen w (env.displayOutPoint op) = false
  reserved : db.reservations[(w, env.displayOutPoint op)]? = some d

/-- One output and its review. -/
structure TruthfulOutput (network : Network) (wallet : Wallet) (output : TxOut)
    (reviewed : ReviewedOutput) : Prop where
  address : env.addressFromScript network output.scriptPubkey = some reviewed.address
  sats : reviewed.sats = output.value
  isMine : reviewed.isMine = env.isMine wallet output.scriptPubkey
  isChange : reviewed.isChange = true → env.isMine wallet output.scriptPubkey = true

/-- The key is one of the wallet's descriptors, with this origin. -/
def DescriptorKey (wallet : Wallet) (xkey : Xpub) (origin : KeySource) : Prop :=
  ∃ k x, .xpub x ∈ (env.publicDescriptor wallet k).keys ∧ x.xkey = xkey ∧ x.origin = some origin

/-- What a loaded input keeps of its coin. -/
def DerivedCoin (wallet : Wallet) (t : TrustedInput) (coin : LocalOutput) : Prop :=
  t.prevout = coin.txout ∧
  ∃ k index, env.derivationOfSpk wallet coin.txout.scriptPubkey = some (k, index) ∧
    env.deriveInput (env.publicDescriptor wallet k) index = some (t.metadata, t.descriptor)

/-- Every derivation is that of the wallet's own descriptor at the coin. -/
def DerivedInput (wallet : Wallet) (coin : LocalOutput) (input : PsbtInput) : Prop :=
  input = allowedInput input ∧
  ∃ k index expected descriptor,
    env.derivationOfSpk wallet coin.txout.scriptPubkey = some (k, index) ∧
    env.deriveInput (env.publicDescriptor wallet k) index = some (expected, descriptor) ∧
    env.scriptPubkey descriptor = coin.txout.scriptPubkey ∧
    ∀ (key : SecpKey) (source : KeySource), input.bip32Derivation[key]? = some source →
      expected.bip32Derivation[key]? = some source

/-- Every derivation is that of the wallet's own descriptor at the output. -/
def DerivedOutput (wallet : Wallet) (output : TxOut) (metadata : PsbtOutput) : Prop :=
  metadata = allowedOutput metadata ∧
  ∀ (key : SecpKey) (source : KeySource), metadata.bip32Derivation[key]? = some source →
    ∃ k index expected descriptor,
      env.derivationOfSpk wallet output.scriptPubkey = some (k, index) ∧
      env.deriveOutput (env.publicDescriptor wallet k) index = some (expected, descriptor) ∧
      env.scriptPubkey descriptor = output.scriptPubkey ∧
      expected.bip32Derivation[key]? = some source

/-- The coins a draft spends pay for its outputs and for the fee of its review, in
    whole satoshis. -/
structure ExactFee (coins : List LocalOutput) (outputs : List TxOut) (fee : UInt64) : Prop where
  bounded : (coins.map (fun coin => coin.txout.value.toNat)).sum < 2 ^ 64
  exact : (coins.map (fun coin => coin.txout.value.toNat)).sum =
    (outputs.map (fun output => output.value.toNat)).sum + fee.toNat
  limit : fee.toNat ≤ 1000000

/-- A draft whose review tells the truth about its transaction, in a wallet. -/
structure TruthfulDraft (db : Db State) (w d : String) (network : Network) (wallet : Wallet)
    (draft : SigningDraft) : Prop where
  identity : env.sha256Hex
    (w ++ ":" ++ env.displayTxid (env.computeTxid draft.approved.unsignedTx)) = d
  distinct : draft.approved.unsignedTx.previousOutputs.Nodup
  reviewedInputs : draft.review.inputs.length = draft.approved.unsignedTx.previousOutputs.length
  /-- The coins of the inputs, in order. -/
  inputs : ∃ coins,
    List.Forall₂ (fun row coin => TruthfulInput env db w d wallet row.1 row.2 coin)
      (draft.approved.unsignedTx.previousOutputs.zip draft.review.inputs) coins ∧
    ExactFee coins draft.approved.unsignedTx.output draft.review.feeSats ∧
    ∀ prior response merged,
      mergeResponse env draft.approved prior response draft.trusted = .ok merged →
      List.Forall₂ (DerivedInput env wallet) coins draft.approved.inputs
  outputs : List.Forall₂ (TruthfulOutput env network wallet) draft.approved.unsignedTx.output
    draft.review.outputs
  xpubs : ∀ (xkey : Xpub) (origin : KeySource), draft.approved.xpub[xkey]? = some origin →
    DescriptorKey env wallet xkey origin
  outputDerivations : List.Forall₂ (DerivedOutput env wallet) draft.approved.unsignedTx.output
    draft.approved.outputs

/-! ## Loading -/

section Loading

variable {env}
variable {db : Db State} {w d : String} {loaded : Loaded State Wallet} {row : DraftRow}
  {draft : SigningDraft} {wallet : Wallet}

theorem spendable_eq_true {position : ChainPosition} {tip : Nat} {coinbase : Bool} :
    spendable position tip coinbase = true ↔
      ∃ height, position = .confirmed height ∧ (coinbase = true → 100 ≤ tip - height + 1) := by
  cases position with
  | confirmed height => cases coinbase <;> simp [spendable]
  | unconfirmed lastSeen => simp [spendable]

theorem InputFacts.truthful {op : OutPoint} {reviewed : ReviewedInput} {t : TrustedInput}
    (h : InputFacts env db w d wallet op reviewed t) :
    ∃ coin, TruthfulInput env db w d wallet op reviewed coin ∧ DerivedCoin env wallet t coin := by
  obtain ⟨coin, funding, k, index, hcoin, hfunding, hspendable, hsats, hplace, hderive, hprev⟩ :=
    h.coin
  have hop : coin.outpoint = op := by simpa using List.find?_some hcoin
  obtain ⟨height, hheight, hmature⟩ := spendable_eq_true.mp hspendable
  have htx : env.getTx wallet coin.outpoint.txid = some funding := by rw [hop, hfunding]
  refine ⟨coin, ?_, hprev, k, index, hplace, hderive⟩
  exact ⟨h.outpoint, ⟨List.mem_of_find?_eq_some hcoin, height, funding, hheight, htx, hmature⟩,
    hop, hsats, h.unfrozen, h.reserved⟩

/-- The extended keys are those of the wallet's two descriptors. -/
theorem expectedXpubs_key {xkey : Xpub} {origin : KeySource}
    (h : (expectedXpubs env wallet)[xkey]? = some origin) : DescriptorKey env wallet xkey origin := by
  -- what a fold holds it started with, or took from one of its keys
  have hgen : ∀ (f : Table Xpub KeySource → DescriptorPublicKey → Table Xpub KeySource),
      (∀ t key, (f t key)[xkey]? = some origin → t[xkey]? = some origin ∨
        ∃ x, key = .xpub x ∧ x.xkey = xkey ∧ x.origin = some origin) →
      ∀ (keys : List DescriptorPublicKey) (t : Table Xpub KeySource),
      (keys.foldl f t)[xkey]? = some origin →
      t[xkey]? = some origin ∨ ∃ x, .xpub x ∈ keys ∧ x.xkey = xkey ∧ x.origin = some origin := by
    intro f hf keys
    induction keys with
    | nil => exact fun t h => .inl h
    | cons key keys ih =>
        intro t h
        rcases ih _ h with hold | ⟨x, hx, hkey⟩
        · rcases hf t key hold with hold | ⟨x, rfl, hkey⟩
          · exact .inl hold
          · exact .inr ⟨x, List.mem_cons_self, hkey⟩
        · exact .inr ⟨x, List.mem_cons_of_mem _ hx, hkey⟩
  have hrow := hgen _ (fun t key hkey => ?_) _ _ h
  rotate_left
  · cases key with
    | other text => exact .inl hkey
    | xpub x =>
        cases horigin : x.origin with
        | none =>
            simp only [horigin] at hkey
            exact .inl hkey
        | some source =>
            simp only [horigin, Table.get_insert] at hkey
            split_ifs at hkey with hsame
            · cases hkey
              exact .inr ⟨x, rfl, hsame, horigin⟩
            · exact .inl hkey
  rcases hrow with hempty | ⟨x, hx, hkey⟩
  · rw [Std.ExtTreeMap.getElem?_empty] at hempty
    cases hempty
  · rcases List.mem_append.mp hx with hx | hx
    · exact ⟨.external, x, hx, hkey⟩
    · exact ⟨.internal, x, hx, hkey⟩

theorem checkDraftOutput_truthful {network : Network} {output : TxOut} {reviewed : ReviewedOutput}
    {metadata : PsbtOutput}
    (h : checkDraftOutput env network wallet output reviewed metadata = .ok ()) :
    TruthfulOutput env network wallet output reviewed ∧ DerivedOutput env wallet output metadata := by
  simp only [checkDraftOutput, bind_eq_ok, okOr_eq_ok, require_eq_ok, exists_unit, orError_eq_ok,
    checkOutput] at h
  obtain ⟨address, haddress, ⟨rfl, hsats, hmine, hchange⟩, expected, hexpected, hallowed, -, -,
    hsub⟩ := h
  refine ⟨⟨haddress, hsats.symm, hmine.symm, hchange⟩, hallowed, fun key source hkey => ?_⟩
  have hkey' := subset_eq_true.mp hsub key source hkey
  unfold expectedOutput at hexpected
  cases hplace : env.derivationOfSpk wallet output.scriptPubkey with
  | none =>
      -- a foreign output has no expected derivation
      rw [hplace] at hexpected
      cases hexpected
      simp at hkey'
  | some place =>
      obtain ⟨k, index⟩ := place
      simp only [hplace, bind_eq_ok, okOr_eq_ok, require_eq_ok, exists_unit, Prod.exists,
        Except.ok.injEq] at hexpected
      obtain ⟨expected', descriptor, hderive, hscript, rfl⟩ := hexpected
      exact ⟨k, index, expected', descriptor, rfl, hderive, hscript, hkey'⟩

theorem LoadFacts.lengths (h : LoadFacts env db w d loaded row draft) :
    draft.review.inputs.length = draft.approved.unsignedTx.previousOutputs.length ∧
      draft.review.outputs.length = draft.approved.unsignedTx.output.length ∧
      draft.approved.outputs.length = draft.approved.unsignedTx.output.length := by
  obtain ⟨hinputs, houtputs⟩ := parseResponse_lengths env h.approved
  refine ⟨?_, h.outputs_length.trans houtputs, houtputs⟩
  rw [h.inputs_length, hinputs, Transaction.previousOutputs, List.length_map]

/-- The outputs of a loaded draft. -/
theorem LoadFacts.outputs (h : LoadFacts env db w d loaded row draft) :
    List.Forall₂ (TruthfulOutput env loaded.summary.network loaded.wallet)
      draft.approved.unsignedTx.output draft.review.outputs ∧
    List.Forall₂ (DerivedOutput env loaded.wallet) draft.approved.unsignedTx.output
      draft.approved.outputs := by
  obtain ⟨-, hreviews, hmeta⟩ := h.lengths
  obtain ⟨_, _, _, houtputs, _⟩ := h.sums
  obtain ⟨hall, -⟩ := (loadOutputs_eq_ok env hreviews hmeta).mp houtputs
  have hrow : ∀ i (hi : i < draft.approved.unsignedTx.output.length)
      (hr : i < draft.review.outputs.length) (hm : i < draft.approved.outputs.length),
      TruthfulOutput env loaded.summary.network loaded.wallet
        (draft.approved.unsignedTx.output.get ⟨i, hi⟩) (draft.review.outputs.get ⟨i, hr⟩) ∧
      DerivedOutput env loaded.wallet (draft.approved.unsignedTx.output.get ⟨i, hi⟩)
        (draft.approved.outputs.get ⟨i, hm⟩) := by
    intro i hi hr hm
    have hzip : i < (draft.approved.unsignedTx.output.zip draft.review.outputs).length := by
      rw [List.length_zip]
      omega
    have hcheck := hall.get hzip hm
    simp only [List.get_eq_getElem, List.getElem_zip] at hcheck
    exact checkDraftOutput_truthful hcheck
  constructor
  · exact List.forall₂_iff_get.mpr ⟨hreviews.symm, fun i hi hr =>
      (hrow i hi hr (by omega)).1⟩
  · exact List.forall₂_iff_get.mpr ⟨hmeta.symm, fun i hi hm =>
      (hrow i hi (by omega) hm).2⟩

/-- A coin for every row, when every row has one. -/
theorem exists_coins {rows : List (OutPoint × ReviewedInput)} {trusted : List TrustedInput}
    (h : List.Forall₂ (fun row t => InputFacts env db w d wallet row.1 row.2 t) rows trusted) :
    ∃ coins, List.Forall₂ (fun row coin => TruthfulInput env db w d wallet row.1 row.2 coin)
      rows coins ∧ List.Forall₂ (DerivedCoin env wallet) trusted coins := by
  induction h with
  | nil => exact ⟨[], .nil, .nil⟩
  | cons hrow _ ih =>
      obtain ⟨coin, htruth, hderived⟩ := hrow.truthful
      obtain ⟨coins, hall, hderiveds⟩ := ih
      exact ⟨coin :: coins, .cons htruth hall, .cons hderived hderiveds⟩

/-- The sats of the reviews are those of the coins. -/
theorem sum_reviewed {ops : List OutPoint} {reviews : List ReviewedInput} {coins : List LocalOutput}
    (hlen : reviews.length = ops.length)
    (h : List.Forall₂ (fun row coin => TruthfulInput env db w d wallet row.1 row.2 coin)
      (ops.zip reviews) coins) :
    (reviews.map (fun reviewed => reviewed.sats.toNat)).sum =
      (coins.map (fun coin => coin.txout.value.toNat)).sum := by
  congr 1
  have hsats : List.Forall₂ (fun row coin => row.2.sats.toNat = coin.txout.value.toNat)
      (ops.zip reviews) coins := h.imp (fun _ _ ht => by rw [ht.sats])
  have hmap := List.forall₂_eq_eq_eq ▸ List.forall₂_map_left_iff.mpr
    (List.forall₂_map_right_iff.mpr hsats)
  have hsnd : (ops.zip reviews).map Prod.snd = reviews := List.map_snd_zip (by omega)
  rw [← hmap]
  conv_lhs => rw [← hsnd, List.map_map]
  rfl

/-- The sats of the reviews are those of the outputs. -/
theorem sum_outputs {network : Network} {outputs : List TxOut} {reviews : List ReviewedOutput}
    (h : List.Forall₂ (TruthfulOutput env network wallet) outputs reviews) :
    (reviews.map (fun reviewed => reviewed.sats.toNat)).sum =
      (outputs.map (fun output => output.value.toNat)).sum := by
  congr 1
  induction h with
  | nil => rfl
  | cons hrow _ ih => rw [List.map_cons, List.map_cons, hrow.sats, ih]

/-- The coins of a loaded draft, in order. -/
theorem LoadFacts.coins (h : LoadFacts env db w d loaded row draft) :
    ∃ coins, List.Forall₂
        (fun row coin => TruthfulInput env db w d loaded.wallet row.1 row.2 coin)
        (draft.approved.unsignedTx.previousOutputs.zip draft.review.inputs) coins ∧
      List.Forall₂ (DerivedCoin env loaded.wallet) draft.trusted coins ∧
      ExactFee coins draft.approved.unsignedTx.output draft.review.feeSats := by
  obtain ⟨hinputs, hreviews, hmeta⟩ := h.lengths
  obtain ⟨inputSum, outputSum, hin, hout, -, hfee, hlimit⟩ := h.sums
  obtain ⟨hall, -, -, hinputSum⟩ := (loadInputs_eq_ok env hinputs).mp hin
  obtain ⟨-, houtputSum⟩ := (loadOutputs_eq_ok env hreviews hmeta).mp hout
  obtain ⟨coins, htruth, hderived⟩ := exists_coins hall
  rw [sum_reviewed hinputs htruth, UInt64.toNat_zero, Nat.zero_add] at hinputSum
  rw [sum_outputs h.outputs.1, UInt64.toNat_zero, Nat.zero_add] at houtputSum
  refine ⟨coins, htruth, hderived, ?_, ?_, UInt64.le_iff_toNat_le.mp hlimit⟩
  · rw [← hinputSum]
    exact inputSum.toNat_lt
  · rw [← hinputSum, ← houtputSum]
    exact checkedSub_eq_some.mp hfee

/-- Checked metadata has no field outside the allowlist, and no derivation that the
    trusted input does not have. -/
theorem checkMetadata_derivations {input : PsbtInput} {t : TrustedInput} {tx : Transaction}
    {index : Nat} (h : checkMetadata env input t tx index = .ok ()) :
    input = allowedInput input ∧
      subset input.bip32Derivation t.metadata.bip32Derivation = true := by
  simp only [checkMetadata, bind_eq_ok, require_eq_ok, exists_unit] at h
  obtain ⟨⟨-, -, hsub, -⟩, hend⟩ := h
  cases hutxo : input.nonWitnessUtxo with
  | none =>
      simp only [hutxo, bind_eq_ok, require_eq_ok, exists_unit] at hend
      exact ⟨hend.2.1, hsub⟩
  | some prev =>
      simp only [hutxo, bind_eq_ok, require_eq_ok, exists_unit] at hend
      obtain ⟨_, _, _, hallowed, _⟩ := hend
      exact ⟨hallowed, hsub⟩

/-- A merge accepts the derivations of the approved inputs only where they are
    those of the coins. -/
theorem approved_derived {approved response merged : Psbt} {prior : Option Psbt}
    {trusted : List TrustedInput} {coins : List LocalOutput}
    (hderived : List.Forall₂ (DerivedCoin env wallet) trusted coins)
    (h : mergeResponse env approved prior response trusted = .ok merged) :
    List.Forall₂ (DerivedInput env wallet) coins approved.inputs := by
  obtain ⟨hok, hinv, -⟩ := mergeResponse_inv env h
  have hlen := hderived.length_eq
  refine List.forall₂_iff_get.mpr ⟨by rw [hok.trusted_length, hlen], fun i hc hi => ?_⟩
  have ht : i < trusted.length := hlen ▸ hc
  have hm : i < merged.inputs.length := hinv.length ▸ ht
  obtain ⟨hprev, k, index, hplace, hderive⟩ := hderived.get ht hc
  obtain ⟨hcheck, -⟩ := hok.inputs i _ _ (List.getElem?_eq_getElem hi) (List.getElem?_eq_getElem ht)
  obtain ⟨hallowed, hsub⟩ := checkMetadata_derivations hcheck
  -- the policy of a merged input has the script of its coin
  obtain ⟨keys, required, -, hkeys, -⟩ := hinv.sound i _ _ (List.getElem?_eq_getElem hm)
    (List.getElem?_eq_getElem ht)
  simp only [TrustedInput.keys, bind_eq_ok, require_eq_ok, exists_unit, Prod.exists] at hkeys
  obtain ⟨_, _, -, ⟨-, -, hscript⟩, -⟩ := hkeys
  refine ⟨hallowed, k, index, _, _, hplace, hderive, ?_, subset_eq_true.mp hsub⟩
  rw [← hprev]
  exact hscript

/-- A loaded draft tells the truth. -/
theorem loadDraft_truthful (h : loadDraft env db w d = .ok draft) :
    ∃ loaded, load env db w = .ok loaded ∧
      TruthfulDraft env db w d loaded.summary.network loaded.wallet draft := by
  obtain ⟨loaded, row, hfacts⟩ := (loadDraft_eq_ok env).mp h
  obtain ⟨houtputs, hderivedOutputs⟩ := hfacts.outputs
  obtain ⟨coins, htruth, hderived, hfee⟩ := hfacts.coins
  refine ⟨loaded, hfacts.wallet, ?_⟩
  exact
    { identity := hfacts.identity
      distinct := hfacts.inputs.2
      reviewedInputs := hfacts.lengths.1
      inputs := ⟨coins, htruth, hfee, fun _ _ _ hmerge => approved_derived hderived hmerge⟩
      outputs := houtputs
      xpubs := fun xkey origin hkey =>
        expectedXpubs_key (subset_eq_true.mp hfacts.xpub xkey origin hkey)
      outputDerivations := hderivedOutputs }

end Loading

end Signing
end Tundra
