/-
  Tundra.Signing.Merge

  Validation and merging of signing responses (`signing.rs`): the policy keys
  of an input, the metadata checks, the signatures an input carries in either
  encoding, and `mergeResponse`, which copies signatures, and nothing else,
  into the approved PSBT.
-/

import Tundra.Env
import Mathlib.Data.List.Sort

namespace Tundra
namespace Signing

open Checked Relational

variable {State Wallet Scan : Type} (env : Env State Wallet Scan)

/-! ## Trusted inputs -/

/-- `TrustedInput`: the saved wallet's own prevout, metadata and policy. -/
structure TrustedInput where
  prevout : TxOut
  metadata : PsbtInput
  descriptor : Descriptor
  deriving DecidableEq

/-- The policy keys in the order of their bytes, and how many must sign. -/
def TrustedInput.keys (t : TrustedInput) : Result (List PublicKey × Nat) := do
  let (keys, required) ← (match t.descriptor with
    | .wpkh key => .ok ([key], 1)
    | .wshSortedMulti k keys =>
        if k = 2 ∧ keys.length = 3 then .ok (keys, 2) else .error .unsupportedPolicy
    | .other => .error .unsupportedPolicy : Result (List PublicKey × Nat))
  let sorted := keys.insertionSort
    (fun a b => (compare (env.publicKeyBytes a) (env.publicKeyBytes b)).isLE)
  require ((∀ key ∈ sorted, key.compressed = true) ∧ sorted.Nodup ∧
    env.scriptPubkey t.descriptor = t.prevout.scriptPubkey) .corruptState
  .ok (sorted, required)

/-! ## Metadata -/

/-- Every entry of `candidate` is an entry of `expected`. -/
def subset {κ ν : Type} [Ord κ] [Std.TransOrd κ] [DecidableEq ν]
    (candidate expected : Table κ ν) : Bool :=
  candidate.toList.all (fun entry => expected[entry.1]? = some entry.2)

/-- A field may be left out; when present it is the expected one. -/
def optional {α : Type} [DecidableEq α] (candidate expected : Option α) : Bool :=
  candidate.isNone || candidate = expected

/-- The input with every field outside the allowlist cleared. -/
def allowedInput (input : PsbtInput) : PsbtInput where
  nonWitnessUtxo := input.nonWitnessUtxo
  witnessUtxo := input.witnessUtxo
  witnessScript := input.witnessScript
  bip32Derivation := input.bip32Derivation
  sighashType := input.sighashType
  partialSigs := input.partialSigs
  finalScriptSig := input.finalScriptSig
  finalScriptWitness := input.finalScriptWitness

/-- The output with every field outside the allowlist cleared. -/
def allowedOutput (output : PsbtOutput) : PsbtOutput where
  redeemScript := output.redeemScript
  witnessScript := output.witnessScript
  bip32Derivation := output.bip32Derivation

/-- Check one input's metadata against the trusted input at its index. -/
def checkMetadata (input : PsbtInput) (trusted : TrustedInput) (tx : Transaction)
    (index : Nat) : Result Unit := do
  require (optional input.witnessUtxo (some trusted.prevout) ∧
    optional input.witnessScript trusted.metadata.witnessScript ∧
    subset input.bip32Derivation trusted.metadata.bip32Derivation ∧
    (input.sighashType = none ∨ input.sighashType = some EcdsaSighashType.all.toPsbt)) mismatch
  match input.nonWitnessUtxo with
  | some prev => do
      let txin ← okOr tx.input[index]? mismatch
      require (env.computeTxid prev = txin.previousOutput.txid ∧
        prev.output[txin.previousOutput.vout.toNat]? = some trusted.prevout) mismatch
  | none => .ok ()
  require (input = allowedInput input ∧
    (input.finalScriptSig = none ∨ input.finalScriptSig = some [])) invalid

/-! ## The signatures of one input -/

/-- The SIGHASH_ALL hash of an input: P2WPKH for one key, P2WSH otherwise. -/
def signatureHash (tx : Transaction) (index : Nat) (trusted : TrustedInput)
    (required : Nat) : Result Bytes :=
  if required = 1 then
    okOr (env.p2wpkhSignatureHash tx index trusted.prevout.scriptPubkey trusted.prevout.value)
      invalid
  else do
    let script ← okOr (env.explicitScript trusted.descriptor) invalid
    okOr (env.p2wshSignatureHash tx index script trusted.prevout.value) invalid

/-- Only a SIGHASH_ALL signature that verifies can authorize the draft. -/
def validSignature (hash : Bytes) (key : PublicKey) (sig : Signature) : Bool :=
  sig.sighashType = .all && env.verifyEcdsa hash sig.signature key.inner

/-- The first key that satisfies `p`, and the keys after it. -/
def findKey (p : PublicKey → Bool) : List PublicKey → Option (PublicKey × List PublicKey)
  | [] => none
  | key :: keys => if p key then some (key, keys) else findKey p keys

/-- Give each signature of a witness a key, in script order. -/
def matchSignatures (hash : Bytes) :
    List Bytes → List PublicKey → Table PublicKey Signature → Result (Table PublicKey Signature)
  | [], _, signatures => .ok signatures
  | bytes :: rest, remaining, signatures => do
      let sig ← okOr (env.signatureFromSlice bytes) invalid
      let (key, remaining) ← okOr (findKey (fun key => validSignature env hash key sig) remaining)
        invalid
      matchSignatures hash rest remaining (signatures.insert key sig)

/-- The signatures of a final witness stack. -/
def witnessSignatures (trusted : TrustedInput) (keys : List PublicKey) (required : Nat)
    (hash : Bytes) (stack : List Bytes) : Result (Table PublicKey Signature) :=
  if required = 1 then
    match stack, keys with
    | [sigBytes, keyBytes], key :: _ => do
        require (keyBytes = env.publicKeyBytes key) invalid
        let sig ← okOr (env.signatureFromSlice sigBytes) invalid
        require (validSignature env hash key sig) invalid
        .ok ((∅ : Table PublicKey Signature).insert key sig)
    | _, _ => .error invalid
  else do
    let script ← okOr (env.explicitScript trusted.descriptor) invalid
    require (stack.length = required + 2 ∧ stack[0]? = some [] ∧
      stack[required + 1]? = some script) invalid
    matchSignatures env hash ((stack.drop 1).take required) keys ∅

/-- The signatures an input carries, each under a policy key and valid. -/
def inputSignatures (tx : Transaction) (index : Nat) (input : PsbtInput)
    (trusted : TrustedInput) : Result (Table PublicKey Signature) := do
  let (keys, required) ← trusted.keys env
  let hash ← signatureHash env tx index trusted required
  require (∀ entry ∈ input.partialSigs.toList,
    entry.1 ∈ keys ∧ validSignature env hash entry.1 entry.2 = true) invalid
  match input.finalScriptWitness with
  | none => .ok input.partialSigs
  | some stack => do
      require (input.partialSigs = ∅) invalid
      witnessSignatures env trusted keys required hash stack

/-! ## Merging -/

/-- Add signatures to those already merged; a key keeps its signature. -/
def absorb (merged : Table PublicKey Signature) (signatures : List (PublicKey × Signature)) :
    Result (Table PublicKey Signature) :=
  signatures.foldlM (fun merged entry => do
    require (merged[entry.1]? = none ∨ merged[entry.1]? = some entry.2) mismatch
    .ok (merged.insert entry.1 entry.2)) merged

/-- The approved inputs match the trusted ones and carry no signature. -/
def checkApproved (tx : Transaction) : Nat → List PsbtInput → List TrustedInput → Result Unit
  | index, input :: inputs, trusted :: rest => do
      checkMetadata env input trusted tx index
      require (input.partialSigs = ∅ ∧ input.finalScriptWitness = none ∧
        input.finalScriptSig = none) .corruptState
      checkApproved tx (index + 1) inputs rest
  | _, _, _ => .ok ()

/-- Check one output of a candidate against the approved one. -/
def checkOutput (output expected : PsbtOutput) : Result Unit :=
  require (output = allowedOutput output ∧
    optional output.redeemScript expected.redeemScript ∧
    optional output.witnessScript expected.witnessScript ∧
    subset output.bip32Derivation expected.bip32Derivation) mismatch

/-- Merge the signatures of a candidate's inputs, one index after the other. -/
def mergeInputs (tx : Transaction) : Nat → List PsbtInput → List PsbtInput →
    List TrustedInput → Result (List PsbtInput)
  | index, merged :: mergedRest, input :: inputs, trusted :: rest => do
      checkMetadata env input trusted tx index
      let signatures ← inputSignatures env tx index input trusted
      let partialSigs ← absorb merged.partialSigs signatures.toList
      let tail ← mergeInputs tx (index + 1) mergedRest inputs rest
      .ok ({ merged with partialSigs := partialSigs } :: tail)
  | _, merged, _, _ => .ok merged

/-- Merge one candidate, previous aggregate or response. -/
def mergeCandidate (approved : Psbt) (trusted : List TrustedInput) (merged : List PsbtInput)
    (candidate : Psbt) : Result (List PsbtInput) := do
  require (candidate.version = 0 ∧ candidate.unsignedTx = approved.unsignedTx ∧
    candidate.inputs.length = trusted.length ∧
    candidate.outputs.length = approved.outputs.length ∧
    subset candidate.xpub approved.xpub ∧
    candidate.unknown = [] ∧ candidate.proprietary = []) mismatch
  checkAll (fun pair => checkOutput pair.1 pair.2) (candidate.outputs.zip approved.outputs)
  mergeInputs env approved.unsignedTx 0 merged candidate.inputs trusted

/-- `merge_response`: validate and merge signatures only. -/
def mergeResponse (approved : Psbt) (previous : Option Psbt) (response : Psbt)
    (trusted : List TrustedInput) : Result Psbt := do
  require (approved.inputs.length = trusted.length ∧
    approved.inputs.length = approved.unsignedTx.input.length ∧
    approved.outputs.length = approved.unsignedTx.output.length ∧
    approved.version = 0) .corruptState
  checkApproved env approved.unsignedTx 0 approved.inputs trusted
  let inputs ← (previous.toList ++ [response]).foldlM (mergeCandidate env approved trusted)
    approved.inputs
  .ok { approved with inputs := inputs }

/-! ## Lemmas about the parts -/

theorem subset_eq_true {κ ν : Type} [Ord κ] [Std.TransOrd κ] [Std.LawfulEqOrd κ] [DecidableEq ν]
    {candidate expected : Table κ ν} :
    subset candidate expected = true ↔
      ∀ (k : κ) (v : ν), candidate[k]? = some v → expected[k]? = some v := by
  simp only [subset, List.all_eq_true, decide_eq_true_eq, Prod.forall, Table.mem_toList]

theorem subset_refl {κ ν : Type} [Ord κ] [Std.TransOrd κ] [Std.LawfulEqOrd κ] [DecidableEq ν]
    (t : Table κ ν) : subset t t = true :=
  subset_eq_true.mpr fun _ _ h => h

theorem optional_eq_true {α : Type} [DecidableEq α] {candidate expected : Option α} :
    optional candidate expected = true ↔ candidate = none ∨ candidate = expected := by
  simp [optional]

theorem optional_refl {α : Type} [DecidableEq α] (o : Option α) : optional o o = true :=
  optional_eq_true.mpr (.inr rfl)

theorem eq_allowedInput {input : PsbtInput} :
    input = allowedInput input ↔ input.redeemScript = none ∧ input.other = [] := by
  cases input
  simp [allowedInput]

theorem eq_allowedOutput {output : PsbtOutput} :
    output = allowedOutput output ↔ output.other = [] := by
  cases output
  simp [allowedOutput]

/-- The metadata check does not look at partial signatures. -/
theorem checkMetadata_partialSigs (input : PsbtInput) (s : Table PublicKey Signature)
    (trusted : TrustedInput) (tx : Transaction) (index : Nat) :
    checkMetadata env { input with partialSigs := s } trusted tx index =
      checkMetadata env input trusted tx index := by
  simp only [checkMetadata, eq_allowedInput]

/-- The signatures of an input depend on its two signature fields only. -/
theorem inputSignatures_congr {input input' : PsbtInput}
    (hsigs : input'.partialSigs = input.partialSigs)
    (hwitness : input'.finalScriptWitness = input.finalScriptWitness)
    (tx : Transaction) (index : Nat) (trusted : TrustedInput) :
    inputSignatures env tx index input' trusted = inputSignatures env tx index input trusted := by
  simp only [inputSignatures, hsigs, hwitness]

/-- Signatures under the policy keys of an input, each valid for its hash. -/
def SoundSignatures (tx : Transaction) (index : Nat) (trusted : TrustedInput)
    (signatures : Table PublicKey Signature) : Prop :=
  ∃ keys required hash, trusted.keys env = .ok (keys, required) ∧
    signatureHash env tx index trusted required = .ok hash ∧
    ∀ key sig, signatures[key]? = some sig →
      key ∈ keys ∧ sig.sighashType = .all ∧
        env.verifyEcdsa hash sig.signature key.inner = true

theorem validSignature_eq_true {hash : Bytes} {key : PublicKey} {sig : Signature} :
    validSignature env hash key sig = true ↔
      sig.sighashType = .all ∧ env.verifyEcdsa hash sig.signature key.inner = true := by
  simp [validSignature]

theorem findKey_eq_some {p : PublicKey → Bool} {keys rest : List PublicKey} {key : PublicKey}
    (h : findKey p keys = some (key, rest)) : p key = true ∧ key ∈ keys ∧ rest ⊆ keys := by
  induction keys with
  | nil => simp [findKey] at h
  | cons k keys ih =>
      by_cases hk : p k = true
      · simp only [findKey, hk, if_true, Option.some.injEq, Prod.mk.injEq] at h
        obtain ⟨rfl, rfl⟩ := h
        exact ⟨hk, List.mem_cons_self .., List.subset_cons_self ..⟩
      · simp only [findKey, hk] at h
        obtain ⟨h₁, h₂, h₃⟩ := ih h
        exact ⟨h₁, List.mem_cons_of_mem _ h₂, List.subset_cons_of_subset _ h₃⟩

/-- Every signature `matchSignatures` adds is valid under a key of the script. -/
theorem matchSignatures_valid {hash : Bytes} {allKeys : List PublicKey} {stack : List Bytes}
    {keys : List PublicKey} {signatures result : Table PublicKey Signature}
    (hsub : keys ⊆ allKeys)
    (hvalid : ∀ key sig, signatures[key]? = some sig →
      key ∈ allKeys ∧ validSignature env hash key sig = true)
    (h : matchSignatures env hash stack keys signatures = .ok result) :
    ∀ key sig, result[key]? = some sig →
      key ∈ allKeys ∧ validSignature env hash key sig = true := by
  induction stack generalizing keys signatures with
  | nil =>
      simp only [matchSignatures, Except.ok.injEq] at h
      exact h ▸ hvalid
  | cons bytes stack ih =>
      simp only [matchSignatures, bind_eq_ok, okOr_eq_ok, Prod.exists] at h
      obtain ⟨sig, _, key, rest, hfind, h⟩ := h
      obtain ⟨hkey, hmem, hrest⟩ := findKey_eq_some hfind
      refine ih (fun k hk => hsub (hrest hk)) ?_ h
      intro k s hks
      rw [Table.get_insert] at hks
      by_cases heq : key = k
      · rw [if_pos heq, Option.some.injEq] at hks
        rw [← heq, ← hks]
        exact ⟨hsub hmem, hkey⟩
      · rw [if_neg heq] at hks
        exact hvalid k s hks

theorem witnessSignatures_valid {trusted : TrustedInput} {keys : List PublicKey} {required : Nat}
    {hash : Bytes} {stack : List Bytes} {result : Table PublicKey Signature}
    (h : witnessSignatures env trusted keys required hash stack = .ok result) :
    ∀ key sig, result[key]? = some sig →
      key ∈ keys ∧ validSignature env hash key sig = true := by
  have hempty : ∀ key sig, (∅ : Table PublicKey Signature)[key]? = some sig →
      key ∈ keys ∧ validSignature env hash key sig = true := by
    intro key sig hks
    simp at hks
  unfold witnessSignatures at h
  split_ifs at h with hreq
  · split at h
    · rename_i sigBytes keyBytes key rest
      simp only [bind_eq_ok, require_eq_ok, okOr_eq_ok, Except.ok.injEq, exists_const] at h
      obtain ⟨_, sig, _, hvalid, rfl⟩ := h
      intro k s hks
      rw [Table.get_insert] at hks
      by_cases heq : key = k
      · rw [if_pos heq, Option.some.injEq] at hks
        rw [← heq, ← hks]
        exact ⟨List.mem_cons_self .., hvalid⟩
      · rw [if_neg heq] at hks
        exact hempty k s hks
    · cases h
  · simp only [bind_eq_ok, require_eq_ok, exists_const] at h
    obtain ⟨_, _, _, h⟩ := h
    exact matchSignatures_valid env (List.Subset.refl _) hempty h

/-- Whatever an input carries is sound once it is accepted. -/
theorem inputSignatures_sound {tx : Transaction} {index : Nat} {input : PsbtInput}
    {trusted : TrustedInput} {signatures : Table PublicKey Signature}
    (h : inputSignatures env tx index input trusted = .ok signatures) :
    SoundSignatures env tx index trusted signatures := by
  simp only [inputSignatures, bind_eq_ok, require_eq_ok, Prod.exists, exists_const] at h
  obtain ⟨keys, required, hkeys, hash, hhash, hpartial, h⟩ := h
  refine ⟨keys, required, hash, hkeys, hhash, ?_⟩
  intro key sig hks
  have hvalid : key ∈ keys ∧ validSignature env hash key sig = true := by
    split at h
    · simp only [Except.ok.injEq] at h
      exact hpartial (key, sig) (Table.mem_toList.mpr (h ▸ hks))
    · simp only [bind_eq_ok, require_eq_ok, exists_const] at h
      exact witnessSignatures_valid env h.2 key sig hks
  exact ⟨hvalid.1, (validSignature_eq_true env).mp hvalid.2⟩

/-- Accepted signatures are at least the partial signatures of the input. -/
theorem inputSignatures_partialSigs {tx : Transaction} {index : Nat} {input : PsbtInput}
    {trusted : TrustedInput} {signatures : Table PublicKey Signature}
    (h : inputSignatures env tx index input trusted = .ok signatures)
    {key : PublicKey} {sig : Signature} (hks : input.partialSigs[key]? = some sig) :
    signatures[key]? = some sig := by
  simp only [inputSignatures, bind_eq_ok, require_eq_ok, Prod.exists, exists_const] at h
  obtain ⟨_, _, _, _, _, _, h⟩ := h
  split at h
  · simp only [Except.ok.injEq] at h
    exact h ▸ hks
  · simp only [bind_eq_ok, require_eq_ok, exists_const] at h
    rw [h.1] at hks
    simp at hks

/-- An input with sound partial signatures and no witness carries just these. -/
theorem inputSignatures_of_sound {tx : Transaction} {index : Nat} {input : PsbtInput}
    {trusted : TrustedInput} (hwitness : input.finalScriptWitness = none)
    (hsound : SoundSignatures env tx index trusted input.partialSigs) :
    inputSignatures env tx index input trusted = .ok input.partialSigs := by
  obtain ⟨keys, required, hash, hkeys, hhash, hall⟩ := hsound
  have hreq : ∀ entry ∈ input.partialSigs.toList,
      entry.1 ∈ keys ∧ validSignature env hash entry.1 entry.2 = true := by
    intro entry hentry
    obtain ⟨hkey, hsig⟩ := hall entry.1 entry.2 (Table.mem_toList.mp hentry)
    exact ⟨hkey, (validSignature_eq_true env).mpr hsig⟩
  simp only [inputSignatures, hkeys, hhash, ok_bind, require_of hreq, hwitness]

/-- What `absorb` returns holds the old entries and the new ones. -/
theorem absorb_get {merged result : Table PublicKey Signature}
    {signatures : List (PublicKey × Signature)} (h : absorb merged signatures = .ok result)
    (key : PublicKey) (sig : Signature) :
    result[key]? = some sig ↔ merged[key]? = some sig ∨ (key, sig) ∈ signatures := by
  induction signatures generalizing merged with
  | nil =>
      simp only [absorb, List.foldlM_nil, pure_eq_ok] at h
      simp [h]
  | cons entry signatures ih =>
      simp only [absorb, List.foldlM_cons, bind_eq_ok, require_eq_ok, Except.ok.injEq,
        exists_const] at h
      obtain ⟨_, ⟨hold, rfl⟩, h⟩ := h
      rw [ih h, Table.get_insert, List.mem_cons]
      obtain ⟨k, s⟩ := entry
      by_cases hk : k = key
      · subst hk
        rcases hold with hnone | hsome
        · simp [hnone, eq_comm]
        · simp only [hsome, if_true, Option.some.injEq, Prod.mk.injEq, true_and]
          tauto
      · have hk' : ¬ key = k := fun heq => hk heq.symm
        simp [hk, hk']

/-- Absorbing entries that are all there already changes nothing. -/
theorem absorb_of_mem {merged : Table PublicKey Signature}
    {signatures : List (PublicKey × Signature)}
    (h : ∀ entry ∈ signatures, merged[entry.1]? = some entry.2) :
    absorb merged signatures = .ok merged := by
  induction signatures with
  | nil => rfl
  | cons entry signatures ih =>
      have hentry := h entry (List.mem_cons_self ..)
      have hrest := ih (fun e he => h e (List.mem_cons_of_mem _ he))
      simp only [absorb, List.foldlM_cons, require_of (Or.inr hentry), ok_bind,
        Table.insert_get_self hentry]
      exact hrest

/-- Entries that agree with what is there, and with each other, are absorbed. -/
theorem absorb_total {merged : Table PublicKey Signature} {signatures : List (PublicKey × Signature)}
    (hold : ∀ (key : PublicKey) (sig sig' : Signature), merged[key]? = some sig →
      (key, sig') ∈ signatures → sig = sig')
    (hnew : ∀ (key : PublicKey) (sig sig' : Signature), (key, sig) ∈ signatures →
      (key, sig') ∈ signatures → sig = sig') :
    ∃ result, absorb merged signatures = .ok result := by
  induction signatures generalizing merged with
  | nil => exact ⟨merged, rfl⟩
  | cons entry signatures ih =>
      have hentry : merged[entry.1]? = none ∨ merged[entry.1]? = some entry.2 := by
        cases hget : merged[entry.1]? with
        | none => exact .inl rfl
        | some sig => exact .inr (by rw [hold _ _ _ hget List.mem_cons_self])
      have hold' : ∀ (key : PublicKey) (sig sig' : Signature),
          (merged.insert entry.1 entry.2)[key]? = some sig → (key, sig') ∈ signatures →
            sig = sig' := by
        intro key sig sig' hks hmem
        rw [Table.get_insert] at hks
        split_ifs at hks with hkey
        · subst hkey
          cases hks
          exact hnew _ _ _ List.mem_cons_self (List.mem_cons_of_mem _ hmem)
        · exact hold key sig sig' hks (List.mem_cons_of_mem _ hmem)
      have hnew' : ∀ (key : PublicKey) (sig sig' : Signature), (key, sig) ∈ signatures →
          (key, sig') ∈ signatures → sig = sig' := fun key sig sig' h h' =>
        hnew key sig sig' (List.mem_cons_of_mem _ h) (List.mem_cons_of_mem _ h')
      obtain ⟨result, hresult⟩ := ih hold' hnew'
      refine ⟨result, ?_⟩
      rw [absorb, List.foldlM_cons, require_of hentry]
      exact hresult

/-- The rows of a table do not contradict each other. -/
theorem toList_functional {t : Table PublicKey Signature} (key : PublicKey) (sig sig' : Signature)
    (h : (key, sig) ∈ t.toList) (h' : (key, sig') ∈ t.toList) : sig = sig' := by
  have hget := Table.mem_toList.mp h
  rw [Table.mem_toList.mp h', Option.some.injEq] at hget
  exact hget.symm

/-- Absorbing a table's entries into no entries gives the table. -/
theorem absorb_empty (t : Table PublicKey Signature) : absorb ∅ t.toList = .ok t := by
  have hempty : ∀ (key : PublicKey) (sig sig' : Signature),
      (∅ : Table PublicKey Signature)[key]? = some sig → (key, sig') ∈ t.toList → sig = sig' := by
    intro key sig sig' hks
    simp at hks
  obtain ⟨r, hr⟩ := absorb_total hempty toList_functional
  have hrt : r = t := by
    apply Table.ext
    intro k
    apply Option.ext
    intro s
    rw [absorb_get hr, Table.mem_toList]
    simp
  rw [hr, hrt]

end Signing
end Tundra
