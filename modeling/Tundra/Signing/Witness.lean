/-
  Tundra.Signing.Witness

  The final witness check against the meaning of the two scripts: a single
  signature and its key, or two signatures under keys of the script in order.
-/

import Tundra.Lib.Greedy
import Tundra.Signing.MergeSound

namespace Tundra
namespace Signing

open Checked Relational

variable {State Wallet Scan : Type} (env : Env State Wallet Scan)

/-! ## Matching signatures to keys -/

/-- The check of one signature against one key of the script. -/
def fitsKey (hash : Bytes) (sig : Signature) (key : PublicKey) : Bool :=
  validSignature env hash key sig

/-- The scan goes on after the key it finds. -/
theorem scan_findKey (hash : Bytes) (sig : Signature) (sigs : List Signature)
    (keys : List PublicKey) :
    Greedy.scan (fitsKey env hash) (sig :: sigs) keys =
      (findKey (fun key => validSignature env hash key sig) keys).bind
        (fun found => (Greedy.scan (fitsKey env hash) sigs found.2).map (found.1 :: ·)) := by
  induction keys with
  | nil => rfl
  | cons key keys ih =>
      rw [Greedy.scan, findKey]
      by_cases hfit : validSignature env hash key sig = true
      · rw [if_pos hfit, if_pos (show fitsKey env hash sig key = true from hfit), Option.bind_some]
      · rw [if_neg hfit, if_neg (show ¬ fitsKey env hash sig key = true from hfit), ih]

/-- The signatures of a stack are matched exactly when they decode and fit keys
    in order. -/
theorem matchSignatures_ok (hash : Bytes) (stack : List Bytes) (keys : List PublicKey)
    (signatures : Table PublicKey Signature) :
    (∃ result, matchSignatures env hash stack keys signatures = .ok result) ↔
      ∃ sigs, stack.mapM env.signatureFromSlice = some sigs ∧
        (Greedy.scan (fitsKey env hash) sigs keys).isSome = true := by
  induction stack generalizing keys signatures with
  | nil => simp [matchSignatures, Greedy.scan]
  | cons bytes stack ih =>
      simp only [matchSignatures, bind_eq_ok, okOr_eq_ok, Prod.exists, List.mapM_cons,
        Option.bind_eq_bind, Option.bind_eq_some_iff, Option.pure_def, Option.some.injEq]
      constructor
      · rintro ⟨result, sig, hsig, key, rest, hfind, hresult⟩
        obtain ⟨sigs, hsigs, hscan⟩ := (ih rest (signatures.insert key sig)).mp ⟨result, hresult⟩
        refine ⟨sig :: sigs, ⟨sig, hsig, sigs, hsigs, rfl⟩, ?_⟩
        rw [scan_findKey, hfind, Option.bind_some, Option.isSome_map, hscan]
      · rintro ⟨_, ⟨sig, hsig, sigs, hsigs, rfl⟩, hscan⟩
        rw [scan_findKey] at hscan
        -- The scan found a key for the first signature, so the loop does.
        cases hfind : findKey (fun key => validSignature env hash key sig) keys with
        | none =>
            rw [hfind] at hscan
            cases hscan
        | some found =>
            obtain ⟨key, rest⟩ := found
            rw [hfind, Option.bind_some, Option.isSome_map] at hscan
            obtain ⟨result, hresult⟩ := (ih rest (signatures.insert key sig)).mpr ⟨sigs, hsigs, hscan⟩
            exact ⟨result, sig, hsig, key, rest, hfind, hresult⟩

/-! ## The two scripts -/

/-- What a single-key input asks of its witness. -/
def SingleWitness (hash : Bytes) (key : PublicKey) (stack : List Bytes) : Prop :=
  ∃ bytes sig, stack = [bytes, env.publicKeyBytes key] ∧
    env.signatureFromSlice bytes = some sig ∧ validSignature env hash key sig = true

/-- What CHECKMULTISIG asks of the witness of a 2-of-3 input: an empty element,
    two signatures and the script, with the signatures valid under keys at
    increasing positions of the script. -/
def MultisigWitness (hash : Bytes) (keys : List PublicKey) (script : Bytes) (stack : List Bytes) :
    Prop :=
  ∃ bytes₁ bytes₂ sig₁ sig₂, stack = [[], bytes₁, bytes₂, script] ∧
    env.signatureFromSlice bytes₁ = some sig₁ ∧ env.signatureFromSlice bytes₂ = some sig₂ ∧
    ∃ (i j : Nat) (key₁ key₂ : PublicKey), i < j ∧ keys[i]? = some key₁ ∧ keys[j]? = some key₂ ∧
      validSignature env hash key₁ sig₁ = true ∧ validSignature env hash key₂ sig₂ = true

/-- The meaning of a final witness: the policy's keys and hash are known, and the
    stack satisfies the script of the policy. -/
def ScriptAccepts (tx : Transaction) (index : Nat) (t : TrustedInput) (stack : List Bytes) : Prop :=
  ∃ keys required hash, t.keys env = .ok (keys, required) ∧
    signatureHash env tx index t required = .ok hash ∧
    ((∃ key, t.descriptor = .wpkh key ∧ SingleWitness env hash key stack) ∨
      ∃ policyKeys script, t.descriptor = .wshSortedMulti 2 policyKeys ∧ policyKeys.length = 3 ∧
        env.explicitScript t.descriptor = some script ∧ MultisigWitness env hash keys script stack)

variable {env}

/-- The two policies whose keys are known. -/
theorem keys_cases {t : TrustedInput} {keys : List PublicKey} {required : Nat}
    (h : t.keys env = .ok (keys, required)) :
    (∃ key, t.descriptor = .wpkh key ∧ keys = [key] ∧ required = 1) ∨
      ∃ policyKeys, t.descriptor = .wshSortedMulti 2 policyKeys ∧ policyKeys.length = 3 ∧
        keys.Perm policyKeys ∧ required = 2 := by
  unfold TrustedInput.keys at h
  cases hdesc : t.descriptor with
  | wpkh key =>
      simp only [hdesc, ok_bind, bind_eq_ok, exists_unit, Except.ok.injEq, Prod.mk.injEq] at h
      obtain ⟨-, rfl, rfl⟩ := h
      exact .inl ⟨key, rfl, rfl, rfl⟩
  | wshSortedMulti k policyKeys =>
      simp only [hdesc] at h
      split_ifs at h with hthree
      · obtain ⟨rfl, hlength⟩ := hthree
        simp only [ok_bind, bind_eq_ok, exists_unit, Except.ok.injEq, Prod.mk.injEq] at h
        obtain ⟨-, rfl, rfl⟩ := h
        exact .inr ⟨policyKeys, rfl, hlength, List.perm_insertionSort _ policyKeys, rfl⟩
      · cases h
  | other =>
      simp only [hdesc, error_bind] at h
      cases h

theorem witnessSignatures_single {t : TrustedInput} {key : PublicKey} {hash : Bytes}
    {stack : List Bytes} :
    (∃ result, witnessSignatures env t [key] 1 hash stack = .ok result) ↔
      SingleWitness env hash key stack := by
  unfold witnessSignatures SingleWitness
  rw [if_pos rfl]
  constructor
  · rintro ⟨result, h⟩
    split at h
    · rename_i bytes keyBytes key' rest hkeys
      obtain ⟨rfl, rfl⟩ := List.cons.inj hkeys
      simp only [bind_eq_ok, require_eq_ok, okOr_eq_ok, exists_unit] at h
      obtain ⟨rfl, sig, hsig, hvalid, -⟩ := h
      exact ⟨bytes, sig, rfl, hsig, hvalid⟩
    · cases h
  · rintro ⟨bytes, sig, rfl, hsig, hvalid⟩
    refine ⟨(∅ : Table PublicKey Signature).insert key sig, ?_⟩
    show (require (env.publicKeyBytes key = env.publicKeyBytes key) invalid >>= _) = _
    rw [require_of rfl, ok_bind, hsig, okOr_some, ok_bind, require_of hvalid, ok_bind]

/-- A stack of the two signatures and the script. -/
theorem multisig_stack {stack : List Bytes} {script : Script} :
    (stack.length = 2 + 2 ∧ stack[0]? = some [] ∧ stack[2 + 1]? = some script) ↔
      ∃ bytes₁ bytes₂, stack = [[], bytes₁, bytes₂, script] := by
  constructor
  · rintro ⟨hlength, hempty, hscript⟩
    obtain ⟨a, b, c, d, rfl⟩ : ∃ a b c d, stack = [a, b, c, d] := by
      match stack, hlength with
      | [a, b, c, d], _ => exact ⟨a, b, c, d, rfl⟩
    cases hempty
    cases hscript
    exact ⟨b, c, rfl⟩
  · rintro ⟨bytes₁, bytes₂, rfl⟩
    exact ⟨rfl, rfl, rfl⟩

theorem witnessSignatures_multisig {t : TrustedInput} {keys : List PublicKey} {hash : Bytes}
    {script : Script} {stack : List Bytes} (hscript : env.explicitScript t.descriptor = some script) :
    (∃ result, witnessSignatures env t keys 2 hash stack = .ok result) ↔
      MultisigWitness env hash keys script stack := by
  unfold witnessSignatures MultisigWitness
  rw [if_neg (by decide), hscript, okOr_some, ok_bind]
  simp only [bind_eq_ok, require_eq_ok, exists_unit, multisig_stack]
  constructor
  · rintro ⟨result, ⟨bytes₁, bytes₂, rfl⟩, h⟩
    obtain ⟨sigs, hsigs, hscan⟩ := (matchSignatures_ok env hash _ keys ∅).mp ⟨result, h⟩
    simp only [List.drop_succ_cons, List.drop_zero, List.take_succ_cons, List.take_zero,
      List.mapM_cons, List.mapM_nil, Option.bind_eq_bind, Option.bind_eq_some_iff, Option.pure_def,
      Option.some.injEq] at hsigs
    obtain ⟨sig₁, hsig₁, _, ⟨sig₂, hsig₂, _, rfl, rfl⟩, rfl⟩ := hsigs
    obtain ⟨i, j, key₁, key₂, hpair⟩ := Greedy.match_pair.mp ((Greedy.scan_isSome _ keys).mp hscan)
    exact ⟨bytes₁, bytes₂, sig₁, sig₂, rfl, hsig₁, hsig₂, i, j, key₁, key₂, hpair⟩
  · rintro ⟨bytes₁, bytes₂, sig₁, sig₂, rfl, hsig₁, hsig₂, i, j, key₁, key₂, hpair⟩
    have hscan : (Greedy.scan (fitsKey env hash) [sig₁, sig₂] keys).isSome :=
      (Greedy.scan_isSome [sig₁, sig₂] keys).mpr (Greedy.match_pair.mpr ⟨i, j, key₁, key₂, hpair⟩)
    have hsigs : ([bytes₁, bytes₂] : List Bytes).mapM env.signatureFromSlice = some [sig₁, sig₂] := by
      simp [hsig₁, hsig₂]
    obtain ⟨result, hresult⟩ := (matchSignatures_ok env hash [bytes₁, bytes₂] keys ∅).mpr
      ⟨[sig₁, sig₂], hsigs, hscan⟩
    exact ⟨result, ⟨bytes₁, bytes₂, rfl⟩, hresult⟩

end Signing
end Tundra
