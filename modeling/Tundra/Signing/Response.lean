/-
  Tundra.Signing.Response

  `parse_response`: a binary or base64 PSBT within the limits.  A PSBT the
  wallet wrote itself parses back exactly when it is within the limits
  (`parseResponse_psbtText`).
-/

import Tundra.Env

namespace Tundra
namespace Signing

open Checked Relational Wire

variable {State Wallet Scan : Type} (env : Env State Wallet Scan)

/-- The binary form of a payload, which may be base64. -/
def payloadBytes (payload : Bytes) : Result Bytes :=
  if psbtMagic.isPrefixOf payload then .ok payload else okOr (env.decodeText payload) invalid

/-- A PSBT in binary form, after the bounds have been checked. -/
def parseBytes (bytes : Bytes) : Result Psbt := do
  prescan bytes
  let (psbt, rest) ← okOr (env.deserializePsbt bytes) invalid
  require (rest = [] ∧ psbt.version = 0) invalid
  .ok psbt

/-- Accept binary PSBT or a single base64 value. -/
def parseResponse (payload : Bytes) : Result Psbt := do
  require (payload.length ≤ maxPsbtFileBytes) invalid
  let bytes ← payloadBytes env payload
  parseBytes env bytes

/-! ## Reading back what the wallet wrote -/

/-- The limits on a PSBT in terms of its own fields. -/
structure WithinLimits (p : Psbt) : Prop where
  size : (env.serializePsbt p).length ≤ maxPsbtBytes
  shape : ∃ i o, fieldsShape true 64 none (env.globalFields p) = .ok (some (i, o)) ∧
    p.inputs.length + p.outputs.length = i + o
  inputs : ∀ i ∈ p.inputs, WithinFieldLimits (env.inputFields i)
  outputs : ∀ o ∈ p.outputs, WithinFieldLimits (env.outputFields o)

/-- The fields of a map that fits the size limit can be encoded. -/
theorem encodable_of_length {fields : RawFields} {bound : Nat} (hkey : ∀ f ∈ fields, f.1 ≠ [])
    (hlen : (encodeMap fields).length ≤ bound) (hbound : bound < 2 ^ 64) : Encodable fields := by
  intro f hf
  have hlt := length_value_lt_encodeMap hf
  exact ⟨hkey f hf, by omega, by omega⟩

theorem serializePsbt_encodable {p : Psbt} (h : (env.serializePsbt p).length ≤ maxPsbtBytes) :
    Encodable (env.globalFields p) ∧
      ∀ m ∈ p.inputs.map env.inputFields ++ p.outputs.map env.outputFields, Encodable m := by
  simp only [Crates.serializePsbt, List.length_append] at h
  have hbound : maxPsbtBytes < 2 ^ 64 := by decide
  have hglobal : (encodeMap (env.globalFields p)).length ≤ maxPsbtBytes := by omega
  refine ⟨encodable_of_length (env.globalFields_key p) hglobal hbound, ?_⟩
  intro m hm
  have hlen : (encodeMap m).length ≤ maxPsbtBytes := (length_le_flatMap hm).trans (by omega)
  refine encodable_of_length ?_ hlen hbound
  rcases List.mem_append.mp hm with h' | h'
  · obtain ⟨i, _, rfl⟩ := List.mem_map.mp h'
    exact env.inputFields_key i
  · obtain ⟨o, _, rfl⟩ := List.mem_map.mp h'
    exact env.outputFields_key o

theorem prescan_serializePsbt (p : Psbt) :
    prescan (env.serializePsbt p) = .ok () ↔ WithinLimits env p := by
  by_cases hsize : (env.serializePsbt p).length ≤ maxPsbtBytes
  · obtain ⟨hfirst, hmaps⟩ := serializePsbt_encodable env hsize
    have hscan := prescan_encoding hfirst hmaps
    unfold Crates.serializePsbt at hsize ⊢
    rw [hscan]
    simp only [List.length_append, List.length_map, List.mem_append, List.mem_map]
    constructor
    · rintro ⟨_, i, o, hs, hn, hall⟩
      exact ⟨hsize, ⟨i, o, hs, hn⟩, fun i hi => hall _ (.inl ⟨i, hi, rfl⟩),
        fun o ho => hall _ (.inr ⟨o, ho, rfl⟩)⟩
    · rintro ⟨_, ⟨i, o, hs, hn⟩, hi, ho⟩
      refine ⟨by simpa using hsize, i, o, hs, hn, ?_⟩
      rintro m (⟨x, hx, rfl⟩ | ⟨x, hx, rfl⟩)
      · exact hi x hx
      · exact ho x hx
  · constructor
    · intro h
      simp only [prescan, bind_eq_ok, require_eq_ok] at h
      exact absurd h.choose_spec.1.1 hsize
    · intro h
      exact absurd h.size hsize

theorem parseBytes_serializePsbt {p q : Psbt} (hp : p.WellFormed) :
    parseBytes env (env.serializePsbt p) = .ok q ↔ WithinLimits env p ∧ q = p := by
  simp only [parseBytes, bind_eq_ok, require_eq_ok, exists_const, okOr_eq_ok, Prod.exists,
    exists_unit, Except.ok.injEq, prescan_serializePsbt]
  constructor
  · rintro ⟨hlimits, q', rest, hq, _, rfl⟩
    rw [env.deserializePsbt_serializePsbt p hp hlimits.size] at hq
    simp only [Option.some.injEq, Prod.mk.injEq] at hq
    exact ⟨hlimits, hq.1.symm⟩
  · rintro ⟨hlimits, rfl⟩
    exact ⟨hlimits, q, [], env.deserializePsbt_serializePsbt q hp hlimits.size,
      ⟨rfl, hp.version⟩, rfl⟩

/-- The binary form of a well-formed PSBT parses exactly when the PSBT is
    within the limits. -/
theorem parseResponse_serializePsbt {p q : Psbt} (hp : p.WellFormed) :
    parseResponse env (env.serializePsbt p) = .ok q ↔ WithinLimits env p ∧ q = p := by
  have hmagic : psbtMagic.isPrefixOf (env.serializePsbt p) = true := by
    rw [ List.isPrefixOf_iff_prefix]
    exact List.prefix_append ..
  have hbytes : payloadBytes env (env.serializePsbt p) = .ok (env.serializePsbt p) := by
    rw [payloadBytes, hmagic, if_pos rfl]
  have hfile : WithinLimits env p → (env.serializePsbt p).length ≤ maxPsbtFileBytes := by
    intro h
    have hmax : maxPsbtBytes ≤ maxPsbtFileBytes := by decide
    exact h.size.trans hmax
  simp only [parseResponse, bind_eq_ok, require_eq_ok, exists_const, hbytes, Except.ok.injEq,
    exists_eq_left', parseBytes_serializePsbt env hp]
  tauto

/-- The text of a well-formed PSBT parses exactly when the PSBT is within the limits. -/
theorem parseResponse_psbtText {p q : Psbt} (hp : p.WellFormed) :
    parseResponse env (env.psbtText p) = .ok q ↔ WithinLimits env p ∧ q = p := by
  have hmagic : psbtMagic.isPrefixOf (env.psbtText p) = false := by
    rw [← Bool.not_eq_true, List.isPrefixOf_iff_prefix]
    exact env.encodeText_magic _
  have hbytes : payloadBytes env (env.psbtText p) = .ok (env.serializePsbt p) := by
    rw [payloadBytes, hmagic, if_neg Bool.false_ne_true, Crates.psbtText,
      env.decodeText_encodeText, okOr_some]
  have hfile : WithinLimits env p → (env.psbtText p).length ≤ maxPsbtFileBytes := by
    intro h
    have hsize := h.size
    rw [Crates.psbtText, env.encodeText_length]
    unfold maxPsbtFileBytes
    omega
  simp only [parseResponse, bind_eq_ok, require_eq_ok, exists_const, hbytes, Except.ok.injEq,
    exists_eq_left', parseBytes_serializePsbt env hp]
  tauto

/-- The stored text of a PSBT within the limits is short enough for a backup. -/
theorem psbtText_length {p : Psbt} (h : WithinLimits env p) :
    (env.psbtText p).length ≤ 1398106 := by
  have hsize := h.size
  rw [Crates.psbtText, env.encodeText_length]
  have hmax : maxPsbtBytes = 1048576 := rfl
  omega

end Signing
end Tundra
