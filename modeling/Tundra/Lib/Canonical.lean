/-
  Tundra.Lib.Canonical

  Decoders that accept nothing but encodings: what was read, written again, is
  what was there (`Canonical`).  With `RoundTrips` this makes a format a
  bijection between its values and its byte strings.
-/

import Tundra.Lib.Wire

namespace Wire

/-- `dec` accepts only what `enc` writes, for values that satisfy `P`. -/
def Canonical {α : Type} (enc : α → List UInt8) (dec : Decoder α) (P : α → Prop) : Prop :=
  ∀ bytes a rest, dec bytes = some (a, rest) → P a ∧ bytes = enc a ++ rest

theorem leBytes_leValue (bytes : List UInt8) : leBytes bytes.length (leValue bytes) = bytes := by
  induction bytes with
  | nil => rfl
  | cons b bytes ih =>
      have hb := b.toNat_lt
      have hlow : UInt8.ofNat (b.toNat + 256 * leValue bytes) = b := by
        apply UInt8.toNat_inj.mp
        rw [UInt8.toNat_ofNat']
        omega
      have hrest : (b.toNat + 256 * leValue bytes) / 256 = leValue bytes := by omega
      rw [List.length_cons, leBytes, leValue, hlow, hrest, ih]

theorem leValue_lt (bytes : List UInt8) : leValue bytes < 256 ^ bytes.length := by
  induction bytes with
  | nil => exact Nat.one_pos
  | cons b bytes ih =>
      have hb := b.toNat_lt
      rw [leValue, List.length_cons, pow_succ]
      omega

theorem decodeLe_canonical (width : Nat) :
    Canonical (leBytes width) (decodeLe width) (fun n => n < 256 ^ width) := by
  intro bytes n rest h
  simp only [decodeLe, Option.map_eq_some_iff, Prod.mk.injEq, Prod.exists] at h
  obtain ⟨a, rest', hread, rfl, rfl⟩ := h
  obtain ⟨rfl, rfl⟩ := takeBytes_eq_some.mp hread
  exact ⟨leValue_lt a, by rw [leBytes_leValue]⟩

/-- A wide form that is read is not below its minimum. -/
theorem decodeWide_canonical {width minimum n : Nat} {bytes rest : List UInt8}
    (h : decodeWide width minimum bytes = some (n, rest)) :
    minimum ≤ n ∧ n < 256 ^ width ∧ bytes = leBytes width n ++ rest := by
  rw [decodeWide] at h
  cases hread : decodeLe width bytes with
  | none =>
      rw [hread] at h
      cases h
  | some r =>
      obtain ⟨m, rest'⟩ := r
      rw [hread] at h
      simp only at h
      split_ifs at h with hmin
      cases h
      obtain ⟨hlt, hbytes⟩ := decodeLe_canonical width bytes n rest hread
      exact ⟨Nat.not_lt.mp hmin, hlt, hbytes⟩

theorem compactSize_canonical :
    Canonical compactSize decodeCompactSize (fun n => n < 2 ^ 64) := by
  intro bytes n rest h
  cases bytes with
  | nil => cases h
  | cons b bytes =>
      have hb := b.toNat_lt
      rw [decodeCompactSize] at h
      split_ifs at h with hsmall htwo hfour
      · cases h
        refine ⟨by omega, ?_⟩
        rw [compactSize, if_pos hsmall, UInt8.ofNat_toNat]
        rfl
      · obtain ⟨hmin, hlt, rfl⟩ := decodeWide_canonical h
        refine ⟨by omega, ?_⟩
        rw [compactSize, if_neg (by omega), if_pos (by omega), htwo]
        rfl
      · obtain ⟨hmin, hlt, rfl⟩ := decodeWide_canonical h
        refine ⟨by omega, ?_⟩
        rw [compactSize, if_neg (by omega), if_neg (by omega), if_pos (by omega), hfour]
        rfl
      · obtain ⟨hmin, hlt, rfl⟩ := decodeWide_canonical h
        refine ⟨by omega, ?_⟩
        -- The first byte is none of those below.
        have hlast : b = 0xff := by
          apply UInt8.toNat_inj.mp
          have htwo' : b.toNat ≠ 0xfd := fun heq => htwo (UInt8.toNat_inj.mp heq)
          have hfour' : b.toNat ≠ 0xfe := fun heq => hfour (UInt8.toNat_inj.mp heq)
          show b.toNat = 255
          omega
        rw [compactSize, if_neg (by omega), if_neg (by omega), if_neg (by omega), hlast]
        rfl

theorem varBytes_canonical :
    Canonical varBytes decodeVarBytes (fun bytes => bytes.length < 2 ^ 64) := by
  intro bytes a rest h
  simp only [decodeVarBytes, Option.bind_eq_some_iff, Prod.exists] at h
  obtain ⟨n, rest', hcount, htake⟩ := h
  obtain ⟨hlt, rfl⟩ := compactSize_canonical _ _ _ hcount
  obtain ⟨rfl, rfl⟩ := takeBytes_eq_some.mp htake
  exact ⟨hlt, by rw [varBytes, List.append_assoc]⟩

/-- The fields that are read have keys. -/
theorem decodeFields_canonical (fuel : Nat) :
    Canonical encodeMap (decodeFields fuel)
      (fun fields => ∀ f ∈ fields, f.1 ≠ [] ∧ f.1.length < 2 ^ 64 ∧ f.2.length < 2 ^ 64) := by
  induction fuel with
  | zero =>
      intro bytes fields rest h
      cases h
  | succ fuel ih =>
      intro bytes fields rest h
      simp only [decodeFields, Option.bind_eq_some_iff, Prod.exists] at h
      obtain ⟨key, rest', hkey, h⟩ := h
      obtain ⟨hklen, rfl⟩ := varBytes_canonical _ _ _ hkey
      split_ifs at h with hnil
      · cases h
        refine ⟨fun _ hf => (by cases hf), ?_⟩
        rw [hnil]
        rfl
      · simp only [Option.bind_eq_some_iff, Option.map_eq_some_iff, Prod.mk.injEq,
          Prod.exists] at h
        obtain ⟨value, rest'', hvalue, later, last, hlater, rfl, rfl⟩ := h
        obtain ⟨hvlen, rfl⟩ := varBytes_canonical _ _ _ hvalue
        obtain ⟨hfields, rfl⟩ := ih _ _ _ hlater
        refine ⟨List.forall_mem_cons.mpr ⟨⟨hnil, hklen, hvlen⟩, hfields⟩, ?_⟩
        simp only [encodeMap_cons, encodeField, List.append_assoc]

end Wire
