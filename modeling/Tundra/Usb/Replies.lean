/-
  Tundra.Usb.Replies

  The replies that reach the command interpreter.  `preflight` reads a reply as
  data and a status; `Shape` says, phase by phase, which byte strings it lets
  through.
-/

import Tundra.Usb.Protocol

namespace Tundra
namespace Usb
namespace Protocol

open Checked

/-! ## Status words -/

def success : Bytes := [0x90, 0x00]

/-- The device has more to ask before the command is done. -/
def interrupted : Bytes := [0xe0, 0x00]

/-- The path of an account is unusual. -/
def notFound : Bytes := [0x6a, 0x82]

section Shapes

variable {Interpreter Policy : Type} (bhwi : Bhwi Interpreter Policy)

/-- A field of the application's metadata: its length and its bytes. -/
def fieldBytes (value : Bytes) : Bytes := UInt8.ofNat value.length :: value

/-- The metadata of the application: its name, its version and its flags. -/
def infoBytes (version flags : Bytes) : Bytes :=
  1 :: fieldBytes appName ++ fieldBytes version ++ fieldBytes flags

/-- The data of a registration: the policy's id and an HMAC. -/
def RegistrationData (policy : LedgerWalletPolicy Policy) (data : Bytes) : Prop :=
  ∃ id hmac, bhwi.policyId policy = some id ∧ hmac.length = 32 ∧ data = id.bytes ++ hmac

/-- What a reply looks like in a phase. -/
def Shape (policy : LedgerWalletPolicy Policy) (intent : Option Intent) (reply : Bytes) :
    Phase → Prop
  | .info => ∃ version flags, version ≠ [] ∧ version.length ≤ 32 ∧
      version.all isVersionByte = true ∧ flags.length ≤ 32 ∧
      reply = infoBytes version flags ++ success
  | .fingerprint => ∃ data, data.length = 4 ∧ reply = data ++ success
  | .account => ∃ data, data.length ≤ 112 ∧ reply = data ++ success ∨ reply = data ++ notFound
  | .action => ∃ data, (intent = some .register → RegistrationData bhwi policy data) ∧
      reply = data ++ success ∨ reply = data ++ interrupted

end Shapes

/-! ## The metadata -/

theorem field_eq_ok {rest value after : Bytes} :
    field rest = .ok (value, after) ↔ value.length ≤ 32 ∧ rest = fieldBytes value ++ after := by
  simp only [field, bind_eq_ok, okOr_eq_ok, require_eq_ok, exists_unit, Except.ok.injEq,
    Prod.mk.injEq]
  constructor
  · rintro ⟨size, hsize, ⟨hsmall, hfits⟩, rfl, rfl⟩
    obtain ⟨tail, rfl⟩ := List.head?_eq_some_iff.mp hsize
    rw [List.tail_cons] at hfits ⊢
    have hlength : (tail.take size.toNat).length = size.toNat := by
      rw [List.length_take]
      omega
    rw [hlength, fieldBytes, hlength, UInt8.ofNat_toNat, List.cons_append, List.take_append_drop]
    exact ⟨hsmall, rfl⟩
  · rintro ⟨hsmall, rfl⟩
    have hsize : (UInt8.ofNat value.length).toNat = value.length :=
      UInt8.toNat_ofNat_of_lt' (show value.length < 256 by omega)
    refine ⟨UInt8.ofNat value.length, rfl, ?_, ?_, ?_⟩
    · rw [hsize]
      refine ⟨hsmall, ?_⟩
      show value.length ≤ (value ++ after).length
      simp
    · rw [hsize]
      exact List.take_left
    · rw [hsize]
      exact List.drop_left

theorem preflightInfo_eq_ok {data : Bytes} : preflightInfo data = .ok () ↔
    ∃ version flags, version ≠ [] ∧ version.length ≤ 32 ∧ version.all isVersionByte = true ∧
      flags.length ≤ 32 ∧ data = infoBytes version flags := by
  simp only [preflightInfo, bind_eq_ok, require_eq_ok, exists_unit, Prod.exists, field_eq_ok]
  constructor
  · rintro ⟨hone, name, rest, ⟨-, hname⟩, version, rest', ⟨hversion, rfl⟩, flags, rest'',
      ⟨hflags, rfl⟩, rfl, rfl, hne, hall⟩
    obtain ⟨tail, rfl⟩ := List.head?_eq_some_iff.mp hone
    rw [List.tail_cons] at hname
    refine ⟨version, flags, hne, hversion, hall, hflags, ?_⟩
    rw [hname, infoBytes, List.append_nil, List.cons_append, List.cons_append, List.append_assoc]
  · rintro ⟨version, flags, hne, hversion, hall, hflags, rfl⟩
    refine ⟨rfl, appName, fieldBytes version ++ fieldBytes flags, ⟨by decide, ?_⟩, version,
      fieldBytes flags, ⟨hversion, rfl⟩, flags, [], ⟨hflags, ?_⟩, rfl, rfl, hne, hall⟩
    · rw [infoBytes, List.cons_append, List.cons_append, List.tail_cons, List.append_assoc]
    · rw [List.append_nil]

/-! ## Replies -/

section Replies

variable {Interpreter Policy : Type} {bhwi : Bhwi Interpreter Policy}
  {policy : LedgerWalletPolicy Policy} {intent : Option Intent} {phase : Phase} {reply : Bytes}

theorem preflight_eq_ok : preflight bhwi policy intent phase reply = .ok () ↔
    ∃ data status, status.length = 2 ∧ reply = data ++ status ∧
      (status = success ∧ preflightData bhwi policy intent data phase = .ok () ∨
        status ≠ success ∧ preflightStatus phase status = .ok ()) := by
  have hcase : ∀ data status : Bytes,
      (if status = [0x90, 0x00] then preflightData bhwi policy intent data phase
        else preflightStatus phase status) = .ok () ↔
      (status = success ∧ preflightData bhwi policy intent data phase = .ok () ∨
        status ≠ success ∧ preflightStatus phase status = .ok ()) := by
    intro data status
    show (if status = success then _ else _) = _ ↔ _
    by_cases h : status = success
    · rw [if_pos h]
      simp [h]
    · rw [if_neg h]
      simp [h]
  simp only [preflight, bind_eq_ok, require_eq_ok, exists_unit, hcase]
  constructor
  · rintro ⟨hlong, h⟩
    refine ⟨_, _, ?_, (List.take_append_drop (reply.length - 2) reply).symm, h⟩
    rw [List.length_drop]
    omega
  · rintro ⟨data, status, hstatus, rfl, h⟩
    have hlength : (data ++ status).length - 2 = data.length := by
      rw [List.length_append, hstatus]
      omega
    rw [hlength, List.take_left, List.drop_left]
    refine ⟨?_, h⟩
    rw [List.length_append]
    omega

theorem preflightStatus_eq_ok {status : Bytes} : preflightStatus phase status = .ok () ↔
    phase = .action ∧ status = interrupted ∨ phase = .account ∧ status = notFound := by
  rw [preflightStatus]
  split_ifs with hcancelled
  · simp only [false_iff]
    rintro (⟨-, rfl⟩ | ⟨-, rfl⟩)
    · exact absurd hcancelled (by decide)
    · exact absurd hcancelled (by decide)
  · exact require_eq_ok

theorem preflightRegistration_eq_ok {data : Bytes} :
    preflightData bhwi policy (some .register) data .action = .ok () ↔
      RegistrationData bhwi policy data := by
  simp only [preflightData, if_true, bind_eq_ok, require_eq_ok, exists_unit, okOr_eq_ok]
  constructor
  · rintro ⟨hlength, id, hid, hsame⟩
    refine ⟨id, data.drop 32, hid, ?_, ?_⟩
    · rw [List.length_drop, hlength]
    · rw [← hsame, List.take_append_drop]
  · rintro ⟨id, hmac, hid, hlength, rfl⟩
    refine ⟨?_, id, hid, ?_⟩
    · rw [List.length_append, id.size, hlength]
    · rw [← id.size, List.take_left]

/-- A reply reaches the interpreter exactly when it has the shape of its phase:
    the whole metadata of the application with its name, four bytes, an account
    or a request to show it, and for a registration the policy's own id. -/
theorem preflight_iff :
    preflight bhwi policy intent phase reply = .ok () ↔ Shape bhwi policy intent reply phase := by
  rw [preflight_eq_ok]
  simp only [preflightStatus_eq_ok]
  cases phase with
  | info =>
      simp only [preflightData, preflightInfo_eq_ok, Shape, reduceCtorEq, false_and, or_self,
        and_false, or_false]
      constructor
      · rintro ⟨data, status, -, rfl, rfl, version, flags, h₁, h₂, h₃, h₄, rfl⟩
        exact ⟨version, flags, h₁, h₂, h₃, h₄, rfl⟩
      · rintro ⟨version, flags, h₁, h₂, h₃, h₄, rfl⟩
        exact ⟨_, success, rfl, rfl, rfl, version, flags, h₁, h₂, h₃, h₄, rfl⟩
  | fingerprint =>
      simp only [preflightData, require_eq_ok, Shape, reduceCtorEq, false_and, or_self, and_false,
        or_false]
      constructor
      · rintro ⟨data, status, -, rfl, rfl, h⟩
        exact ⟨data, h, rfl⟩
      · rintro ⟨data, h, rfl⟩
        exact ⟨data, success, rfl, rfl, rfl, h⟩
  | account =>
      simp only [preflightData, require_eq_ok, Shape, reduceCtorEq, false_and, false_or, true_and]
      constructor
      · rintro ⟨data, status, -, rfl, ⟨rfl, h⟩ | ⟨-, rfl⟩⟩
        · exact ⟨data, .inl ⟨h, rfl⟩⟩
        · exact ⟨data, .inr rfl⟩
      · rintro ⟨data, ⟨h, rfl⟩ | rfl⟩
        · exact ⟨data, success, rfl, rfl, .inl ⟨rfl, h⟩⟩
        · exact ⟨data, notFound, rfl, rfl, .inr ⟨by decide, rfl⟩⟩
  | action =>
      have hdata : ∀ data, preflightData bhwi policy intent data .action = .ok () ↔
          (intent = some .register → RegistrationData bhwi policy data) := by
        intro data
        by_cases hregister : intent = some .register
        · rw [hregister, preflightRegistration_eq_ok]
          simp
        · simp [preflightData, hregister]
      simp only [hdata, Shape, reduceCtorEq, false_and, or_false, true_and]
      constructor
      · rintro ⟨data, status, -, rfl, ⟨rfl, h⟩ | ⟨-, rfl⟩⟩
        · exact ⟨data, .inl ⟨h, rfl⟩⟩
        · exact ⟨data, .inr rfl⟩
      · rintro ⟨data, ⟨h, rfl⟩ | rfl⟩
        · exact ⟨data, success, rfl, rfl, .inl ⟨rfl, h⟩⟩
        · exact ⟨data, interrupted, rfl, rfl, .inr ⟨by decide, rfl⟩⟩

end Replies

end Protocol
end Usb
end Tundra
