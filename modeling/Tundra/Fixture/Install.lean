/-
  Tundra.Fixture.Install

  A new installation, with a platform that tags what it encrypts and marks what
  it protects.  A first open that is cut off right after the Keystore key was
  generated leaves a store that no later open can set up.
-/

import Tundra.FirstOpen

namespace Tundra

open Relational Std Journal Checked

namespace Fixture

open Vault

/-- Sixteen bytes that no plaintext database starts with, and the key. -/
def protectedWith (key : Bytes) : Bytes := List.replicate 16 0 ++ key

def vaultPlatform : Platform where
  restored _ _ key := .ok (protectedWith key)
  openProtected content key :=
    if content = protectedWith key then .ok () else .error .storageLocked
  encrypt _ _ _ plaintext := plaintext ++ List.replicate 16 0
  decrypt _ _ _ ciphertext := some (ciphertext.take (ciphertext.length - 16))
  created := protectedWith
  upgraded _ key := .ok (protectedWith key)

theorem protectedWith_protected (key : Bytes) :
    StoreSelection.protectedOrUnknown (protectedWith key) = true := by
  have htake : (protectedWith key).take 16 = List.replicate 16 0 :=
    List.take_left' List.length_replicate
  rw [StoreSelection.protectedOrUnknown, htake]
  decide

theorem vaultPlatform_specified : vaultPlatform.Specified where
  decrypt_encrypt _ _ _ plaintext := by
    have hlength : (plaintext ++ List.replicate 16 0).length - 16 = plaintext.length := by simp
    simp only [vaultPlatform, hlength, List.take_left]
  length_encrypt _ _ _ plaintext := by simp [vaultPlatform]
  created_protected := protectedWith_protected
  created_opens key _ := by simp [vaultPlatform]
  upgraded_protected _ key content' h := by
    cases h
    exact protectedWith_protected key
  upgraded_opens _ key content' h := by
    cases h
    simp [vaultPlatform]

/-- The default store of the application. -/
def defaultStore : Store where
  directory := .root
  keyAlias := "dev.johnny9.tundra.storage.v1"

/-- A device on which the application was never opened. -/
def newDevice : Device where
  keystore := ∅
  root := ∅
  disk := { selector := none, stores := none }

def newVolume : Volume where
  durable := newDevice
  pending := []
  temp := none

theorem newVolume_quiet : newVolume.Quiet newDevice := ⟨rfl, rfl⟩

theorem newDevice_untouched : Untouched vaultPlatform defaultStore newDevice := by
  have hempty : ∀ name : String, (∅ : Table String (StoreSelection.Node Unit))[name]? = none :=
    fun name => ExtTreeMap.getElem?_empty
  refine ⟨⟨fun garbage => ?_, rfl, hempty _, Or.inl (hempty _)⟩, ExtTreeMap.getElem?_empty⟩
  have hroot : newDevice.root.updateAll (fun _ => StoreSelection.spoilEntry garbage) =
      newDevice.root := by
    refine Table.ext fun name => ?_
    rw [Table.get_updateAll]
    simp [newDevice]
  change ({ newDevice with root := newDevice.root.updateAll _ } : Device) = newDevice
  rw [hroot]

/-- What the platform draws for an open. -/
def vaultDraw : Draw where
  master := List.replicate 32 7
  key := List.replicate 32 9
  pendingNonce := List.replicate 12 1
  markNonce := List.replicate 12 2
  key_length := by decide
  pendingNonce_length := by decide
  markNonce_length := by decide

theorem free : Conditions.Free {} := ⟨rfl, rfl⟩

/-- A first open that crashes when the Keystore key is durable and its record is
    not written yet. -/
def crashedOpening : Opening := ⟨{}, vaultDraw, .crashes 2 [] []⟩

end Fixture

end Tundra
