/-
  Tundra.Fixture.Keychain

  The fixture's wallet counts the addresses it reveals, and keeps its
  descriptors.
-/

import Tundra.Fixture.Chain
import Tundra.Revealed

namespace Tundra
namespace Fixture

open Relational

/-- The parts of a wallet that give its addresses. -/
def SameKeys (w w' : TestWallet) : Prop :=
  w'.network = w.network ∧ w'.external = w.external ∧ w'.internal = w.internal

theorem SameKeys.addresses {w w' : TestWallet} (h : SameKeys w w') :
    w'.peekAddress = w.peekAddress := by
  obtain ⟨hnetwork, hexternal, hinternal⟩ := h
  funext k index
  cases k <;>
    simp only [TestWallet.peekAddress, TestWallet.peekScript, TestWallet.descriptor, hnetwork,
      hexternal, hinternal]

theorem sameKeys_revealNext (w : TestWallet) (k : KeychainKind) :
    SameKeys w (w.revealNext k).2 := by
  cases k <;> exact ⟨rfl, rfl, rfl⟩

theorem SameKeys.trans {w₁ w₂ w₃ : TestWallet} (h : SameKeys w₁ w₂) (h' : SameKeys w₂ w₃) :
    SameKeys w₁ w₃ :=
  ⟨h'.1.trans h.1, h'.2.1.trans h.2.1, h'.2.2.trans h.2.2⟩

theorem nextIndex_eq (w : TestWallet) (k : KeychainKind) :
    w.nextIndex k = nextIndex (w.lastRevealed k) := by
  unfold TestWallet.nextIndex
  cases w.lastRevealed k <;> rfl

theorem lastRevealed_revealNext (w : TestWallet) (k k' : KeychainKind) :
    (w.revealNext k).2.lastRevealed k' =
      if k' = k then some (nextIndex (w.lastRevealed k)) else w.lastRevealed k' := by
  rw [← nextIndex_eq]
  cases k <;> cases k' <;> rfl

/-- One more revealed address takes no index back. -/
theorem atLeast_revealNext (w : TestWallet) (k k' : KeychainKind) :
    AtLeast (w.lastRevealed k') ((w.revealNext k).2.lastRevealed k') := by
  rw [lastRevealed_revealNext]
  split_ifs with h
  · rw [h]
    exact atLeast_nextIndex _
  · exact AtLeast.refl _

theorem revealAll_keeps (w : TestWallet) (keychains : List KeychainKind) :
    SameKeys w (crates.revealAll w keychains) := by
  induction keychains generalizing w with
  | nil => exact ⟨rfl, rfl, rfl⟩
  | cons k keychains ih => exact (sameKeys_revealNext w k).trans (ih (w.revealNext k).2)

theorem revealTo_keeps (k : KeychainKind) (index fuel : Nat) (w : TestWallet) :
    SameKeys w (w.revealTo k index fuel) ∧
    ∀ k', AtLeast (w.lastRevealed k') ((w.revealTo k index fuel).lastRevealed k') := by
  induction fuel generalizing w with
  | zero => exact ⟨⟨rfl, rfl, rfl⟩, fun _ => AtLeast.refl _⟩
  | succ fuel ih =>
      rw [TestWallet.revealTo]
      split_ifs
      · obtain ⟨hkeys, hindex⟩ := ih (w.revealNext k).2
        exact ⟨(sameKeys_revealNext w k).trans hkeys,
          fun k' => (atLeast_revealNext w k k').trans (hindex k')⟩
      · exact ⟨⟨rfl, rfl, rfl⟩, fun _ => AtLeast.refl _⟩

theorem revealActive_keeps (w : TestWallet) (active : List (KeychainKind × Nat)) :
    SameKeys w (w.revealActive active) ∧
    ∀ k, AtLeast (w.lastRevealed k) ((w.revealActive active).lastRevealed k) := by
  induction active generalizing w with
  | nil => exact ⟨⟨rfl, rfl, rfl⟩, fun _ => AtLeast.refl _⟩
  | cons k active ih =>
      obtain ⟨hkeys, hindex⟩ := revealTo_keeps k.1 k.2 (k.2 + 1) w
      obtain ⟨hkeys', hindex'⟩ := ih (w.revealTo k.1 k.2 (k.2 + 1))
      exact ⟨hkeys.trans hkeys', fun k' => (hindex k').trans (hindex' k')⟩

theorem applyUpdate_keeps {w w' : TestWallet} {scan : ChainScan}
    (h : env.applyUpdate w scan = some w') :
    SameKeys w w' ∧ ∀ k, AtLeast (w.lastRevealed k) (w'.lastRevealed k) := by
  have hw' : w.applyUpdate computeTxid scan = some w' := h
  rw [TestWallet.applyUpdate] at hw'
  split_ifs at hw'
  cases hw'
  obtain ⟨hkeys, hindex⟩ := revealActive_keeps w scan.update.lastActiveIndices
  refine ⟨hkeys, fun k => ?_⟩
  have hk := hindex k
  cases k <;> exact hk

theorem loadWallet_eq {n : Network} {state w : TestWallet} (h : env.loadWallet n state = some w) :
    w = state := by
  have hload : (if state.network = n then some state else none) = some w := h
  split_ifs at hload
  exact (Option.some.inj hload).symm

-- the record of laws is deeper than the default limit
set_option maxRecDepth 2000 in
/-- The fixture's environment, with the laws of its keychains. -/
def keychainEnv : KeychainEnv TestWallet TestWallet where
  toChainEnv := chainEnv
  addresses := TestWallet.peekAddress
  peekAddress_load := fun _ _ _ h => by rw [loadWallet_eq h]; rfl
  savedState_addresses := fun _ _ _ keychains h => by
    cases loadWallet_eq h
    exact (revealAll_keeps _ keychains).addresses
  replaceBlocks_addresses := fun state scan => by
    have hkeys : SameKeys state { state with chain := scan.blocks } := ⟨rfl, rfl, rfl⟩
    exact hkeys.addresses
  applyUpdate_addresses := fun _ _ _ _ _ h happly => by
    cases loadWallet_eq h
    exact (applyUpdate_keeps happly).1.addresses
  derivationIndex_load := fun _ _ _ h => by rw [loadWallet_eq h]; rfl
  revealNextAddress_index := fun w k => ⟨nextIndex_eq w k, lastRevealed_revealNext w k⟩
  revealNextAddress_address := fun _ _ => rfl
  savedState_index := fun _ _ _ _ _ => rfl
  applyUpdate_index := fun _ _ _ _ _ h happly k => by
    cases loadWallet_eq h
    exact (applyUpdate_keeps happly).2 k

end Fixture
end Tundra
