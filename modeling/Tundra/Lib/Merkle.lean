/-
  Tundra.Lib.Merkle

  Merkle trees over a list, each level made from the one below by pairing
  neighbours; the last node of an odd level is paired with itself.  Pairing
  trees in place of hashes gives the completed tree, in which all leaves are
  equally deep.  A branch climbs from a leaf: it reaches the root exactly when
  leaf and siblings are the tree's own.
-/

import Mathlib.Algebra.Order.Group.Nat
import Mathlib.Data.List.Basic
import Mathlib.Tactic.Common

namespace Merkle

variable {α β : Type _}

/-! ## Levels -/

/-- The level above. -/
def level (pair : β → β → β) : List β → List β
  | [] => []
  | [a] => [pair a a]
  | a :: b :: rest => pair a b :: level pair rest

theorem length_level (pair : β → β → β) : ∀ l, (level pair l).length = (l.length + 1) / 2
  | [] => by simp [level]
  | [_] => by simp [level]
  | a :: b :: rest => by
      rw [level, List.length_cons, length_level pair rest]
      simp only [List.length_cons]
      omega

/-- The only node of the last level. -/
def root (pair : β → β → β) (l : List β) : Option β :=
  match l with
  | [] => none
  | [a] => some a
  | a :: b :: rest => root pair (level pair (a :: b :: rest))
termination_by l.length
decreasing_by
  rw [length_level]
  simp only [List.length_cons]
  omega

/-- How many levels are above `n` nodes. -/
def depth (n : Nat) : Nat := if n ≤ 1 then 0 else depth ((n + 1) / 2) + 1

theorem level_map (f : α → β) {pair : α → α → α} {pair' : β → β → β}
    (h : ∀ a b, f (pair a b) = pair' (f a) (f b)) :
    ∀ l, level pair' (l.map f) = (level pair l).map f
  | [] => rfl
  | [a] => by
      rw [level, List.map_singleton, level, List.map_singleton, h]
  | a :: b :: rest => by
      rw [level, List.map_cons, List.map_cons, level, level_map f h rest, List.map_cons, h]

theorem root_map (f : α → β) {pair : α → α → α} {pair' : β → β → β}
    (h : ∀ a b, f (pair a b) = pair' (f a) (f b)) (l : List α) :
    root pair' (l.map f) = (root pair l).map f := by
  induction l using root.induct pair with
  | case1 =>
      rw [List.map_nil, root, root]
      rfl
  | case2 a =>
      rw [List.map_singleton, root, root]
      rfl
  | case3 a b rest ih =>
      rw [List.map_cons, List.map_cons, root, root, ← ih, ← level_map f h]
      rfl

/-! ## The completed tree -/

inductive Tree (α : Type _)
  | leaf (a : α)
  | node (left right : Tree α)

namespace Tree

/-- The leaves, in order. -/
def leaves : Tree α → List α
  | leaf a => [a]
  | node left right => left.leaves ++ right.leaves

/-- All leaves are this deep. -/
def Perfect : Nat → Tree α → Prop
  | 0, leaf _ => True
  | d + 1, node left right => left.Perfect d ∧ right.Perfect d
  | _, _ => False

/-- What the root of the tree hashes to. -/
def hash (pair : α → α → α) : Tree α → α
  | leaf a => a
  | node left right => pair (left.hash pair) (right.hash pair)

/-- The siblings on the way from a leaf to the root. -/
def siblings (pair : α → α → α) : Tree α → Nat → List α
  | leaf _, _ => []
  | node left right, pos =>
      if pos < left.leaves.length then left.siblings pair pos ++ [right.hash pair]
      else right.siblings pair (pos - left.leaves.length) ++ [left.hash pair]

/-- The pairs that are hashed on the way from a leaf. -/
def pairs (pair : α → α → α) : Tree α → List (α × α)
  | leaf _ => []
  | node left right =>
      (left.hash pair, right.hash pair) :: (left.pairs pair ++ right.pairs pair)

theorem Perfect.length_leaves {t : Tree α} {d : Nat} (h : t.Perfect d) :
    t.leaves.length = 2 ^ d := by
  induction t generalizing d with
  | leaf a =>
      cases d with
      | zero => rfl
      | succ d => cases h
  | node left right hl hr =>
      cases d with
      | zero => cases h
      | succ d =>
          rw [leaves, List.length_append, hl h.1, hr h.2, Nat.pow_succ, Nat.mul_two]

theorem Perfect.length_siblings {pair : α → α → α} {t : Tree α} {d : Nat} (h : t.Perfect d)
    (pos : Nat) : (t.siblings pair pos).length = d := by
  induction t generalizing d pos with
  | leaf a =>
      cases d with
      | zero => rfl
      | succ d => cases h
  | node left right hl hr =>
      cases d with
      | zero => cases h
      | succ d =>
          rw [siblings]
          split
          · rw [List.length_append, hl h.1, List.length_singleton]
          · rw [List.length_append, hr h.2, List.length_singleton]

end Tree

/-- The tree over a list: pairs are nodes. -/
def completed (l : List α) : Option (Tree α) := root Tree.node (l.map Tree.leaf)

/-- The root over a list is the hash of the completed tree. -/
theorem root_eq_hash (pair : α → α → α) (l : List α) :
    root pair l = (completed l).map (Tree.hash pair) := by
  have h : root pair ((l.map Tree.leaf).map (Tree.hash pair)) =
      (root Tree.node (l.map Tree.leaf)).map (Tree.hash pair) :=
    root_map (Tree.hash pair) (fun _ _ => rfl) (l.map Tree.leaf)
  rw [List.map_map] at h
  have hleaf : (l.map (Tree.hash pair ∘ Tree.leaf)) = l := List.map_id l
  rwa [hleaf] at h

theorem root_eq_some {pair : β → β → β} {l : List β} (h : l ≠ []) : ∃ a, root pair l = some a := by
  induction l using root.induct pair with
  | case1 => exact absurd rfl h
  | case2 a => exact ⟨a, by rw [root]⟩
  | case3 a b rest ih =>
      rw [root]
      exact ih (by rw [level]; exact List.cons_ne_nil _ _)

theorem perfect_level {d : Nat} : ∀ {l : List (Tree α)}, (∀ t ∈ l, t.Perfect d) →
    ∀ t ∈ level Tree.node l, t.Perfect (d + 1)
  | [], _ => fun _ h => by cases h
  | [a], h => by
      have ha := h a (List.mem_singleton_self a)
      exact List.forall_mem_singleton.mpr ⟨ha, ha⟩
  | a :: b :: rest, h => by
      obtain ⟨ha, hrest⟩ := List.forall_mem_cons.mp h
      obtain ⟨hb, hrest⟩ := List.forall_mem_cons.mp hrest
      exact List.forall_mem_cons.mpr ⟨⟨ha, hb⟩, perfect_level hrest⟩

theorem perfect_root {l : List (Tree α)} {d : Nat} (h : ∀ t ∈ l, t.Perfect d) {t : Tree α}
    (hroot : root Tree.node l = some t) : t.Perfect (d + depth l.length) := by
  induction l using root.induct Tree.node generalizing d with
  | case1 =>
      rw [root] at hroot
      cases hroot
  | case2 a =>
      rw [root] at hroot
      injection hroot with hroot
      have ha := h a (List.mem_singleton_self a)
      rwa [List.length_singleton, depth, if_pos (Nat.le_refl 1), Nat.add_zero, ← hroot]
  | case3 a b rest ih =>
      rw [root] at hroot
      have hup := ih (perfect_level h) hroot
      rw [length_level] at hup
      rw [depth, if_neg (by simp), ← Nat.add_assoc, Nat.add_right_comm]
      exact hup

theorem perfect_completed {l : List α} {t : Tree α} (h : completed l = some t) :
    t.Perfect (depth l.length) := by
  have hleaf : ∀ t ∈ l.map Tree.leaf, t.Perfect 0 := by
    intro t ht
    obtain ⟨a, -, rfl⟩ := List.mem_map.mp ht
    exact trivial
  have hperfect := perfect_root hleaf h
  rwa [Nat.zero_add, List.length_map] at hperfect

theorem leaves_level : ∀ l : List (Tree α),
    l.flatMap Tree.leaves <+: (level Tree.node l).flatMap Tree.leaves
  | [] => List.prefix_rfl
  | [a] => by
      rw [level, List.flatMap_singleton, List.flatMap_singleton]
      exact List.prefix_append ..
  | a :: b :: rest => by
      rw [level, List.flatMap_cons, List.flatMap_cons, List.flatMap_cons, Tree.leaves,
        ← List.append_assoc]
      exact (List.prefix_append_right_inj _).mpr (leaves_level rest)

theorem leaves_root {l : List (Tree α)} {t : Tree α} (h : root Tree.node l = some t) :
    l.flatMap Tree.leaves <+: t.leaves := by
  induction l using root.induct Tree.node with
  | case1 => exact List.nil_prefix
  | case2 a =>
      rw [root] at h
      injection h with h
      rw [List.flatMap_singleton]
      exact h ▸ List.prefix_rfl
  | case3 a b rest ih =>
      rw [root] at h
      exact (leaves_level _).trans (ih h)

/-- The completed tree has the list's leaves first. -/
theorem leaves_completed {l : List α} {t : Tree α} (h : completed l = some t) :
    l <+: t.leaves := by
  have hleaves := leaves_root h
  have hsame : (l.map Tree.leaf).flatMap Tree.leaves = l := by
    rw [List.flatMap_map]
    exact List.flatMap_singleton' l
  rwa [hsame] at hleaves

/-! ## Branches -/

/-- Climb a branch from a node: the node it reaches, and what is left of the
    position. -/
def climb (pair : α → α → α) (a : α) (pos : Nat) : List α → α × Nat
  | [] => (a, pos)
  | sibling :: rest =>
      climb pair (if pos % 2 = 0 then pair a sibling else pair sibling a) (pos / 2) rest

/-- The pairs that a climb hashes. -/
def climbed (pair : α → α → α) (a : α) (pos : Nat) : List α → List (α × α)
  | [] => []
  | sibling :: rest =>
      (if pos % 2 = 0 then (a, sibling) else (sibling, a)) ::
        climbed pair (if pos % 2 = 0 then pair a sibling else pair sibling a) (pos / 2) rest

section
variable {pair : α → α → α}

theorem climb_append (a : α) (pos : Nat) (l l' : List α) :
    climb pair a pos (l ++ l') = climb pair (climb pair a pos l).1 (climb pair a pos l).2 l' := by
  induction l generalizing a pos with
  | nil => rfl
  | cons sibling rest ih => exact ih _ _

theorem climbed_append (a : α) (pos : Nat) (l l' : List α) :
    climbed pair a pos (l ++ l') = climbed pair a pos l ++
      climbed pair (climb pair a pos l).1 (climb pair a pos l).2 l' := by
  induction l generalizing a pos with
  | nil => rfl
  | cons sibling rest ih =>
      rw [List.cons_append, climbed, climbed, ih, List.cons_append]
      rfl

theorem climb_pos (a : α) (pos : Nat) (l : List α) :
    (climb pair a pos l).2 = pos / 2 ^ l.length := by
  induction l generalizing a pos with
  | nil => exact (Nat.div_one pos).symm
  | cons sibling rest ih =>
      rw [climb, ih, Nat.div_div_eq_div_mul, List.length_cons, Nat.pow_succ']

/-- The siblings of a leaf lead from it to the root; what the position has
    above the tree is left. -/
theorem climb_siblings {t : Tree α} {d : Nat} (h : t.Perfect d) {p : Nat} {a : α}
    (ha : t.leaves[p]? = some a) (q : Nat) :
    climb pair a (p + 2 ^ d * q) (t.siblings pair p) = (t.hash pair, q) := by
  induction t generalizing d p q with
  | leaf b =>
      cases d with
      | succ d => cases h
      | zero =>
          have hp : p = 0 := by
            by_contra hne
            rw [Tree.leaves, List.getElem?_eq_none (by simp; omega)] at ha
            cases ha
          subst hp
          cases ha
          rw [Tree.siblings, climb, Tree.hash, Nat.zero_add, Nat.pow_zero, Nat.one_mul]
  | node left right hl hr =>
      cases d with
      | zero => cases h
      | succ d =>
          have hhalf := h.1.length_leaves
          rw [Tree.leaves] at ha
          rw [Tree.siblings, hhalf]
          by_cases hp : p < 2 ^ d
          · rw [List.getElem?_append_left (by omega)] at ha
            have hpos : p + 2 ^ (d + 1) * q = p + 2 ^ d * (2 * q) := by
              rw [Nat.pow_succ, Nat.mul_assoc]
            rw [if_pos hp, climb_append, hpos, hl h.1 ha (2 * q), climb,
              if_pos (Nat.mul_mod_right 2 q), Nat.mul_div_cancel_left q (Nat.zero_lt_two)]
            rfl
          · rw [List.getElem?_append_right (by omega), hhalf] at ha
            have hpos : p + 2 ^ (d + 1) * q = p - 2 ^ d + 2 ^ d * (2 * q + 1) := by
              rw [Nat.pow_succ, Nat.mul_add, Nat.mul_assoc, Nat.mul_one]
              omega
            have hodd : ¬ (2 * q + 1) % 2 = 0 := by omega
            have hup : (2 * q + 1) / 2 = q := by omega
            rw [if_neg hp, climb_append, hpos, hr h.2 ha (2 * q + 1), climb, if_neg hodd, hup]
            rfl

/-- A climb as long as the tree is deep that reaches the root started at a leaf
    of the tree and met the tree's siblings, unless two different pairs hash
    alike. -/
theorem siblings_of_climb {t : Tree α} {d : Nat} (h : t.Perfect d) {a : α} {pos q : Nat}
    {l : List α} (hlength : l.length = d) (hclimb : climb pair a pos l = (t.hash pair, q))
    (hinj : ∀ x ∈ climbed pair a pos l, ∀ y ∈ t.pairs pair,
      pair x.1 x.2 = pair y.1 y.2 → x = y) :
    ∃ p, pos = p + 2 ^ d * q ∧ t.leaves[p]? = some a ∧ l = t.siblings pair p := by
  induction t generalizing d pos q l with
  | leaf b =>
      cases d with
      | succ d => cases h
      | zero =>
          rw [List.length_eq_zero_iff.mp hlength, climb] at hclimb
          injection hclimb with ha hpos
          refine ⟨0, by omega, ?_, List.length_eq_zero_iff.mp hlength⟩
          rw [ha]
          rfl
  | node left right hl hr =>
      cases d with
      | zero => cases h
      | succ d =>
          -- The last sibling meets the top pair of the tree.
          obtain ⟨init, sibling, rfl⟩ := (List.eq_nil_or_concat' l).resolve_left (by
            rintro rfl
            cases hlength)
          have hinit : init.length = d := by
            rw [List.length_append, List.length_singleton] at hlength
            omega
          have hhalf := h.1.length_leaves
          rcases hreached : climb pair a pos init with ⟨b, pos'⟩
          rw [climb_append, hreached, climb, climb] at hclimb
          injection hclimb with htop hq
          rw [climbed_append, hreached] at hinj
          have htopInj := hinj _ (List.mem_append_right _ (List.mem_cons_self ..)) _
            (List.mem_cons_self ..)
          have hinjLeft : ∀ x ∈ climbed pair a pos init, ∀ y ∈ left.pairs pair,
              pair x.1 x.2 = pair y.1 y.2 → x = y := fun x hx y hy =>
            hinj x (List.mem_append_left _ hx) y
              (List.mem_cons_of_mem _ (List.mem_append_left _ hy))
          have hinjRight : ∀ x ∈ climbed pair a pos init, ∀ y ∈ right.pairs pair,
              pair x.1 x.2 = pair y.1 y.2 → x = y := fun x hx y hy =>
            hinj x (List.mem_append_left _ hx) y
              (List.mem_cons_of_mem _ (List.mem_append_right _ hy))
          by_cases heven : pos' % 2 = 0
          · rw [if_pos heven] at htop
            simp only [heven, if_true] at htopInj
            obtain ⟨hb, hs⟩ := Prod.mk.inj (htopInj htop)
            rw [hb] at hreached
            obtain ⟨p, hpos, ha, hsiblings⟩ := hl h.1 hinit hreached hinjLeft
            have hp : p < 2 ^ d := by
              rw [← hhalf]
              exact (List.getElem?_eq_some_iff.mp ha).1
            refine ⟨p, ?_, ?_, ?_⟩
            · have hsplit : pos' = 2 * q := by omega
              rw [hpos, hsplit, Nat.pow_succ, Nat.mul_assoc]
            · rw [Tree.leaves, List.getElem?_append_left (by omega), ha]
            · rw [Tree.siblings, if_pos (by omega), ← hsiblings, hs]
          · rw [if_neg heven] at htop
            simp only [heven, if_false] at htopInj
            obtain ⟨hs, hb⟩ := Prod.mk.inj (htopInj htop)
            rw [hb] at hreached
            obtain ⟨p, hpos, ha, hsiblings⟩ := hr h.2 hinit hreached hinjRight
            refine ⟨2 ^ d + p, ?_, ?_, ?_⟩
            · have hsplit : pos' = 2 * q + 1 := by omega
              rw [hpos, hsplit, Nat.pow_succ, Nat.mul_add, Nat.mul_assoc, Nat.mul_one]
              omega
            · rw [Tree.leaves, List.getElem?_append_right (by omega), hhalf,
                Nat.add_sub_cancel_left, ha]
            · rw [Tree.siblings, if_neg (by omega), hhalf, Nat.add_sub_cancel_left,
                ← hsiblings, hs]

end

end Merkle
