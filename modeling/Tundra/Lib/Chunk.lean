/-
  Tundra.Lib.Chunk

  A list cut into chunks of one length.  Only the last chunk may be shorter;
  padded to the length, the chunks spell the list and less than a chunk of
  padding.
-/

import Mathlib.Algebra.Order.Group.Nat
import Mathlib.Data.List.Basic
import Mathlib.Tactic.Common

namespace Chunk

variable {α : Type _}

/-- `chunks`: what is left after the last whole chunk is a chunk too. -/
def chunks (n : Nat) (l : List α) : List (List α) :=
  if _ : n = 0 ∨ l = [] then []
  else l.take n :: chunks n (l.drop n)
termination_by l.length
decreasing_by
  rename_i h
  have hpos := List.length_pos_iff.mpr (not_or.mp h).2
  have hn := (not_or.mp h).1
  rw [List.length_drop]
  omega

theorem chunks_nil (n : Nat) : chunks n ([] : List α) = [] := by
  rw [chunks, dif_pos (Or.inr rfl)]

theorem chunks_cons {n : Nat} (hn : 0 < n) {l : List α} (hl : l ≠ []) :
    chunks n l = l.take n :: chunks n (l.drop n) := by
  rw [chunks, dif_neg (by simp [hl]; omega)]

/-- A chunk with padding up to the length. -/
def pad (n : Nat) (a : α) (chunk : List α) : List α :=
  chunk ++ List.replicate (n - chunk.length) a

/-- Chunks of one length. -/
def Whole (n : Nat) (chunks : List (List α)) : Prop := ∀ chunk ∈ chunks, chunk.length = n

theorem Whole.length_flatten {n : Nat} {chunks : List (List α)} (h : Whole n chunks) :
    chunks.flatten.length = n * chunks.length := by
  induction chunks with
  | nil => rfl
  | cons chunk chunks ih =>
      obtain ⟨hchunk, hrest⟩ := List.forall_mem_cons.mp h
      rw [List.flatten_cons, List.length_append, hchunk, ih hrest, List.length_cons, Nat.mul_succ,
        Nat.add_comm]

theorem Whole.append {n : Nat} {chunks chunks' : List (List α)} :
    Whole n (chunks ++ chunks') ↔ Whole n chunks ∧ Whole n chunks' :=
  List.forall_mem_append

theorem whole_pad {n : Nat} (hn : 0 < n) (a : α) (l : List α) :
    Whole n ((chunks n l).map (pad n a)) := by
  induction hlength : l.length using Nat.strong_induction_on generalizing l with
  | _ length ih =>
      by_cases hl : l = []
      · rw [hl, chunks_nil]
        exact fun _ hc => by cases hc
      · have hpos := List.length_pos_iff.mpr hl
        rw [chunks_cons hn hl, List.map_cons]
        refine List.forall_mem_cons.mpr ⟨?_, ih _ ?_ _ rfl⟩
        · rw [pad, List.length_append, List.length_replicate, List.length_take]
          omega
        · rw [List.length_drop]
          omega

/-- The padded chunks spell the list and less than a chunk of padding. -/
theorem flatten_pad {n : Nat} (hn : 0 < n) (a : α) (l : List α) :
    ∃ k, ((chunks n l).map (pad n a)).flatten = l ++ List.replicate k a ∧ k < n := by
  induction hlength : l.length using Nat.strong_induction_on generalizing l with
  | _ length ih =>
      by_cases hl : l = []
      · exact ⟨0, by rw [hl, chunks_nil]; rfl, hn⟩
      · have hpos := List.length_pos_iff.mpr hl
        rw [chunks_cons hn hl, List.map_cons, List.flatten_cons]
        by_cases hlast : l.length ≤ n
        · -- The last chunk is the whole list, and it carries the padding.
          refine ⟨n - l.length, ?_, by omega⟩
          rw [List.take_of_length_le hlast, List.drop_of_length_le hlast, chunks_nil, pad]
          simp
        · obtain ⟨k, hk, hlt⟩ := ih (l.drop n).length (by rw [List.length_drop]; omega) _ rfl
          refine ⟨k, ?_, hlt⟩
          have hfull : (l.take n).length = n := by
            rw [List.length_take]
            omega
          rw [hk, pad, hfull, Nat.sub_self, List.replicate_zero, List.append_nil,
            ← List.append_assoc, List.take_append_drop]

end Chunk
