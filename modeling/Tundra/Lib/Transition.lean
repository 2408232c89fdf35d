/-
  Tundra.Lib.Transition

  Runs of a deterministic step function.  An operation that is refused is a
  step that changes nothing, so every list of operations is a run, and a state
  is reachable when some run from the initial state ends in it.  The rules
  carry what one step preserves over a whole run, with a side condition on the
  steps where one is needed (`Along`).
-/

import Mathlib.Tactic.Common

namespace Transition

variable {σ α : Type _} (step : σ → α → σ)

/-- The state after a list of operations. -/
def run (s : σ) (ops : List α) : σ := ops.foldl step s

@[simp] theorem run_nil (s : σ) : run step s [] = s := rfl

@[simp] theorem run_cons (s : σ) (a : α) (ops : List α) :
    run step s (a :: ops) = run step (step s a) ops := rfl

theorem run_append (s : σ) (ops ops' : List α) :
    run step s (ops ++ ops') = run step (run step s ops) ops' :=
  List.foldl_append ..

theorem run_concat (s : σ) (ops : List α) (a : α) :
    run step s (ops ++ [a]) = step (run step s ops) a := by
  rw [run_append, run_cons, run_nil]

/-- What holds initially and is kept by every step holds after every run. -/
theorem run_invariant {I : σ → Prop} (hstep : ∀ s a, I s → I (step s a)) {s : σ} (h : I s)
    (ops : List α) : I (run step s ops) := by
  induction ops generalizing s with
  | nil => exact h
  | cons a ops ih => exact ih (hstep s a h)

/-- Every step of the run satisfies `P`, in the state before it. -/
def Along (P : σ → α → Prop) : σ → List α → Prop
  | _, [] => True
  | s, a :: ops => P s a ∧ Along P (step s a) ops

/-- The run rule with a side condition on the steps. -/
theorem run_along {I : σ → Prop} {P : σ → α → Prop}
    (hstep : ∀ s a, I s → P s a → I (step s a)) {s : σ} {ops : List α} (h : I s)
    (hall : Along step P s ops) : I (run step s ops) := by
  induction ops generalizing s with
  | nil => exact h
  | cons a ops ih => exact ih (hstep s a h hall.1) hall.2

/-- A side condition fails somewhere along a run exactly when it fails at one
    of its operations. -/
theorem along_iff {P : σ → α → Prop} {s : σ} {ops : List α} :
    Along step P s ops ↔ ∀ pre a post, ops = pre ++ a :: post → P (run step s pre) a := by
  induction ops generalizing s with
  | nil =>
      simp only [Along, true_iff]
      intro pre a post h
      cases pre <;> cases h
  | cons b ops ih =>
      simp only [Along, ih]
      constructor
      · rintro ⟨hb, hall⟩ pre a post h
        cases pre with
        | nil =>
            obtain ⟨rfl, rfl⟩ := List.cons.inj h
            exact hb
        | cons c pre =>
            obtain ⟨rfl, htail⟩ := List.cons.inj h
            exact hall pre a post htail
      · intro hall
        refine ⟨hall [] b ops rfl, fun pre a post h => ?_⟩
        exact hall (b :: pre) a post (by rw [h, List.cons_append])

/-- A side condition decides where a run ends: while it is met the run stays in
    `I`, the first step that breaks it leads to `J`, and nothing leaves `J`. -/
theorem run_parted {I J : σ → Prop} {P : σ → α → Prop}
    (hkeep : ∀ s a, I s → P s a → I (step s a)) (hbreak : ∀ s a, I s → ¬ P s a → J (step s a))
    (hstay : ∀ s a, J s → J (step s a)) {s : σ} (h : I s) (ops : List α) :
    Along step P s ops ∧ I (run step s ops) ∨ ¬ Along step P s ops ∧ J (run step s ops) := by
  induction ops generalizing s with
  | nil => exact Or.inl ⟨trivial, h⟩
  | cons a ops ih =>
      by_cases ha : P s a
      · rcases ih (hkeep s a h ha) with ⟨hall, hI⟩ | ⟨hnot, hJ⟩
        · exact Or.inl ⟨⟨ha, hall⟩, hI⟩
        · exact Or.inr ⟨fun hall => hnot hall.2, hJ⟩
      · exact Or.inr ⟨fun hall => ha hall.1, run_invariant step hstay (hbreak s a h ha) ops⟩

/-- A reflexive and transitive relation that relates the two sides of every
    step, in states that satisfy an invariant, relates the ends of a run. -/
theorem run_relation {I : σ → Prop} {R : σ → σ → Prop} (hrefl : ∀ s, R s s)
    (htrans : ∀ a b c, R a b → R b c → R a c) (hinv : ∀ s a, I s → I (step s a))
    (hstep : ∀ s a, I s → R s (step s a)) {s : σ} (h : I s) (ops : List α) :
    R s (run step s ops) := by
  induction ops generalizing s with
  | nil => exact hrefl s
  | cons a ops ih => exact htrans _ _ _ (hstep s a h) (ih (hinv s a h))

end Transition
