/-
  Tundra.Lib.Checked

  Straight-line fallible code in `Except`: guards (`require`), options turned
  into results (`okOr`), and the inversion lemmas that take a successful run
  apart one bind at a time.  A caller proves facts about `f x = .ok y` by
  `simp only [f, Checked.bind_eq_ok, ...]` and never splits an error branch.
-/

import Mathlib.Data.List.Forall2
import Mathlib.Tactic.Common

namespace Checked

variable {ε α β : Type _}

/-- Continue only when `c` holds; fail with `e` otherwise. -/
def require (c : Prop) [Decidable c] (e : ε) : Except ε Unit :=
  if c then .ok () else .error e

/-- The value of an option, or the error `e`. -/
def okOr (o : Option α) (e : ε) : Except ε α :=
  match o with
  | some a => .ok a
  | none => .error e

/-- Forget which error was reported. -/
def toOption : Except ε α → Option α
  | .ok a => some a
  | .error _ => none

/-- Report `e` in place of any error. -/
def orError (r : Except ε α) (e : ε) : Except ε α :=
  match r with
  | .ok a => .ok a
  | .error _ => .error e

@[simp] theorem require_eq_ok {c : Prop} [Decidable c] {e : ε} {u : Unit} :
    require c e = .ok u ↔ c := by
  unfold require
  by_cases hc : c <;> simp [hc]

theorem require_of {c : Prop} [Decidable c] {e : ε} (h : c) : require c e = .ok () := by
  simp [h]

theorem require_of_not {c : Prop} [Decidable c] {e : ε} (h : ¬ c) :
    require c e = .error e := by
  simp [require, h]

@[simp] theorem okOr_eq_ok {o : Option α} {e : ε} {a : α} :
    okOr o e = .ok a ↔ o = some a := by
  cases o <;> simp [okOr]

@[simp] theorem okOr_some (a : α) (e : ε) : okOr (some a) e = .ok a := rfl

@[simp] theorem okOr_none (e : ε) : okOr (none : Option α) e = .error e := rfl

@[simp] theorem orError_eq_ok {r : Except ε α} {e : ε} {a : α} :
    orError r e = .ok a ↔ r = .ok a := by
  cases r <;> simp [orError]

@[simp] theorem bind_eq_ok {x : Except ε α} {f : α → Except ε β} {b : β} :
    x >>= f = .ok b ↔ ∃ a, x = .ok a ∧ f a = .ok b := by
  cases x with
  | error e => simp [bind, Except.bind]
  | ok a => simp [bind, Except.bind]

/-- The result of a check carries no information. -/
@[simp] theorem exists_unit {p : Unit → Prop} : (∃ u, p u) ↔ p () :=
  ⟨fun ⟨_, h⟩ => h, fun h => ⟨(), h⟩⟩

@[simp] theorem ok_bind (a : α) (f : α → Except ε β) : (Except.ok a >>= f) = f a := rfl

@[simp] theorem error_bind (e : ε) (f : α → Except ε β) :
    ((Except.error e : Except ε α) >>= f) = .error e := rfl

@[simp] theorem pure_eq_ok {a b : α} : (pure a : Except ε α) = .ok b ↔ a = b := by
  simp [pure, Except.pure]

/-- A result that is not `ok` is some error. -/
theorem exists_error_of_ne_ok {x : Except ε α} (h : ∀ a, x ≠ .ok a) : ∃ e, x = .error e := by
  cases x with
  | error e => exact ⟨e, rfl⟩
  | ok a => exact absurd rfl (h a)

/-- A computed test of a result, as a statement about it. -/
theorem exists_ok_of_any {x : Except ε α} {p : α → Bool} (h : (toOption x).any p = true) :
    ∃ a, x = .ok a ∧ p a = true := by
  cases x with
  | error e => cases h
  | ok a => exact ⟨a, rfl, h⟩

/-! ## Loops -/

/-- The loop rule for a fallible fold: what every successful round preserves
    holds after a successful fold. -/
theorem foldlM_ok_inv {f : β → α → Except ε β} {l : List α} (P : β → Prop)
    (hstep : ∀ b a b', a ∈ l → P b → f b a = .ok b' → P b') :
    ∀ {b b'}, P b → l.foldlM f b = .ok b' → P b' := by
  induction l with
  | nil =>
      intro b b' hb h
      simp only [List.foldlM_nil, pure_eq_ok] at h
      exact h ▸ hb
  | cons a l ih =>
      intro b b' hb h
      simp only [List.foldlM_cons, bind_eq_ok] at h
      obtain ⟨b₁, h₁, h₂⟩ := h
      exact ih (fun c x c' hx => hstep c x c' (List.mem_cons_of_mem _ hx))
        (hstep b a b₁ (List.mem_cons_self ..) hb h₁) h₂

/-- The loop rule that knows which part of the list is done. -/
theorem foldlM_ok_scanned {f : β → α → Except ε β} {l : List α} (P : List α → β → Prop)
    (hstep : ∀ done a rest b b', l = done ++ a :: rest → P done b → f b a = .ok b' →
      P (done ++ [a]) b')
    {b b' : β} (h : P [] b) (hrun : l.foldlM f b = .ok b') : P l b' := by
  have hgen : ∀ (todo done : List α) (c : β), l = done ++ todo → P done c →
      todo.foldlM f c = .ok b' → P l b' := by
    intro todo
    induction todo with
    | nil =>
        intro done c hl hc hfold
        simp only [List.foldlM_nil, pure_eq_ok] at hfold
        rw [hl, List.append_nil]
        exact hfold ▸ hc
    | cons a todo ih =>
        intro done c hl hc hfold
        simp only [List.foldlM_cons, bind_eq_ok] at hfold
        obtain ⟨c', hc', hfold⟩ := hfold
        exact ih (done ++ [a]) c' (by simp [hl]) (hstep done a todo c c' hl hc hc') hfold
  exact hgen l [] b rfl h hrun

/-- A fold none of whose rounds fails succeeds. -/
theorem foldlM_ok_total {f : β → α → Except ε β} {l : List α} (P : List α → β → Prop)
    (hstep : ∀ done a rest b, l = done ++ a :: rest → P done b →
      ∃ b', f b a = .ok b' ∧ P (done ++ [a]) b')
    {b : β} (h : P [] b) : ∃ b', l.foldlM f b = .ok b' := by
  have hgen : ∀ (todo done : List α) (c : β), l = done ++ todo → P done c →
      ∃ b', todo.foldlM f c = .ok b' := by
    intro todo
    induction todo with
    | nil => exact fun _ c _ _ => ⟨c, rfl⟩
    | cons a todo ih =>
        intro done c hl hc
        obtain ⟨c', hstep', hc'⟩ := hstep done a todo c hl hc
        obtain ⟨b', hb'⟩ := ih (done ++ [a]) c' (by simp [hl]) hc'
        exact ⟨b', by simp only [List.foldlM_cons, bind_eq_ok]; exact ⟨c', hstep', hb'⟩⟩
  exact hgen l [] b rfl h

/-- A loop of checks, stopping at the first one that fails. -/
def checkAll (f : α → Except ε Unit) : List α → Except ε Unit
  | [] => .ok ()
  | a :: l => do
      f a
      checkAll f l

/-- A loop of checks succeeds exactly when every check does. -/
@[simp] theorem checkAll_eq_ok {f : α → Except ε Unit} {l : List α} {u : Unit} :
    checkAll f l = .ok u ↔ ∀ a ∈ l, f a = .ok () := by
  induction l with
  | nil => simp [checkAll]
  | cons a l ih =>
      simp only [checkAll, bind_eq_ok, ih, List.mem_cons, forall_eq_or_imp]
      constructor
      · rintro ⟨_, h₁, h₂⟩
        exact ⟨h₁, h₂⟩
      · rintro ⟨h₁, h₂⟩
        exact ⟨(), h₁, h₂⟩

/-- Element by element, a successful `mapM` relates its input to its output. -/
theorem mapM_eq_ok {f : α → Except ε β} {l : List α} {l' : List β} :
    l.mapM f = .ok l' ↔ List.Forall₂ (fun a b => f a = .ok b) l l' := by
  induction l generalizing l' with
  | nil =>
      rw [List.mapM_nil, pure_eq_ok, List.forall₂_nil_left_iff]
      exact eq_comm
  | cons a l ih =>
      simp only [List.mapM_cons, bind_eq_ok, pure_eq_ok, List.forall₂_cons_left_iff]
      constructor
      · rintro ⟨b, hb, bs, hbs, rfl⟩
        exact ⟨b, bs, hb, ih.mp hbs, rfl⟩
      · rintro ⟨b, bs, hb, hbs, rfl⟩
        exact ⟨b, hb, bs, ih.mpr hbs, rfl⟩

/-- A `mapM` none of whose rounds fails succeeds. -/
theorem mapM_total {f : α → Except ε β} {l : List α} (h : ∀ a ∈ l, ∃ b, f a = .ok b) :
    ∃ l', l.mapM f = .ok l' := by
  induction l with
  | nil => exact ⟨[], rfl⟩
  | cons a l ih =>
      obtain ⟨⟨b, hb⟩, hrest⟩ := List.forall_mem_cons.mp h
      obtain ⟨bs, hbs⟩ := ih hrest
      exact ⟨b :: bs, by rw [List.mapM_cons, hb, ok_bind, hbs, ok_bind, pure_eq_ok]⟩

end Checked
