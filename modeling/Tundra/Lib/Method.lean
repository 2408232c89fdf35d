/-
  Tundra.Lib.Method

  Methods of a record: programs that read and write a state and may fail.  What
  a method wrote before it failed stays written, so a failed call is an outcome
  with a state of its own.  `exec_bind_ok` takes a successful run apart one
  bind at a time; `Keeps` is the rule for what holds on both ways out.
-/

import Tundra.Lib.Checked

namespace Stateful

variable {σ ε α β : Type}

/-- A method of a record `σ`: the standard error monad over the standard state monad. -/
abbrev Method (σ ε α : Type) := ExceptT ε (StateM σ) α

/-- What a method returns, and the record after it. -/
def exec (m : Method σ ε α) (s : σ) : Except ε α × σ := m.run s

/-- A computation that does not touch the record. -/
def lift (r : Except ε α) : Method σ ε α := fun s => (r, s)

/-! ## Runs -/

@[simp] theorem exec_pure (a : α) (s : σ) : exec (pure a : Method σ ε α) s = (.ok a, s) := rfl

@[simp] theorem exec_get (s : σ) : exec (get : Method σ ε σ) s = (.ok s, s) := rfl

@[simp] theorem exec_modify (f : σ → σ) (s : σ) :
    exec (modify f : Method σ ε PUnit) s = (.ok (), f s) := rfl

@[simp] theorem exec_lift (r : Except ε α) (s : σ) : exec (lift r : Method σ ε α) s = (r, s) := rfl

theorem exec_bind (m : Method σ ε α) (f : α → Method σ ε β) (s : σ) :
    exec (m >>= f) s =
      exec (ExceptT.mk (m := StateM σ) (ExceptT.bindCont f (exec m s).1)) (exec m s).2 := rfl

theorem exec_bind_of_ok {m : Method σ ε α} {f : α → Method σ ε β} {s s' : σ} {a : α}
    (h : exec m s = (.ok a, s')) : exec (m >>= f) s = exec (f a) s' := by
  rw [exec_bind, h]
  rfl

theorem exec_bind_of_error {m : Method σ ε α} {f : α → Method σ ε β} {s s' : σ} {e : ε}
    (h : exec m s = (.error e, s')) : exec (m >>= f) s = (.error e, s') := by
  rw [exec_bind, h]
  rfl

/-- A successful run of two methods, one after the other. -/
theorem exec_bind_ok {m : Method σ ε α} {f : α → Method σ ε β} {s s'' : σ} {b : β} :
    exec (m >>= f) s = (.ok b, s'') ↔
      ∃ a s', exec m s = (.ok a, s') ∧ exec (f a) s' = (.ok b, s'') := by
  rcases hm : exec m s with ⟨r, s'⟩
  cases r with
  | error e =>
      rw [exec_bind_of_error hm]
      simp
  | ok a =>
      rw [exec_bind_of_ok hm]
      simp

@[simp] theorem exec_lift_ok {r : Except ε α} {s s' : σ} {a : α} :
    exec (lift r) s = (.ok a, s') ↔ r = .ok a ∧ s = s' := by
  rw [exec_lift, Prod.mk.injEq]

theorem exec_bind_get (f : σ → Method σ ε β) (s : σ) : exec (get >>= f) s = exec (f s) s := rfl

theorem exec_bind_modify (g : σ → σ) (f : PUnit → Method σ ε β) (s : σ) :
    exec (modify g >>= f) s = exec (f ()) (g s) := rfl

theorem exec_bind_lift_ok {r : Except ε α} {f : α → Method σ ε β} {s s' : σ} {b : β} :
    exec (lift r >>= f) s = (.ok b, s') ↔ ∃ a, r = .ok a ∧ exec (f a) s = (.ok b, s') := by
  rw [exec_bind_ok]
  constructor
  · rintro ⟨a, _, h, hf⟩
    obtain ⟨hr, rfl⟩ := exec_lift_ok.mp h
    exact ⟨a, hr, hf⟩
  · rintro ⟨a, hr, hf⟩
    exact ⟨a, s, exec_lift_ok.mpr ⟨hr, rfl⟩, hf⟩

/-- A failed run that starts with a computation. -/
theorem exec_bind_lift_error {r : Except ε α} {f : α → Method σ ε β} {s s' : σ} {e : ε} :
    exec (lift r >>= f) s = (.error e, s') ↔
      r = .error e ∧ s = s' ∨ ∃ a, r = .ok a ∧ exec (f a) s = (.error e, s') := by
  cases r with
  | error e' =>
      rw [exec_bind_of_error (exec_lift _ s)]
      simp
  | ok a =>
      rw [exec_bind_of_ok (exec_lift _ s)]
      simp

theorem mapError_eq_ok {ε' : Type} {f : ε → ε'} {r : Except ε α} {a : α} :
    r.mapError f = .ok a ↔ r = .ok a := by
  cases r <;> simp [Except.mapError]

/-! ## What a method keeps -/

/-- A statement about the record that a method keeps, also when it fails. -/
def Keeps (I : σ → Prop) (m : Method σ ε α) : Prop := ∀ s, I s → I (exec m s).2

theorem keeps_pure (I : σ → Prop) (a : α) : Keeps I (pure a : Method σ ε α) := fun _ h => h

theorem keeps_get (I : σ → Prop) : Keeps I (get : Method σ ε σ) := fun _ h => h

theorem keeps_lift (I : σ → Prop) (r : Except ε α) : Keeps I (lift r : Method σ ε α) := fun _ h => h

theorem keeps_modify {I : σ → Prop} {f : σ → σ} (h : ∀ s, I s → I (f s)) :
    Keeps I (modify f : Method σ ε PUnit) := h

theorem keeps_bind {I : σ → Prop} {m : Method σ ε α} {f : α → Method σ ε β} (hm : Keeps I m)
    (hf : ∀ a, Keeps I (f a)) : Keeps I (m >>= f) := by
  intro s hs
  have hkept := hm s hs
  rcases hrun : exec m s with ⟨r, s'⟩
  rw [hrun] at hkept
  cases r with
  | error e =>
      rw [exec_bind_of_error hrun]
      exact hkept
  | ok a =>
      rw [exec_bind_of_ok hrun]
      exact hf a s' hkept

end Stateful
