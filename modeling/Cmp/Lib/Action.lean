import Mathlib.Init

/-! Running `EStateM` actions: what a computation over a mutable state that may
fail returns, step by step. The `_eq_ok` forms take a successful run apart. -/

namespace Cmp.Lib.Action

variable {ε σ α β : Type}

/-- The state a run ends in, on success and on error alike. -/
def finalState : EStateM.Result ε σ α → σ
  | .ok _ s => s
  | .error _ s => s

/-- The value of a run, on success. -/
def value? : EStateM.Result ε σ α → Option α
  | .ok a _ => some a
  | .error _ _ => none

@[simp] theorem run_pure (a : α) (s : σ) : (pure a : EStateM ε σ α).run s = .ok a s := rfl

@[simp] theorem run_get (s : σ) : (get : EStateM ε σ σ).run s = .ok s s := rfl

@[simp] theorem run_set (s t : σ) : (set t : EStateM ε σ PUnit).run s = .ok ⟨⟩ t := rfl

@[simp] theorem run_modify (f : σ → σ) (s : σ) :
    (modify f : EStateM ε σ PUnit).run s = .ok ⟨⟩ (f s) := rfl

@[simp] theorem run_throw (e : ε) (s : σ) :
    (throw e : EStateM ε σ α).run s = .error e s := rfl

@[simp] theorem run_ite (c : Prop) [Decidable c] (x y : EStateM ε σ α) (s : σ) :
    (if c then x else y).run s = if c then x.run s else y.run s := by
  split <;> rfl

theorem run_bind (x : EStateM ε σ α) (f : α → EStateM ε σ β) (s : σ) :
    (x >>= f).run s =
      match x.run s with
      | .ok a t => (f a).run t
      | .error e t => .error e t := rfl

@[simp] theorem run_map (f : α → β) (x : EStateM ε σ α) (s : σ) :
    (f <$> x).run s =
      match x.run s with
      | .ok a t => .ok (f a) t
      | .error e t => .error e t := rfl

theorem run_map_eq_error {f : α → β} {x : EStateM ε σ α} {s t : σ} {e : ε} :
    (f <$> x).run s = .error e t ↔ x.run s = .error e t := by
  rw [run_map]
  cases x.run s with
  | ok a u => exact ⟨nofun, nofun⟩
  | error e' u => simp

theorem finalState_map (f : α → β) (x : EStateM ε σ α) (s : σ) :
    finalState ((f <$> x).run s) = finalState (x.run s) := by
  rw [run_map]
  cases x.run s <;> rfl

theorem value?_map (f : α → β) (x : EStateM ε σ α) (s : σ) :
    value? ((f <$> x).run s) = (value? (x.run s)).map f := by
  rw [run_map]
  cases x.run s <;> rfl

theorem run_bind_ok {x : EStateM ε σ α} {f : α → EStateM ε σ β} {s t : σ} {a : α}
    (h : x.run s = .ok a t) : (x >>= f).run s = (f a).run t := by
  rw [run_bind, h]

theorem run_bind_error {x : EStateM ε σ α} {f : α → EStateM ε σ β} {s t : σ} {e : ε}
    (h : x.run s = .error e t) : (x >>= f).run s = .error e t := by
  rw [run_bind, h]

@[simp] theorem run_bind_eq_ok (x : EStateM ε σ α) (f : α → EStateM ε σ β) (s u : σ) (b : β) :
    (x >>= f).run s = .ok b u ↔ ∃ a t, x.run s = .ok a t ∧ (f a).run t = .ok b u := by
  rw [run_bind]
  cases h : x.run s with
  | ok a t =>
    constructor
    · intro h'; exact ⟨a, t, rfl, h'⟩
    · rintro ⟨a', t', he, h'⟩; cases he; exact h'
  | error e t => simp

theorem run_bind_eq_error {x : EStateM ε σ α} {f : α → EStateM ε σ β} {s u : σ} {e : ε}
    (h : (x >>= f).run s = .error e u) :
    x.run s = .error e u ∨ ∃ a t, x.run s = .ok a t ∧ (f a).run t = .error e u := by
  rw [run_bind] at h
  split at h
  · next a t hx => exact .inr ⟨a, t, hx, h⟩
  · next hx =>
    cases h
    exact .inl hx

@[simp] theorem run_ofExcept_ok (a : α) (s : σ) :
    (ofExcept (.ok a) : EStateM ε σ α).run s = .ok a s := rfl

@[simp] theorem run_ofExcept_error (e : ε) (s : σ) :
    (ofExcept (.error e) : EStateM ε σ α).run s = .error e s := rfl

@[simp] theorem run_ofExcept_eq_ok (x : Except ε α) (s t : σ) (a : α) :
    (ofExcept x : EStateM ε σ α).run s = .ok a t ↔ x = .ok a ∧ s = t := by
  cases x <;> simp

/-! ## `Except` -/

theorem bind_eq_ok (x : Except ε α) (f : α → Except ε β) (b : β) :
    (x >>= f) = .ok b ↔ ∃ a, x = .ok a ∧ f a = .ok b := by
  cases x with
  | ok a =>
    constructor
    · intro h; exact ⟨a, rfl, h⟩
    · rintro ⟨a', ha, h⟩; cases ha; exact h
  | error e =>
    constructor
    · intro h; cases h
    · rintro ⟨a', ha, -⟩; cases ha

end Cmp.Lib.Action
