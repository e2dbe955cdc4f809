import Cmp.Lib.Action

/-! Actions that leave a part of the state alone. The part is a projection, and the rules follow
the way actions are put together. -/

namespace Cmp.Lib.Action

variable {ε σ α β π : Type}

/-- Whatever the action returns, the projection is what it was. -/
def KeepsAt (part : σ → π) (s : σ) (x : EStateM ε σ α) : Prop :=
  part (finalState (x.run s)) = part s

def Keeps (part : σ → π) (x : EStateM ε σ α) : Prop := ∀ s, KeepsAt part s x

variable {part : σ → π} {s : σ}

/-- What comes next starts with the projection as it was. -/
theorem KeepsAt.bind {x : EStateM ε σ α} {f : α → EStateM ε σ β} (hx : KeepsAt part s x)
    (hf : ∀ a t, part t = part s → KeepsAt part t (f a)) : KeepsAt part s (x >>= f) := by
  unfold KeepsAt at hx ⊢
  rw [run_bind]
  cases h : x.run s with
  | error e t => rw [h] at hx; exact hx
  | ok a t =>
    rw [h] at hx
    exact (hf a t hx).trans hx

namespace Keeps

theorem pure (a : α) : Keeps part (Pure.pure a : EStateM ε σ α) := fun _ => rfl

theorem throw (e : ε) : Keeps part (throw e : EStateM ε σ α) := fun _ => rfl

theorem modify {f : σ → σ} (hf : ∀ s, part (f s) = part s) :
    Keeps part (modify f : EStateM ε σ PUnit) := hf

theorem bind {x : EStateM ε σ α} {f : α → EStateM ε σ β} (hx : Keeps part x)
    (hf : ∀ a, Keeps part (f a)) : Keeps part (x >>= f) :=
  fun s => (hx s).bind fun a t _ => hf a t

theorem bind_get {f : σ → EStateM ε σ β} (hf : ∀ s, Keeps part (f s)) :
    Keeps part (get >>= f) := fun s => hf s s

theorem ite {p : Prop} [Decidable p] {x y : EStateM ε σ α} (hx : Keeps part x)
    (hy : Keeps part y) : Keeps part (if p then x else y) := by
  split
  · exact hx
  · exact hy

end Keeps

end Cmp.Lib.Action
