import Cmp.Lib.Action

/-! Runs of fallible calls on one state. Where a call that fails leaves the state as it was,
failing calls can be taken out of a run. -/

namespace Cmp.Lib

variable {ε σ α β : Type}

/-- A call of a run, with its result and the state after it. -/
structure Called (ε σ α β : Type) where
  call : α
  result : Except ε β
  state : σ

def called (step : α → EStateM ε σ β) (a : α) (s : σ) : Called ε σ α β :=
  match (step a).run s with
  | .ok b t => ⟨a, .ok b, t⟩
  | .error e t => ⟨a, .error e, t⟩

def trace (step : α → EStateM ε σ β) : List α → σ → List (Called ε σ α β)
  | [], _ => []
  | a :: calls, s => called step a s :: trace step calls (called step a s).state

/-- The second run is the first without some of its failing calls. -/
inductive Pruned : List (Called ε σ α β) → List (Called ε σ α β) → Prop
  | nil : Pruned [] []
  | keep (entry : Called ε σ α β) {run kept : List (Called ε σ α β)} (h : Pruned run kept) :
      Pruned (entry :: run) (entry :: kept)
  | drop (entry : Called ε σ α β) (e : ε) (hfails : entry.result = .error e)
      {run kept : List (Called ε σ α β)} (h : Pruned run kept) : Pruned (entry :: run) kept

/-- An error leaves the state as it was. -/
def FailsAtomically (step : α → EStateM ε σ β) : Prop :=
  ∀ a s e t, (step a).run s = .error e t → t = s

/-- The same, of one call in one state. -/
def PutsBack (call : EStateM ε σ β) (s : σ) : Prop :=
  ∀ e t, call.run s = .error e t → t = s

theorem PutsBack.of_error {call : EStateM ε σ β} {s : σ} {e : ε} (h : call.run s = .error e s) :
    PutsBack call s := by
  intro e' t h'
  rw [h] at h'
  cases h'
  rfl

theorem PutsBack.of_ok {call : EStateM ε σ β} {s t : σ} {b : β} (h : call.run s = .ok b t) :
    PutsBack call s := by
  intro e u h'
  rw [h] at h'
  cases h'

theorem PutsBack.of_finalState {call : EStateM ε σ β} {s : σ}
    (h : Action.finalState (call.run s) = s) : PutsBack call s := by
  intro e t h'
  rw [h'] at h
  exact h

theorem PutsBack.map {γ : Type} {call : EStateM ε σ β} {s : σ} (h : PutsBack call s)
    (f : β → γ) : PutsBack (f <$> call) s := by
  intro e t hrun
  exact h e t (Action.run_map_eq_error.mp hrun)

theorem called_call (step : α → EStateM ε σ β) (a : α) (s : σ) : (called step a s).call = a := by
  unfold called
  split <;> rfl

theorem FailsAtomically.called_state {step : α → EStateM ε σ β} (hstep : FailsAtomically step)
    {a : α} {s : σ} {e : ε} (h : (called step a s).result = .error e) :
    (called step a s).state = s := by
  unfold called at h ⊢
  split at h
  · cases h
  · next hrun => exact hstep a s _ _ hrun

/-- The calls that are left return what they returned, and pass through the same states. -/
theorem FailsAtomically.trace_pruned {step : α → EStateM ε σ β} (hstep : FailsAtomically step)
    {calls : List α} {s : σ} {kept : List (Called ε σ α β)} (h : Pruned (trace step calls s) kept) :
    trace step (kept.map Called.call) s = kept := by
  induction calls generalizing s kept with
  | nil =>
    cases h
    rfl
  | cons a calls ih =>
    cases h with
    | keep _ h =>
      rw [List.map_cons, called_call]
      exact congrArg (called step a s :: ·) (ih h)
    | drop _ e hfails h =>
      rw [hstep.called_state hfails] at h
      exact ih h

end Cmp.Lib
