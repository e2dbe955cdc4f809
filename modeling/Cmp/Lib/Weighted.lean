import Mathlib.Algebra.Order.BigOperators.Group.List
import Mathlib.Algebra.Order.Ring.Nat

/-! Lists of weighted items under two limits, on their number and on their total weight. -/

namespace Cmp.Lib

variable {α : Type}

def totalWeight (weight : α → Nat) (l : List α) : Nat := (l.map weight).sum

theorem totalWeight_append (weight : α → Nat) (l : List α) (a : α) :
    totalWeight weight (l ++ [a]) = totalWeight weight l + weight a := by
  simp [totalWeight]

theorem totalWeight_le_of_sublist (weight : α → Nat) {l l' : List α} (h : l'.Sublist l) :
    totalWeight weight l' ≤ totalWeight weight l :=
  (h.map weight).sum_le_sum fun _ _ => Nat.zero_le _

theorem totalWeight_set_le (weight : α → Nat) {a b : α} (hle : weight b ≤ weight a) (l : List α) :
    ∀ index, l[index]? = some a → totalWeight weight (l.set index b) ≤ totalWeight weight l := by
  induction l with
  | nil => intro index h; cases h
  | cons x l ih =>
    intro index h
    cases index with
    | zero =>
      cases h
      exact Nat.add_le_add_right hle _
    | succ index => exact Nat.add_le_add_left (ih index h) _

/-- At most `items` items of at most `total` weight. -/
structure Within (weight : α → Nat) (items total : Nat) (l : List α) : Prop where
  length : l.length ≤ items
  weights : totalWeight weight l ≤ total

namespace Within

variable {weight : α → Nat} {items total : Nat} {l l' : List α}

theorem nil : Within weight items total [] := ⟨Nat.zero_le _, Nat.zero_le _⟩

theorem sublist (h : Within weight items total l) (hsub : l'.Sublist l) :
    Within weight items total l' :=
  ⟨hsub.length_le.trans h.length, (totalWeight_le_of_sublist weight hsub).trans h.weights⟩

theorem perm (h : Within weight items total l) (hperm : l'.Perm l) :
    Within weight items total l' :=
  ⟨hperm.length_eq ▸ h.length, (hperm.map weight).sum_eq.trans_le h.weights⟩

theorem append {a : α} (hlength : l.length < items)
    (hweight : totalWeight weight l + weight a ≤ total) : Within weight items total (l ++ [a]) := by
  refine ⟨?_, ?_⟩
  · rw [List.length_append, List.length_singleton]
    exact hlength
  · rw [totalWeight_append]
    exact hweight

theorem set (h : Within weight items total l) {index : Nat} {a b : α}
    (ha : l[index]? = some a) (hle : weight b ≤ weight a) :
    Within weight items total (l.set index b) :=
  ⟨(List.length_set ..).symm ▸ h.length, (totalWeight_set_le weight hle l index ha).trans h.weights⟩

end Within

end Cmp.Lib
