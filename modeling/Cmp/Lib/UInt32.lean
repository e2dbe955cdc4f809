import Mathlib.Order.Lattice

/-! `u32` as an ordered type, with the saturating and checked additions of Rust. -/

namespace Cmp.Lib

instance instLinearOrderUInt32 : LinearOrder UInt32 where
  le_refl := UInt32.le_refl
  le_trans _ _ _ := UInt32.le_trans
  le_antisymm _ _ := UInt32.le_antisymm
  le_total := UInt32.le_total
  lt_iff_le_not_ge a b := by
    rw [UInt32.lt_iff_toNat_lt, UInt32.le_iff_toNat_le, UInt32.le_iff_toNat_le]
    omega
  toDecidableLE := inferInstance
  toDecidableEq := inferInstance
  toDecidableLT := inferInstance

/-- `u32::saturating_add(1)`. -/
def saturatingSucc (n : UInt32) : UInt32 := if n.toNat + 1 < UInt32.size then n + 1 else n

/-- `u32::checked_add`. -/
def checkedAdd (a b : UInt32) : Option UInt32 :=
  if a.toNat + b.toNat < UInt32.size then some (a + b) else none

theorem le_saturatingSucc (n : UInt32) : n ≤ saturatingSucc n := by
  unfold saturatingSucc
  split
  · next h =>
    have hs : (n + 1).toNat = n.toNat + 1 := by
      rw [UInt32.toNat_add]
      exact Nat.mod_eq_of_lt h
    rw [UInt32.le_iff_toNat_le, hs]
    exact Nat.le_succ _
  · exact UInt32.le_refl n

theorem checkedAdd_eq_some {a b c : UInt32} (h : checkedAdd a b = some c) :
    c.toNat = a.toNat + b.toNat := by
  unfold checkedAdd at h
  split at h
  · next hlt =>
    cases h
    rw [UInt32.toNat_add]
    exact Nat.mod_eq_of_lt hlt
  · cases h

/-- A number that fits below a checked sum is not saturated. -/
theorem saturatingSucc_le_of_lt {n m : UInt32} (h : n < m) : saturatingSucc n ≤ m := by
  have hn := UInt32.lt_iff_toNat_lt.mp h
  have hm : m.toNat < UInt32.size := m.toNat_lt
  unfold saturatingSucc
  have hs : n.toNat + 1 < UInt32.size := by omega
  rw [if_pos hs, UInt32.le_iff_toNat_le, UInt32.toNat_add]
  exact (Nat.mod_eq_of_lt hs).symm ▸ hn

theorem saturatingSucc_mono {n m : UInt32} (h : n ≤ m) : saturatingSucc n ≤ saturatingSucc m := by
  rcases lt_or_eq_of_le h with hlt | rfl
  · exact le_trans (saturatingSucc_le_of_lt hlt) (le_saturatingSucc m)
  · exact le_refl _

/-- The successor that a checked addition gives is an upper bound of the saturated one. -/
theorem saturatingSucc_le_of_checkedAdd {n m : UInt32} (h : checkedAdd n 1 = some m) :
    saturatingSucc n ≤ m := by
  refine saturatingSucc_le_of_lt (UInt32.lt_iff_toNat_lt.mpr ?_)
  rw [checkedAdd_eq_some h]
  exact Nat.lt_succ_self _

end Cmp.Lib
