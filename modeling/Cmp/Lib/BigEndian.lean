import Mathlib.Algebra.Group.Nat.Defs
import Mathlib.Data.List.Basic

/-! Big-endian bytes of a natural number, at a fixed width. -/

namespace Cmp.Lib

/-- The lowest `width` bytes of `n`, highest first. -/
def beBytes : Nat → Nat → List UInt8
  | 0, _ => []
  | width + 1, n => beBytes width (n / 256) ++ [UInt8.ofNat n]

theorem length_beBytes (width n : Nat) : (beBytes width n).length = width := by
  induction width generalizing n with
  | zero => rfl
  | succ width ih => simp [beBytes, ih]

/-- Numbers that fit are told apart by their bytes. -/
theorem beBytes_inj {width : Nat} : ∀ {m n : Nat}, m < 256 ^ width → n < 256 ^ width →
    beBytes width m = beBytes width n → m = n := by
  induction width with
  | zero => intro m n hm hn _; omega
  | succ width ih =>
    intro m n hm hn h
    obtain ⟨hhigh, hlow⟩ := List.append_inj' h rfl
    rw [Nat.pow_succ] at hm hn
    have hquot : m / 256 = n / 256 :=
      ih (Nat.div_lt_of_lt_mul (by omega)) (Nat.div_lt_of_lt_mul (by omega)) hhigh
    have hrem : m % 256 = n % 256 := by
      have hbyte := congrArg UInt8.toNat (List.singleton_inj.mp hlow)
      simpa using hbyte
    omega

end Cmp.Lib
