import Mathlib.Data.Nat.Digits.Defs
import Mathlib.Data.String.Basic

/-! The size of texts in UTF-8. -/

namespace Cmp.Lib

theorem utf8Len_of_ascii {cs : List Char} (h : ∀ c ∈ cs, c.val ≤ 127) :
    String.utf8Len cs = cs.length := by
  induction cs with
  | nil => rfl
  | cons c cs ih =>
    have hc : c.utf8Size = 1 := Char.utf8Size_eq_one_iff.mpr (h c List.mem_cons_self)
    rw [String.utf8Len_cons, ih fun d hd => h d (List.mem_cons_of_mem _ hd), hc, List.length_cons]

theorem val_le_of_isDigit {c : Char} (h : c.isDigit = true) : c.val ≤ 127 := by
  have hc : c.val ≥ 48 ∧ c.val ≤ 57 := by simpa [Char.isDigit] using h
  exact UInt32.le_trans hc.2 (by decide)

/-- A number takes one byte for each of its digits. -/
theorem utf8ByteSize_toDigits (n : Nat) :
    (String.ofList (Nat.toDigits 10 n)).utf8ByteSize = (Nat.toDigits 10 n).length := by
  rw [String.utf8ByteSize_ofList]
  apply utf8Len_of_ascii
  intro c hc
  exact val_le_of_isDigit (Nat.isDigit_of_mem_toDigits (by decide) (by decide) hc)

theorem utf8ByteSize_toDigits_le {n e : Nat} (he : 0 < e) (h : n < 10 ^ e) :
    (String.ofList (Nat.toDigits 10 n)).utf8ByteSize ≤ e := by
  rw [utf8ByteSize_toDigits]
  exact Nat.toDigits_length 10 n e he h

/-- Each text of a list takes its size and, but for the last, that of the separator. -/
theorem utf8ByteSize_intercalate (separator text : String) (texts : List String) :
    (separator.intercalate (text :: texts)).utf8ByteSize + separator.utf8ByteSize =
      ((text :: texts).map fun text => text.utf8ByteSize + separator.utf8ByteSize).sum := by
  induction texts generalizing text with
  | nil => rw [String.intercalate_singleton, List.map_singleton, List.sum_singleton]
  | cons next texts ih =>
    have hrest := ih next
    rw [String.intercalate_cons_cons, String.utf8ByteSize_append, String.utf8ByteSize_append,
      List.map_cons, List.sum_cons]
    omega

/-- The lowest `width` digits of a number, leading zeros included. -/
def paddedDigits : Nat → Nat → List Char
  | 0, _ => []
  | width + 1, n => paddedDigits width (n / 10) ++ [Nat.digitChar (n % 10)]

theorem isDigit_paddedDigits (width : Nat) :
    ∀ (n : Nat), ∀ c ∈ paddedDigits width n, c.isDigit = true := by
  induction width with
  | zero => exact fun n c hc => absurd hc List.not_mem_nil
  | succ width ih =>
    intro n c hc
    rcases List.mem_append.mp hc with hc | hc
    · exact ih (n / 10) c hc
    · rw [List.mem_singleton.mp hc, Nat.isDigit_digitChar]
      exact decide_eq_true (Nat.mod_lt n (by decide))

/-- Reading the digits gives the number back. -/
theorem foldl_paddedDigits (width : Nat) : ∀ n, n < 10 ^ width →
    (paddedDigits width n).foldl (fun n c => 10 * n + (c.toNat - '0'.toNat)) 0 = n := by
  induction width with
  | zero =>
    intro n hn
    rw [Nat.pow_zero] at hn
    exact (Nat.lt_one_iff.mp hn).symm
  | succ width ih =>
    intro n hn
    rw [Nat.pow_succ] at hn
    have hlast : (Nat.digitChar (n % 10)).toNat - '0'.toNat = n % 10 := by
      rw [Nat.toNat_digitChar_of_lt_ten (Nat.mod_lt n (by decide))]
      exact Nat.add_sub_cancel_left 48 (n % 10)
    rw [paddedDigits, List.foldl_append, ih (n / 10) (by omega), List.foldl_cons, List.foldl_nil,
      hlast]
    omega

/-- A text each of whose characters is written with at most `k` times its size. -/
theorem utf8Len_flatMap_le {f : Char → List Char} {k : Nat}
    (h : ∀ c, String.utf8Len (f c) ≤ k * c.utf8Size) (cs : List Char) :
    String.utf8Len (cs.flatMap f) ≤ k * String.utf8Len cs := by
  induction cs with
  | nil => exact Nat.zero_le _
  | cons c cs ih =>
    rw [List.flatMap_cons, String.utf8Len_append, String.utf8Len_cons, Nat.mul_add]
    have hc := h c
    omega

end Cmp.Lib
