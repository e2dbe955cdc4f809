import Mathlib.Data.List.Perm.Basic
import Mathlib.Data.List.Nodup

/-! A list in memory mirrored by a table with a unique key. The rows are the items
up to order, and the items that `sel` picks stand in the same order on both sides.
A replacement is made in place in memory and at the end of the table. -/

namespace Cmp.Lib

variable {α κ : Type}

/-! ## Lists with distinct keys -/

theorem eraseIdx_eq_filter [DecidableEq κ] (key : α → κ) {a : α} :
    ∀ {l : List α} {i : Nat}, (l.map key).Nodup → l[i]? = some a →
      l.eraseIdx i = l.filter fun x => decide (key x ≠ key a) := by
  intro l
  induction l with
  | nil => intro i _ h; cases h
  | cons x l ih =>
    intro i hnd h
    rw [List.map_cons, List.nodup_cons] at hnd
    cases i with
    | zero =>
      cases h
      have hall : ∀ y ∈ l, key y ≠ key a := fun y hy he =>
        hnd.1 (he ▸ List.mem_map_of_mem hy)
      rw [List.eraseIdx_cons_zero, List.filter_cons_of_neg (by simp),
        List.filter_eq_self.mpr fun y hy => decide_eq_true (hall y hy)]
    | succ i =>
      have hmem : a ∈ l := List.mem_of_getElem? h
      have hx : key x ≠ key a := fun he => hnd.1 (he ▸ List.mem_map_of_mem hmem)
      rw [List.eraseIdx_cons_succ, List.filter_cons_of_pos (by simpa using hx), ih hnd.2 h]

theorem filter_set_of_neg (p : α → Bool) {b : α} (hp : p b = false) :
    ∀ {l : List α} {i : Nat}, (l.set i b).filter p = (l.eraseIdx i).filter p := by
  intro l
  induction l with
  | nil => intro i; rfl
  | cons x l ih =>
    intro i
    cases i with
    | zero =>
      rw [List.set_cons_zero, List.eraseIdx_cons_zero, List.filter_cons_of_neg (by simp [hp])]
    | succ i =>
      rw [List.set_cons_succ, List.eraseIdx_cons_succ, List.filter_cons, List.filter_cons, ih]

/-! ## The mirror -/

structure Mirrors (key : α → κ) (sel : α → Bool) (memory : List α) (rows : List (κ × α)) :
    Prop where
  keyed : ∀ row ∈ rows, row.1 = key row.2
  nodup : (rows.map Prod.fst).Nodup
  perm : (rows.map Prod.snd).Perm memory
  order : (rows.map Prod.snd).filter sel = memory.filter sel

namespace Mirrors

variable {key : α → κ} {sel : α → Bool} {memory : List α} {rows : List (κ × α)}

theorem empty : Mirrors key sel [] [] :=
  ⟨by simp, List.nodup_nil, .nil, rfl⟩

/-- A table mirrors the list loaded from it. -/
theorem reload (h : Mirrors key sel memory rows) : Mirrors key sel (rows.map Prod.snd) rows :=
  ⟨h.keyed, h.nodup, .refl _, rfl⟩

theorem map_key (h : Mirrors key sel memory rows) :
    (rows.map Prod.snd).map key = rows.map Prod.fst := by
  rw [List.map_map]
  exact List.map_congr_left fun row hrow => (h.keyed row hrow).symm

theorem memory_nodup (h : Mirrors key sel memory rows) : (memory.map key).Nodup := by
  have hperm := h.perm.map key
  rw [h.map_key] at hperm
  exact hperm.nodup_iff.mp h.nodup

theorem append (h : Mirrors key sel memory rows) {a : α} (hnew : key a ∉ rows.map Prod.fst) :
    Mirrors key sel (memory ++ [a]) (rows ++ [(key a, a)]) where
  keyed row hrow := by
    rcases List.mem_append.mp hrow with hrow | hrow
    · exact h.keyed row hrow
    · rw [List.mem_singleton.mp hrow]
  nodup := by
    rw [List.map_append, List.nodup_append]
    refine ⟨h.nodup, List.nodup_singleton _, ?_⟩
    intro x hx y hy he
    rw [List.map_singleton, List.mem_singleton] at hy
    rw [he, hy] at hx
    exact hnew hx
  perm := by
    rw [List.map_append]
    exact h.perm.append_right _
  order := by
    rw [List.map_append, List.filter_append, List.filter_append, h.order]
    rfl

variable [DecidableEq κ]

theorem map_filter_rows (h : Mirrors key sel memory rows) (id : κ) :
    (rows.filter fun row => decide (row.1 ≠ id)).map Prod.snd =
      (rows.map Prod.snd).filter fun a => decide (key a ≠ id) := by
  rw [List.filter_map]
  congr 1
  exact List.filter_congr fun row hrow => by rw [h.keyed row hrow]; rfl

theorem erase (h : Mirrors key sel memory rows) {index : Nat} {a : α}
    (ha : memory[index]? = some a) :
    Mirrors key sel (memory.eraseIdx index) (rows.filter fun row => decide (row.1 ≠ key a)) where
  keyed row hrow := h.keyed row (List.mem_of_mem_filter hrow)
  nodup := h.nodup.sublist (List.filter_sublist.map Prod.fst)
  perm := by
    rw [h.map_filter_rows, eraseIdx_eq_filter key h.memory_nodup ha]
    exact h.perm.filter _
  order := by
    rw [h.map_filter_rows, eraseIdx_eq_filter key h.memory_nodup ha, List.filter_filter,
      List.filter_filter]
    have hcomm : ∀ l : List α, l.filter (fun x => sel x && decide (key x ≠ key a)) =
        (l.filter sel).filter fun x => decide (key x ≠ key a) := by
      intro l
      rw [List.filter_filter]
      exact List.filter_congr fun x _ => Bool.and_comm _ _
    rw [hcomm, hcomm, h.order]

/-- An unselected item replaced by another one. -/
theorem replace (h : Mirrors key sel memory rows) {index : Nat} {a b : α}
    (ha : memory[index]? = some a) (hb : sel b = false)
    (hnew : key b ∉ (rows.filter fun row => decide (row.1 ≠ key a)).map Prod.fst) :
    Mirrors key sel (memory.set index b)
      ((rows.filter fun row => decide (row.1 ≠ key a)) ++ [(key b, b)]) := by
  have happ := (h.erase ha).append hnew
  obtain ⟨hlt, -⟩ := List.getElem?_eq_some_iff.mp ha
  refine ⟨happ.keyed, happ.nodup, happ.perm.trans ?_, happ.order.trans ?_⟩
  · exact (List.perm_append_singleton b _).trans (List.set_perm_cons_eraseIdx hlt b).symm
  · rw [List.filter_append, filter_set_of_neg sel hb, List.filter_cons_of_neg (by simp [hb])]
    simp

end Mirrors

end Cmp.Lib
