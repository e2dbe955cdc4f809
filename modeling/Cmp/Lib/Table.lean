import Mathlib.Data.List.Nodup
import Mathlib.Data.List.Perm.Subperm

/-! Tables with a unique key, as lists of rows in the order of insertion. That no two
rows share a key is part of the type, so each statement of SQL has to keep it. -/

namespace Cmp.Lib

structure Table {α κ : Type} (key : α → κ) where
  rows : List α
  nodup : (rows.map key).Nodup

namespace Table

variable {α κ : Type} {key : α → κ}

instance : Membership α (Table key) := ⟨fun t a => a ∈ t.rows⟩

theorem mem_def (t : Table key) (a : α) : a ∈ t ↔ a ∈ t.rows := Iff.rfl

/-- Rows with one key are one row. -/
theorem eq_of_key_eq (t : Table key) {a b : α} (ha : a ∈ t) (hb : b ∈ t) (h : key a = key b) :
    a = b :=
  List.inj_on_of_nodup_map t.nodup ha hb h

def empty : Table key := ⟨[], List.nodup_nil⟩

@[simp] theorem notMem_empty (a : α) : a ∉ (empty : Table key) := List.not_mem_nil

/-- `SELECT COUNT(*)`. -/
def count (p : α → Bool) (t : Table key) : Nat := t.rows.countP p

@[simp] theorem count_empty (p : α → Bool) : (empty : Table key).count p = 0 := rfl

variable {t : Table key}

theorem count_pos {p : α → Bool} : 0 < t.count p ↔ ∃ a ∈ t, p a = true :=
  List.countP_pos_iff

theorem rows_nodup (t : Table key) : t.rows.Nodup := t.nodup.of_map key

theorem count_le_one {p : α → Bool} {x : α} (h : ∀ a ∈ t, p a = true → a = x) : t.count p ≤ 1 := by
  have hsub : t.rows.filter p ⊆ [x] := by
    intro a ha
    obtain ⟨hmem, hp⟩ := List.mem_filter.mp ha
    exact List.mem_singleton.mpr (h a hmem hp)
  have hle := List.subperm_of_subset (t.rows_nodup.filter p) hsub
  unfold count
  rw [List.countP_eq_length_filter]
  exact hle.length_le

theorem two_le_count {p : α → Bool} {x y : α} (hx : x ∈ t) (hy : y ∈ t) (hpx : p x = true)
    (hpy : p y = true) (hne : x ≠ y) : 2 ≤ t.count p := by
  have hsub : [x, y] ⊆ t.rows.filter p := by
    intro a ha
    rcases List.mem_cons.mp ha with rfl | ha
    · exact List.mem_filter.mpr ⟨hx, hpx⟩
    · rw [List.mem_singleton.mp ha]
      exact List.mem_filter.mpr ⟨hy, hpy⟩
  have hnodup : [x, y].Nodup := List.nodup_cons.mpr ⟨by simpa using hne, List.nodup_singleton y⟩
  unfold count
  rw [List.countP_eq_length_filter]
  exact (List.subperm_of_subset hnodup hsub).length_le

/-! ## `DELETE` -/

def deleteWhere (p : α → Bool) (t : Table key) : Table key where
  rows := t.rows.filter fun a => !p a
  nodup := t.nodup.sublist (List.filter_sublist.map key)

@[simp] theorem mem_deleteWhere {p : α → Bool} {a : α} :
    a ∈ t.deleteWhere p ↔ a ∈ t ∧ p a = false := by
  rw [mem_def, deleteWhere, List.mem_filter, Bool.not_eq_true', mem_def]

theorem mem_of_mem_deleteWhere {p : α → Bool} {a : α} (h : a ∈ t.deleteWhere p) :
    a ∈ t :=
  (mem_deleteWhere.mp h).1

theorem deleteWhere_deleteWhere (p q : α → Bool) (t : Table key) :
    (t.deleteWhere p).deleteWhere q = t.deleteWhere fun a => p a || q a := by
  unfold deleteWhere
  congr 1
  rw [List.filter_filter]
  exact List.filter_congr fun a _ => by rw [Bool.not_or, Bool.and_comm]

theorem count_deleteWhere (p q : α → Bool) (t : Table key) :
    t.count p + (t.deleteWhere p).count q = t.count fun a => p a || q a := by
  unfold count deleteWhere
  dsimp only
  induction t.rows with
  | nil => rfl
  | cons a rows ih => cases hp : p a <;> cases hq : q a <;> simp [hp, hq] <;> omega

/-- What is deleted and what is left. -/
theorem length_deleteWhere (p : α → Bool) (t : Table key) :
    (t.deleteWhere p).rows.length + t.count p = t.rows.length := by
  unfold count deleteWhere
  dsimp only
  induction t.rows with
  | nil => rfl
  | cons a rows ih => cases hp : p a <;> simp [hp] <;> omega

theorem count_deleteWhere_le (p q : α → Bool) (t : Table key) :
    (t.deleteWhere p).count q ≤ t.count q :=
  List.filter_sublist.countP_le

/-- A change of all rows that keeps the keys. -/
def updateAll (f : α → α) (hf : ∀ a, key (f a) = key a) (t : Table key) : Table key where
  rows := t.rows.map f
  nodup := by
    have hkeys : key ∘ f = key := funext hf
    rw [List.map_map, hkeys]
    exact t.nodup

theorem mem_updateAll {f : α → α} {hf : ∀ a, key (f a) = key a} {a : α} :
    a ∈ t.updateAll f hf ↔ ∃ b ∈ t, f b = a :=
  List.mem_map

variable [DecidableEq κ]

/-! ## `SELECT` by the key -/

def find? (t : Table key) (k : κ) : Option α := t.rows.find? fun a => decide (key a = k)

theorem find?_eq_some {k : κ} {a : α} :
    t.find? k = some a ↔ a ∈ t ∧ key a = k := by
  constructor
  · intro h
    exact ⟨List.mem_of_find?_eq_some h, by simpa using List.find?_some h⟩
  · rintro ⟨ha, rfl⟩
    cases hfind : t.find? (key a) with
    | none => exact absurd (List.find?_eq_none.mp hfind a ha) (by simp)
    | some b =>
      have hkey : key b = key a := by simpa using List.find?_some hfind
      rw [t.eq_of_key_eq (List.mem_of_find?_eq_some hfind) ha hkey]

theorem find?_eq_none {k : κ} : t.find? k = none ↔ ∀ a ∈ t, key a ≠ k := by
  rw [find?, List.find?_eq_none]
  exact forall₂_congr fun a _ => by rw [decide_eq_true_eq]

theorem find?_isSome {k : κ} : (t.find? k).isSome = true ↔ ∃ a ∈ t, key a = k := by
  simp only [Option.isSome_iff_exists, find?_eq_some]

theorem find?_deleteWhere (p : α → Bool) (t : Table key) (k : κ) :
    (t.deleteWhere p).find? k = (t.find? k).filter fun a => !p a := by
  ext a
  rw [find?_eq_some, mem_deleteWhere, Option.filter_eq_some_iff, find?_eq_some,
    Bool.not_eq_true', and_right_comm]

/-! ## `INSERT` -/

/-- A row at the end, which the key may refuse. -/
def insert (row : α) (t : Table key) : Option (Table key) :=
  if h : key row ∈ t.rows.map key then none
  else some ⟨t.rows ++ [row], by
    rw [List.map_append, List.map_singleton]
    exact t.nodup.append (List.nodup_singleton _) (List.disjoint_singleton.mpr h)⟩

variable {row : α}

theorem insert_eq_none :
    t.insert row = none ↔ ∃ a ∈ t, key a = key row := by
  unfold insert
  rw [dite_eq_left_iff]
  simp only [reduceCtorEq, imp_false, not_not, List.mem_map, mem_def]

/-- A row that is taken in has a new key. -/
theorem ne_of_insert {t' : Table key} (h : t.insert row = some t') :
    ∀ a ∈ t, key a ≠ key row := by
  intro a ha hkey
  cases h.symm.trans (insert_eq_none.mpr ⟨a, ha, hkey⟩)

theorem rows_insert {t' : Table key} (h : t.insert row = some t') :
    t'.rows = t.rows ++ [row] := by
  unfold insert at h
  split at h
  · cases h
  · cases h
    rfl

theorem mem_insert {t' : Table key} {a : α} (h : t.insert row = some t') :
    a ∈ t' ↔ a ∈ t ∨ a = row := by
  rw [mem_def, rows_insert h, List.mem_append, List.mem_singleton, mem_def]

theorem find?_insert {t' : Table key} (h : t.insert row = some t') (k : κ) :
    t'.find? k = if key row = k then some row else t.find? k := by
  have hnew := ne_of_insert h
  ext a
  rw [find?_eq_some, mem_insert h]
  split
  · next hk =>
    subst hk
    constructor
    · rintro ⟨ha | rfl, hkey⟩
      · exact absurd hkey (hnew a ha)
      · rfl
    · rintro ⟨⟩
      exact ⟨.inr rfl, rfl⟩
  · next hk =>
    rw [find?_eq_some]
    constructor
    · rintro ⟨ha | rfl, hkey⟩
      · exact ⟨ha, hkey⟩
      · exact absurd hkey hk
    · rintro ⟨ha, hkey⟩
      exact ⟨.inl ha, hkey⟩

/-- `INSERT OR IGNORE`. -/
def insertOrIgnore (row : α) (t : Table key) : Table key := (t.insert row).getD t

theorem rows_insertOrIgnore (h : ∀ a ∈ t, key a ≠ key row) :
    (t.insertOrIgnore row).rows = t.rows ++ [row] := by
  cases hins : t.insert row with
  | none =>
    obtain ⟨a, ha, hkey⟩ := insert_eq_none.mp hins
    exact absurd hkey (h a ha)
  | some t' => rw [insertOrIgnore, hins, Option.getD_some, rows_insert hins]

theorem mem_of_mem_insertOrIgnore {a : α} (h : a ∈ t.insertOrIgnore row) :
    a ∈ t ∨ a = row := by
  unfold insertOrIgnore at h
  cases hins : t.insert row with
  | none =>
    rw [hins] at h
    exact .inl h
  | some t' =>
    rw [hins] at h
    exact (mem_insert hins).mp h

theorem mem_insertOrIgnore_of_mem {a : α} (h : a ∈ t) :
    a ∈ t.insertOrIgnore row := by
  unfold insertOrIgnore
  cases hins : t.insert row with
  | none => exact h
  | some t' => exact (mem_insert hins).mpr (.inl h)

/-- A batch of `INSERT OR IGNORE`. -/
def insertAllOrIgnore (batch : List α) (t : Table key) : Table key :=
  batch.foldl (fun t row => t.insertOrIgnore row) t

theorem mem_of_mem_insertAllOrIgnore {batch : List α} :
    ∀ {t : Table key} {a : α}, a ∈ t.insertAllOrIgnore batch → a ∈ t ∨ a ∈ batch := by
  induction batch with
  | nil => intro t a h; exact .inl h
  | cons row batch ih =>
    intro t a h
    rcases ih h with h | h
    · rcases mem_of_mem_insertOrIgnore h with h | rfl
      · exact .inl h
      · exact .inr List.mem_cons_self
    · exact .inr (List.mem_cons_of_mem _ h)

theorem mem_insertAllOrIgnore_of_mem {batch : List α} :
    ∀ {t : Table key} {a : α}, a ∈ t → a ∈ t.insertAllOrIgnore batch := by
  induction batch with
  | nil => intro t a h; exact h
  | cons row batch ih => intro t a h; exact ih (mem_insertOrIgnore_of_mem h)

/-- A batch whose keys are new is added as it is. -/
theorem rows_insertAllOrIgnore {batch : List α} :
    ∀ {t : Table key}, (batch.map key).Nodup → (∀ row ∈ batch, ∀ a ∈ t, key a ≠ key row) →
      (t.insertAllOrIgnore batch).rows = t.rows ++ batch := by
  induction batch with
  | nil => intro t _ _; exact (List.append_nil _).symm
  | cons row batch ih =>
    intro t hnd hnew
    rw [List.map_cons, List.nodup_cons] at hnd
    have hrow := rows_insertOrIgnore (hnew row List.mem_cons_self)
    have hrest : ∀ r ∈ batch, ∀ a ∈ t.insertOrIgnore row, key a ≠ key r := by
      intro r hr a ha heq
      rw [mem_def, hrow, List.mem_append, List.mem_singleton] at ha
      rcases ha with ha | rfl
      · exact hnew r (List.mem_cons_of_mem _ hr) a ha heq
      · exact hnd.1 (heq ▸ List.mem_map_of_mem hr)
    calc (t.insertAllOrIgnore (row :: batch)).rows
        = (t.insertOrIgnore row).rows ++ batch := ih hnd.2 hrest
      _ = t.rows ++ row :: batch := by rw [hrow, List.append_assoc, List.singleton_append]

/-- `INSERT OR REPLACE`. -/
def insertOrReplace (row : α) (t : Table key) : Table key :=
  (t.deleteWhere fun a => decide (key a = key row)).insertOrIgnore row

theorem mem_insertOrReplace {a : α} :
    a ∈ t.insertOrReplace row ↔ a = row ∨ a ∈ t ∧ key a ≠ key row := by
  have hnew : ∀ b ∈ t.deleteWhere (fun b => decide (key b = key row)), key b ≠ key row :=
    fun b hb => of_decide_eq_false (mem_deleteWhere.mp hb).2
  rw [insertOrReplace, mem_def, rows_insertOrIgnore hnew, List.mem_append, List.mem_singleton,
    ← mem_def, mem_deleteWhere, decide_eq_false_iff_not, or_comm]

/-! ## `UPDATE` -/

/-- A change of the row under a key that keeps the key. -/
def update (k : κ) (f : α → α) (hf : ∀ a, key (f a) = key a) (t : Table key) : Table key where
  rows := t.rows.map fun a => if key a = k then f a else a
  nodup := by
    rw [List.map_map]
    convert t.nodup using 2
    funext a
    show key (if key a = k then f a else a) = key a
    split
    · exact hf a
    · rfl

theorem find?_update (t : Table key) (k k' : κ) (f : α → α) (hf : ∀ a, key (f a) = key a) :
    (t.update k f hf).find? k' = (t.find? k').map fun a => if k' = k then f a else a := by
  have hkey : ∀ a, key (if key a = k then f a else a) = key a := by
    intro a
    split
    · exact hf a
    · rfl
  unfold find? update
  rw [List.find?_map]
  simp only [Function.comp_def, hkey]
  refine Option.map_congr fun a ha => ?_
  have hk : key a = k' := by simpa using List.find?_some ha
  rw [hk]

/-- A row that the change neither alters nor makes of another one. -/
theorem mem_update_of_fixed {k : κ} {f : α → α} (hf : ∀ a, key (f a) = key a) {a : α}
    (hfixed : ∀ b, key b = k → f b = a ∨ b = a → f b = b) :
    a ∈ t.update k f hf ↔ a ∈ t := by
  constructor
  · intro ha
    obtain ⟨b, hb, hba⟩ := List.mem_map.mp ha
    split at hba
    · next hk => exact (hfixed b hk (.inl hba)).symm.trans hba ▸ hb
    · exact hba ▸ hb
  · intro ha
    refine List.mem_map.mpr ⟨a, ha, ?_⟩
    split
    · next hk => exact hfixed a hk (.inr rfl)
    · rfl

end Table

end Cmp.Lib
