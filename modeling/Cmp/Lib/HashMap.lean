import Mathlib.Data.Finmap

/-! `std::collections::HashMap` as a finite map with extensional equality, over
Mathlib's `Finmap`. -/

namespace Cmp.Lib

abbrev HMap (α β : Type) := Finmap (fun _ : α => β)

namespace HMap

variable {α β : Type} [DecidableEq α]

/-- `HashMap::len`. -/
def size (m : HMap α β) : Nat := m.keys.card

theorem keys_insert (a : α) (b : β) (m : HMap α β) :
    (Finmap.insert a b m).keys = insert a m.keys := by
  ext x
  simp [Finmap.mem_keys]

theorem size_insert_le (a : α) (b : β) (m : HMap α β) :
    size (Finmap.insert a b m) ≤ size m + 1 := by
  unfold size
  rw [keys_insert]
  exact Finset.card_insert_le _ _

theorem size_erase_le (a : α) (m : HMap α β) : size (Finmap.erase a m) ≤ size m := by
  unfold size
  rw [Finmap.keys_erase]
  exact Finset.card_erase_le

theorem lookup_insert_eq (a x : α) (b : β) (m : HMap α β) :
    (Finmap.insert a b m).lookup x = if x = a then some b else m.lookup x := by
  split
  · next h => subst h; exact Finmap.lookup_insert m
  · next h => exact Finmap.lookup_insert_of_ne m h

theorem lookup_erase_eq (a x : α) (m : HMap α β) :
    (Finmap.erase a m).lookup x = if x = a then none else m.lookup x := by
  split
  · next h => subst h; exact Finmap.lookup_erase x m
  · next h => exact Finmap.lookup_erase_ne h

/-- Removing a key and putting it back with its value changes nothing. -/
theorem insert_erase_self (a : α) (b : β) (m : HMap α β) (h : m.lookup a = some b) :
    Finmap.insert a b (Finmap.erase a m) = m := by
  apply Finmap.ext_lookup
  intro x
  rw [lookup_insert_eq, lookup_erase_eq]
  split
  · next hx => rw [hx, h]
  · rfl

/-- Writing the value that is there changes nothing. -/
theorem insert_lookup_self (a : α) (b : β) (m : HMap α β) (h : m.lookup a = some b) :
    Finmap.insert a b m = m := by
  apply Finmap.ext_lookup
  intro x
  rw [lookup_insert_eq]
  split
  · next hx => rw [hx, h]
  · rfl

/-- Removing an absent key changes nothing. -/
theorem erase_absent (a : α) (m : HMap α β) (h : m.lookup a = none) : Finmap.erase a m = m := by
  apply Finmap.ext_lookup
  intro x
  rw [lookup_erase_eq]
  split
  · next hx => rw [hx, h]
  · rfl

/-- A new key put in and taken out changes nothing. -/
theorem erase_insert_new (a : α) (b : β) (m : HMap α β) (h : m.lookup a = none) :
    Finmap.erase a (Finmap.insert a b m) = m := by
  apply Finmap.ext_lookup
  intro x
  rw [lookup_erase_eq, lookup_insert_eq]
  split
  · next hx => rw [hx, h]
  · rfl

/-- `HashMap::retain`. -/
def filter (p : α → β → Bool) (m : HMap α β) : HMap α β :=
  m.liftOn
    (fun l => (⟨l.entries.filter fun e => p e.1 e.2,
      l.nodupKeys.sublist List.filter_sublist⟩ : AList fun _ : α => β).toFinmap)
    (fun _ _ h => AList.toFinmap_eq.mpr (h.filter _))

theorem dlookup_filter (p : α → β → Bool) (a : α) (l : List (Sigma fun _ : α => β))
    (hl : l.NodupKeys) :
    (l.filter fun e => p e.1 e.2).dlookup a = (l.dlookup a).filter (p a) := by
  induction l with
  | nil => rfl
  | cons e l ih =>
    obtain ⟨k, v⟩ := e
    obtain ⟨hk, hl'⟩ := List.nodupKeys_cons.mp hl
    by_cases hak : a = k
    · subst hak
      have hnone : (l.filter fun e => p e.1 e.2).dlookup a = none := by
        rw [List.dlookup_eq_none]
        intro hmem
        exact hk ((List.filter_sublist.map Sigma.fst).subset hmem)
      rw [List.dlookup_cons_eq, List.filter_cons]
      cases hp : p a v with
      | true => rw [Option.filter_some_pos hp]; simp
      | false => rw [Option.filter_some_neg (by simp [hp])]; simp [hnone]
    · rw [List.dlookup_cons_ne _ _ hak, List.filter_cons, ← ih hl']
      split
      · rw [List.dlookup_cons_ne _ _ hak]
      · rfl

theorem lookup_filter (p : α → β → Bool) (a : α) (m : HMap α β) :
    (filter p m).lookup a = (m.lookup a).filter (p a) := by
  induction m using Finmap.induction_on with
  | H l => exact dlookup_filter p a l.entries l.nodupKeys

theorem lookup_filter_eq_some {p : α → β → Bool} {a : α} {m : HMap α β} {b : β} :
    (filter p m).lookup a = some b ↔ m.lookup a = some b ∧ p a b = true := by
  rw [lookup_filter, Option.filter_eq_some_iff]

theorem mem_filter_key (p : α → Bool) (a : α) (m : HMap α β) :
    a ∈ filter (fun a _ => p a) m ↔ a ∈ m ∧ p a = true := by
  simp only [Finmap.mem_iff, lookup_filter_eq_some]
  exact ⟨fun ⟨b, hb, hp⟩ => ⟨⟨b, hb⟩, hp⟩, fun ⟨⟨b, hb⟩, hp⟩ => ⟨b, hb, hp⟩⟩

/-- The map that sends every key of `m` to `b`. -/
def constOn (b : β) {γ : Type} (m : HMap α γ) : HMap α β :=
  m.liftOn
    (fun l => (⟨l.entries.map fun e => ⟨e.1, b⟩, by
      simpa [List.NodupKeys, List.keys, Function.comp_def] using l.nodupKeys⟩ : AList fun _ : α =>
        β).toFinmap)
    (fun _ _ h => AList.toFinmap_eq.mpr (h.map _))

theorem dlookup_const {γ : Type} (b : β) (a : α) (l : List (Sigma fun _ : α => γ)) :
    List.dlookup a (l.map fun e => (⟨e.1, b⟩ : Sigma fun _ : α => β)) =
      (l.dlookup a).map fun _ => b := by
  induction l with
  | nil => rfl
  | cons e l ih =>
    obtain ⟨k, v⟩ := e
    by_cases hak : a = k
    · subst hak
      simp
    · rw [List.map_cons, List.dlookup_cons_ne _ _ hak, List.dlookup_cons_ne _ _ hak, ih]

theorem lookup_constOn {γ : Type} (b : β) (a : α) (m : HMap α γ) :
    (constOn b m).lookup a = (m.lookup a).map fun _ => b := by
  induction m using Finmap.induction_on with
  | H l => exact dlookup_const b a l.entries

/-- `HashMap::extend`: later entries win. -/
def insertAll (entries : List (α × β)) (m : HMap α β) : HMap α β :=
  entries.foldl (fun m e => m.insert e.1 e.2) m

theorem insertAll_cons (e : α × β) (entries : List (α × β)) (m : HMap α β) :
    insertAll (e :: entries) m = insertAll entries (m.insert e.1 e.2) := rfl

theorem mem_insertAll (entries : List (α × β)) (a : α) :
    ∀ m : HMap α β, a ∈ insertAll entries m ↔ a ∈ entries.map Prod.fst ∨ a ∈ m := by
  induction entries with
  | nil => intro m; simp [insertAll]
  | cons e entries ih =>
    intro m
    rw [insertAll_cons, ih, Finmap.mem_insert, List.map_cons, List.mem_cons]
    tauto

theorem lookup_insertAll_of_notMem (entries : List (α × β)) (a : α)
    (h : a ∉ entries.map Prod.fst) :
    ∀ m : HMap α β, (insertAll entries m).lookup a = m.lookup a := by
  induction entries with
  | nil => intro m; rfl
  | cons e entries ih =>
    intro m
    rw [List.map_cons, List.mem_cons, not_or] at h
    rw [insertAll_cons, ih h.2, lookup_insert_eq, if_neg h.1]

/-- With distinct keys every entry is found. -/
theorem lookup_insertAll_of_mem {a : α} {b : β} (entries : List (α × β))
    (hnodup : (entries.map Prod.fst).Nodup) (hmem : (a, b) ∈ entries) :
    ∀ m : HMap α β, (insertAll entries m).lookup a = some b := by
  induction entries with
  | nil => cases hmem
  | cons e entries ih =>
    intro m
    rw [List.map_cons, List.nodup_cons] at hnodup
    rw [insertAll_cons]
    rcases List.mem_cons.mp hmem with rfl | hmem
    · rw [lookup_insertAll_of_notMem entries a hnodup.1, lookup_insert_eq, if_pos rfl]
    · exact ih hnodup.2 hmem _

theorem lookup_insertAll_eq_some {a : α} {b : β} (entries : List (α × β)) :
    ∀ m : HMap α β, (insertAll entries m).lookup a = some b →
      (a, b) ∈ entries ∨ m.lookup a = some b := by
  induction entries with
  | nil => exact fun m h => .inr h
  | cons e entries ih =>
    intro m h
    rw [insertAll_cons] at h
    rcases ih _ h with hmem | hlookup
    · exact .inl (List.mem_cons_of_mem _ hmem)
    · rw [lookup_insert_eq] at hlookup
      split at hlookup
      · next heq =>
        cases hlookup
        rw [heq]
        exact .inl List.mem_cons_self
      · exact .inr hlookup

/-- An order in which the entries of a map can be visited. -/
structure Iterates (m : HMap α β) (entries : List (α × β)) : Prop where
  nodup : (entries.map Prod.fst).Nodup
  mem : ∀ a b, (a, b) ∈ entries ↔ m.lookup a = some b

theorem exists_iterates (m : HMap α β) : ∃ entries, Iterates m entries := by
  induction m using Finmap.induction_on with
  | H l =>
    refine ⟨l.entries.map fun e => (e.1, e.2), ?_, fun a b => ?_⟩
    · rw [List.map_map]
      exact l.nodupKeys
    · rw [Finmap.lookup_toFinmap, ← Option.mem_def, AList.mem_lookup_iff, List.mem_map]
      constructor
      · rintro ⟨⟨a', b'⟩, hmem, heq⟩
        cases heq
        exact hmem
      · intro hmem
        exact ⟨⟨a, b⟩, hmem, rfl⟩

namespace Iterates

variable {m : HMap α β} {entries : List (α × β)}

theorem length (h : Iterates m entries) : entries.length = size m := by
  have hkeys : m.keys = (entries.map Prod.fst).toFinset := by
    ext a
    rw [Finmap.mem_keys, Finmap.mem_iff, List.mem_toFinset, List.mem_map]
    constructor
    · rintro ⟨b, hb⟩
      exact ⟨(a, b), (h.mem a b).mpr hb, rfl⟩
    · rintro ⟨⟨a', b⟩, hmem, rfl⟩
      exact ⟨b, (h.mem a' b).mp hmem⟩
  unfold size
  rw [hkeys, List.toFinset_card_of_nodup h.nodup, List.length_map]

/-- Collecting the entries gives the map back. -/
theorem insertAll_empty (h : Iterates m entries) : insertAll entries ∅ = m := by
  apply Finmap.ext_lookup
  intro a
  cases hm : m.lookup a with
  | some b => exact lookup_insertAll_of_mem entries h.nodup ((h.mem a b).mpr hm) ∅
  | none =>
    cases hall : (insertAll entries ∅).lookup a with
    | none => rfl
    | some b =>
      rcases lookup_insertAll_eq_some entries ∅ hall with hmem | hempty
      · cases hm.symm.trans ((h.mem a b).mp hmem)
      · rw [Finmap.lookup_empty] at hempty
        cases hempty

end Iterates

theorem insertAll_insert_comm (entries : List (α × β)) (a : α) (b : β)
    (h : a ∉ entries.map Prod.fst) :
    ∀ m : HMap α β, insertAll entries (m.insert a b) = (insertAll entries m).insert a b := by
  induction entries with
  | nil => intro m; rfl
  | cons e entries ih =>
    intro m
    rw [List.map_cons, List.mem_cons, not_or] at h
    rw [insertAll_cons, insertAll_cons, Finmap.insert_insert_of_ne m h.1, ih h.2]

/-- Take the entries of `ids` out, one after the other. -/
def removeAll : List α → HMap α β → List (α × β) × HMap α β
  | [], m => ([], m)
  | a :: ids, m =>
    match m.lookup a with
    | some b => ((a, b) :: (removeAll ids (m.erase a)).1, (removeAll ids (m.erase a)).2)
    | none => removeAll ids m

theorem lookup_removeAll (ids : List α) (x : α) :
    ∀ m : HMap α β, (removeAll ids m).2.lookup x = if x ∈ ids then none else m.lookup x := by
  induction ids with
  | nil => intro m; simp [removeAll]
  | cons a ids ih =>
    intro m
    unfold removeAll
    by_cases hx : x = a
    · subst hx
      cases hm : m.lookup x with
      | some b => simp [ih]
      | none => simp [ih, hm]
    · cases hm : m.lookup a with
      | some b | none => simp [ih, hx]

theorem mem_of_mem_removeAll (ids : List α) (x : α) :
    ∀ m : HMap α β, x ∈ (removeAll ids m).1.map Prod.fst → x ∈ ids ∧ x ∈ m := by
  induction ids with
  | nil => intro m h; cases h
  | cons a ids ih =>
    intro m h
    unfold removeAll at h
    cases hm : m.lookup a with
    | some b =>
      rw [hm] at h
      rcases List.mem_cons.mp h with rfl | h'
      · exact ⟨List.mem_cons_self, Finmap.mem_of_lookup_eq_some hm⟩
      · obtain ⟨h1, h2⟩ := ih _ h'
        exact ⟨List.mem_cons_of_mem _ h1, (Finmap.mem_erase.mp h2).2⟩
    | none =>
      rw [hm] at h
      obtain ⟨h1, h2⟩ := ih _ h
      exact ⟨List.mem_cons_of_mem _ h1, h2⟩

theorem mem_removeAll_of_mem (ids : List α) (x : α) :
    ∀ m : HMap α β, x ∈ ids → x ∈ m → x ∈ (removeAll ids m).1.map Prod.fst := by
  induction ids with
  | nil => intro m h; cases h
  | cons a ids ih =>
    intro m hids hm
    unfold removeAll
    by_cases hx : x = a
    · subst hx
      obtain ⟨b, hb⟩ := Finmap.mem_iff.mp hm
      simp [hb]
    · have hrest : x ∈ ids := (List.mem_cons.mp hids).resolve_left hx
      cases hl : m.lookup a with
      | some b =>
        rw [List.map_cons]
        exact List.mem_cons_of_mem _ (ih _ hrest (Finmap.mem_erase.mpr ⟨hx, hm⟩))
      | none => exact ih _ hrest hm

theorem mem_removeAll (ids : List α) (x : α) (m : HMap α β) :
    x ∈ (removeAll ids m).2 ↔ x ∈ m ∧ x ∉ ids := by
  rw [Finmap.mem_iff, Finmap.mem_iff, lookup_removeAll]
  split
  · next h => simp [h]
  · next h => simp [h]

/-- What was taken out and is put back restores the map. -/
theorem insertAll_removeAll (ids : List α) :
    ∀ m : HMap α β, insertAll (removeAll ids m).1 (removeAll ids m).2 = m := by
  induction ids with
  | nil => intro m; rfl
  | cons a ids ih =>
    intro m
    unfold removeAll
    cases hm : m.lookup a with
    | none => exact ih m
    | some b =>
      have hout : a ∉ (removeAll ids (m.erase a)).1.map Prod.fst := by
        intro h
        exact Finmap.notMem_erase_self (mem_of_mem_removeAll ids a _ h).2
      show insertAll (removeAll ids (m.erase a)).1 ((removeAll ids (m.erase a)).2.insert a b) = m
      rw [insertAll_insert_comm _ _ _ hout, ih, insert_erase_self a b m hm]

/-- Entries put into the part of a map where `p` fails and taken out again, with the other part
put back: what was there under a new key where `p` fails is lost. -/
theorem lookup_union_removeAll (p : α → Bool) (entries : List (α × β)) (m : HMap α β) (a : α) :
    (filter (fun a _ => p a) m ∪
        (removeAll (entries.map Prod.fst)
          (insertAll entries (filter (fun a _ => !p a) m))).2).lookup a =
      if a ∈ entries.map Prod.fst ∧ p a = false then none else m.lookup a := by
  by_cases hmem : a ∈ filter (fun a _ => p a) m
  · rw [Finmap.lookup_union_left hmem, if_neg]
    · obtain ⟨b, hb⟩ := Finmap.mem_iff.mp hmem
      rw [hb, (lookup_filter_eq_some.mp hb).1]
    · rintro ⟨-, hp⟩
      rw [((mem_filter_key p a m).mp hmem).2] at hp
      cases hp
  · rw [Finmap.lookup_union_right hmem, lookup_removeAll]
    cases hp : p a with
    | true =>
      have hnone : m.lookup a = none :=
        Finmap.lookup_eq_none.mpr fun h => hmem ((mem_filter_key p a m).mpr ⟨h, hp⟩)
      rw [hnone, ite_self]
      split
      · rfl
      · next hnew => rw [lookup_insertAll_of_notMem entries a hnew, lookup_filter, hnone]; rfl
    | false =>
      split
      · next hnew => rw [if_pos ⟨hnew, rfl⟩]
      · next hnew =>
        rw [if_neg fun h => hnew h.1, lookup_insertAll_of_notMem entries a hnew, lookup_filter, hp]
        cases m.lookup a <;> rfl

theorem union_removeAll_eq_iff (p : α → Bool) (entries : List (α × β)) (m : HMap α β) :
    filter (fun a _ => p a) m ∪
        (removeAll (entries.map Prod.fst)
          (insertAll entries (filter (fun a _ => !p a) m))).2 = m ↔
      ∀ a ∈ entries.map Prod.fst, a ∈ m → p a = true := by
  constructor
  · intro h a ha hmem
    by_contra hp
    have hlookup := lookup_union_removeAll p entries m a
    rw [h, if_pos ⟨ha, eq_false_of_ne_true hp⟩] at hlookup
    exact Finmap.lookup_eq_none.mp hlookup hmem
  · intro h
    apply Finmap.ext_lookup
    intro a
    rw [lookup_union_removeAll]
    split
    · next hlost =>
      have hnot : a ∉ m := by
        intro hmem
        rw [h a hlost.1 hmem] at hlost
        cases hlost.2
      exact (Finmap.lookup_eq_none.mpr hnot).symm
    · rfl

end HMap

end Cmp.Lib
