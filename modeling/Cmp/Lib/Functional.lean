import Mathlib.Data.List.Nodup

/-! Lists of named values in which no name stands for two values. -/

namespace Cmp.Lib

variable {α β : Type}

def Functional (entries : List (α × β)) : Prop :=
  ∀ a ∈ entries, ∀ b ∈ entries, a.1 = b.1 → a.2 = b.2

namespace Functional

variable {entries fresh rows : List (α × β)}

theorem nil : Functional ([] : List (α × β)) := fun _ h => by cases h

theorem of_nodup (h : (entries.map Prod.fst).Nodup) : Functional entries :=
  fun _ ha _ hb hname => congrArg Prod.snd (List.inj_on_of_nodup_map h ha hb hname)

/-- Rows that are known, or from a batch with names of its own. -/
theorem extend (h : Functional entries) (hfresh : Functional fresh)
    (hrows : ∀ row ∈ rows, row ∈ entries ∨ row ∈ fresh)
    (hnew : ∀ e ∈ entries, ∀ f ∈ fresh, e.1 ≠ f.1) : Functional (entries ++ rows) := by
  have hfrom : ∀ row ∈ entries ++ rows, row ∈ entries ∨ row ∈ fresh := by
    intro row hrow
    rcases List.mem_append.mp hrow with hrow | hrow
    · exact .inl hrow
    · exact hrows row hrow
  intro a ha b hb hname
  rcases hfrom a ha with ha | ha <;> rcases hfrom b hb with hb | hb
  · exact h a ha b hb hname
  · exact absurd hname (hnew a ha b hb)
  · exact absurd hname.symm (hnew b hb a ha)
  · exact hfresh a ha b hb hname

end Functional

end Cmp.Lib
