import Cmp.Crypto.KeySchedule

/-! Which keys the skipped map of a session holds: those of the chains it follows
that lie before its position on the chain and have not been used. The lemmas say
how a skip, a use and a removal move the positions. -/

namespace Cmp.Crypto

open Cmp.Lib

variable {K Sec C : Type} {S : Suite K Sec C}

theorem messageKeyAt_iterate (chainKey : K) (i n : Nat) :
    S.messageKeyAt (S.nextChain^[i] chainKey) n = S.messageKeyAt chainKey (n + i) := by
  unfold Suite.messageKeyAt
  rw [Function.iterate_add_apply]

/-- `m` holds exactly the keys of the chains in `A` below `pos` that are not in
`opened`; chain `e` has ratchet key `pub e` and message keys `key e`. -/
def HoldsKeys (A : Nat → Prop) (pub : Nat → Key32) (key : Nat → UInt32 → K) (pos : Nat → UInt32)
    (opened : List (Key32 × UInt32)) (m : SkippedKeysMap K) : Prop :=
  ∀ id k, m.lookup id = some k ↔
    ∃ e, A e ∧ id.1 = pub e ∧ id.2 < pos e ∧ id ∉ opened ∧ k = key e id.2

namespace HoldsKeys

variable {A : Nat → Prop} {pub : Nat → Key32} {key : Nat → UInt32 → K} {pos : Nat → UInt32}
  {opened : List (Key32 × UInt32)} {m : SkippedKeysMap K}

theorem empty (h : ∀ e, A e → pos e = 0) :
    HoldsKeys A pub key pos opened (∅ : SkippedKeysMap K) := by
  intro id k
  constructor
  · intro hk
    rw [Finmap.lookup_empty] at hk
    cases hk
  · rintro ⟨e, ha, _, hlt, _⟩
    rw [h e ha] at hlt
    exact absurd hlt UInt32.not_lt_zero

theorem congr {A' : Nat → Prop} {pub' : Nat → Key32} {key' : Nat → UInt32 → K}
    {pos' : Nat → UInt32} (h : HoldsKeys A pub key pos opened m) (hA : ∀ e, A' e ↔ A e)
    (hpub : ∀ e, A e → pub' e = pub e) (hkey : ∀ e, A e → key' e = key e)
    (hpos : ∀ e, A e → pos' e = pos e) : HoldsKeys A' pub' key' pos' opened m := by
  intro id k
  rw [h id k]
  constructor
  · rintro ⟨e, ha, hp, hlt, ho, hk⟩
    exact ⟨e, (hA e).mpr ha, (hpub e ha).symm ▸ hp, (hpos e ha).symm ▸ hlt, ho,
      (hkey e ha).symm ▸ hk⟩
  · rintro ⟨e, ha', hp, hlt, ho, hk⟩
    have ha := (hA e).mp ha'
    exact ⟨e, ha, hpub e ha ▸ hp, hpos e ha ▸ hlt, ho, hkey e ha ▸ hk⟩

/-- A chain that starts now has no keys in the map yet. -/
theorem add_chain (h : HoldsKeys A pub key pos opened m) (e : Nat) (hpos : pos e = 0) :
    HoldsKeys (fun i => i = e ∨ A i) pub key pos opened m := by
  intro id k
  rw [h id k]
  constructor
  · rintro ⟨i, ha, hrest⟩
    exact ⟨i, .inr ha, hrest⟩
  · rintro ⟨i, rfl | ha, hrest⟩
    · rw [hpos] at hrest
      exact absurd hrest.2.1 UInt32.not_lt_zero
    · exact ⟨i, ha, hrest⟩

/-- Storing the keys of chain `e` from its position to `til` moves the position there. -/
theorem skipRange {e : Nat} (h : HoldsKeys A pub key pos opened m) (he : A e)
    (hinj : ∀ i, A i → pub i = pub e → i = e)
    (hopen : ∀ id ∈ opened, id.1 = pub e → id.2 < pos e) (til : UInt32) (hle : pos e ≤ til)
    (chainKey : K)
    (hkey : ∀ n, pos e ≤ n → key e n = S.messageKeyAt chainKey (n.toNat - (pos e).toNat)) :
    HoldsKeys A pub key (Function.update pos e til) opened
      (Crypto.skipRange S (pub e) (til.toNat - (pos e).toNat) (pos e) chainKey m) := by
  have hleN := UInt32.le_iff_toNat_le.mp hle
  have htil : til.toNat < UInt32.size := til.toNat_lt
  intro id k
  obtain ⟨key0, n⟩ := id
  rw [lookup_skipRange _ _ _ _ _ _ _ (by omega)]
  by_cases hr : key0 = pub e ∧ (pos e).toNat ≤ n.toNat ∧ n.toNat < til.toNat
  · rw [if_pos ⟨hr.1, hr.2.1, by omega⟩]
    obtain ⟨rfl, hlo, hhi⟩ := hr
    have hpn : pos e ≤ n := UInt32.le_iff_toNat_le.mpr hlo
    constructor
    · intro hk
      refine ⟨e, he, rfl, ?_, ?_, ?_⟩
      · rw [Function.update_self]
        exact UInt32.lt_iff_toNat_lt.mpr hhi
      · intro ho
        exact absurd (hopen _ ho rfl) (UInt32.not_lt.mpr hpn)
      · rw [hkey n hpn]
        exact (Option.some.inj hk).symm
    · rintro ⟨i, hi, hp, -, -, rfl⟩
      rw [hinj i hi hp.symm, hkey n hpn]
  · rw [if_neg (fun hc => hr ⟨hc.1, hc.2.1, by omega⟩), h]
    constructor
    · rintro ⟨i, hi, hp, hlt, ho, hk⟩
      refine ⟨i, hi, hp, ?_, ho, hk⟩
      by_cases hie : i = e
      · subst hie
        rw [Function.update_self]
        exact UInt32.lt_of_lt_of_le hlt hle
      · rwa [Function.update_of_ne hie]
    · rintro ⟨i, hi, hp, hlt, ho, hk⟩
      refine ⟨i, hi, hp, ?_, ho, hk⟩
      by_cases hie : i = e
      · subst hie
        rw [Function.update_self, UInt32.lt_iff_toNat_lt] at hlt
        rw [UInt32.lt_iff_toNat_lt]
        by_contra hc
        exact hr ⟨hp, Nat.not_lt.mp hc, hlt⟩
      · rwa [Function.update_of_ne hie] at hlt

/-- The message at the position of chain `e` is opened without being stored. -/
theorem open_next {e : Nat} (h : HoldsKeys A pub key pos opened m)
    (hinj : ∀ i, A i → pub i = pub e → i = e) (hc : (pos e).toNat + 1 < UInt32.size) :
    HoldsKeys A pub key (Function.update pos e (pos e + 1)) ((pub e, pos e) :: opened) m := by
  intro id k
  rw [h id k]
  constructor
  · rintro ⟨i, hi, hp, hlt, ho, hk⟩
    refine ⟨i, hi, hp, ?_, ?_, hk⟩
    · by_cases hie : i = e
      · subst hie
        rw [Function.update_self, UInt32.lt_iff_toNat_lt, toNat_succ hc]
        exact Nat.lt_succ_of_lt (UInt32.lt_iff_toNat_lt.mp hlt)
      · rwa [Function.update_of_ne hie]
    · intro hmem
      cases List.mem_cons.mp hmem with
      | inl heq =>
        subst heq
        have hie := hinj i hi hp.symm
        subst hie
        exact UInt32.lt_irrefl _ hlt
      | inr hold => exact ho hold
  · rintro ⟨i, hi, hp, hlt, ho, hk⟩
    have hne : id ≠ (pub e, pos e) := fun heq => ho (heq ▸ List.mem_cons_self)
    refine ⟨i, hi, hp, ?_, fun hold => ho (List.mem_cons_of_mem _ hold), hk⟩
    by_cases hie : i = e
    · subst hie
      rw [Function.update_self, UInt32.lt_iff_toNat_lt, toNat_succ hc] at hlt
      rw [UInt32.lt_iff_toNat_lt]
      have : id.2.toNat ≠ (pos i).toNat :=
        fun heq => hne (Prod.ext hp (UInt32.toNat_inj.mp heq))
      omega
    · rwa [Function.update_of_ne hie] at hlt

/-- A stored key is used. -/
theorem erase (h : HoldsKeys A pub key pos opened m) (id : Key32 × UInt32) :
    HoldsKeys A pub key pos (id :: opened) (Finmap.erase id m) := by
  intro id' k
  rw [HMap.lookup_erase_eq]
  by_cases heq : id' = id
  · subst heq
    simp
  · rw [if_neg heq, h]
    simp only [List.mem_cons, heq, false_or]

/-- Opening a message of a chain that is not followed changes nothing. -/
theorem open_other (h : HoldsKeys A pub key pos opened m) (id : Key32 × UInt32)
    (hid : ∀ e, A e → id.1 ≠ pub e) : HoldsKeys A pub key pos (id :: opened) m := by
  intro id' k
  rw [h id' k]
  constructor
  · rintro ⟨e, ha, hp, hlt, ho, hk⟩
    refine ⟨e, ha, hp, hlt, ?_, hk⟩
    intro hmem
    cases List.mem_cons.mp hmem with
    | inl heq => exact hid e ha (heq ▸ hp)
    | inr hold => exact ho hold
  · rintro ⟨e, ha, hp, hlt, ho, hk⟩
    exact ⟨e, ha, hp, hlt, fun hold => ho (List.mem_cons_of_mem _ hold), hk⟩

end HoldsKeys

end Cmp.Crypto
