import Cmp.Crypto.Symbolic

/-! Message keys are used once. A session holds keys in its skipped map and ahead on
its receiving chain, all distinct, and a DH step adds a chain made from its root key.
Root keys only grow in rank, so that a key that has been used is never made again. -/

namespace Cmp.Crypto

open Cmp.Lib

variable {K Sec C : Type}

/-- A root key ranks below those derived from it. -/
def Suite.RootsGrow (S : Suite K Sec C) (rank : K → Nat) : Prop :=
  ∀ root dh output, S.hkdfRatchet root dh = .ok output → rank root < rank output.1

/-- No ciphertext opens under two keys. -/
def Suite.OneKey (S : Suite K Sec C) : Prop :=
  ∀ k k' c aad aad' p p', S.aeadDecrypt k c aad = .ok p → S.aeadDecrypt k' c aad' = .ok p' → k = k'

/-- Number of root-key derivations in a term. -/
def Term.rootRank : Term → Nat
  | .rootKey root _ => root.rootRank + 1
  | _ => 0

theorem symbolic_rootsGrow : symbolic.RootsGrow Term.rootRank := by
  rintro root dh output ⟨⟩
  exact Nat.lt_succ_self _

theorem kdfCk_eq_ok {S : Suite K Sec C} {chainKey : K} {ckOut : ChainKeyOutput K}
    (h : kdfCk S chainKey = .ok ckOut) :
    ckOut = ⟨S.nextChain chainKey, S.messageKey chainKey⟩ := by
  obtain ⟨mk, hm, h⟩ := (Action.bind_eq_ok _ _ _).mp h
  obtain ⟨ck, hc, h⟩ := (Action.bind_eq_ok _ _ _).mp h
  cases h
  simp only [Suite.nextChain, Suite.messageKey, hm, hc]

theorem kdfRk_eq_ok {S : Suite K Sec C} {rootKey dhOutput : K} {rkOut : RootKeyOutput K}
    (h : kdfRk S rootKey dhOutput = .ok rkOut) :
    S.hkdfRatchet rootKey dhOutput = .ok (rkOut.rootKey, rkOut.chainKey) ∧
      rkOut.chainKey = S.newChain rootKey dhOutput := by
  obtain ⟨output, ho, h⟩ := (Action.bind_eq_ok _ _ _).mp h
  cases h
  refine ⟨ho, ?_⟩
  simp only [Suite.newChain, ho]

/-! ## The supply of keys -/

section Supply

variable (S : Suite K Sec C) (rank : K → Nat)

/-- A key that opens something before the next DH step. -/
def Holds (skipped : SkippedKeysMap K) (chain : Option K) (k : K) : Prop :=
  (∃ id, skipped.lookup id = some k) ∨ ∃ c n, chain = some c ∧ k = S.messageKeyAt c n

/-- A key of a chain that a DH step on `root` can start. -/
def StartsAt (root k : K) : Prop := ∃ d n, k = S.messageKeyAt (S.newChain root d) n

/-- A key of a chain started below `root`. -/
def Older (root k : K) : Prop := ∃ r, rank r < rank root ∧ StartsAt S r k

/-- The keys held are distinct, and none can come out of a later DH step. -/
structure Supply (root : K) (skipped : SkippedKeysMap K) (chain : Option K) : Prop where
  older : ∀ k, Holds S skipped chain k → Older S rank root k
  skipped_inj : ∀ id id' k, skipped.lookup id = some k → skipped.lookup id' = some k → id = id'
  apart : ∀ id k c n, skipped.lookup id = some k → chain = some c → k ≠ S.messageKeyAt c n
  chain_inj : ∀ c, chain = some c → Function.Injective (S.messageKeyAt c)

end Supply

variable {S : Suite K Sec C} {rank : K → Nat} {root root' k c d : K} {skipped : SkippedKeysMap K}
  {chain : Option K}

theorem holds_chain (c : K) (n : Nat) : Holds S skipped (some c) (S.messageKeyAt c n) :=
  .inr ⟨c, n, rfl, rfl⟩

theorem holds_nextChain (h : Holds S skipped (some (S.nextChain c)) k) :
    Holds S skipped (some c) k := by
  rcases h with h | ⟨_, n, ⟨⟩, rfl⟩
  · exact .inl h
  · exact holds_chain c (n + 1)

theorem holds_insert {id : Key32 × UInt32} {k' : K}
    (h : Holds S (skipped.insert id k') chain k) : k = k' ∨ Holds S skipped chain k := by
  rcases h with ⟨id', h⟩ | h
  · rw [HMap.lookup_insert_eq] at h
    split at h
    · cases h; exact .inl rfl
    · exact .inr (.inl ⟨id', h⟩)
  · exact .inr (.inr h)

theorem lookup_erase_some {id id' : Key32 × UInt32}
    (h : (skipped.erase id).lookup id' = some k) : id' ≠ id ∧ skipped.lookup id' = some k := by
  rw [HMap.lookup_erase_eq] at h
  split at h
  · cases h
  · next hne => exact ⟨hne, h⟩

theorem holds_erase {id : Key32 × UInt32} (h : Holds S (skipped.erase id) chain k) :
    Holds S skipped chain k :=
  h.imp_left fun ⟨id', h⟩ => ⟨id', (lookup_erase_some h).2⟩

theorem StartsAt.root_eq (hF : S.Free) (h : StartsAt S root k) (h' : StartsAt S root' k) :
    root = root' := by
  obtain ⟨d, n, rfl⟩ := h
  obtain ⟨d', n', h'⟩ := h'
  exact (hF.messageKeyAt_inj h').2.1

theorem Older.not_startsAt (hF : S.Free) (h : Older S rank root k) : ¬ StartsAt S root k := by
  obtain ⟨r, hr, h⟩ := h
  intro h'
  cases h.root_eq hF h'
  exact Nat.lt_irrefl _ hr

theorem Older.mono (h : Older S rank root k) (hle : rank root ≤ rank root') :
    Older S rank root' k := by
  obtain ⟨r, hr, h⟩ := h
  exact ⟨r, Nat.lt_of_lt_of_le hr hle, h⟩

namespace Supply

theorem messageKey_ne (h : Supply S rank root skipped (some c)) (n : Nat) :
    S.messageKey c ≠ S.messageKeyAt c (n + 1) := by
  intro e
  have : 0 = n + 1 := h.chain_inj c rfl e
  omega

/-- The next key of the chain used. -/
theorem use (h : Supply S rank root skipped (some c)) :
    Supply S rank root skipped (some (S.nextChain c)) where
  older k hk := h.older k (holds_nextChain hk)
  skipped_inj := h.skipped_inj
  apart id k c' n hl hc := by
    cases hc
    exact h.apart id k c (n + 1) hl rfl
  chain_inj c' hc n n' e := by
    cases hc
    exact Nat.succ_injective (h.chain_inj c rfl e)

theorem not_holds_used (h : Supply S rank root skipped (some c)) :
    ¬ Holds S skipped (some (S.nextChain c)) (S.messageKey c) := by
  rintro (⟨id, hl⟩ | ⟨_, n, ⟨⟩, e⟩)
  · exact h.apart id _ c 0 hl rfl rfl
  · exact h.messageKey_ne n e

/-- A key from elsewhere put aside. -/
theorem put (h : Supply S rank root skipped chain) (id : Key32 × UInt32)
    (hold : Older S rank root k) (hnew : ¬ Holds S skipped chain k) :
    Supply S rank root (skipped.insert id k) chain where
  older k' hk' := by
    rcases holds_insert hk' with rfl | hk'
    · exact hold
    · exact h.older _ hk'
  skipped_inj id₁ id₂ k' h₁ h₂ := by
    rw [HMap.lookup_insert_eq] at h₁ h₂
    split at h₁ <;> split at h₂
    · next e₁ e₂ => rw [e₁, e₂]
    · cases h₁; exact absurd (.inl ⟨_, h₂⟩) hnew
    · cases h₂; exact absurd (.inl ⟨_, h₁⟩) hnew
    · exact h.skipped_inj _ _ _ h₁ h₂
  apart id' k' c n h' hc := by
    rw [HMap.lookup_insert_eq] at h'
    split at h'
    · cases h'
      exact fun e => hnew (.inr ⟨c, n, hc, e⟩)
    · exact h.apart _ _ c n h' hc
  chain_inj := h.chain_inj

/-- The next key of the chain put aside. -/
theorem skip (h : Supply S rank root skipped (some c)) (id : Key32 × UInt32) :
    Supply S rank root (skipped.insert id (S.messageKey c)) (some (S.nextChain c)) :=
  h.use.put id (h.older _ (holds_chain c 0)) h.not_holds_used

/-- A key taken out of the skipped map. -/
theorem take (h : Supply S rank root skipped chain) (id : Key32 × UInt32) :
    Supply S rank root (skipped.erase id) chain where
  older k hk := h.older k (holds_erase hk)
  skipped_inj id₁ id₂ k h₁ h₂ :=
    h.skipped_inj id₁ id₂ k (lookup_erase_some h₁).2 (lookup_erase_some h₂).2
  apart id' k c n hl := h.apart id' k c n (lookup_erase_some hl).2
  chain_inj := h.chain_inj

theorem not_holds_taken (h : Supply S rank root skipped chain) {id : Key32 × UInt32}
    (hk : skipped.lookup id = some k) : ¬ Holds S (skipped.erase id) chain k := by
  rintro (⟨id', hl⟩ | ⟨c, n, hc, e⟩)
  · obtain ⟨hne, hl⟩ := lookup_erase_some hl
    exact hne (h.skipped_inj _ _ _ hl hk)
  · exact h.apart id k c n hk hc e

/-- A new chain started from the root key. -/
theorem turn (h : Supply S rank root skipped chain) (hF : S.Free)
    (hrank : rank root < rank root') (d : K) :
    Supply S rank root' skipped (some (S.newChain root d)) where
  older k hk := by
    rcases hk with ⟨id, hl⟩ | ⟨_, n, ⟨⟩, rfl⟩
    · exact (h.older k (.inl ⟨id, hl⟩)).mono hrank.le
    · exact ⟨root, hrank, d, n, rfl⟩
  skipped_inj := h.skipped_inj
  apart id k c n hl hc e := by
    cases hc
    exact (h.older k (.inl ⟨id, hl⟩)).not_startsAt hF ⟨d, n, e⟩
  chain_inj c hc n n' e := by
    cases hc
    exact (hF.messageKeyAt_inj e).1

end Supply

/-! ## Sessions -/

namespace SessionState

variable (S rank)

def Holds (s : SessionState K Sec) (k : K) : Prop :=
  Crypto.Holds S s.skipped s.receivingChainKey k

/-- The keys the next decryption can use. -/
def Reaches (s : SessionState K Sec) (k : K) : Prop := s.Holds S k ∨ StartsAt S s.rootKey k

def Supplied (s : SessionState K Sec) : Prop :=
  Supply S rank s.rootKey s.skipped s.receivingChainKey

/-- A key used up. -/
def Spent (s : SessionState K Sec) (k : K) : Prop := ¬ s.Holds S k ∧ Older S rank s.rootKey k

/-- What every change of a session keeps. -/
structure Advances (s t : SessionState K Sec) : Prop where
  supplied : t.Supplied S rank
  rank_le : rank s.rootKey ≤ rank t.rootKey
  reached : ∀ k, t.Holds S k → s.Reaches S k

end SessionState

variable {s t u : SessionState K Sec}

theorem SessionState.Spent.not_reaches (hF : S.Free) (h : s.Spent S rank k) : ¬ s.Reaches S k :=
  fun hr => hr.elim h.1 (h.2.not_startsAt hF)

theorem SessionState.Spent.advance (hF : S.Free) (h : s.Spent S rank k)
    (ha : s.Advances S rank t) : t.Spent S rank k :=
  ⟨fun hk => h.not_reaches hF (ha.reached k hk), h.2.mono ha.rank_le⟩

theorem Supply.start (root : K) : Supply S rank root ∅ none where
  older k hk := by
    rcases hk with ⟨id, hl⟩ | ⟨c, n, ⟨⟩, _⟩
    cases hl
  skipped_inj _ _ _ h := by cases h
  apart _ _ _ _ _ h := by cases h
  chain_inj _ h := by cases h

theorem SessionState.Advances.refl (hs : s.Supplied S rank) : s.Advances S rank s :=
  ⟨hs, Nat.le_refl _, fun _ => .inl⟩

theorem supplied_initializeBob (secret : K) (pair : RatchetKeyPair Sec) :
    (initializeBob secret pair).Supplied S rank := Supply.start secret

theorem supplied_initializeAlice {drawn : Sec} {secret : K} {bobRatchetPublic : Key32}
    (h : initializeAlice S drawn secret bobRatchetPublic = .ok s) : s.Supplied S rank := by
  obtain ⟨rkOut, -, rfl⟩ := initializeAlice_eq_ok h
  exact Supply.start rkOut.rootKey

theorem not_holds_start : ¬ Holds S (∅ : SkippedKeysMap K) none k := by
  rintro (⟨id, hl⟩ | ⟨c, n, ⟨⟩, _⟩)
  cases hl

/-! ### One call -/

theorem skipLoop_supply (theirKey : Key32) (n : Nat) :
    ∀ (i : UInt32) (c c' : K) (s t : SessionState K Sec),
      (skipLoop S theirKey n i c).run s = .ok c' t → Supply S rank root s.skipped (some c) →
        Supply S rank root t.skipped (some c') ∧
        ∀ k, Holds S t.skipped (some c') k → Holds S s.skipped (some c) k := by
  induction n with
  | zero =>
    intro i c c' s t h hs
    cases h
    exact ⟨hs, fun _ => id⟩
  | succ n ih =>
    intro i c c' s t h hs
    simp only [skipLoop, Action.run_bind_eq_ok, Action.run_ofExcept_eq_ok, Action.run_modify] at h
    obtain ⟨ckOut, _, ⟨hck, rfl⟩, _, _, ⟨⟩, h⟩ := h
    cases kdfCk_eq_ok hck
    obtain ⟨ht, hheld⟩ := ih _ _ _ _ _ h (hs.skip (theirKey, i))
    refine ⟨ht, fun k hk => ?_⟩
    rcases holds_insert (hheld k hk) with rfl | hk
    · exact holds_chain c 0
    · exact holds_nextChain hk

/-- What a successful skip did: nothing, or a loop along the receiving chain. -/
theorem skipMessageKeys_cases {current til : UInt32}
    (h : (skipMessageKeys S current til).run s = .ok () t) :
    t = s ∨ ∃ theirKey c c' n u, s.receivingChainKey = some c ∧
      (skipLoop S theirKey n current c).run s = .ok c' u ∧
      t = { u with receivingChainKey := some c' } := by
  simp only [skipMessageKeys, Action.run_ite, Action.run_pure] at h
  split at h
  · cases h; exact .inl rfl
  · simp only [Action.run_bind_eq_ok, Action.run_get, Action.run_ite, Action.run_throw] at h
    obtain ⟨_, _, ⟨⟩, h⟩ := h
    split at h
    · cases h
    · split at h
      · next theirKey c hkey hc =>
        simp only [Action.run_bind_eq_ok, Action.run_modify] at h
        obtain ⟨c', u, hl, ⟨⟩⟩ := h
        exact .inr ⟨theirKey, c, c', _, u, hc, hl, rfl⟩
      · cases h; exact .inl rfl

/-- A skip moves keys, and makes none. -/
theorem skipMessageKeys_supply (current til : UInt32)
    (h : (skipMessageKeys S current til).run s = .ok () t) (hs : s.Supplied S rank) :
    t.Supplied S rank ∧ ∀ k, t.Holds S k → s.Holds S k := by
  rcases skipMessageKeys_cases h with rfl | ⟨theirKey, c, c', n, u, hc, hl, rfl⟩
  · exact ⟨hs, fun _ => id⟩
  · have hroot : u.rootKey = s.rootKey := by rw [skipLoop_frame S _ _ _ _ _ _ _ hl]
    simp only [SessionState.Supplied, SessionState.Holds, hc, hroot] at hs ⊢
    exact skipLoop_supply theirKey _ _ _ _ _ _ hl hs

theorem skipOldChain_supply (header : RatchetHeader)
    (h : (skipOldChain S header).run s = .ok () t) (hs : s.Supplied S rank) :
    t.Supplied S rank ∧ (∀ k, t.Holds S k → s.Holds S k) ∧ t.rootKey = s.rootKey := by
  rw [skipOldChain_run] at h
  split at h
  · obtain ⟨ht, hheld⟩ := skipMessageKeys_supply _ _ h hs
    exact ⟨ht, hheld, by rw [skipMessageKeys_frame S _ _ _ _ h]⟩
  · cases h; exact ⟨hs, fun _ => id, rfl⟩

theorem dhStepIfNeeded_advances (hF : S.Free) (hR : S.RootsGrow rank) (drawn : Sec)
    (header : RatchetHeader) (h : (dhStepIfNeeded S drawn header).run s = .ok () t)
    (hs : s.Supplied S rank) : s.Advances S rank t := by
  rw [dhStepIfNeeded_run] at h
  split at h
  · obtain ⟨u, rkOut, rkOut2, hu, h₁, h₂, rfl⟩ := (dhStep_eq_ok S _ _ _ _).mp h
    obtain ⟨hsu, hheld, hroot⟩ := skipOldChain_supply header hu hs
    obtain ⟨hk₁, hc⟩ := kdfRk_eq_ok h₁
    have hrank : rank u.rootKey < rank rkOut2.rootKey :=
      Nat.lt_trans (hR _ _ _ hk₁) (hR _ _ _ (kdfRk_eq_ok h₂).1)
    refine ⟨?_, by rw [← hroot]; exact hrank.le, fun k hk => ?_⟩
    · have := hsu.turn hF hrank (S.diffieHellman u.ourRatchet.secretBytes header.ratchetKey)
      rw [← hc] at this
      exact this
    · rcases hk with ⟨id, hl⟩ | ⟨_, n, ⟨⟩, rfl⟩
      · exact .inl (hheld k (.inl ⟨id, hl⟩))
      · exact .inr ⟨_, n, by rw [hc, hroot]⟩
  · cases h
    exact .refl hs

/-- **A decryption uses up one key** that the session could reach, and makes no other
key reachable again. -/
theorem decrypt_spends (hF : S.Free) (hR : S.RootsGrow rank) (drawn : Sec)
    (header : RatchetHeader) (ct : C) (aad p : Bytes) (hs : s.Supplied S rank)
    (h : (decrypt S drawn header ct aad).run s = .ok p t) :
    ∃ k, S.aeadDecrypt k ct (authenticatedData aad header) = .ok p ∧ s.Reaches S k ∧
      t.Spent S rank k ∧ s.Advances S rank t := by
  rcases (decrypt_eq_ok S _ _ _ _ _ _ _).mp h with ⟨k, hk, hp, rfl⟩ | ⟨-, h⟩
  · -- the key was put aside: it leaves the skipped map
    have hold : s.Holds S k := .inl ⟨_, hk⟩
    exact ⟨k, hp, .inl hold, ⟨hs.not_holds_taken hk, hs.older k hold⟩,
      hs.take _, Nat.le_refl _, fun _ hk' => .inl (holds_erase hk')⟩
  · obtain ⟨u, v, c, ckOut, hu, hv, hc, hck, hp, -, rfl⟩ :=
      (tryDecryptInner_eq_ok S _ _ _ _ _ _ _).mp h
    cases kdfCk_eq_ok hck
    have ha := dhStepIfNeeded_advances hF hR drawn header hu hs
    obtain ⟨hsv, hheld⟩ := skipMessageKeys_supply _ _ hv ha.supplied
    have hroot : v.rootKey = u.rootKey := by rw [skipMessageKeys_frame S _ _ _ _ hv]
    have hold : v.Holds S (S.messageKey c) := by
      rw [SessionState.Holds, hc]
      exact holds_chain c 0
    have hold' := hsv.older _ hold
    rw [SessionState.Supplied, hc] at hsv
    refine ⟨_, hp, ha.reached _ (hheld _ hold), ⟨hsv.not_holds_used, hold'⟩, hsv.use, ?_, ?_⟩
    · exact ha.rank_le.trans (by rw [← hroot])
    · intro k hk
      refine ha.reached k (hheld k ?_)
      rw [SessionState.Holds, hc]
      exact holds_nextChain hk

theorem encrypt_advances (plaintext aad : Bytes) (m : RatchetMessage C) (hs : s.Supplied S rank)
    (h : (encrypt S plaintext aad).run s = .ok m t) : s.Advances S rank t := by
  obtain ⟨-, _, _, -, -, -, -, rfl⟩ := (encrypt_eq_ok S _ _ _ _ _).mp h
  exact ⟨hs, Nat.le_refl _, fun _ => .inl⟩

end Cmp.Crypto
