import Cmp.Crypto.Spent

/-! Forward secrecy of a session. A message key that has been used cannot be computed from the
fields of the session that used it. The root key only moves forward, so the chain of a used key
cannot be started again, and the two chain keys and the skipped keys are past it. -/

namespace Cmp.Crypto

open Cmp.Lib

variable {K Sec C : Type}

/-! ## What can be derived -/

/-- What follows from the fields of a session by `kdf_rk`, `kdf_ck` and DH of its ratchet secret
with any public key. -/
inductive Derivable (S : Suite K Sec C) (s : SessionState K Sec) : K → Prop
  | rootKey : Derivable S s s.rootKey
  | sendingChainKey {c : K} (hc : s.sendingChainKey = some c) : Derivable S s c
  | receivingChainKey {c : K} (hc : s.receivingChainKey = some c) : Derivable S s c
  | skipped {id : Key32 × UInt32} {k : K} (hk : s.skipped.lookup id = some k) : Derivable S s k
  | diffieHellman (public_ : Key32) :
      Derivable S s (S.diffieHellman s.ourRatchet.secretBytes public_)
  | rkRoot {root dh : K} {out : RootKeyOutput K} (hroot : Derivable S s root)
      (hdh : Derivable S s dh) (hout : kdfRk S root dh = .ok out) : Derivable S s out.rootKey
  | rkChain {root dh : K} {out : RootKeyOutput K} (hroot : Derivable S s root)
      (hdh : Derivable S s dh) (hout : kdfRk S root dh = .ok out) : Derivable S s out.chainKey
  | ckChain {c : K} {out : ChainKeyOutput K} (hc : Derivable S s c) (hout : kdfCk S c = .ok out) :
      Derivable S s out.chainKey
  | ckMessage {c : K} {out : ChainKeyOutput K} (hc : Derivable S s c)
      (hout : kdfCk S c = .ok out) : Derivable S s out.messageKey

/-- How a key was made. -/
inductive KeyKind
  | secret
  | root
  | chain
  | message
  | agreed
  deriving DecidableEq

/-- Keys of different origin are different terms, and a root key names what it was made from. -/
structure Suite.Kinded (S : Suite K Sec C) (kind : K → KeyKind) : Prop where
  nextRoot : ∀ root dh, kind (S.nextRoot root dh) = .root
  newChain : ∀ root dh, kind (S.newChain root dh) = .chain
  nextChain : ∀ c, kind (S.nextChain c) = .chain
  messageKey : ∀ c, kind (S.messageKey c) = .message
  diffieHellman : ∀ secret public_, kind (S.diffieHellman secret public_) = .agreed
  nextRoot_inj : ∀ {r d r' d'}, S.nextRoot r d = S.nextRoot r' d' → r = r'

/-- The root keys of sessions that began with `ss`. -/
inductive RootOf (S : Suite K Sec C) (ss : K) : K → Prop
  | secret : RootOf S ss ss
  | next {root : K} (dh : K) (h : RootOf S ss root) : RootOf S ss (S.nextRoot root dh)

variable {S : Suite K Sec C} {rank : K → Nat} {kind : K → KeyKind} {ss root root' k c d : K}
  {skipped : SkippedKeysMap K} {sending receiving : Option K} {s t u : SessionState K Sec}

theorem kdfRk_rootKey {out : RootKeyOutput K} (h : kdfRk S root d = .ok out) :
    out.rootKey = S.nextRoot root d := by
  simp only [Suite.nextRoot, (kdfRk_eq_ok h).1]

section Kinds

variable (hK : S.Kinded kind) (hss : kind ss = .secret)

include hK hss

theorem RootOf.kind_eq (h : RootOf S ss root) : kind root = .secret ∨ kind root = .root := by
  cases h with
  | secret => exact .inl hss
  | next dh _ => exact .inr (hK.nextRoot _ dh)

theorem RootOf.of_next (h : RootOf S ss (S.nextRoot root d)) : RootOf S ss root := by
  generalize hnext : S.nextRoot root d = next at h
  cases h with
  | secret =>
    have hkind := hK.nextRoot root d
    rw [hnext, hss] at hkind
    cases hkind
  | next dh h =>
    rw [hK.nextRoot_inj hnext]
    exact h

omit hss in
theorem kind_iterate_newChain (r d : K) (n : Nat) :
    kind (S.nextChain^[n] (S.newChain r d)) = .chain := by
  cases n with
  | zero => exact hK.newChain r d
  | succ n =>
    rw [Function.iterate_succ_apply']
    exact hK.nextChain _

end Kinds

/-! ## The two chains of a session -/

/-- A key on a chain from here on. -/
def Ahead (S : Suite K Sec C) (chain : Option K) (k : K) : Prop :=
  ∃ c n, chain = some c ∧ k = S.messageKeyAt c n

/-- The keys put aside and both chains, with no key in two places. -/
structure Chains (S : Suite K Sec C) (rank : K → Nat) (root : K) (skipped : SkippedKeysMap K)
    (sending receiving : Option K) : Prop where
  received : Supply S rank root skipped receiving
  sent : Supply S rank root skipped sending
  apart : ∀ k, Ahead S sending k → ¬ Ahead S receiving k

theorem ahead_nextChain (h : Ahead S (some (S.nextChain c)) k) : Ahead S (some c) k := by
  obtain ⟨_, n, ⟨⟩, rfl⟩ := h
  exact ⟨c, n + 1, rfl, rfl⟩

theorem ahead_zero (c : K) : Ahead S (some c) (S.messageKey c) := ⟨c, 0, rfl, rfl⟩

namespace Chains

/-- The next key of the receiving chain is nowhere else. -/
theorem next_not_sent (h : Chains S rank root skipped sending (some c)) :
    ¬ Holds S skipped sending (S.messageKey c) := by
  rintro (⟨id, hl⟩ | hahead)
  · exact h.received.apart id _ c 0 hl rfl rfl
  · exact h.apart _ hahead (ahead_zero c)

theorem use (h : Chains S rank root skipped sending (some c)) :
    Chains S rank root skipped sending (some (S.nextChain c)) where
  received := h.received.use
  sent := h.sent
  apart k hs hr := h.apart k hs (ahead_nextChain hr)

theorem skip (h : Chains S rank root skipped sending (some c)) (id : Key32 × UInt32) :
    Chains S rank root (skipped.insert id (S.messageKey c)) sending (some (S.nextChain c)) where
  received := h.received.skip id
  sent := h.sent.put id (h.received.older _ (holds_chain c 0)) h.next_not_sent
  apart := h.use.apart

theorem take (h : Chains S rank root skipped sending receiving) (id : Key32 × UInt32) :
    Chains S rank root (skipped.erase id) sending receiving :=
  ⟨h.received.take id, h.sent.take id, h.apart⟩

theorem send (h : Chains S rank root skipped (some c) receiving) :
    Chains S rank root skipped (some (S.nextChain c)) receiving :=
  ⟨h.received, h.sent.use, fun k hs => h.apart k (ahead_nextChain hs)⟩

/-- A DH step: two new chains, each from a root key of its own. -/
theorem turn (h : Chains S rank root skipped sending receiving) (hF : S.Free) {r₁ r₂ : K}
    (h₁ : rank root < rank r₁) (h₂ : rank r₁ < rank r₂) (d d' : K) :
    Chains S rank r₂ skipped (some (S.newChain r₁ d')) (some (S.newChain root d)) where
  received := h.received.turn hF (h₁.trans h₂) d
  sent := (h.received.turn hF h₁ d).turn hF h₂ d'
  apart := by
    rintro k ⟨_, n, ⟨⟩, rfl⟩ ⟨_, n', ⟨⟩, heq⟩
    obtain ⟨-, hroot, -⟩ := hF.messageKeyAt_inj heq
    rw [hroot] at h₁
    exact Nat.lt_irrefl _ h₁

theorem start (root : K) : Chains S rank root ∅ none none :=
  ⟨Supply.start root, Supply.start root, fun _ ⟨_, _, h, _⟩ => by cases h⟩

end Chains

/-! ## Sessions -/

namespace SessionState

variable (S rank ss)

def Chained (s : SessionState K Sec) : Prop :=
  Chains S rank s.rootKey s.skipped s.sendingChainKey s.receivingChainKey

/-- A key the session still has, put aside or on a chain. -/
def Keeps (s : SessionState K Sec) (k : K) : Prop := s.Holds S k ∨ Ahead S s.sendingChainKey k

/-- A key of a chain that some root key of the session started. -/
def Born (ss k : K) : Prop := ∃ root, RootOf S ss root ∧ StartsAt S root k

structure Secured (s : SessionState K Sec) : Prop where
  chained : s.Chained S rank
  root : RootOf S ss s.rootKey
  born : ∀ k, s.Keeps S k → Born S ss k

/-- A used key: of an earlier chain position, and no longer kept. -/
structure Gone (s : SessionState K Sec) (k : K) : Prop where
  kept : ¬ s.Keeps S k
  older : Older S rank s.rootKey k
  born : Born S ss k

/-- What every call does: root keys move on, and keys not kept before are of new chains. -/
structure Progress (s t : SessionState K Sec) : Prop where
  secured : t.Secured S rank ss
  rank_le : rank s.rootKey ≤ rank t.rootKey
  kept : ∀ k, t.Keeps S k → s.Keeps S k ∨ ∃ root, rank s.rootKey ≤ rank root ∧ StartsAt S root k

end SessionState

open SessionState

theorem SessionState.Secured.older (h : s.Secured S rank ss) (hk : s.Keeps S k) :
    Older S rank s.rootKey k := by
  rcases hk with hk | hk
  · exact h.chained.received.older k hk
  · exact h.chained.sent.older k (.inr hk)

theorem SessionState.Gone.advance (hF : S.Free) (h : s.Gone S rank ss k)
    (hp : s.Progress S rank ss t) : t.Gone S rank ss k := by
  refine ⟨fun hk => ?_, h.older.mono hp.rank_le, h.born⟩
  rcases hp.kept k hk with hk | ⟨root, hle, hstart⟩
  · exact h.kept hk
  · obtain ⟨r, hr, hstart'⟩ := h.older
    cases hstart.root_eq hF hstart'
    exact Nat.lt_irrefl _ (Nat.lt_of_lt_of_le hr hle)

/-! ### A used key cannot be derived -/

theorem SessionState.keeps_chain
    (hc : s.sendingChainKey = some c ∨ s.receivingChainKey = some c) :
    s.Keeps S (S.messageKey c) := by
  rcases hc with hc | hc
  · exact .inr ⟨c, 0, hc, rfl⟩
  · exact .inl (.inr ⟨c, 0, hc, rfl⟩)

section Underivable

variable (hF : S.Free) (hK : S.Kinded kind)

include hF hK

theorem SessionState.Secured.chain_kind (h : s.Secured S rank ss)
    (hc : s.sendingChainKey = some c ∨ s.receivingChainKey = some c) : kind c = .chain := by
  obtain ⟨r, -, d, n, heq⟩ := h.older (keeps_chain hc)
  rw [hF.messageKey_inj heq]
  exact kind_iterate_newChain hK r d n

omit hF in
theorem SessionState.Secured.skipped_kind (h : s.Secured S rank ss) {id : Key32 × UInt32}
    (hk : s.skipped.lookup id = some k) : kind k = .message := by
  obtain ⟨r, -, d, n, rfl⟩ := h.older (.inl (.inl ⟨id, hk⟩))
  exact hK.messageKey _

variable (hR : S.RootsGrow rank) (hss : kind ss = .secret)

include hR hss

/-- Earlier root keys cannot be derived. -/
theorem SessionState.Secured.root_rank (h : s.Secured S rank ss) (hd : Derivable S s k)
    (hroot : RootOf S ss k) : rank s.rootKey ≤ rank k := by
  have hkind {k : K} {other : KeyKind} (hother : kind k = other) (hroot : RootOf S ss k)
      (hs : other ≠ .secret) (hr : other ≠ .root) : False := by
    rcases hroot.kind_eq hK hss with hk | hk
    · exact hs (hother.symm.trans hk)
    · exact hr (hother.symm.trans hk)
  induction hd with
  | rootKey => exact Nat.le_refl _
  | sendingChainKey hc =>
    exact (hkind (h.chain_kind hF hK (.inl hc)) hroot (by decide) (by decide)).elim
  | receivingChainKey hc =>
    exact (hkind (h.chain_kind hF hK (.inr hc)) hroot (by decide) (by decide)).elim
  | skipped hk =>
    exact (hkind (h.skipped_kind hK hk) hroot (by decide) (by decide)).elim
  | diffieHellman public_ =>
    exact (hkind (hK.diffieHellman _ public_) hroot (by decide) (by decide)).elim
  | rkRoot _ _ hout ih _ =>
    -- the only way to a root key is from the one before it
    rw [kdfRk_rootKey hout] at hroot
    exact (ih (hroot.of_next hK hss)).trans (hR _ _ _ (kdfRk_eq_ok hout).1).le
  | rkChain _ _ hout =>
    rw [(kdfRk_eq_ok hout).2] at hroot
    exact (hkind (hK.newChain _ _) hroot (by decide) (by decide)).elim
  | ckChain _ hout =>
    rw [kdfCk_eq_ok hout] at hroot
    exact (hkind (hK.nextChain _) hroot (by decide) (by decide)).elim
  | ckMessage _ hout =>
    rw [kdfCk_eq_ok hout] at hroot
    exact (hkind (hK.messageKey _) hroot (by decide) (by decide)).elim

/-- A derivable key of an earlier chain is on one of the two chains from where they stand. -/
theorem SessionState.Secured.chain_ahead (h : s.Secured S rank ss) (hd : Derivable S s k) :
    ∀ {r d : K} {n : Nat}, k = S.nextChain^[n] (S.newChain r d) → RootOf S ss r →
      rank r < rank s.rootKey →
      ∃ c m, (s.sendingChainKey = some c ∨ s.receivingChainKey = some c) ∧
        k = S.nextChain^[m] c := by
  have hkind {k r d : K} {n : Nat} {other : KeyKind} (hother : kind k = other)
      (heq : k = S.nextChain^[n] (S.newChain r d)) (hne : other ≠ .chain) : False := by
    rw [heq, kind_iterate_newChain hK] at hother
    exact hne hother.symm
  induction hd with
  | rootKey =>
    intro r d n heq hr hrank
    rcases h.root.kind_eq hK hss with hk | hk
    · exact (hkind hk heq (by decide)).elim
    · exact (hkind hk heq (by decide)).elim
  | sendingChainKey hc => exact fun _ _ _ => ⟨_, 0, .inl hc, rfl⟩
  | receivingChainKey hc => exact fun _ _ _ => ⟨_, 0, .inr hc, rfl⟩
  | skipped hk => exact fun heq _ _ => (hkind (h.skipped_kind hK hk) heq (by decide)).elim
  | diffieHellman public_ =>
    exact fun heq _ _ => (hkind (hK.diffieHellman _ public_) heq (by decide)).elim
  | rkRoot _ _ hout =>
    intro r d n heq
    rw [kdfRk_rootKey hout] at heq
    exact (hkind (hK.nextRoot _ _) heq (by decide)).elim
  | rkChain hroot _ hout =>
    -- the chain would have to be started again, from an earlier root key
    intro r d n heq hr hrank
    rw [(kdfRk_eq_ok hout).2] at heq
    obtain ⟨-, rfl, -⟩ := hF.iterate_newChain_inj 0 n heq
    exact absurd (h.root_rank hF hK hR hss hroot hr) (Nat.not_le_of_lt hrank)
  | ckChain _ hout ih =>
    intro r d n heq hr hrank
    cases kdfCk_eq_ok hout
    cases n with
    | zero => exact absurd heq.symm (hF.newChain_ne_nextChain _ _ _)
    | succ n =>
      rw [Function.iterate_succ_apply'] at heq
      obtain ⟨c, m, hc, rfl⟩ := ih (hF.nextChain_inj heq) hr hrank
      refine ⟨c, m + 1, hc, ?_⟩
      rw [Function.iterate_succ_apply']
  | ckMessage _ hout =>
    intro r d n heq
    rw [kdfCk_eq_ok hout] at heq
    exact (hkind (hK.messageKey _) heq (by decide)).elim

/-- A derivable message key of an earlier chain is still kept. -/
theorem SessionState.Secured.derivable_kept (h : s.Secured S rank ss) (hd : Derivable S s k) {r : K}
    {n : Nat} (heq : k = S.messageKeyAt (S.newChain r d) n) (hr : RootOf S ss r)
    (hrank : rank r < rank s.rootKey) : s.Keeps S k := by
  have hmessage : kind k = .message := by
    rw [heq]
    exact hK.messageKey _
  have hkind {other : KeyKind} (hother : kind k = other) (hne : other ≠ .message) : False :=
    hne (hother.symm.trans hmessage)
  cases hd with
  | rootKey =>
    rcases h.root.kind_eq hK hss with hk | hk
    · exact (hkind hk (by decide)).elim
    · exact (hkind hk (by decide)).elim
  | sendingChainKey hc => exact (hkind (h.chain_kind hF hK (.inl hc)) (by decide)).elim
  | receivingChainKey hc => exact (hkind (h.chain_kind hF hK (.inr hc)) (by decide)).elim
  | skipped hk => exact .inl (.inl ⟨_, hk⟩)
  | diffieHellman public_ => exact (hkind (hK.diffieHellman _ public_) (by decide)).elim
  | rkRoot _ _ hout =>
    rw [kdfRk_rootKey hout] at hkind
    exact (hkind (hK.nextRoot _ _) (by decide)).elim
  | rkChain _ _ hout =>
    rw [(kdfRk_eq_ok hout).2] at hkind
    exact (hkind (hK.newChain _ _) (by decide)).elim
  | ckChain _ hout =>
    rw [kdfCk_eq_ok hout] at hkind
    exact (hkind (hK.nextChain _) (by decide)).elim
  | ckMessage hchain hout =>
    cases kdfCk_eq_ok hout
    obtain ⟨c, m, hc | hc, rfl⟩ :=
      h.chain_ahead hF hK hR hss hchain (hF.messageKey_inj heq) hr hrank
    · exact .inr ⟨c, m, hc, rfl⟩
    · exact .inl (.inr ⟨c, m, hc, rfl⟩)

theorem SessionState.Gone.not_derivable (hg : s.Gone S rank ss k) (h : s.Secured S rank ss) :
    ¬ Derivable S s k := by
  intro hd
  obtain ⟨r, hroot, d, n, heq⟩ := hg.born
  obtain ⟨r', hrank, hstart⟩ := hg.older
  have hsame : r' = r := hstart.root_eq hF ⟨d, n, heq⟩
  rw [hsame] at hrank
  exact hg.kept (h.derivable_kept hF hK hR hss hd heq hroot hrank)

end Underivable

end Cmp.Crypto
