import Cmp.Crypto.Sync

/-! Decryption of a genuine message between two sessions in sync: the three places
its key can come from, when the call succeeds, and what it leaves. -/

namespace Cmp.Crypto

open Cmp.Lib

variable {K Sec C : Type}

/-- A call of `decrypt` draws a ratchet key pair: the message is not a stored one
and its ratchet key is new. -/
def SessionState.Draws (s : SessionState K Sec) (header : RatchetHeader) : Prop :=
  s.skipped.lookup header.id = none ∧ s.theirRatchetKey ≠ some header.ratchetKey

instance (s : SessionState K Sec) (header : RatchetHeader) : Decidable (s.Draws header) :=
  decidable_of_iff
    ((s.skipped.lookup header.id).isNone ∧ s.theirRatchetKey ≠ some header.ratchetKey)
    (by rw [SessionState.Draws, Option.isNone_iff_eq_none])

/-- The keys `decrypt` has to skip before it reaches the message. -/
def SessionState.keysToSkip (s : SessionState K Sec) (header : RatchetHeader) : Nat :=
  if (s.skipped.lookup header.id).isSome then 0
  else if s.theirRatchetKey = some header.ratchetKey then
    header.messageNumber.toNat - s.recvCount.toNat
  else
    (if s.receivingChainKey.isSome then
      header.previousChainLength.toNat - s.recvCount.toNat
    else 0) + header.messageNumber.toNat

/-- `v'` continues the history `v` without sending. -/
structure Joint.Continues (v v' : Joint Sec) : Prop where
  secrets : v.toTimeline.SameSecrets v'.toTimeline v.top
  sent : v'.sent = v.sent
  top : v.top ≤ v'.top

theorem Joint.Continues.rfl {v : Joint Sec} : v.Continues v :=
  ⟨fun _ _ => Eq.refl _, Eq.refl _, Nat.le_refl _⟩

variable {S : Suite K Sec C} {ss : K} {v : Joint Sec} {sess : Party → SessionState K Sec}
  {opened : List (Key32 × UInt32)} {generated : List Key32} {x : Party} {e : Nat} {n : UInt32}

namespace Sync

theorem theirRatchetKey_eq (h : Sync S ss v sess opened generated) (x : Party) :
    (sess x).theirRatchetKey = v.theirKey S (v.index x) := by
  rw [h.session x]
  rfl

theorem recvCount_eq (h : Sync S ss v sess opened generated) (x : Party) :
    (sess x).recvCount = v.recv x := by
  rw [h.session x]
  rfl

theorem receivingChainKey_eq (h : Sync S ss v sess opened generated) (x : Party) :
    (sess x).receivingChainKey = v.receivingChain S ss (v.recv x) (v.index x) := by
  rw [h.session x]
  rfl

/-- A chain that is not followed has no stored keys. -/
theorem lookup_none_of_not_follows (h : Sync S ss v sess opened generated) (he : e < v.top)
    (hf : ¬ v.Follows x e) : (sess x).skipped.lookup (v.pub S (e + 1), n) = none := by
  by_contra hne
  obtain ⟨k, hk⟩ := Option.ne_none_iff_exists'.mp hne
  obtain ⟨i, hfi, hkey, -⟩ := (h.stored x _ k).mp hk
  have h1 := h.near x
  have h2 := hfi.1
  have := h.distinct (e + 1) (i + 1) (by omega) (by omega) hkey
  have hie : i = e := by omega
  exact hf (hie ▸ hfi)

/-- Beyond its position a followed chain has no stored keys. -/
theorem lookup_none_of_pos_le (h : Sync S ss v sess opened generated) (hf : v.Follows x e)
    (hle : v.pos x e ≤ n) : (sess x).skipped.lookup (v.pub S (e + 1), n) = none := by
  by_contra hne
  obtain ⟨k, hk⟩ := Option.ne_none_iff_exists'.mp hne
  obtain ⟨i, hfi, hkey, hlt, -⟩ := (h.stored x _ k).mp hk
  obtain ⟨rfl, -⟩ := h.chain_unique hf hfi hkey.symm
  exact absurd hlt (UInt32.not_lt.mpr hle)

/-- Where the key of an unopened genuine message is: stored, ahead on the current
chain, or on the open chain of the peer. -/
theorem genuine_cases (h : Sync S ss v sess opened generated) (hpar : e % 2 = x.parity)
    (he : e < v.top) (hn : n < v.sent e) (hid : (v.pub S (e + 1), n) ∉ opened) :
    (sess x).skipped.lookup (v.pub S (e + 1), n) = some (v.key S ss e n) ∨
    ((sess x).skipped.lookup (v.pub S (e + 1), n) = none ∧ v.index x = e + 2 ∧ v.recv x ≤ n) ∨
    ((sess x).skipped.lookup (v.pub S (e + 1), n) = none ∧ v.index x = e) := by
  by_cases hf : v.Follows x e
  · by_cases hlt : n < v.pos x e
    · exact .inl ((h.stored x _ _).mpr ⟨e, hf, rfl, hlt, hid, rfl⟩)
    · have hle := UInt32.not_lt.mp hlt
      refine .inr (.inl ⟨h.lookup_none_of_pos_le hf hle, ?_⟩)
      unfold Joint.pos at hle
      split at hle
      · next hi => exact ⟨hi.symm, hle⟩
      · exact absurd hn (UInt32.not_lt.mpr hle)
  · refine .inr (.inr ⟨h.lookup_none_of_not_follows he hf, ?_⟩)
    have h1 := h.near x
    have h2 := h.parity x
    have h3 : ¬ e + 2 ≤ v.index x := fun hle => hf ⟨hle, hpar⟩
    omega

theorem toNat_lt_of_lt_sent (hn : n < v.sent e) : n.toNat + 1 < UInt32.size := by
  have h1 := UInt32.lt_iff_toNat_lt.mp hn
  have h2 : (v.sent e).toNat < UInt32.size := (v.sent e).toNat_lt
  omega

/-! ## The current chain -/

/-- `try_decrypt_inner` on the current chain, at or after its position. -/
theorem tryDecryptInner_current (hS : S.KdfTotal) (h : Sync S ss v sess opened generated)
    (hx : v.index x = e + 2) (drawn : Sec) (header : RatchetHeader)
    (hkey : header.ratchetKey = v.pub S (e + 1)) (c : C) (aad p : Bytes) (t : SessionState K Sec) :
    (tryDecryptInner S drawn header c aad).run (sess x) = .ok p t ↔
      (sess x).MaySkip header.messageNumber ∧
      S.aeadDecrypt (S.messageKeyAt (v.chain S ss e)
          (header.messageNumber.toNat - (v.recv x).toNat + (v.recv x).toNat)) c
        (authenticatedData aad header) = .ok p ∧
      header.messageNumber.toNat + 1 < UInt32.size ∧
      t = (sess x).receivedTo S (v.pub S (e + 1))
        (S.nextChain^[(v.recv x).toNat] (v.chain S ss e)) header.messageNumber := by
  have ht : (sess x).theirRatchetKey = some header.ratchetKey := by
    rw [h.theirRatchetKey_eq, hx, hkey]
    rfl
  have hr : (sess x).receivingChainKey =
      some (S.nextChain^[(v.recv x).toNat] (v.chain S ss e)) := by
    rw [h.receivingChainKey_eq, hx]
    rfl
  rw [tryDecryptInner_same hS drawn header c aad p _ _ t ht hr, messageKeyAt_iterate,
    h.recvCount_eq, hkey]

/-! ## The open chain of the peer -/

theorem theirKey_ne (h : Sync S ss v sess opened generated) (hx : v.index x < v.top) :
    v.theirKey S (v.index x) ≠ some (v.pub S (v.index x + 1)) := by
  intro hk
  cases hj : v.index x with
  | zero => rw [hj] at hk; cases hk
  | succ i =>
    rw [hj] at hk
    have := h.distinct i (i + 1 + 1) (by omega) (by omega) (Option.some.inj hk)
    omega

/-- `try_decrypt_inner` on a ratchet key that is not the current one. -/
theorem tryDecryptInner_step (hS : S.KdfTotal) (h : Sync S ss v sess opened generated)
    (drawn : Sec) (header : RatchetHeader)
    (hkey : (sess x).theirRatchetKey ≠ some header.ratchetKey) (c : C) (aad p : Bytes)
    (t : SessionState K Sec) :
    (tryDecryptInner S drawn header c aad).run (sess x) = .ok p t ↔
      ((sess x).receivingChainKey.isSome → (sess x).MaySkip header.previousChainLength) ∧
      ((sess x).dhStepped S drawn header).MaySkip header.messageNumber ∧
      S.aeadDecrypt
        (S.messageKeyAt (S.newChain (v.root S ss (v.index x))
            (S.diffieHellman (v.secret (v.index x)) header.ratchetKey))
          header.messageNumber.toNat) c
        (authenticatedData aad header) = .ok p ∧
      header.messageNumber.toNat + 1 < UInt32.size ∧
      t = ((sess x).dhStepped S drawn header).receivedTo S header.ratchetKey
        (S.newChain (v.root S ss (v.index x))
          (S.diffieHellman (v.secret (v.index x)) header.ratchetKey)) header.messageNumber := by
  have hroot : (sess x).rootKey = v.root S ss (v.index x) := by
    rw [h.session x]
    rfl
  have hsec : (sess x).ourRatchet.secretBytes = v.secret (v.index x) := by
    rw [h.session x]
    rfl
  rw [tryDecryptInner_new hS drawn header c aad p _ t (h.theirKey_isSome x) hkey, hroot, hsec]

/-- The chain both ends derive for a new ratchet key. -/
theorem chain_eq (hdh : S.DhCommutes) (v : Joint Sec) (ss : K) (j : Nat) :
    S.newChain (v.root S ss j) (S.diffieHellman (v.secret j) (v.pub S (j + 1))) =
      v.chain S ss j := congrArg (S.newChain _) (hdh _ _)

/-! ## Both directions -/

/-- Opening a genuine message keeps the sessions in sync. -/
theorem decrypt_genuine (hS : S.KdfTotal) (hdh : S.DhCommutes)
    (h : Sync S ss v sess opened generated) (hpar : e % 2 = x.parity) (he : e < v.top)
    (hn : n < v.sent e) (hid : (v.pub S (e + 1), n) ∉ opened) {drawn : Sec}
    (hfresh : (sess x).Draws (v.header S e n) → S.toPublic drawn ∉ generated)
    {c : C} {aad p : Bytes} {t : SessionState K Sec}
    (hok : (decrypt S drawn (v.header S e n) c aad).run (sess x) = .ok p t) :
    S.aeadDecrypt (v.key S ss e n) c (authenticatedData aad (v.header S e n)) = .ok p ∧
    ∃ v', v.Continues v' ∧
      Sync S ss v' (Function.update sess x t) ((v.pub S (e + 1), n) :: opened)
        (if (sess x).Draws (v.header S e n) then S.toPublic drawn :: generated else generated) := by
  have hlook : (v.header S e n).id = (v.pub S (e + 1), n) := rfl
  rw [decrypt_eq_ok, hlook] at hok
  rcases h.genuine_cases hpar he hn hid with hsome | ⟨hnone, hx, hle⟩ | ⟨hnone, hx⟩
  · -- a stored key
    rcases hok with ⟨k, hk, hd, rfl⟩ | ⟨hk, -⟩
    · rw [hsome] at hk
      cases hk
      refine ⟨hd, v, .rfl, ?_⟩
      rw [if_neg (fun hdraws => Option.some_ne_none _ (hsome.symm.trans hdraws.1))]
      exact h.useStored hsome
    · rw [hsome] at hk
      cases hk
  · -- ahead on the current chain
    rcases hok with ⟨k, hk, -⟩ | ⟨-, hok⟩
    · rw [hnone] at hk
      cases hk
    · rw [h.tryDecryptInner_current hS hx drawn _ rfl] at hok
      obtain ⟨-, hd, -, rfl⟩ := hok
      have hleN := UInt32.le_iff_toNat_le.mp hle
      have hpos : (v.header S e n).messageNumber.toNat - (v.recv x).toNat + (v.recv x).toNat =
          n.toNat := Nat.sub_add_cancel hleN
      rw [hpos] at hd
      refine ⟨hd, v.receive x n, ⟨fun _ _ => rfl, rfl, Nat.le_refl _⟩, ?_⟩
      have hsame : ¬ (sess x).Draws (v.header S e n) := by
        rintro ⟨-, hne⟩
        rw [h.theirRatchetKey_eq, hx] at hne
        exact hne rfl
      rw [if_neg hsame]
      exact h.receive hx hle hn
  · -- the open chain: a DH step and then the new current chain
    rcases hok with ⟨k, hk, -⟩ | ⟨-, hok⟩
    · rw [hnone] at hk
      cases hk
    · subst hx
      have hne : (sess x).theirRatchetKey ≠ some (v.header S (v.index x) n).ratchetKey := by
        rw [h.theirRatchetKey_eq]
        exact h.theirKey_ne he
      rw [h.tryDecryptInner_step hS drawn _ hne] at hok
      obtain ⟨-, -, hd, -, rfl⟩ := hok
      have hdraws : (sess x).Draws (v.header S (v.index x) n) := ⟨hnone, hne⟩
      have hkey : (v.header S (v.index x) n).ratchetKey = v.pub S (v.index x + 1) := rfl
      rw [hkey, chain_eq hdh] at hd ⊢
      refine ⟨hd, (v.stepTo x drawn).receive x n, ?_, ?_⟩
      · have hnear := h.near x
        exact ⟨Timeline.sameSecrets_draw _ _ (by omega), rfl, hnear.2.trans (Nat.le_succ _)⟩
      · rw [if_pos hdraws]
        have hstep := h.dhStep he drawn hdh n (hfresh hdraws)
        have hq : v.toTimeline.SameSecrets (v.stepTo x drawn).toTimeline (v.index x + 1) :=
          Timeline.sameSecrets_draw _ _ (by omega)
        have hrecv := hstep.receive (x := x) (e := v.index x) (n := n)
          (v.stepTo_index_self x drawn)
          (by rw [v.stepTo_recv_self]; exact UInt32.zero_le) hn
        rw [v.stepTo_recv_self, Function.update_self, Function.update_idem,
          ← Timeline.pub_congr hq, ← Timeline.chain_congr hq] at hrecv
        exact hrecv

/-- A genuine message that does not skip too far is decrypted. -/
theorem decrypt_genuine_ok (hS : S.KdfTotal) (hdh : S.DhCommutes)
    (h : Sync S ss v sess opened generated) (hpar : e % 2 = x.parity) (he : e < v.top)
    (hn : n < v.sent e) (hid : (v.pub S (e + 1), n) ∉ opened) (drawn : Sec)
    {c : C} {aad p : Bytes}
    (hd : S.aeadDecrypt (v.key S ss e n) c (authenticatedData aad (v.header S e n)) = .ok p)
    (hskip : HMap.size (sess x).skipped + (sess x).keysToSkip (v.header S e n) ≤ MAX_SKIP) :
    ∃ t, (decrypt S drawn (v.header S e n) c aad).run (sess x) = .ok p t := by
  have hc := toNat_lt_of_lt_sent hn
  have hlook : (v.header S e n).id = (v.pub S (e + 1), n) := rfl
  simp only [decrypt_eq_ok, hlook]
  unfold SessionState.keysToSkip at hskip
  rw [hlook] at hskip
  rcases h.genuine_cases hpar he hn hid with hsome | ⟨hnone, hx, hle⟩ | ⟨hnone, hx⟩
  · exact ⟨_, .inl ⟨_, hsome, hd, rfl⟩⟩
  · have hleN := UInt32.le_iff_toNat_le.mp hle
    have hsame : (sess x).theirRatchetKey = some (v.header S e n).ratchetKey := by
      rw [h.theirRatchetKey_eq, hx]
      rfl
    rw [hnone, if_neg (by simp), if_pos hsame] at hskip
    refine ⟨_, .inr ⟨hnone, (h.tryDecryptInner_current hS hx drawn _ rfl c aad p _).mpr
      ⟨maySkip_of_le _ _ hskip, ?_, hc, rfl⟩⟩⟩
    have hpos : (v.header S e n).messageNumber.toNat - (v.recv x).toNat + (v.recv x).toNat =
        n.toNat := Nat.sub_add_cancel hleN
    rw [hpos]
    exact hd
  · subst hx
    have hne : (sess x).theirRatchetKey ≠ some (v.header S (v.index x) n).ratchetKey := by
      rw [h.theirRatchetKey_eq]
      exact h.theirKey_ne he
    rw [hnone, if_neg (by simp), if_neg hne] at hskip
    have hkey : (v.header S (v.index x) n).ratchetKey = v.pub S (v.index x + 1) := rfl
    refine ⟨_, .inr ⟨hnone, (h.tryDecryptInner_step hS drawn _ hne c aad p _).mpr
      ⟨?_, ?_, ?_, hc, rfl⟩⟩⟩
    · intro hsome
      rw [if_pos hsome] at hskip
      exact maySkip_of_le _ _ (by omega)
    · apply maySkip_of_le
      have hsize := size_dhStepped_le (S := S) drawn (v.header S (v.index x) n) (sess x)
      have hzero : ((sess x).dhStepped S drawn (v.header S (v.index x) n)).recvCount = 0 := rfl
      rw [hzero, UInt32.toNat_zero]
      omega
    · rw [hkey, chain_eq hdh]
      exact hd

end Sync

end Cmp.Crypto
