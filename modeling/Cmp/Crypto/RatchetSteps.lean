import Cmp.Crypto.Ratchet
import Cmp.Lib.Action

/-! What a successful call of the ratchet does to the session: one inversion
lemma per function, and closed forms when the key derivations succeed. -/

namespace Cmp.Crypto

open Cmp.Lib

variable {K Sec C : Type}

/-- The name of a message inside a session. -/
def RatchetHeader.id (h : RatchetHeader) : Key32 × UInt32 := (h.ratchetKey, h.messageNumber)

theorem checkedSucc_eq_ok (n m : UInt32) :
    checkedSucc n = .ok m ↔ n.toNat + 1 < UInt32.size ∧ m = n + 1 := by
  unfold checkedSucc
  split
  · next h => simp [h, eq_comm]
  · next h => simp [h]

theorem toNat_succ {n : UInt32} (h : n.toNat + 1 < UInt32.size) : (n + 1).toNat = n.toNat + 1 := by
  rw [UInt32.toNat_add]
  exact Nat.mod_eq_of_lt h

/-! ## Initialisation -/

theorem initializeAlice_eq_ok {S : Suite K Sec C} {drawn : Sec} {sharedSecret : K}
    {bobRatchetPublic : Key32} {s : SessionState K Sec}
    (h : initializeAlice S drawn sharedSecret bobRatchetPublic = .ok s) :
    ∃ rkOut, kdfRk S sharedSecret (S.diffieHellman drawn bobRatchetPublic) = .ok rkOut ∧
      s =
        { rootKey := rkOut.rootKey
          ourRatchet := RatchetKeyPair.generate S drawn
          theirRatchetKey := some bobRatchetPublic
          sendingChainKey := some rkOut.chainKey
          receivingChainKey := none
          sendCount := 0
          recvCount := 0
          previousSendCount := 0
          skipped := ∅ } := by
  obtain ⟨rkOut, hk, h⟩ := (Action.bind_eq_ok _ _ _).mp h
  cases h
  exact ⟨rkOut, hk, rfl⟩

/-! ## Encryption -/

/-- The header the next message of a session carries. -/
def SessionState.nextHeader (s : SessionState K Sec) : RatchetHeader :=
  ⟨s.ourRatchet.publicBytes, s.previousSendCount, s.sendCount⟩

variable (S : Suite K Sec C)

theorem encrypt_eq_ok (plaintext aad : Bytes) (s t : SessionState K Sec) (m : RatchetMessage C) :
    (encrypt S plaintext aad).run s = .ok m t ↔
      s.sendCount.toNat + 1 < UInt32.size ∧
      ∃ chainKey ckOut, s.sendingChainKey = some chainKey ∧ kdfCk S chainKey = .ok ckOut ∧
        m.header = s.nextHeader ∧
        S.aeadEncrypt ckOut.messageKey plaintext (authenticatedData aad s.nextHeader) =
          .ok m.ciphertext ∧
        t = { s with sendingChainKey := some ckOut.chainKey, sendCount := s.sendCount + 1 } := by
  unfold encrypt
  simp only [Action.run_bind_eq_ok, Action.run_get, Action.run_ofExcept_eq_ok, checkedSucc_eq_ok]
  constructor
  · rintro ⟨_, _, ⟨⟩, _, _, ⟨⟨hc, rfl⟩, rfl⟩, h⟩
    refine ⟨hc, ?_⟩
    cases hk : s.sendingChainKey with
    | none => simp [hk] at h
    | some chainKey =>
      simp only [hk, Action.run_bind_eq_ok, Action.run_ofExcept_eq_ok, Action.run_modify] at h
      obtain ⟨ckOut, _, ⟨hck, rfl⟩, ciphertext, _, ⟨hct, rfl⟩, _, _, ⟨⟩, ⟨⟩⟩ := h
      exact ⟨chainKey, ckOut, rfl, hck, rfl, hct, rfl⟩
  · rintro ⟨hc, chainKey, ckOut, hk, hck, hh, hct, rfl⟩
    refine ⟨s, s, rfl, s.sendCount + 1, s, ⟨⟨hc, rfl⟩, rfl⟩, ?_⟩
    obtain ⟨header, ciphertext⟩ := m
    subst hh
    simp only [hk, Action.run_bind_eq_ok, Action.run_ofExcept_eq_ok, Action.run_modify]
    exact ⟨ckOut, s, ⟨hck, rfl⟩, ciphertext, s, ⟨hct, rfl⟩, _, _, rfl, rfl⟩

/-- A call that fails leaves the session as it was. -/
theorem encrypt_error (plaintext aad : Bytes) (s t : SessionState K Sec) (e : CryptoError)
    (h : (encrypt S plaintext aad).run s = .error e t) : t = s := by
  unfold encrypt at h
  rw [Action.run_bind_ok (Action.run_get s)] at h
  cases hc : checkedSucc s.sendCount with
  | error e' => rw [hc] at h; cases h; rfl
  | ok n =>
    rw [hc, Action.run_bind_ok (Action.run_ofExcept_ok n s)] at h
    cases hk : s.sendingChainKey with
    | none => rw [hk] at h; cases h; rfl
    | some chainKey =>
      simp only [hk] at h
      cases hck : kdfCk S chainKey with
      | error e' => rw [hck] at h; cases h; rfl
      | ok ckOut =>
        rw [hck, Action.run_bind_ok (Action.run_ofExcept_ok ckOut s)] at h
        cases hct : S.aeadEncrypt ckOut.messageKey plaintext
            (authenticatedData aad s.nextHeader) with
        | error e' =>
          rw [SessionState.nextHeader] at hct
          rw [hct] at h
          cases h
          rfl
        | ok c =>
          rw [SessionState.nextHeader] at hct
          rw [hct, Action.run_bind_ok (Action.run_ofExcept_ok c s)] at h
          cases h

/-! ## Skipping keys -/

/-- A skip touches the skipped map and the receiving chain, nothing else. -/
theorem skipLoop_frame (theirKey : Key32) (n : Nat) :
    ∀ (i : UInt32) (chainKey chainKey' : K) (s t : SessionState K Sec),
      (skipLoop S theirKey n i chainKey).run s = .ok chainKey' t →
        t = { s with skipped := t.skipped } := by
  induction n with
  | zero =>
    intro i c c' s t h
    simp only [skipLoop, Action.run_pure] at h
    cases h
    rfl
  | succ n ih =>
    intro i c c' s t h
    simp only [skipLoop, Action.run_bind_eq_ok, Action.run_ofExcept_eq_ok, Action.run_modify] at h
    obtain ⟨ckOut, _, ⟨_, rfl⟩, _, _, ⟨⟩, h⟩ := h
    have := ih _ _ _ _ _ h
    rw [this]

theorem skipMessageKeys_frame (current til : UInt32) (s t : SessionState K Sec)
    (h : (skipMessageKeys S current til).run s = .ok () t) :
    t = { s with skipped := t.skipped, receivingChainKey := t.receivingChainKey } := by
  unfold skipMessageKeys at h
  simp only [Action.run_ite, Action.run_pure] at h
  split at h
  · cases h; rfl
  · simp only [Action.run_bind_eq_ok, Action.run_get, Action.run_ite, Action.run_throw] at h
    obtain ⟨_, _, ⟨⟩, h⟩ := h
    split at h
    · cases h
    · split at h
      · simp only [Action.run_bind_eq_ok, Action.run_modify] at h
        obtain ⟨c, u, hl, h⟩ := h
        cases h
        rw [skipLoop_frame S _ _ _ _ _ _ _ hl]
      · simp only [Action.run_pure] at h; cases h; rfl

/-- Without a receiving chain a skip that succeeds stores nothing. -/
theorem skipMessageKeys_of_none (current til : UInt32) (s t : SessionState K Sec)
    (h : (skipMessageKeys S current til).run s = .ok () t) (hr : s.receivingChainKey = none) :
    t = s := by
  unfold skipMessageKeys at h
  simp only [Action.run_ite, Action.run_pure] at h
  split at h
  · cases h; rfl
  · simp only [Action.run_bind_eq_ok, Action.run_get, Action.run_ite, Action.run_throw] at h
    obtain ⟨_, _, ⟨⟩, h⟩ := h
    split at h
    · cases h
    · rw [hr] at h
      cases ht : s.theirRatchetKey <;> rw [ht] at h <;> cases h <;> rfl

/-! ## Decryption -/

/-- The session after the root-key part of a DH step on a session `u` whose old
receiving chain has been skipped to its end. -/
def SessionState.afterDh (S : Suite K Sec C) (drawn : Sec) (header : RatchetHeader)
    (rkOut rkOut2 : RootKeyOutput K) (u : SessionState K Sec) : SessionState K Sec :=
  { u with
    rootKey := rkOut2.rootKey
    theirRatchetKey := some header.ratchetKey
    receivingChainKey := some rkOut.chainKey
    recvCount := 0
    previousSendCount := u.sendCount
    sendCount := 0
    ourRatchet := RatchetKeyPair.generate S drawn
    sendingChainKey := some rkOut2.chainKey }

theorem skipOldChain_run (header : RatchetHeader) (s : SessionState K Sec) :
    (skipOldChain S header).run s =
      if s.receivingChainKey.isSome then
        (skipMessageKeys S s.recvCount header.previousChainLength).run s
      else .ok () s := by
  unfold skipOldChain
  rw [Action.run_bind_ok (Action.run_get s), Action.run_ite]
  rfl

theorem dhStep_eq_ok (drawn : Sec) (header : RatchetHeader) (s t : SessionState K Sec) :
    (dhStep S drawn header).run s = .ok () t ↔
      ∃ u rkOut rkOut2, (skipOldChain S header).run s = .ok () u ∧
        kdfRk S u.rootKey (S.diffieHellman u.ourRatchet.secretBytes header.ratchetKey) =
          .ok rkOut ∧
        kdfRk S rkOut.rootKey (S.diffieHellman drawn header.ratchetKey) = .ok rkOut2 ∧
        t = u.afterDh S drawn header rkOut rkOut2 := by
  unfold dhStep
  simp only [Action.run_bind_eq_ok, Action.run_get, Action.run_ofExcept_eq_ok, Action.run_modify]
  constructor
  · rintro ⟨⟨⟩, u, hskip, _, _, ⟨⟩, rkOut, _, ⟨h1, rfl⟩, _, _, ⟨⟩, rkOut2, _, ⟨h2, rfl⟩, ⟨⟩⟩
    exact ⟨u, rkOut, rkOut2, hskip, h1, h2, rfl⟩
  · rintro ⟨u, rkOut, rkOut2, hskip, h1, h2, rfl⟩
    exact ⟨(), u, hskip, u, u, rfl, rkOut, u, ⟨h1, rfl⟩, _, _, rfl, rkOut2, _, ⟨h2, rfl⟩, rfl⟩

theorem dhStepIfNeeded_run (drawn : Sec) (header : RatchetHeader) (s : SessionState K Sec) :
    (dhStepIfNeeded S drawn header).run s =
      if s.theirRatchetKey ≠ some header.ratchetKey then (dhStep S drawn header).run s
      else .ok () s := by
  unfold dhStepIfNeeded
  rw [Action.run_bind_ok (Action.run_get s), Action.run_ite]
  rfl

/-- What `try_decrypt_inner` did when it succeeded: a DH step if the ratchet key
is new, a skip up to the message, and one key used. -/
theorem tryDecryptInner_eq_ok (drawn : Sec) (header : RatchetHeader) (c : C) (aad p : Bytes)
    (s t : SessionState K Sec) :
    (tryDecryptInner S drawn header c aad).run s = .ok p t ↔
      ∃ u v chainKey ckOut,
        (dhStepIfNeeded S drawn header).run s = .ok () u ∧
        (skipMessageKeys S u.recvCount header.messageNumber).run u = .ok () v ∧
        v.receivingChainKey = some chainKey ∧ kdfCk S chainKey = .ok ckOut ∧
        S.aeadDecrypt ckOut.messageKey c (authenticatedData aad header) = .ok p ∧
        header.messageNumber.toNat + 1 < UInt32.size ∧
        t = { v with
              receivingChainKey := some ckOut.chainKey
              recvCount := header.messageNumber + 1 } := by
  unfold tryDecryptInner
  simp only [Action.run_bind_eq_ok, Action.run_get]
  constructor
  · rintro ⟨⟨⟩, u, hdh, _, _, ⟨⟩, ⟨⟩, v, hskip, _, _, ⟨⟩, h⟩
    cases hk : v.receivingChainKey with
    | none => simp [hk] at h
    | some chainKey =>
      simp only [hk, Action.run_bind_eq_ok, Action.run_ofExcept_eq_ok, Action.run_modify,
        Action.run_pure, checkedSucc_eq_ok] at h
      obtain ⟨ckOut, _, ⟨hck, rfl⟩, plain, _, ⟨hd, rfl⟩, _, _, ⟨⟩, _, _, ⟨⟨hc, rfl⟩, rfl⟩, _, _,
        ⟨⟩, ⟨⟩⟩ := h
      exact ⟨u, v, chainKey, ckOut, hdh, hskip, hk, hck, hd, hc, rfl⟩
  · rintro ⟨u, v, chainKey, ckOut, hdh, hskip, hk, hck, hd, hc, rfl⟩
    refine ⟨(), u, hdh, u, u, rfl, (), v, hskip, v, v, rfl, ?_⟩
    simp only [hk, Action.run_bind_eq_ok, Action.run_ofExcept_eq_ok, Action.run_modify,
      Action.run_pure, checkedSucc_eq_ok]
    exact ⟨ckOut, v, ⟨hck, rfl⟩, p, v, ⟨hd, rfl⟩, _, _, rfl, _, _, ⟨⟨hc, rfl⟩, rfl⟩, _, _, rfl, rfl⟩

theorem decrypt_eq_ok (drawn : Sec) (header : RatchetHeader) (c : C) (aad p : Bytes)
    (s t : SessionState K Sec) :
    (decrypt S drawn header c aad).run s = .ok p t ↔
      (∃ messageKey, s.skipped.lookup header.id = some messageKey ∧
        S.aeadDecrypt messageKey c (authenticatedData aad header) = .ok p ∧
        t = { s with skipped := s.skipped.erase header.id }) ∨
      (s.skipped.lookup header.id = none ∧
        (tryDecryptInner S drawn header c aad).run s = .ok p t) := by
  unfold decrypt
  simp only [Action.run_bind_eq_ok, Action.run_get]
  constructor
  · rintro ⟨_, _, ⟨⟩, h⟩
    cases hk : s.skipped.lookup header.id with
    | some messageKey =>
      left
      unfold RatchetHeader.id at hk
      simp only [hk, Action.run_bind_eq_ok, Action.run_modify] at h
      obtain ⟨_, _, ⟨⟩, h⟩ := h
      split at h
      · next plain hp =>
        cases h
        exact ⟨messageKey, rfl, hp, rfl⟩
      · simp at h
    | none =>
      right
      unfold RatchetHeader.id at hk
      simp only [hk] at h
      refine ⟨rfl, ?_⟩
      split at h
      · next plain committed hi =>
        simp only [Action.run_bind_eq_ok, Action.run_set, Action.run_pure] at h
        obtain ⟨_, _, ⟨⟩, ⟨⟩⟩ := h
        exact hi
      · simp at h
  · rintro (⟨messageKey, hk, hp, rfl⟩ | ⟨hk, hi⟩)
    · refine ⟨s, s, rfl, ?_⟩
      unfold RatchetHeader.id at hk
      simp only [hk, Action.run_bind_eq_ok, Action.run_modify]
      exact ⟨_, _, rfl, by rw [hp]; rfl⟩
    · refine ⟨s, s, rfl, ?_⟩
      unfold RatchetHeader.id at hk
      simp only [hk, hi]
      rfl

/-- A call that fails leaves the session as it was. -/
theorem decrypt_error (drawn : Sec) (header : RatchetHeader) (c : C) (aad : Bytes)
    (s t : SessionState K Sec) (e : CryptoError)
    (h : (decrypt S drawn header c aad).run s = .error e t) : t = s := by
  unfold decrypt at h
  rw [Action.run_bind_ok (Action.run_get s)] at h
  cases hk : s.skipped.lookup (header.ratchetKey, header.messageNumber) with
  | some messageKey =>
    simp only [hk] at h
    rw [Action.run_bind_ok (Action.run_modify _ s)] at h
    split at h
    · cases h
    · rw [Action.run_bind_ok (Action.run_modify _ _)] at h
      cases h
      simp [HMap.insert_erase_self _ _ _ hk]
  | none =>
    simp only [hk] at h
    split at h
    · cases h
    · cases h; rfl

end Cmp.Crypto
