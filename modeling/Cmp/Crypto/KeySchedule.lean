import Cmp.Crypto.RatchetSteps

/-! The key schedule when every derivation succeeds: the outputs of the two KDFs
as functions, and the map `skip_message_keys` leaves behind. -/

namespace Cmp.Crypto

open Cmp.Lib

variable {K Sec C : Type}

/-- KDF calls succeed. -/
structure Suite.KdfTotal (S : Suite K Sec C) : Prop where
  hkdf : ∀ rootKey dhOutput, ∃ output, S.hkdfRatchet rootKey dhOutput = .ok output
  hmac : ∀ key data, ∃ output, S.hmacSha256 key data = .ok output

namespace Suite

variable (S : Suite K Sec C)

/-- Both sides of a Diffie-Hellman exchange compute the same secret. -/
def DhCommutes : Prop := ∀ a b, S.diffieHellman a (S.toPublic b) = S.diffieHellman b (S.toPublic a)

/-- AEAD decryption undoes encryption under the same key and associated data. -/
def AeadOpens : Prop :=
  ∀ key plaintext aad ciphertext, S.aeadEncrypt key plaintext aad = .ok ciphertext →
    S.aeadDecrypt key ciphertext aad = .ok plaintext

/-- AES-GCM appends a tag of 16 bytes. -/
def TagLength : Prop :=
  ∀ key plaintext aad ciphertext, S.aeadEncrypt key plaintext aad = .ok ciphertext →
    S.ciphertextLen ciphertext = plaintext.length + 16

def nextRoot (rootKey dhOutput : K) : K :=
  match S.hkdfRatchet rootKey dhOutput with
  | .ok output => output.1
  | .error _ => rootKey

def newChain (rootKey dhOutput : K) : K :=
  match S.hkdfRatchet rootKey dhOutput with
  | .ok output => output.2
  | .error _ => rootKey

def messageKey (chainKey : K) : K :=
  match S.hmacSha256 chainKey 0x01 with
  | .ok output => output
  | .error _ => chainKey

def nextChain (chainKey : K) : K :=
  match S.hmacSha256 chainKey 0x02 with
  | .ok output => output
  | .error _ => chainKey

/-- The message key at position `n` of the chain that starts at `chainKey`. -/
def messageKeyAt (chainKey : K) (n : Nat) : K := S.messageKey (S.nextChain^[n] chainKey)

end Suite

variable {S : Suite K Sec C}

theorem kdfRk_total (hS : S.KdfTotal) (rootKey dhOutput : K) :
    kdfRk S rootKey dhOutput =
      .ok ⟨S.nextRoot rootKey dhOutput, S.newChain rootKey dhOutput⟩ := by
  obtain ⟨output, h⟩ := hS.hkdf rootKey dhOutput
  simp [kdfRk, Suite.nextRoot, Suite.newChain, h, bind, Except.bind, pure, Except.pure]

theorem kdfCk_total (hS : S.KdfTotal) (chainKey : K) :
    kdfCk S chainKey = .ok ⟨S.nextChain chainKey, S.messageKey chainKey⟩ := by
  obtain ⟨mk, hm⟩ := hS.hmac chainKey 0x01
  obtain ⟨ck, hc⟩ := hS.hmac chainKey 0x02
  simp [kdfCk, Suite.nextChain, Suite.messageKey, hm, hc, bind, Except.bind, pure, Except.pure]

/-! ## The skipped keys -/

/-- `n` keys of a chain stored from number `i` on. -/
def skipRange (S : Suite K Sec C) (theirKey : Key32) :
    Nat → UInt32 → K → SkippedKeysMap K → SkippedKeysMap K
  | 0, _, _, m => m
  | n + 1, i, chainKey, m =>
    skipRange S theirKey n (i + 1) (S.nextChain chainKey)
      (m.insert (theirKey, i) (S.messageKey chainKey))

theorem skipLoop_total (hS : S.KdfTotal) (theirKey : Key32) (n : Nat) :
    ∀ (i : UInt32) (chainKey : K) (s : SessionState K Sec),
      (skipLoop S theirKey n i chainKey).run s =
        .ok (S.nextChain^[n] chainKey)
          { s with skipped := skipRange S theirKey n i chainKey s.skipped } := by
  induction n with
  | zero => intro i chainKey s; rfl
  | succ n ih =>
    intro i chainKey s
    unfold skipLoop
    rw [kdfCk_total hS, Action.run_bind_ok (Action.run_ofExcept_ok _ s),
      Action.run_bind_ok (Action.run_modify _ s), ih]
    rfl

theorem lookup_skipRange (theirKey key : Key32) (k : UInt32) (n : Nat) :
    ∀ (i : UInt32) (chainKey : K) (m : SkippedKeysMap K), i.toNat + n < UInt32.size →
      (skipRange S theirKey n i chainKey m).lookup (key, k) =
        if key = theirKey ∧ i.toNat ≤ k.toNat ∧ k.toNat < i.toNat + n then
          some (S.messageKeyAt chainKey (k.toNat - i.toNat))
        else m.lookup (key, k) := by
  induction n with
  | zero => intro i chainKey m _; simp [skipRange]
  | succ n ih =>
    intro i chainKey m hn
    have hi : (i + 1).toNat = i.toNat + 1 := toNat_succ (by omega)
    rw [skipRange, ih _ _ _ (by omega), hi, HMap.lookup_insert_eq]
    by_cases hk : key = theirKey
    · subst hk
      by_cases he : k = i
      · subst he
        simp [Suite.messageKeyAt]
      · have hne : k.toNat ≠ i.toNat := fun h => he (UInt32.toNat_inj.mp h)
        by_cases hr : i.toNat + 1 ≤ k.toNat ∧ k.toNat < i.toNat + 1 + n
        · have hs : k.toNat - i.toNat = (k.toNat - (i.toNat + 1)) + 1 := by omega
          simp only [true_and, hr, and_self, ↓reduceIte]
          rw [if_pos (by omega), hs, Suite.messageKeyAt, Suite.messageKeyAt,
            Function.iterate_succ_apply]
        · rw [if_neg (by simpa using hr), if_neg (by simpa using he), if_neg (by simp; omega)]
    · simp [hk]

theorem size_skipRange_le (theirKey : Key32) (n : Nat) :
    ∀ (i : UInt32) (chainKey : K) (m : SkippedKeysMap K),
      HMap.size (skipRange S theirKey n i chainKey m) ≤ HMap.size m + n := by
  induction n with
  | zero => intro i chainKey m; exact Nat.le_refl _
  | succ n ih =>
    intro i chainKey m
    have h1 := ih (i + 1) (S.nextChain chainKey) (m.insert (theirKey, i) (S.messageKey chainKey))
    have h2 := HMap.size_insert_le (theirKey, i) (S.messageKey chainKey) m
    simp only [skipRange]
    omega

/-- The session after a skip of `n` keys from number `i` on. -/
def SessionState.skippedTo (S : Suite K Sec C) (theirKey : Key32) (chainKey : K) (n : Nat)
    (i : UInt32) (s : SessionState K Sec) : SessionState K Sec :=
  { s with
    skipped := skipRange S theirKey n i chainKey s.skipped
    receivingChainKey := some (S.nextChain^[n] chainKey) }

theorem skippedTo_zero (theirKey : Key32) (chainKey : K) (i : UInt32) (s : SessionState K Sec)
    (hr : s.receivingChainKey = some chainKey) : s.skippedTo S theirKey chainKey 0 i = s := by
  cases s
  simp only at hr
  subst hr
  rfl

/-- On a session that receives, a skip stores exactly the keys in between, unless
it would exceed `MAX_SKIP`. -/
theorem skipMessageKeys_total (hS : S.KdfTotal) (current til : UInt32) (theirKey : Key32)
    (chainKey : K) (s : SessionState K Sec) (ht : s.theirRatchetKey = some theirKey)
    (hr : s.receivingChainKey = some chainKey) :
    (skipMessageKeys S current til).run s =
      if current < til ∧ MAX_SKIP < til.toNat - current.toNat + HMap.size s.skipped then
        .error .skippedKeyLimitExceeded s
      else .ok () (s.skippedTo S theirKey chainKey (til.toNat - current.toNat) current) := by
  unfold skipMessageKeys
  by_cases hle : til ≤ current
  · have hz : til.toNat - current.toNat = 0 := Nat.sub_eq_zero_of_le (UInt32.le_iff_toNat_le.mp hle)
    rw [if_pos hle, hz, skippedTo_zero _ _ _ _ hr,
      if_neg (fun h => absurd h.1 (UInt32.not_lt.mpr hle))]
    rfl
  · have hlt : current < til := UInt32.not_le.mp hle
    have hsub : (til - current).toNat = til.toNat - current.toNat :=
      UInt32.toNat_sub_of_le _ _ (UInt32.le_of_lt hlt)
    rw [if_neg hle, Action.run_bind_ok (Action.run_get s)]
    simp only [hsub, hlt, true_and, ht, hr, Action.run_ite, gt_iff_lt, Action.run_throw]
    split
    · rfl
    · rw [Action.run_bind_ok (skipLoop_total hS _ _ _ _ _)]
      rfl

/-! ## Receiving -/

/-- The session after message `n` of the receiving chain: the keys before it are
stored and its own key is used up. -/
def SessionState.receivedTo (S : Suite K Sec C) (theirKey : Key32) (chainKey : K) (n : UInt32)
    (s : SessionState K Sec) : SessionState K Sec :=
  { s with
    skipped := skipRange S theirKey (n.toNat - s.recvCount.toNat) s.recvCount chainKey s.skipped
    receivingChainKey := some (S.nextChain^[n.toNat - s.recvCount.toNat + 1] chainKey)
    recvCount := n + 1 }

/-- A skip from `recvCount` to `til` passes the `MAX_SKIP` check. -/
def SessionState.MaySkip (s : SessionState K Sec) (til : UInt32) : Prop :=
  ¬ (s.recvCount < til ∧ MAX_SKIP < til.toNat - s.recvCount.toNat + HMap.size s.skipped)

theorem maySkip_of_le (s : SessionState K Sec) (til : UInt32)
    (h : HMap.size s.skipped + (til.toNat - s.recvCount.toNat) ≤ MAX_SKIP) : s.MaySkip til := by
  rintro ⟨_, hlt⟩
  omega

/-- `try_decrypt_inner` on the chain the session already receives on. -/
theorem tryDecryptInner_same (hS : S.KdfTotal) (drawn : Sec) (header : RatchetHeader) (c : C)
    (aad p : Bytes) (chainKey : K) (s t : SessionState K Sec)
    (ht : s.theirRatchetKey = some header.ratchetKey) (hr : s.receivingChainKey = some chainKey) :
    (tryDecryptInner S drawn header c aad).run s = .ok p t ↔
      s.MaySkip header.messageNumber ∧
      S.aeadDecrypt (S.messageKeyAt chainKey (header.messageNumber.toNat - s.recvCount.toNat)) c
        (authenticatedData aad header) = .ok p ∧
      header.messageNumber.toNat + 1 < UInt32.size ∧
      t = s.receivedTo S header.ratchetKey chainKey header.messageNumber := by
  have hdh : (dhStepIfNeeded S drawn header).run s = .ok () s := by
    rw [dhStepIfNeeded_run, if_neg (by simp [ht])]
  have hskip := skipMessageKeys_total hS s.recvCount header.messageNumber header.ratchetKey
    chainKey s ht hr
  rw [tryDecryptInner_eq_ok]
  constructor
  · rintro ⟨u, v, ck, ckOut, hu, hv, hck, hout, hd, hn, rfl⟩
    rw [hdh] at hu
    cases hu
    rw [hskip] at hv
    split at hv
    · cases hv
    · next hmay =>
      cases hv
      cases hck
      rw [kdfCk_total hS] at hout
      cases hout
      refine ⟨hmay, hd, hn, ?_⟩
      simp only [SessionState.skippedTo, SessionState.receivedTo, Function.iterate_succ_apply']
  · rintro ⟨hmay, hd, hn, rfl⟩
    rw [if_neg hmay] at hskip
    refine ⟨s, _, _, _, hdh, hskip, rfl, kdfCk_total hS _, hd, hn, ?_⟩
    simp only [SessionState.skippedTo, SessionState.receivedTo, Function.iterate_succ_apply']

/-- An initiator that has received nothing has no chain for the key it was
initialised with. -/
theorem tryDecryptInner_unstarted (drawn : Sec) (header : RatchetHeader) (c : C) (aad p : Bytes)
    (s t : SessionState K Sec) (ht : s.theirRatchetKey = some header.ratchetKey)
    (hr : s.receivingChainKey = none) :
    (tryDecryptInner S drawn header c aad).run s ≠ .ok p t := by
  rw [ne_eq, tryDecryptInner_eq_ok]
  rintro ⟨u, v, ck, ckOut, hu, hv, hck, _⟩
  rw [dhStepIfNeeded_run, if_neg (by simp [ht])] at hu
  cases hu
  have := skipMessageKeys_of_none S _ _ _ _ hv hr
  rw [this, hr] at hck
  cases hck

/-- The session with the rest of its receiving chain stored up to `til`. -/
def SessionState.drained (S : Suite K Sec C) (til : UInt32) (s : SessionState K Sec) :
    SessionState K Sec :=
  match s.theirRatchetKey, s.receivingChainKey with
  | some theirKey, some chainKey =>
    s.skippedTo S theirKey chainKey (til.toNat - s.recvCount.toNat) s.recvCount
  | _, _ => s

theorem skipOldChain_total (hS : S.KdfTotal) (header : RatchetHeader) (s u : SessionState K Sec)
    (hinv : s.receivingChainKey.isSome → s.theirRatchetKey.isSome) :
    (skipOldChain S header).run s = .ok () u ↔
      (s.receivingChainKey.isSome → s.MaySkip header.previousChainLength) ∧
        u = s.drained S header.previousChainLength := by
  rw [skipOldChain_run]
  cases hr : s.receivingChainKey with
  | none => simp [SessionState.drained, hr, eq_comm]
  | some chainKey =>
    obtain ⟨theirKey, ht⟩ := Option.isSome_iff_exists.mp (hinv (by simp [hr]))
    simp only [Option.isSome_some, ↓reduceIte, true_imp_iff, SessionState.drained, ht, hr]
    rw [skipMessageKeys_total hS _ _ theirKey chainKey s ht hr, SessionState.MaySkip]
    split
    · next h => simp [h]
    · next h => simp [h, eq_comm]

/-- The session after a whole DH step to the key of `header`. -/
def SessionState.dhStepped (S : Suite K Sec C) (drawn : Sec) (header : RatchetHeader)
    (s : SessionState K Sec) : SessionState K Sec :=
  let dh := S.diffieHellman s.ourRatchet.secretBytes header.ratchetKey
  let root := S.nextRoot s.rootKey dh
  let dh2 := S.diffieHellman drawn header.ratchetKey
  (s.drained S header.previousChainLength).afterDh S drawn header
    ⟨root, S.newChain s.rootKey dh⟩ ⟨S.nextRoot root dh2, S.newChain root dh2⟩

theorem drained_frame (til : UInt32) (s : SessionState K Sec) :
    s.drained S til =
      { s with
        skipped := (s.drained S til).skipped
        receivingChainKey := (s.drained S til).receivingChainKey } := by
  unfold SessionState.drained
  split <;> rfl

/-- A DH step stores at most the rest of the chain it leaves. -/
theorem size_dhStepped_le (drawn : Sec) (header : RatchetHeader) (s : SessionState K Sec) :
    HMap.size (s.dhStepped S drawn header).skipped ≤
      HMap.size s.skipped +
        if s.receivingChainKey.isSome then
          header.previousChainLength.toNat - s.recvCount.toNat
        else 0 := by
  show HMap.size (s.drained S header.previousChainLength).skipped ≤ _
  unfold SessionState.drained
  split
  · next theirKey chainKey _ hr =>
    rw [hr]
    exact size_skipRange_le _ _ _ _ _
  · exact Nat.le_add_right _ _

theorem dhStep_total (hS : S.KdfTotal) (drawn : Sec) (header : RatchetHeader)
    (s t : SessionState K Sec) (hinv : s.receivingChainKey.isSome → s.theirRatchetKey.isSome) :
    (dhStep S drawn header).run s = .ok () t ↔
      (s.receivingChainKey.isSome → s.MaySkip header.previousChainLength) ∧
        t = s.dhStepped S drawn header := by
  rw [dhStep_eq_ok]
  have hf := drained_frame (S := S) header.previousChainLength s
  constructor
  · rintro ⟨u, rkOut, rkOut2, hu, h1, h2, rfl⟩
    obtain ⟨hmay, rfl⟩ := (skipOldChain_total hS header s u hinv).mp hu
    rw [kdfRk_total hS] at h1
    cases h1
    rw [kdfRk_total hS] at h2
    cases h2
    refine ⟨hmay, ?_⟩
    unfold SessionState.dhStepped
    rw [hf]
  · rintro ⟨hmay, rfl⟩
    refine ⟨_, _, _, (skipOldChain_total hS header s _ hinv).mpr ⟨hmay, rfl⟩,
      kdfRk_total hS _ _, kdfRk_total hS _ _, ?_⟩
    unfold SessionState.dhStepped
    rw [hf]

/-- `try_decrypt_inner` on a ratchet key the session does not know. -/
theorem tryDecryptInner_new (hS : S.KdfTotal) (drawn : Sec) (header : RatchetHeader) (c : C)
    (aad p : Bytes) (s t : SessionState K Sec)
    (hinv : s.receivingChainKey.isSome → s.theirRatchetKey.isSome)
    (ht : s.theirRatchetKey ≠ some header.ratchetKey) :
    (tryDecryptInner S drawn header c aad).run s = .ok p t ↔
      (s.receivingChainKey.isSome → s.MaySkip header.previousChainLength) ∧
      (s.dhStepped S drawn header).MaySkip header.messageNumber ∧
      S.aeadDecrypt
        (S.messageKeyAt
          (S.newChain s.rootKey (S.diffieHellman s.ourRatchet.secretBytes header.ratchetKey))
          header.messageNumber.toNat) c
        (authenticatedData aad header) = .ok p ∧
      header.messageNumber.toNat + 1 < UInt32.size ∧
      t = (s.dhStepped S drawn header).receivedTo S header.ratchetKey
        (S.newChain s.rootKey (S.diffieHellman s.ourRatchet.secretBytes header.ratchetKey))
        header.messageNumber := by
  -- after the step the session is on the chain of `header`, from number 0
  have hsame := tryDecryptInner_same hS drawn header c aad p
    (S.newChain s.rootKey (S.diffieHellman s.ourRatchet.secretBytes header.ratchetKey))
    (s.dhStepped S drawn header) t rfl rfl
  have hzero : (s.dhStepped S drawn header).recvCount = 0 := rfl
  rw [hzero, UInt32.toNat_zero, Nat.sub_zero] at hsame
  rw [← hsame, tryDecryptInner_eq_ok, tryDecryptInner_eq_ok]
  have hid : (dhStepIfNeeded S drawn header).run (s.dhStepped S drawn header) =
      .ok () (s.dhStepped S drawn header) := by
    rw [dhStepIfNeeded_run, if_neg (by simp [SessionState.dhStepped, SessionState.afterDh])]
  have hstep : ∀ u, (dhStepIfNeeded S drawn header).run s = .ok () u ↔
      (s.receivingChainKey.isSome → s.MaySkip header.previousChainLength) ∧
        u = s.dhStepped S drawn header := by
    intro u
    rw [dhStepIfNeeded_run, if_pos ht, dhStep_total hS drawn header s u hinv]
  constructor
  · rintro ⟨u, v, ck, ckOut, hu, h⟩
    obtain ⟨hmay, rfl⟩ := (hstep u).mp hu
    exact ⟨hmay, _, v, ck, ckOut, hid, h⟩
  · rintro ⟨hmay, u, v, ck, ckOut, hu, h⟩
    rw [hid] at hu
    cases hu
    exact ⟨_, v, ck, ckOut, (hstep _).mpr ⟨hmay, rfl⟩, h⟩

end Cmp.Crypto
