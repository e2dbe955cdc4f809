import Cmp.Crypto.Primitives
import Cmp.Lib.HashMap

/-! The Double Ratchet of `crypto::ratchet`. A function that takes
`&mut SessionState` and returns a `Result` is an `EStateM` action: an error
keeps whatever was written before it, as in the source. A key pair the source
generates is an argument, the secret that is drawn. -/

namespace Cmp.Crypto

open Cmp.Lib

/-- Maximum number of skipped message keys stored per session. -/
def MAX_SKIP : Nat := 1000

structure RatchetHeader where
  ratchetKey : Key32
  previousChainLength : UInt32
  messageNumber : UInt32
  deriving DecidableEq

/-- `u32::to_be_bytes`. -/
def toBeBytes (n : UInt32) : Bytes :=
  [(n >>> 24).toUInt8, (n >>> 16).toUInt8, (n >>> 8).toUInt8, n.toUInt8]

def RatchetHeader.toAad (h : RatchetHeader) : Bytes :=
  h.ratchetKey.toList ++ toBeBytes h.previousChainLength ++ toBeBytes h.messageNumber

def authenticatedData (envelopeAad : Bytes) (header : RatchetHeader) : Bytes :=
  envelopeAad ++ header.toAad

structure RatchetMessage (C : Type) where
  header : RatchetHeader
  ciphertext : C

/-- `(ratchet_key, message_number) -> message_key`. -/
abbrev SkippedKeysMap (K : Type) := HMap (Key32 × UInt32) K

@[ext]
structure SessionState (K Sec : Type) where
  rootKey : K
  ourRatchet : RatchetKeyPair Sec
  theirRatchetKey : Option Key32
  sendingChainKey : Option K
  receivingChainKey : Option K
  sendCount : UInt32
  recvCount : UInt32
  previousSendCount : UInt32
  skipped : SkippedKeysMap K

variable {K Sec C : Type}

/-- An operation on a session borrowed mutably. -/
abbrev SessionM (K Sec : Type) := EStateM CryptoError (SessionState K Sec)

/-- `u32::checked_add(1)` with the counter-exhaustion error. -/
def checkedSucc (n : UInt32) : Except CryptoError UInt32 :=
  if n.toNat + 1 < UInt32.size then .ok (n + 1) else .error .messageCounterExhausted

/-- Alice's side: `drawn` is her first ratchet secret. -/
def initializeAlice (S : Suite K Sec C) (drawn : Sec) (sharedSecret : K)
    (bobRatchetPublic : Key32) : Except CryptoError (SessionState K Sec) := do
  let ourRatchet := RatchetKeyPair.generate S drawn
  let dhOutput := S.diffieHellman ourRatchet.secretBytes bobRatchetPublic
  let rkOut ← kdfRk S sharedSecret dhOutput
  pure
    { rootKey := rkOut.rootKey
      ourRatchet := ourRatchet
      theirRatchetKey := some bobRatchetPublic
      sendingChainKey := some rkOut.chainKey
      receivingChainKey := none
      sendCount := 0
      recvCount := 0
      previousSendCount := 0
      skipped := ∅ }

def initializeBob (sharedSecret : K) (bobRatchet : RatchetKeyPair Sec) : SessionState K Sec :=
  { rootKey := sharedSecret
    ourRatchet := bobRatchet
    theirRatchetKey := none
    sendingChainKey := none
    receivingChainKey := none
    sendCount := 0
    recvCount := 0
    previousSendCount := 0
    skipped := ∅ }

def encrypt (S : Suite K Sec C) (plaintext envelopeAad : Bytes) :
    SessionM K Sec (RatchetMessage C) := do
  let state ← get
  let newSendCount ← ofExcept (checkedSucc state.sendCount)
  match state.sendingChainKey with
  | none => throw .noSession
  | some chainKey =>
    let ckOut ← ofExcept (kdfCk S chainKey)
    let header : RatchetHeader :=
      { ratchetKey := state.ourRatchet.publicBytes
        previousChainLength := state.previousSendCount
        messageNumber := state.sendCount }
    let ciphertext ←
      ofExcept (S.aeadEncrypt ckOut.messageKey plaintext (authenticatedData envelopeAad header))
    modify fun st =>
      { st with sendingChainKey := some ckOut.chainKey, sendCount := newSendCount }
    pure ⟨header, ciphertext⟩

/-- The `for` loop of `skip_message_keys`: `remaining` keys from number `i` on. -/
def skipLoop (S : Suite K Sec C) (theirKey : Key32) :
    Nat → UInt32 → K → SessionM K Sec K
  | 0, _, chainKey => pure chainKey
  | remaining + 1, i, chainKey => do
    let ckOut ← ofExcept (kdfCk S chainKey)
    modify fun st => { st with skipped := st.skipped.insert (theirKey, i) ckOut.messageKey }
    skipLoop S theirKey remaining (i + 1) ckOut.chainKey

/-- Skip and store message keys from `current` to `til` (exclusive). -/
def skipMessageKeys (S : Suite K Sec C) (current til : UInt32) : SessionM K Sec Unit := do
  if til ≤ current then
    pure ()
  else
    let state ← get
    let toSkip := til - current
    if toSkip.toNat + HMap.size state.skipped > MAX_SKIP then
      throw .skippedKeyLimitExceeded
    else
      match state.theirRatchetKey, state.receivingChainKey with
      | some theirKey, some chainKey =>
        let chainKey ← skipLoop S theirKey toSkip.toNat current chainKey
        modify fun st => { st with receivingChainKey := some chainKey }
      | _, _ => pure ()

/-- Store the rest of the chain a DH step leaves, if there is one. -/
def skipOldChain (S : Suite K Sec C) (header : RatchetHeader) : SessionM K Sec Unit := do
  let state ← get
  if state.receivingChainKey.isSome then
    skipMessageKeys S state.recvCount header.previousChainLength
  else
    pure ()

/-- The part of `try_decrypt_inner` under `need_dh_step`; `drawn` is the secret
of the key pair generated there. -/
def dhStep (S : Suite K Sec C) (drawn : Sec) (header : RatchetHeader) : SessionM K Sec Unit := do
  skipOldChain S header
  let state ← get
  let dhOutput := S.diffieHellman state.ourRatchet.secretBytes header.ratchetKey
  let rkOut ← ofExcept (kdfRk S state.rootKey dhOutput)
  let ourRatchet := RatchetKeyPair.generate S drawn
  modify fun st =>
    { st with
      rootKey := rkOut.rootKey
      theirRatchetKey := some header.ratchetKey
      receivingChainKey := some rkOut.chainKey
      recvCount := 0
      previousSendCount := st.sendCount
      sendCount := 0
      ourRatchet := ourRatchet }
  let dhOutput2 := S.diffieHellman ourRatchet.secretBytes header.ratchetKey
  let rkOut2 ← ofExcept (kdfRk S rkOut.rootKey dhOutput2)
  modify fun st =>
    { st with rootKey := rkOut2.rootKey, sendingChainKey := some rkOut2.chainKey }

def dhStepIfNeeded (S : Suite K Sec C) (drawn : Sec) (header : RatchetHeader) :
    SessionM K Sec Unit := do
  let state ← get
  if state.theirRatchetKey ≠ some header.ratchetKey then
    dhStep S drawn header
  else
    pure ()

def tryDecryptInner (S : Suite K Sec C) (drawn : Sec) (header : RatchetHeader)
    (ciphertext : C) (envelopeAad : Bytes) : SessionM K Sec Bytes := do
  dhStepIfNeeded S drawn header
  let state ← get
  skipMessageKeys S state.recvCount header.messageNumber
  let state ← get
  match state.receivingChainKey with
  | none => throw .noSession
  | some chainKey =>
    let ckOut ← ofExcept (kdfCk S chainKey)
    let aad := authenticatedData envelopeAad header
    let plaintext ← ofExcept (S.aeadDecrypt ckOut.messageKey ciphertext aad)
    modify fun st => { st with receivingChainKey := some ckOut.chainKey }
    let recvCount ← ofExcept (checkedSucc header.messageNumber)
    modify fun st => { st with recvCount := recvCount }
    pure plaintext

def decrypt (S : Suite K Sec C) (drawn : Sec) (header : RatchetHeader)
    (ciphertext : C) (envelopeAad : Bytes) : SessionM K Sec Bytes := do
  let state ← get
  let skipKey := (header.ratchetKey, header.messageNumber)
  match state.skipped.lookup skipKey with
  | some messageKey =>
    modify fun st => { st with skipped := st.skipped.erase skipKey }
    match S.aeadDecrypt messageKey ciphertext (authenticatedData envelopeAad header) with
    | .ok plaintext => pure plaintext
    | .error e =>
      -- the key is put back: a forged message does not consume it
      modify fun st => { st with skipped := st.skipped.insert skipKey messageKey }
      throw e
  | none =>
    let snapshot := state
    match (tryDecryptInner S drawn header ciphertext envelopeAad).run state with
    | .ok plaintext committed =>
      set committed
      pure plaintext
    | .error e _ =>
      set snapshot
      throw e

/-! ## The associated data determines header and envelope context -/

theorem toBeBytes_inj {m n : UInt32} (h : toBeBytes m = toBeBytes n) : m = n := by
  have hbyte : ∀ (u : UInt32) (i : UInt32), i.toNat < 32 →
      (u >>> i).toUInt8.toNat = u.toNat / 2 ^ i.toNat % 256 := by
    intro u i hi
    rw [UInt32.toNat_toUInt8, UInt32.toNat_shiftRight, Nat.mod_eq_of_lt hi,
      Nat.shiftRight_eq_div_pow]
  simp only [toBeBytes, List.cons.injEq, and_true] at h
  obtain ⟨h3, h2, h1, h0⟩ := h
  have e3 := congrArg UInt8.toNat h3
  have e2 := congrArg UInt8.toNat h2
  have e1 := congrArg UInt8.toNat h1
  have e0 := congrArg UInt8.toNat h0
  rw [hbyte _ _ (by decide), hbyte _ _ (by decide)] at e3 e2 e1
  rw [UInt32.toNat_toUInt8, UInt32.toNat_toUInt8] at e0
  have hm := m.toNat_lt
  have hn := n.toNat_lt
  apply UInt32.toNat_inj.mp
  simp only [UInt32.reduceToNat] at e3 e2 e1
  omega

theorem toAad_length (h : RatchetHeader) : h.toAad.length = 40 := by
  simp [RatchetHeader.toAad, toBeBytes]

theorem toAad_inj {h h' : RatchetHeader} (heq : h.toAad = h'.toAad) : h = h' := by
  unfold RatchetHeader.toAad at heq
  have hn := List.append_inj' heq rfl
  have hp := List.append_inj' hn.1 rfl
  have hk : h.ratchetKey = h'.ratchetKey := List.Vector.toList_injective hp.1
  cases h
  cases h'
  simp only at hn hp hk
  rw [hk, toBeBytes_inj hp.2, toBeBytes_inj hn.2]

/-- The header is a suffix of fixed length. -/
theorem authenticatedData_inj {aad aad' : Bytes} {h h' : RatchetHeader}
    (heq : authenticatedData aad h = authenticatedData aad' h') : aad = aad' ∧ h = h' := by
  have hsplit := List.append_inj' heq (by rw [toAad_length, toAad_length])
  exact ⟨hsplit.1, toAad_inj hsplit.2⟩

end Cmp.Crypto
