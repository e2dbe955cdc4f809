import Cmp.Crypto.FailedCalls

/-! The size of the skipped map. `skip_message_keys` counts what it is about to store before it
stores it, so that no session holds more than `MAX_SKIP` keys, whatever headers arrive; the loader
of a stored session refuses more than that, and so accepts every session that was stored. -/

namespace Cmp.Crypto

open Cmp.Lib

variable {T K Sec C : Type}

/-! ## Runs -/

def SessionState.SkipBounded (s : SessionState K Sec) : Prop := HMap.size s.skipped ≤ MAX_SKIP

/-- The sessions that calls with any arguments reach, whether they succeed or fail; `loaded` are
those that a loader may start from. -/
inductive SessionRun (S : Suite K Sec C) : SessionState K Sec → Prop
  | alice {drawn : Sec} {sharedSecret : K} {bobRatchetPublic : Key32} {s : SessionState K Sec}
      (h : initializeAlice S drawn sharedSecret bobRatchetPublic = .ok s) : SessionRun S s
  | bob (sharedSecret : K) (bobRatchet : RatchetKeyPair Sec) :
      SessionRun S (initializeBob sharedSecret bobRatchet)
  | loaded {s : SessionState K Sec} (h : s.SkipBounded) : SessionRun S s
  | called {s : SessionState K Sec} (call : RatchetCall Sec C) (run : SessionRun S s) :
      SessionRun S (Action.finalState ((call.run S).run s))

section

variable {S : Suite K Sec C} {s t u : SessionState K Sec}

/-! ## What is stored -/

theorem skipLoop_size {theirKey : Key32} (n : Nat) :
    ∀ {i : UInt32} {chainKey chainKey' : K} {s t : SessionState K Sec},
      (skipLoop S theirKey n i chainKey).run s = .ok chainKey' t →
        HMap.size t.skipped ≤ HMap.size s.skipped + n := by
  induction n with
  | zero =>
    intro i chainKey chainKey' s t h
    simp only [skipLoop, Action.run_pure] at h
    cases h
    exact Nat.le_refl _
  | succ n ih =>
    intro i chainKey chainKey' s t h
    simp only [skipLoop, Action.run_bind_eq_ok, Action.run_ofExcept_eq_ok, Action.run_modify] at h
    obtain ⟨ckOut, _, ⟨-, rfl⟩, _, _, ⟨⟩, h⟩ := h
    have hrest := ih h
    have hfirst := HMap.size_insert_le (theirKey, i) ckOut.messageKey s.skipped
    dsimp only at hrest
    omega

/-- The check counts every key that the loop stores. -/
theorem skipMessageKeys_bounded {current til : UInt32} (hs : s.SkipBounded)
    (h : (skipMessageKeys S current til).run s = .ok () t) : t.SkipBounded := by
  unfold skipMessageKeys at h
  simp only [Action.run_ite, Action.run_pure] at h
  split at h
  · cases h
    exact hs
  · simp only [Action.run_bind_eq_ok, Action.run_get, Action.run_ite, Action.run_throw] at h
    obtain ⟨_, _, ⟨⟩, h⟩ := h
    split at h
    · cases h
    · next hroom =>
      split at h
      · simp only [Action.run_bind_eq_ok, Action.run_modify] at h
        obtain ⟨chainKey, u, hloop, h⟩ := h
        cases h
        have hsize := skipLoop_size _ hloop
        unfold SessionState.SkipBounded
        dsimp only
        omega
      · cases h
        exact hs

theorem dhStepIfNeeded_bounded {drawn : Sec} {header : RatchetHeader} (hs : s.SkipBounded)
    (h : (dhStepIfNeeded S drawn header).run s = .ok () u) : u.SkipBounded := by
  rw [dhStepIfNeeded_run] at h
  split at h
  · obtain ⟨v, rkOut, rkOut2, hskip, -, -, rfl⟩ := (dhStep_eq_ok S drawn header s u).mp h
    show v.SkipBounded
    rw [skipOldChain_run] at hskip
    split at hskip
    · exact skipMessageKeys_bounded hs hskip
    · cases hskip
      exact hs
  · cases h
    exact hs

theorem decrypt_bounded {drawn : Sec} {header : RatchetHeader} {ciphertext : C}
    {envelopeAad plaintext : Bytes} (hs : s.SkipBounded)
    (h : (decrypt S drawn header ciphertext envelopeAad).run s = .ok plaintext t) :
    t.SkipBounded := by
  rcases (decrypt_eq_ok S drawn header ciphertext envelopeAad plaintext s t).mp h with
    ⟨messageKey, -, -, rfl⟩ | ⟨-, hinner⟩
  · exact (HMap.size_erase_le header.id s.skipped).trans hs
  · obtain ⟨u, v, chainKey, ckOut, hdh, hskip, -, -, -, -, rfl⟩ :=
      (tryDecryptInner_eq_ok S drawn header ciphertext envelopeAad plaintext s t).mp hinner
    have hv : v.SkipBounded := skipMessageKeys_bounded (dhStepIfNeeded_bounded hs hdh) hskip
    exact hv

theorem encrypt_bounded {plaintext envelopeAad : Bytes} {message : RatchetMessage C}
    (hs : s.SkipBounded) (h : (encrypt S plaintext envelopeAad).run s = .ok message t) :
    t.SkipBounded := by
  obtain ⟨-, chainKey, ckOut, -, -, -, -, rfl⟩ :=
    (encrypt_eq_ok S plaintext envelopeAad s t message).mp h
  exact hs

theorem RatchetCall.bounded (call : RatchetCall Sec C) (hs : s.SkipBounded) :
    (Action.finalState ((call.run S).run s)).SkipBounded := by
  cases call with
  | encrypt plaintext envelopeAad =>
    show (Action.finalState ((RatchetOutput.message <$> Crypto.encrypt S plaintext envelopeAad).run
      s)).SkipBounded
    rw [Action.finalState_map]
    cases h : (Crypto.encrypt S plaintext envelopeAad).run s with
    | ok message t => exact encrypt_bounded hs h
    | error e t => exact encrypt_error S plaintext envelopeAad s t e h ▸ hs
  | decrypt drawn header ciphertext envelopeAad =>
    show (Action.finalState ((RatchetOutput.plaintext <$>
      Crypto.decrypt S drawn header ciphertext envelopeAad).run s)).SkipBounded
    rw [Action.finalState_map]
    cases h : (Crypto.decrypt S drawn header ciphertext envelopeAad).run s with
    | ok plaintext t => exact decrypt_bounded hs h
    | error e t => exact decrypt_error S drawn header ciphertext envelopeAad s t e h ▸ hs

theorem SessionRun.bounded (run : SessionRun S s) : s.SkipBounded := by
  induction run with
  | alice h =>
    obtain ⟨rkOut, -, rfl⟩ := initializeAlice_eq_ok h
    exact Nat.zero_le _
  | bob sharedSecret bobRatchet => exact Nat.zero_le _
  | loaded h => exact h
  | called call run ih => exact call.bounded ih

end

/-! ## Arithmetic -/

/-- What a build with overflow checks can stop with. -/
inductive Fault
  | error (e : CryptoError)
  | overflow

abbrev CheckedM (K Sec : Type) := EStateM Fault (SessionState K Sec)

/-- The result of an operation, if it fits below `bound`. -/
def fits (bound value : Nat) : CheckedM K Sec Nat :=
  if value < bound then pure value else throw .overflow

/-- `a - b` of unsigned numbers. -/
def subChecked (a b : UInt32) : CheckedM K Sec Nat :=
  if b.toNat ≤ a.toNat then pure (a.toNat - b.toNat) else throw .overflow

/-- `skipLoop`, where the index is moved with a check. -/
def skipLoopChecked (S : Suite K Sec C) (theirKey : Key32) :
    Nat → UInt32 → K → CheckedM K Sec K
  | 0, _, chainKey => pure chainKey
  | remaining + 1, i, chainKey =>
    match kdfCk S chainKey with
    | .error e => throw (.error e)
    | .ok ckOut => do
      modify fun st => { st with skipped := st.skipped.insert (theirKey, i) ckOut.messageKey }
      let next ← fits UInt32.size (i.toNat + 1)
      skipLoopChecked S theirKey remaining (UInt32.ofNat next) ckOut.chainKey

/-- `skipMessageKeys`, with every operation checked: `until - current` in `u32`, the sum with
`skipped.len()` in `u64`, and the index of the loop in `u32`. -/
def skipMessageKeysChecked (S : Suite K Sec C) (current til : UInt32) : CheckedM K Sec Unit := do
  if til ≤ current then
    pure ()
  else
    let state ← get
    let toSkip ← subChecked til current
    let total ← fits UInt64.size (toSkip + HMap.size state.skipped)
    if total > MAX_SKIP then
      throw (.error .skippedKeyLimitExceeded)
    else
      match state.theirRatchetKey, state.receivingChainKey with
      | some theirKey, some chainKey =>
        let chainKey ← skipLoopChecked S theirKey toSkip current chainKey
        modify fun st => { st with receivingChainKey := some chainKey }
      | _, _ => pure ()

/-- A result without overflow. -/
def withoutOverflow {σ α : Type} : EStateM.Result CryptoError σ α → EStateM.Result Fault σ α
  | .ok a s => .ok a s
  | .error e s => .error (.error e) s

section

variable {S : Suite K Sec C} {s t u : SessionState K Sec}

theorem skipLoopChecked_run {theirKey : Key32} (n : Nat) :
    ∀ (i : UInt32) (chainKey : K) (s : SessionState K Sec), i.toNat + n < UInt32.size →
      (skipLoopChecked S theirKey n i chainKey).run s =
        withoutOverflow ((skipLoop S theirKey n i chainKey).run s) := by
  induction n with
  | zero => intro i chainKey s _; rfl
  | succ n ih =>
    intro i chainKey s hsize
    have hfits : i.toNat + 1 < UInt32.size := by omega
    unfold skipLoopChecked skipLoop
    cases hck : kdfCk S chainKey with
    | error e => rfl
    | ok ckOut =>
      dsimp only
      rw [Action.run_bind_ok (Action.run_modify _ s), Action.run_bind_ok
        (Action.run_ofExcept_ok _ s), Action.run_bind_ok (Action.run_modify _ s)]
      have hnext : UInt32.ofNat (i.toNat + 1) = i + 1 := by
        rw [UInt32.ofNat_add, UInt32.ofNat_toNat]
        rfl
      have hpass : ∀ t : SessionState K Sec,
          (fits UInt32.size (i.toNat + 1) : CheckedM K Sec Nat).run t = .ok (i.toNat + 1) t := by
        intro t
        rw [fits, if_pos hfits]
        rfl
      rw [Action.run_bind_ok (hpass _), hnext]
      exact ih (i + 1) ckOut.chainKey _ (by rw [toNat_succ hfits]; omega)

/-- In a session within the bound no operation of a skip overflows. -/
theorem skipMessageKeysChecked_run (hs : s.SkipBounded) (current til : UInt32) :
    (skipMessageKeysChecked S current til).run s =
      withoutOverflow ((skipMessageKeys S current til).run s) := by
  unfold skipMessageKeysChecked skipMessageKeys
  by_cases hle : til ≤ current
  · rw [if_pos hle, if_pos hle]
    rfl
  · have hlt : current < til := UInt32.not_le.mp hle
    have hltN := UInt32.lt_iff_toNat_lt.mp hlt
    have htil : til.toNat < UInt32.size := til.toNat_lt
    have hsub : (til - current).toNat = til.toNat - current.toNat :=
      UInt32.toNat_sub_of_le _ _ (UInt32.le_of_lt hlt)
    have hdiff : (subChecked til current : CheckedM K Sec Nat).run s =
        .ok (til.toNat - current.toNat) s := by
      rw [subChecked, if_pos (Nat.le_of_lt hltN)]
      rfl
    have htotal : (fits UInt64.size (til.toNat - current.toNat + HMap.size s.skipped) :
        CheckedM K Sec Nat).run s =
        .ok (til.toNat - current.toNat + HMap.size s.skipped) s := by
      rw [fits, if_pos]
      · rfl
      · unfold SessionState.SkipBounded MAX_SKIP at hs
        unfold UInt32.size at htil
        unfold UInt64.size
        omega
    rw [if_neg hle, if_neg hle, Action.run_bind_ok (Action.run_get s),
      Action.run_bind_ok (Action.run_get s), Action.run_bind_ok hdiff, Action.run_bind_ok htotal]
    simp only [hsub, Action.run_ite]
    split
    · rfl
    · cases htheir : s.theirRatchetKey with
      | none => rfl
      | some theirKey =>
        cases hchain : s.receivingChainKey with
        | none => rfl
        | some chainKey =>
          dsimp only
          rw [Action.run_bind, Action.run_bind,
            skipLoopChecked_run _ current chainKey s (by omega)]
          cases (skipLoop S theirKey (til.toNat - current.toNat) current chainKey).run s with
          | ok chainKey' t | error e t => rfl

/-- The skips of a `decrypt`: the session in which each is called, and its bounds. -/
inductive SkipCall (S : Suite K Sec C) (drawn : Sec) (header : RatchetHeader)
    (s : SessionState K Sec) : SessionState K Sec → UInt32 → UInt32 → Prop
  | oldChain (hstep : s.theirRatchetKey ≠ some header.ratchetKey)
      (hchain : s.receivingChainKey.isSome) :
      SkipCall S drawn header s s s.recvCount header.previousChainLength
  | chain {u : SessionState K Sec} (h : (dhStepIfNeeded S drawn header).run s = .ok () u) :
      SkipCall S drawn header s u u.recvCount header.messageNumber

theorem SkipCall.bounded {drawn : Sec} {header : RatchetHeader} {current til : UInt32}
    (h : SkipCall S drawn header s u current til) (hs : s.SkipBounded) : u.SkipBounded := by
  cases h with
  | oldChain => exact hs
  | chain h => exact dhStepIfNeeded_bounded hs h

end

/-! ## Stored sessions -/

/-- `skipped_keys_serde::Entry`. -/
structure Entry (K : Type) where
  ratchetKey : Key32
  messageNumber : UInt32
  messageKey : K

/-- What the derived `Serialize` writes: the fields, with the map as a sequence of entries. -/
structure SessionRecord (K Sec : Type) where
  rootKey : K
  ourRatchet : RatchetKeyPair Sec
  theirRatchetKey : Option Key32
  sendingChainKey : Option K
  receivingChainKey : Option K
  sendCount : UInt32
  recvCount : UInt32
  previousSendCount : UInt32
  skipped : List (Entry K)

/-- The format that the record is written in, with its parser; `T` are its texts. -/
structure SessionFormat (T K Sec : Type) where
  write : SessionRecord K Sec → T
  read : T → Except String (SessionRecord K Sec)
  read_write : ∀ record, read (write record) = .ok record

/-- `skipped_keys_serde::serialize`; `order` is the order in which the map is visited. -/
def serializeSkipped (order : List ((Key32 × UInt32) × K)) : List (Entry K) :=
  order.map fun entry => ⟨entry.1.1, entry.1.2, entry.2⟩

/-- `skipped_keys_serde::deserialize`. -/
def deserializeSkipped (entries : List (Entry K)) : Except String (SkippedKeysMap K) :=
  if entries.length > MAX_SKIP then .error "skipped key count exceeds MAX_SKIP"
  else .ok (HMap.insertAll
    (entries.map fun entry => ((entry.ratchetKey, entry.messageNumber), entry.messageKey)) ∅)

def SessionState.serialize (F : SessionFormat T K Sec) (order : List ((Key32 × UInt32) × K))
    (s : SessionState K Sec) : T :=
  F.write
    { rootKey := s.rootKey
      ourRatchet := s.ourRatchet
      theirRatchetKey := s.theirRatchetKey
      sendingChainKey := s.sendingChainKey
      receivingChainKey := s.receivingChainKey
      sendCount := s.sendCount
      recvCount := s.recvCount
      previousSendCount := s.previousSendCount
      skipped := serializeSkipped order }

def SessionState.deserialize (F : SessionFormat T K Sec) (text : T) :
    Except String (SessionState K Sec) := do
  let record ← F.read text
  let skipped ← deserializeSkipped record.skipped
  pure
    { rootKey := record.rootKey
      ourRatchet := record.ourRatchet
      theirRatchetKey := record.theirRatchetKey
      sendingChainKey := record.sendingChainKey
      receivingChainKey := record.receivingChainKey
      sendCount := record.sendCount
      recvCount := record.recvCount
      previousSendCount := record.previousSendCount
      skipped := skipped }

theorem deserializeSkipped_serializeSkipped {skipped : SkippedKeysMap K}
    {order : List ((Key32 × UInt32) × K)} (horder : HMap.Iterates skipped order)
    (hsize : HMap.size skipped ≤ MAX_SKIP) :
    deserializeSkipped (serializeSkipped order) = .ok skipped := by
  unfold deserializeSkipped serializeSkipped
  have hlength : ¬order.length > MAX_SKIP := by
    rw [horder.length]
    exact Nat.not_lt.mpr hsize
  rw [List.length_map, if_neg hlength, List.map_map]
  have hentries : (fun entry : Entry K =>
      ((entry.ratchetKey, entry.messageNumber), entry.messageKey)) ∘
      (fun entry : (Key32 × UInt32) × K => (⟨entry.1.1, entry.1.2, entry.2⟩ : Entry K)) = id := rfl
  rw [hentries, List.map_id, horder.insertAll_empty]

theorem SessionState.deserialize_serialize (F : SessionFormat T K Sec) {s : SessionState K Sec}
    (hs : s.SkipBounded) {order : List ((Key32 × UInt32) × K)}
    (horder : HMap.Iterates s.skipped order) :
    SessionState.deserialize F (s.serialize F order) = .ok s := by
  unfold SessionState.deserialize SessionState.serialize
  rw [F.read_write]
  show (deserializeSkipped (serializeSkipped order) >>= _) = _
  rw [deserializeSkipped_serializeSkipped horder hs]
  rfl

/-- **The skipped keys of a session are bounded, and a stored session can be loaded.** The counters
of a call are the numbers that they stand for, and in every skip the checked operations give what
the others give. -/
theorem skipped_keys_bounded (S : Suite K Sec C) (F : SessionFormat T K Sec)
    {s : SessionState K Sec} (run : SessionRun S s) :
    HMap.size s.skipped ≤ MAX_SKIP ∧
    (∀ plaintext envelopeAad message t,
      (encrypt S plaintext envelopeAad).run s = .ok message t →
      t.sendCount.toNat = s.sendCount.toNat + 1) ∧
    (∀ drawn header ciphertext envelopeAad plaintext t,
      (decrypt S drawn header ciphertext envelopeAad).run s = .ok plaintext t →
      s.skipped.lookup header.id = none →
      t.recvCount.toNat = header.messageNumber.toNat + 1) ∧
    (∀ drawn header u current til, SkipCall S drawn header s u current til →
      (skipMessageKeysChecked S current til).run u =
        withoutOverflow ((skipMessageKeys S current til).run u)) ∧
    (∃ order, HMap.Iterates s.skipped order) ∧
    ∀ order, HMap.Iterates s.skipped order →
      SessionState.deserialize F (s.serialize F order) = .ok s := by
  have hs := run.bounded
  refine ⟨hs, ?_, ?_, ?_, HMap.exists_iterates s.skipped, ?_⟩
  · intro plaintext envelopeAad message t h
    obtain ⟨hcount, chainKey, ckOut, -, -, -, -, rfl⟩ :=
      (encrypt_eq_ok S plaintext envelopeAad s t message).mp h
    exact toNat_succ hcount
  · intro drawn header ciphertext envelopeAad plaintext t h hnone
    rcases (decrypt_eq_ok S drawn header ciphertext envelopeAad plaintext s t).mp h with
      ⟨messageKey, hsome, -⟩ | ⟨-, hinner⟩
    · cases hnone.symm.trans hsome
    · obtain ⟨u, v, chainKey, ckOut, -, -, -, -, -, hcount, rfl⟩ :=
        (tryDecryptInner_eq_ok S drawn header ciphertext envelopeAad plaintext s t).mp hinner
      exact toNat_succ hcount
  · intro drawn header u current til hcall
    exact skipMessageKeysChecked_run (hcall.bounded hs) current til
  · intro order horder
    exact SessionState.deserialize_serialize F hs horder

/-! ## A session with skipped keys -/

/-- Records as they are. -/
def plainFormat : SessionFormat (SessionRecord Term Key32) Term Key32 where
  write := id
  read := .ok
  read_write _ := rfl

/-- The peer of `sampleSession`, on the chain that it receives. -/
def samplePeer : SessionState Term Key32 :=
  { sampleSession with ourRatchet := ⟨key32 5, key32 2⟩, sendingChainKey := some (.shared 2) }

/-- Three messages of the peer. -/
def sampleMessages : List (RatchetMessage Ciphertext) :=
  (trace (RatchetCall.run symbolic) [.encrypt [1] [], .encrypt [2] [], .encrypt [3] []]
    samplePeer).filterMap fun called =>
      match called.result with
      | .ok (.message message) => some message
      | _ => none

/-- The session after the third of them has arrived alone. -/
def gapSession : SessionState Term Key32 :=
  sampleMessages.getLast?.elim sampleSession fun message =>
    Action.finalState ((RatchetCall.run symbolic
      (.decrypt (key32 3) message.header message.ciphertext [])).run sampleSession)

set_option maxRecDepth 4000 in
theorem skipped_keys_bounded_gap :
    HMap.size gapSession.skipped = 2 ∧ gapSession.recvCount = 3 ∧
    ∃ order, SessionState.deserialize plainFormat (gapSession.serialize plainFormat order) =
      .ok gapSession := by
  obtain ⟨message, hlast⟩ : ∃ message, sampleMessages.getLast? = some message := ⟨_, rfl⟩
  have hstart : SessionRun symbolic sampleSession := .loaded (Nat.zero_le _)
  have hrun : SessionRun symbolic gapSession := by
    unfold gapSession
    rw [hlast]
    exact .called _ hstart
  have hbounded := skipped_keys_bounded symbolic plainFormat hrun
  obtain ⟨order, horder⟩ := hbounded.2.2.2.2.1
  exact ⟨by decide +kernel, by decide +kernel, order, hbounded.2.2.2.2.2 order horder⟩

end Cmp.Crypto
