import Cmp.Crypto.Symbolic
import Cmp.Lib.UInt32

/-! The receive counter of a session. It is set from the number in the header, and the
receiving chain is moved by the keys that are taken from it; a header with a number below
the counter skips nothing and is opened with the next key. A peer that knows the keys can so
set the counter back. With a peer that numbers its messages by their keys, counter and chain
stay together. -/

namespace Cmp.Crypto

open Cmp.Lib

variable {K Sec C : Type}

/-- `n` steps of `kdf_ck` lead from `start` to a chain key. -/
inductive ChainSteps (S : Suite K Sec C) (start : K) : Nat → K → Prop
  | zero : ChainSteps S start 0 start
  | succ {n : Nat} {chainKey : K} {ckOut : ChainKeyOutput K} (h : ChainSteps S start n chainKey)
      (hck : kdfCk S chainKey = .ok ckOut) : ChainSteps S start (n + 1) ckOut.chainKey

/-! ## Skipping -/

/-- The loop takes its keys one after another, and writes under their numbers only. -/
theorem skipLoop_steps (S : Suite K Sec C) (theirKey : Key32) {start : K} (m : Nat) :
    ∀ {i : UInt32} {n : Nat} {chainKey chainKey' : K} {s t : SessionState K Sec},
      ChainSteps S start n chainKey → i.toNat + m < UInt32.size →
      (skipLoop S theirKey m i chainKey).run s = .ok chainKey' t →
      ChainSteps S start (n + m) chainKey' ∧
        ∀ key k, ¬(key = theirKey ∧ i.toNat ≤ k.toNat ∧ k.toNat < i.toNat + m) →
          t.skipped.lookup (key, k) = s.skipped.lookup (key, k) := by
  induction m with
  | zero =>
    intro i n chainKey chainKey' s t hsteps _ h
    simp only [skipLoop, Action.run_pure] at h
    cases h
    exact ⟨hsteps, fun _ _ _ => rfl⟩
  | succ m ih =>
    intro i n chainKey chainKey' s t hsteps hsize h
    simp only [skipLoop, Action.run_bind_eq_ok, Action.run_ofExcept_eq_ok, Action.run_modify] at h
    obtain ⟨ckOut, _, ⟨hck, rfl⟩, _, _, ⟨⟩, h⟩ := h
    have hi : (i + 1).toNat = i.toNat + 1 := toNat_succ (by omega)
    obtain ⟨hsteps', hkept⟩ := ih (hsteps.succ hck) (by omega) h
    refine ⟨(by omega : n + 1 + m = n + (m + 1)) ▸ hsteps', fun key k hk => ?_⟩
    have hlater : ¬(key = theirKey ∧ (i + 1).toNat ≤ k.toNat ∧ k.toNat < (i + 1).toNat + m) :=
      fun hin => hk ⟨hin.1, by omega, by omega⟩
    rw [hkept key k hlater, HMap.lookup_insert_eq, if_neg]
    intro heq
    obtain ⟨rfl, rfl⟩ := Prod.mk.inj heq
    exact hk ⟨rfl, le_rfl, by omega⟩

/-- What a skip from `current` to `til` does to chain and skipped keys. -/
structure SkipsTo (S : Suite K Sec C) (start : K) (theirKey : Key32) (current til : UInt32)
    (s t : SessionState K Sec) : Prop where
  chain : ∃ chainKey, t.receivingChainKey = some chainKey ∧
    ChainSteps S start (max current.toNat til.toNat) chainKey
  kept : ∀ key k, ¬(key = theirKey ∧ current.toNat ≤ k.toNat ∧ k.toNat < til.toNat) →
    t.skipped.lookup (key, k) = s.skipped.lookup (key, k)

theorem skipMessageKeys_skipsTo {S : Suite K Sec C} {start chainKey : K} {theirKey : Key32}
    {current til : UInt32} {s t : SessionState K Sec} (htheir : s.theirRatchetKey = some theirKey)
    (hchain : s.receivingChainKey = some chainKey)
    (hsteps : ChainSteps S start current.toNat chainKey)
    (h : (skipMessageKeys S current til).run s = .ok () t) :
    SkipsTo S start theirKey current til s t := by
  unfold skipMessageKeys at h
  simp only [Action.run_ite, Action.run_pure] at h
  split at h
  · next hle =>
    cases h
    refine ⟨⟨chainKey, hchain, ?_⟩, fun _ _ _ => rfl⟩
    rw [max_eq_left (UInt32.le_iff_toNat_le.mp hle)]
    exact hsteps
  · next hlt =>
    have hlt' : current.toNat < til.toNat := by
      rw [← UInt32.lt_iff_toNat_lt]
      exact not_le.mp hlt
    have htoSkip : (til - current).toNat = til.toNat - current.toNat :=
      UInt32.toNat_sub_of_le _ _ (UInt32.le_of_lt (not_le.mp hlt))
    have hsize := til.toNat_lt
    simp only [Action.run_bind_eq_ok, Action.run_get, Action.run_ite, Action.run_throw] at h
    obtain ⟨_, _, ⟨⟩, h⟩ := h
    split at h
    · cases h
    · simp only [htheir, hchain, Action.run_bind_eq_ok, Action.run_modify] at h
      obtain ⟨chainKey', u, hloop, h⟩ := h
      cases h
      rw [htoSkip] at hloop
      obtain ⟨hsteps', hkept⟩ := skipLoop_steps S theirKey _ hsteps (by
        have : UInt32.size = 2 ^ 32 := rfl
        omega) hloop
      have hmax : current.toNat + (til.toNat - current.toNat) = max current.toNat til.toNat := by
        omega
      refine ⟨⟨chainKey', rfl, hmax ▸ hsteps'⟩, fun key k hk => hkept key k fun hin => ?_⟩
      exact hk ⟨hin.1, hin.2.1, by omega⟩

/-! ## Positions -/

/-- The initial key of the chain that a header is tried on: that of the receiving chain, or of
the chain that a DH step would start. -/
def SessionState.chainFor (S : Suite K Sec C) (origin : Option K) (header : RatchetHeader)
    (s : SessionState K Sec) : Option K :=
  if s.theirRatchetKey = some header.ratchetKey then origin
  else
    (kdfRk S s.rootKey
      (S.diffieHellman s.ourRatchet.secretBytes header.ratchetKey)).toOption.map
        RootKeyOutput.chainKey

/-- The initial key of the receiving chain after a message was opened. -/
def SessionState.originAfter (S : Suite K Sec C) (origin : Option K) (header : RatchetHeader)
    (s : SessionState K Sec) : Option K :=
  if (s.skipped.lookup header.id).isSome then origin else s.chainFor S origin header

/-- The counter is the number of steps from the initial key of the receiving chain, and what
is skipped of that chain lies below it. -/
structure SessionState.Positioned (S : Suite K Sec C) (origin : Option K) (s : SessionState K Sec) :
    Prop where
  unstarted : s.receivingChainKey = none → s.recvCount = 0
  theirs : s.receivingChainKey.isSome → s.theirRatchetKey.isSome
  counted : ∀ chainKey, s.receivingChainKey = some chainKey →
    ∃ start, origin = some start ∧ ChainSteps S start s.recvCount.toNat chainKey
  below : ∀ theirKey k messageKey, s.theirRatchetKey = some theirKey →
    s.skipped.lookup (theirKey, k) = some messageKey → k < s.recvCount

/-- A peer that numbers its messages: what opens under a key of the chain it is tried on
carries the position of that key, and a new chain has a ratchet key under which no skipped
key is kept. -/
def SessionState.Numbered (S : Suite K Sec C) (origin : Option K) (s : SessionState K Sec)
    (header : RatchetHeader) (ciphertext : C) (envelopeAad : Bytes) : Prop :=
  s.skipped.lookup header.id = none →
  ∀ start, s.chainFor S origin header = some start →
  ∀ n chainKey ckOut plaintext, ChainSteps S start n chainKey → kdfCk S chainKey = .ok ckOut →
    S.aeadDecrypt ckOut.messageKey ciphertext (authenticatedData envelopeAad header) =
      .ok plaintext →
    header.messageNumber.toNat = n ∧
      (s.theirRatchetKey ≠ some header.ratchetKey →
        ∀ k, s.skipped.lookup (header.ratchetKey, k) = none)

/-- The sessions that successful calls reach, with the initial key of their receiving chain;
`guard` is what the peer's messages satisfy. -/
inductive ReceiveRun (S : Suite K Sec C)
    (guard : Option K → SessionState K Sec → RatchetHeader → C → Bytes → Prop) :
    Option K → SessionState K Sec → Prop
  | alice {drawn : Sec} {sharedSecret : K} {bobRatchetPublic : Key32} {s : SessionState K Sec}
      (h : initializeAlice S drawn sharedSecret bobRatchetPublic = .ok s) :
      ReceiveRun S guard none s
  | bob (sharedSecret : K) (bobRatchet : RatchetKeyPair Sec) :
      ReceiveRun S guard none (initializeBob sharedSecret bobRatchet)
  | encrypted {origin : Option K} {s t : SessionState K Sec} {plaintext envelopeAad : Bytes}
      {message : RatchetMessage C} (run : ReceiveRun S guard origin s)
      (h : (encrypt S plaintext envelopeAad).run s = .ok message t) : ReceiveRun S guard origin t
  | decrypted {origin : Option K} {s t : SessionState K Sec} {drawn : Sec} {header : RatchetHeader}
      {ciphertext : C} {envelopeAad plaintext : Bytes} (run : ReceiveRun S guard origin s)
      (hguard : guard origin s header ciphertext envelopeAad)
      (h : (decrypt S drawn header ciphertext envelopeAad).run s = .ok plaintext t) :
      ReceiveRun S guard (s.originAfter S origin header) t

/-! ## One message -/

/-- What a message that was opened leaves: a session in position, with a number that is not
below the counter if it was of the receiving chain, and with every other skipped key. -/
structure Received (S : Suite K Sec C) (origin : Option K) (header : RatchetHeader)
    (s t : SessionState K Sec) : Prop where
  positioned : t.Positioned S (s.originAfter S origin header)
  forward : s.theirRatchetKey = some header.ratchetKey → s.skipped.lookup header.id = none →
    s.recvCount ≤ header.messageNumber
  kept : ∀ id messageKey, s.skipped.lookup id = some messageKey → id ≠ header.id →
    t.skipped.lookup id = some messageKey

section

variable {S : Suite K Sec C} {origin : Option K} {s t u : SessionState K Sec} {drawn : Sec}
  {header : RatchetHeader} {ciphertext : C} {envelopeAad plaintext : Bytes}

/-- A key that was skipped is used. -/
theorem Received.of_skipped (hs : s.Positioned S origin) {messageKey : K}
    (hlookup : s.skipped.lookup header.id = some messageKey) :
    Received S origin header s { s with skipped := s.skipped.erase header.id } := by
  have horigin : s.originAfter S origin header = origin := if_pos (hlookup ▸ rfl)
  refine ⟨⟨?_, ?_, ?_, ?_⟩, ?_, ?_⟩
  · exact hs.unstarted
  · exact hs.theirs
  · rw [horigin]
    exact hs.counted
  · intro theirKey k key htheir hk
    dsimp only at hk
    rw [HMap.lookup_erase_eq] at hk
    split at hk
    · cases hk
    · exact hs.below theirKey k key htheir hk
  · intro _ hnone
    cases hlookup.symm.trans hnone
  · intro id key hid hne
    dsimp only
    rw [HMap.lookup_erase_eq, if_neg hne]
    exact hid

/-- The session on the chain of a header, when the message is still to be taken from it. -/
structure OnChain (S : Suite K Sec C) (start : K) (header : RatchetHeader)
    (u : SessionState K Sec) : Prop where
  theirs : u.theirRatchetKey = some header.ratchetKey
  counted : ∃ chainKey, u.receivingChainKey = some chainKey ∧
    ChainSteps S start u.recvCount.toNat chainKey
  below : ∀ k messageKey, u.skipped.lookup (header.ratchetKey, k) = some messageKey →
    k < u.recvCount

/-- The message is taken from its chain. -/
theorem OnChain.opened {start chainKey : K} {ckOut : ChainKeyOutput K} {v : SessionState K Sec}
    (hu : OnChain S start header u)
    (hskip : (skipMessageKeys S u.recvCount header.messageNumber).run u = .ok () v)
    (hv : v.receivingChainKey = some chainKey) (hck : kdfCk S chainKey = .ok ckOut)
    (hsize : header.messageNumber.toNat + 1 < UInt32.size)
    (hnumber : ∀ n, ChainSteps S start n chainKey → header.messageNumber.toNat = n) :
    u.recvCount ≤ header.messageNumber ∧
      SessionState.Positioned S (some start)
        { v with
          receivingChainKey := some ckOut.chainKey
          recvCount := header.messageNumber + 1 } ∧
      ∀ id messageKey, u.skipped.lookup id = some messageKey →
        v.skipped.lookup id = some messageKey := by
  obtain ⟨chainKey0, hchain0, hsteps0⟩ := hu.counted
  have hskips := skipMessageKeys_skipsTo hu.theirs hchain0 hsteps0 hskip
  have hframe := skipMessageKeys_frame S _ _ _ _ hskip
  obtain ⟨chainKey', hchain', hsteps⟩ := hskips.chain
  cases hv.symm.trans hchain'
  have hn := hnumber _ hsteps
  have hle : u.recvCount ≤ header.messageNumber := by
    rw [UInt32.le_iff_toNat_le]
    omega
  rw [← hn] at hsteps
  have hsucc : (header.messageNumber + 1).toNat = header.messageNumber.toNat + 1 := toNat_succ hsize
  have htheirs : v.theirRatchetKey = some header.ratchetKey := by
    rw [hframe]
    exact hu.theirs
  refine ⟨hle, ⟨nofun, fun _ => ?_, ?_, ?_⟩, ?_⟩
  · exact htheirs ▸ rfl
  · intro key hkey
    cases hkey
    refine ⟨start, rfl, ?_⟩
    dsimp only
    rw [hsucc]
    exact hsteps.succ hck
  · intro theirKey k messageKey htheir hlookup
    cases htheirs.symm.trans htheir
    dsimp only at hlookup ⊢
    rw [UInt32.lt_iff_toNat_lt, hsucc]
    by_cases hin : u.recvCount.toNat ≤ k.toNat ∧ k.toNat < header.messageNumber.toNat
    · omega
    · rw [hskips.kept _ _ fun h => hin h.2] at hlookup
      have hk := UInt32.lt_iff_toNat_lt.mp (hu.below k messageKey hlookup)
      have hle' := UInt32.le_iff_toNat_le.mp hle
      omega
  · rintro ⟨key, k⟩ messageKey hlookup
    rw [hskips.kept key k, hlookup]
    rintro ⟨rfl, hfrom, -⟩
    exact absurd (UInt32.lt_iff_toNat_lt.mp (hu.below k messageKey hlookup)) (not_lt.mpr hfrom)

theorem SessionState.Positioned.onChain (hs : s.Positioned S origin)
    (htheir : s.theirRatchetKey = some header.ratchetKey) {chainKey : K}
    (hchain : s.receivingChainKey = some chainKey) :
    ∃ start, origin = some start ∧ OnChain S start header s := by
  obtain ⟨start, horigin, hsteps⟩ := hs.counted chainKey hchain
  exact ⟨start, horigin, htheir, ⟨chainKey, hchain, hsteps⟩,
    fun k messageKey hlookup => hs.below _ k messageKey htheir hlookup⟩

/-- The rest of the old chain is stored: the skipped keys that were there are kept, and no new
ones stand under another ratchet key. -/
theorem SessionState.Positioned.skipOldChain (hs : s.Positioned S origin)
    (h : (Crypto.skipOldChain S header).run s = .ok () u) :
    (∀ id messageKey, s.skipped.lookup id = some messageKey →
      u.skipped.lookup id = some messageKey) ∧
    (∀ key k, s.theirRatchetKey ≠ some key → u.skipped.lookup (key, k) = s.skipped.lookup
      (key, k)) ∧
    u.rootKey = s.rootKey ∧ u.ourRatchet = s.ourRatchet := by
  rw [skipOldChain_run] at h
  split at h
  · next hsome =>
    obtain ⟨chainKey, hchain⟩ := Option.isSome_iff_exists.mp hsome
    obtain ⟨theirKey, htheir⟩ := Option.isSome_iff_exists.mp (hs.theirs hsome)
    obtain ⟨start, -, hsteps⟩ := hs.counted chainKey hchain
    have hskips := skipMessageKeys_skipsTo htheir hchain hsteps h
    have hframe := skipMessageKeys_frame S _ _ _ _ h
    refine ⟨?_, fun key k hne => hskips.kept key k fun hin => hne (hin.1 ▸ htheir), ?_, ?_⟩
    · rintro ⟨key, k⟩ messageKey hlookup
      rw [hskips.kept key k, hlookup]
      rintro ⟨rfl, hfrom, -⟩
      have hbelow := hs.below key k messageKey htheir hlookup
      exact absurd (UInt32.lt_iff_toNat_lt.mp hbelow) (not_lt.mpr hfrom)
    · rw [hframe]
    · rw [hframe]
  · cases h
    exact ⟨fun _ _ hlookup => hlookup, fun _ _ _ => rfl, rfl, rfl⟩

/-- A message of a numbering peer. -/
theorem SessionState.Positioned.received (hs : s.Positioned S origin)
    (hnumbered : s.Numbered S origin header ciphertext envelopeAad)
    (h : (decrypt S drawn header ciphertext envelopeAad).run s = .ok plaintext t) :
    Received S origin header s t := by
  rcases (decrypt_eq_ok S drawn header ciphertext envelopeAad plaintext s t).mp h with
    ⟨messageKey, hlookup, -, rfl⟩ | ⟨hlookup, hinner⟩
  · exact .of_skipped hs hlookup
  obtain ⟨u, v, chainKey, ckOut, hdh, hskip, hv, hck, haead, hsize, rfl⟩ :=
    (tryDecryptInner_eq_ok S drawn header ciphertext envelopeAad plaintext s t).mp hinner
  have horigin : s.originAfter S origin header = s.chainFor S origin header :=
    if_neg (by rw [hlookup]; exact nofun)
  rw [dhStepIfNeeded_run] at hdh
  split at hdh
  · next hnew =>
    obtain ⟨w, rkOut, rkOut2, hold, hrk, -, rfl⟩ := (dhStep_eq_ok S drawn header s u).mp hdh
    obtain ⟨hkept, hother, hroot, hours⟩ := hs.skipOldChain hold
    have hstart : s.chainFor S origin header = some rkOut.chainKey := by
      unfold SessionState.chainFor
      rw [if_neg hnew, ← hroot, ← hours, hrk]
      rfl
    have hnumber := fun n hsteps =>
      hnumbered hlookup rkOut.chainKey hstart n chainKey ckOut plaintext hsteps hck haead
    have hskips : SkipsTo S rkOut.chainKey header.ratchetKey _ _ _ v :=
      skipMessageKeys_skipsTo rfl rfl .zero hskip
    obtain ⟨chainKey', hchain', hsteps⟩ := hskips.chain
    cases hv.symm.trans hchain'
    have hfresh := (hnumber _ hsteps).2 hnew
    have honChain : OnChain S rkOut.chainKey header (w.afterDh S drawn header rkOut rkOut2) := by
      refine ⟨rfl, ⟨rkOut.chainKey, rfl, .zero⟩, fun k messageKey hk => ?_⟩
      have hw : w.skipped.lookup (header.ratchetKey, k) = some messageKey := hk
      cases (hw.symm.trans (hother header.ratchetKey k hnew)).trans (hfresh k)
    obtain ⟨-, hpositioned, hkept'⟩ :=
      honChain.opened hskip hv hck hsize fun n hsteps => (hnumber n hsteps).1
    refine ⟨?_, fun hsame => absurd hsame hnew, fun id messageKey hid _ => ?_⟩
    · rw [horigin, hstart]
      exact hpositioned
    · exact hkept' id messageKey (hkept id messageKey hid)
  · next hsame =>
    cases hdh
    have htheir := not_not.mp hsame
    have hstart : s.chainFor S origin header = origin := if_pos htheir
    cases hchain : s.receivingChainKey with
    | none =>
      cases skipMessageKeys_of_none S _ _ _ _ hskip hchain
      cases hv.symm.trans hchain
    | some chainKey0 =>
      obtain ⟨start, rfl, honChain⟩ := hs.onChain htheir hchain
      obtain ⟨hle, hpositioned, hkept⟩ := honChain.opened hskip hv hck hsize fun n hsteps =>
        (hnumbered hlookup start hstart n chainKey ckOut plaintext hsteps hck haead).1
      refine ⟨?_, fun _ _ => hle, fun id messageKey hid _ => hkept id messageKey hid⟩
      rw [horigin, hstart]
      exact hpositioned

/-! ## Runs -/

theorem ReceiveRun.positioned (run : ReceiveRun S (fun origin s => s.Numbered S origin) origin s) :
    s.Positioned S origin := by
  induction run with
  | alice h =>
    obtain ⟨rkOut, -, rfl⟩ := initializeAlice_eq_ok h
    exact ⟨fun _ => rfl, nofun, nofun, nofun⟩
  | bob sharedSecret bobRatchet => exact ⟨fun _ => rfl, nofun, nofun, nofun⟩
  | encrypted run h ih =>
    obtain ⟨-, chainKey, ckOut, -, -, -, -, rfl⟩ := (encrypt_eq_ok S _ _ _ _ _).mp h
    exact ⟨ih.unstarted, ih.theirs, ih.counted, ih.below⟩
  | decrypted run hguard h ih => exact (ih.received hguard h).positioned

end

/-- With a peer that numbers its messages by their keys, in every session that is reached the
counter is the number of steps of the receiving chain; a message of that chain that opens and
was not skipped has a number that is not below the counter, and no skipped key is overwritten. -/
theorem receive_counter_forward (S : Suite K Sec C) {origin : Option K} {s : SessionState K Sec}
    (run : ReceiveRun S (fun origin s => s.Numbered S origin) origin s) :
    s.Positioned S origin ∧
      ∀ drawn header ciphertext envelopeAad plaintext t,
        s.Numbered S origin header ciphertext envelopeAad →
        (decrypt S drawn header ciphertext envelopeAad).run s = .ok plaintext t →
        Received S origin header s t := by
  refine ⟨run.positioned, ?_⟩
  intro drawn header ciphertext envelopeAad plaintext t hnumbered h
  exact run.positioned.received hnumbered h

/-! ## A peer that does not -/

def peerHeader (number : UInt32) : RatchetHeader := ⟨key32 2, 0, number⟩

/-- The chain that Bob's peer starts with the ratchet key 2. -/
def peerChain : Nat → Term
  | 0 => .chainKey (.shared 0) (.agree (key32 1) (key32 2))
  | n + 1 => .mac (peerChain n) 0x02

/-- A message with a number, sealed with the key at a position of the chain. -/
def sealedAt (position : Nat) (number : UInt32) : Ciphertext :=
  .box (.mac (peerChain position) 0x01) [] (authenticatedData [] (peerHeader number))

def peerOpened (position : Nat) (number : UInt32) (s : SessionState Term Key32) :
    SessionState Term Key32 :=
  Action.finalState ((decrypt symbolic (key32 3) (peerHeader number) (sealedAt position number)
    []).run s)

def bobSession : SessionState Term Key32 :=
  initializeBob (.shared 0) (RatchetKeyPair.generate symbolic (key32 1))

/-- Bob opens the message 2, and then the message 0 that was skipped for it. -/
def bobAfterGap : SessionState Term Key32 := peerOpened 0 0 (peerOpened 2 2 bobSession)

theorem bobAfterGap_run : ReceiveRun symbolic (fun _ _ _ _ _ => True)
    ((peerOpened 2 2 bobSession).originAfter symbolic
      (bobSession.originAfter symbolic none (peerHeader 2)) (peerHeader 0)) bobAfterGap := by
  have hfirst : (decrypt symbolic (key32 3) (peerHeader 2) (sealedAt 2 2) []).run bobSession =
      .ok [] (peerOpened 2 2 bobSession) := rfl
  have hsecond : (decrypt symbolic (key32 3) (peerHeader 0) (sealedAt 0 0) []).run
      (peerOpened 2 2 bobSession) = .ok [] bobAfterGap := rfl
  exact .decrypted (.decrypted (.bob _ _) trivial hfirst) trivial hsecond

/-- The peer seals the number 0 with the key at position 3, and the number 2 with that at
position 5. Bob's counter falls from 3 to 1, and the key that was kept for message 1 is
overwritten. -/
theorem receive_counter_set_back :
    (∃ origin, ReceiveRun symbolic (fun _ _ _ _ _ => True) origin bobAfterGap) ∧
    bobAfterGap.theirRatchetKey = some (peerHeader 0).ratchetKey ∧
    bobAfterGap.skipped.lookup (peerHeader 0).id = none ∧
    (decrypt symbolic (key32 3) (peerHeader 0) (sealedAt 3 0) []).run bobAfterGap =
      .ok [] (peerOpened 3 0 bobAfterGap) ∧
    (peerHeader 0).messageNumber < bobAfterGap.recvCount ∧
    (peerOpened 3 0 bobAfterGap).recvCount < bobAfterGap.recvCount ∧
    (decrypt symbolic (key32 3) (peerHeader 2) (sealedAt 5 2) []).run (peerOpened 3 0 bobAfterGap) =
      .ok [] (peerOpened 5 2 (peerOpened 3 0 bobAfterGap)) ∧
    (peerOpened 3 0 bobAfterGap).skipped.lookup (key32 2, 1) = some (.mac (peerChain 1) 0x01) ∧
    (peerOpened 5 2 (peerOpened 3 0 bobAfterGap)).skipped.lookup (key32 2, 1) =
      some (.mac (peerChain 4) 0x01) := by
  refine ⟨⟨_, bobAfterGap_run⟩, by decide, by decide, rfl, by decide, by decide, rfl, ?_, ?_⟩
  · decide
  · decide

/-! ## A peer that does -/

theorem peerChain_injective : Function.Injective peerChain := by
  intro n
  induction n with
  | zero =>
    intro m h
    cases m with
    | zero => rfl
    | succ m => cases h
  | succ n ih =>
    intro m h
    cases m with
    | zero => cases h
    | succ m => rw [ih (Term.mac.inj h).1]

theorem chainSteps_peerChain {n : Nat} {chainKey : Term}
    (h : ChainSteps symbolic (peerChain 0) n chainKey) : chainKey = peerChain n := by
  induction h with
  | zero => rfl
  | succ h hck ih =>
    cases hck
    rw [ih]
    rfl

/-- Messages that are sealed with the key at their number. -/
theorem numbered_sealedAt {origin : Option Term} {s : SessionState Term Key32} {number : UInt32}
    (hchain : s.chainFor symbolic origin (peerHeader number) = some (peerChain 0))
    (hnew : s.theirRatchetKey ≠ some (key32 2) → s.skipped = ∅) :
    s.Numbered symbolic origin (peerHeader number) (sealedAt number.toNat number) [] := by
  intro _ start hstart n chainKey ckOut plaintext hsteps hck haead
  cases hchain.symm.trans hstart
  cases hck
  have hkey : Term.mac (peerChain number.toNat) 0x01 = .mac chainKey 0x01 := by
    by_contra hne
    simp only [sealedAt, symbolic] at haead
    rw [if_neg fun h => hne h.1] at haead
    cases haead
  refine ⟨?_, fun htheirs k => ?_⟩
  · rw [chainSteps_peerChain hsteps] at hkey
    exact peerChain_injective (Term.mac.inj hkey).1
  · rw [hnew htheirs]
    rfl

theorem receive_counter_forward_bob :
    SessionState.Positioned symbolic (some (peerChain 0)) (peerOpened 2 2 bobSession) ∧
      Received symbolic (some (peerChain 0)) (peerHeader 3) (peerOpened 2 2 bobSession)
        (peerOpened 3 3 (peerOpened 2 2 bobSession)) := by
  have hfirst : (decrypt symbolic (key32 3) (peerHeader 2) (sealedAt 2 2) []).run bobSession =
      .ok [] (peerOpened 2 2 bobSession) := rfl
  have hnext : (decrypt symbolic (key32 3) (peerHeader 3) (sealedAt 3 3) []).run
      (peerOpened 2 2 bobSession) = .ok [] (peerOpened 3 3 (peerOpened 2 2 bobSession)) := rfl
  have hrun : ReceiveRun symbolic (fun origin s => s.Numbered symbolic origin)
      (some (peerChain 0)) (peerOpened 2 2 bobSession) :=
    .decrypted (.bob _ _) (numbered_sealedAt rfl fun _ => rfl) hfirst
  have h := receive_counter_forward symbolic hrun
  exact ⟨h.1, h.2 _ _ _ _ _ _ (numbered_sealedAt rfl fun hne => absurd rfl hne) hnext⟩

end Cmp.Crypto
