import Cmp.Crypto.Symbolic
import Cmp.Lib.Trace

/-! Calls of the ratchet that fail. They leave no trace in the session, so a run with them is
the run without them. -/

namespace Cmp.Crypto

open Cmp.Lib

variable {K Sec C : Type}

/-- A call on a session; `drawn` is the secret that a decryption draws if it makes a DH step. -/
inductive RatchetCall (Sec C : Type)
  | encrypt (plaintext envelopeAad : Bytes)
  | decrypt (drawn : Sec) (header : RatchetHeader) (ciphertext : C) (envelopeAad : Bytes)

inductive RatchetOutput (C : Type)
  | message (message : RatchetMessage C)
  | plaintext (plaintext : Bytes)

def RatchetCall.run (S : Suite K Sec C) : RatchetCall Sec C → SessionM K Sec (RatchetOutput C)
  | .encrypt plaintext envelopeAad => .message <$> Crypto.encrypt S plaintext envelopeAad
  | .decrypt drawn header ciphertext envelopeAad =>
    .plaintext <$> Crypto.decrypt S drawn header ciphertext envelopeAad

theorem RatchetCall.failsAtomically (S : Suite K Sec C) : FailsAtomically (RatchetCall.run S) := by
  intro call s
  cases call with
  | encrypt plaintext envelopeAad =>
    have hcall : PutsBack (Crypto.encrypt S plaintext envelopeAad) s :=
      fun e t h => encrypt_error S plaintext envelopeAad s t e h
    exact hcall.map _
  | decrypt drawn header ciphertext envelopeAad =>
    have hcall : PutsBack (Crypto.decrypt S drawn header ciphertext envelopeAad) s :=
      fun e t h => decrypt_error S drawn header ciphertext envelopeAad s t e h
    exact hcall.map _

/-- A call that fails leaves the session equal to what it was; and whatever failing calls are
taken out of a run, the calls that are left return the same and leave the same sessions. -/
theorem failed_calls_invisible (S : Suite K Sec C) :
    (∀ (s t : SessionState K Sec) (plaintext envelopeAad : Bytes) (e : CryptoError),
      (encrypt S plaintext envelopeAad).run s = .error e t → t = s) ∧
    (∀ (s t : SessionState K Sec) (drawn : Sec) (header : RatchetHeader) (ciphertext : C)
      (envelopeAad : Bytes) (e : CryptoError),
      (decrypt S drawn header ciphertext envelopeAad).run s = .error e t → t = s) ∧
    ∀ (calls : List (RatchetCall Sec C)) (s : SessionState K Sec) kept,
      Pruned (trace (RatchetCall.run S) calls s) kept →
      trace (RatchetCall.run S) (kept.map Called.call) s = kept := by
  refine ⟨?_, ?_, ?_⟩
  · intro s t plaintext envelopeAad e h
    exact encrypt_error S plaintext envelopeAad s t e h
  · intro s t drawn header ciphertext envelopeAad e h
    exact decrypt_error S drawn header ciphertext envelopeAad s t e h
  · intro calls s kept h
    exact (RatchetCall.failsAtomically S).trace_pruned h

def sampleSession : SessionState Term Key32 where
  rootKey := .shared 0
  ourRatchet := RatchetKeyPair.generate symbolic (key32 1)
  theirRatchetKey := some (key32 2)
  sendingChainKey := some (.shared 1)
  receivingChainKey := some (.shared 2)
  sendCount := 0
  recvCount := 0
  previousSendCount := 0
  skipped := ∅

/-- Two messages are sent, and between them a forged one comes with a gap and a new ratchet
key. -/
def forgedBetween : List (RatchetCall Key32 Ciphertext) :=
  [.encrypt [1] [], .decrypt (key32 3) ⟨key32 4, 2, 3⟩ (.junk []) [], .encrypt [2] []]

theorem failed_calls_invisible_forged :
    trace (RatchetCall.run symbolic) [.encrypt [1] [], .encrypt [2] []] sampleSession =
      (trace (RatchetCall.run symbolic) forgedBetween sampleSession).eraseIdx 1 := by
  have hpruned : Pruned (trace (RatchetCall.run symbolic) forgedBetween sampleSession)
      ((trace (RatchetCall.run symbolic) forgedBetween sampleSession).eraseIdx 1) :=
    .keep _ (.drop _ .decryptionFailed rfl (.keep _ .nil))
  exact (failed_calls_invisible symbolic).2.2 forgedBetween sampleSession _ hpruned

end Cmp.Crypto
