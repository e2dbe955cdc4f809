import Cmp.Crypto.KeySchedule

/-! The symbolic view of the primitives: what is assumed of a suite whose keys
behave like terms, and the free suite of terms as an instance. -/

namespace Cmp.Crypto

open Cmp.Lib

variable {K Sec C : Type}

/-- Derived keys determine what they were derived from, and a ciphertext opens
only under the key and associated data it was made with. -/
structure Suite.Free (S : Suite K Sec C) : Prop where
  newChain_inj : ∀ {r d r' d'}, S.newChain r d = S.newChain r' d' → r = r' ∧ d = d'
  nextChain_inj : ∀ {c c'}, S.nextChain c = S.nextChain c' → c = c'
  messageKey_inj : ∀ {c c'}, S.messageKey c = S.messageKey c' → c = c'
  newChain_ne_nextChain : ∀ r d c, S.newChain r d ≠ S.nextChain c
  diffieHellman_inj : ∀ {a b X Y}, S.diffieHellman a X = S.diffieHellman b Y →
    (S.toPublic a = S.toPublic b ∧ X = Y) ∨ (S.toPublic a = Y ∧ X = S.toPublic b)
  opens_only : ∀ {k k' c p p' aad aad'}, S.aeadEncrypt k p aad = .ok c →
    S.aeadDecrypt k' c aad' = .ok p' → k' = k ∧ aad' = aad ∧ p' = p

theorem Suite.Free.iterate_newChain_inj {S : Suite K Sec C} (hF : S.Free) {r d r' d' : K}
    (n : Nat) : ∀ n', S.nextChain^[n] (S.newChain r d) = S.nextChain^[n'] (S.newChain r' d') →
      n = n' ∧ r = r' ∧ d = d' := by
  induction n with
  | zero =>
    intro n' h
    cases n' with
    | zero => exact ⟨rfl, hF.newChain_inj h⟩
    | succ n' =>
      rw [Function.iterate_succ_apply'] at h
      exact absurd h (hF.newChain_ne_nextChain _ _ _)
  | succ n ih =>
    intro n' h
    rw [Function.iterate_succ_apply'] at h
    cases n' with
    | zero => exact absurd h.symm (hF.newChain_ne_nextChain _ _ _)
    | succ n' =>
      rw [Function.iterate_succ_apply'] at h
      obtain ⟨hn, hrd⟩ := ih n' (hF.nextChain_inj h)
      exact ⟨congrArg _ hn, hrd⟩

/-- A message key determines its position and its chain. -/
theorem Suite.Free.messageKeyAt_inj {S : Suite K Sec C} (hF : S.Free) {r d r' d' : K} {n n' : Nat}
    (h : S.messageKeyAt (S.newChain r d) n = S.messageKeyAt (S.newChain r' d') n') :
    n = n' ∧ r = r' ∧ d = d' :=
  hF.iterate_newChain_inj n n' (hF.messageKey_inj h)

/-! ## Terms -/

/-- Keys as terms; a DH output names its two public keys in order. -/
inductive Term
  | shared (name : Nat)
  | dh (lower upper : Key32)
  | rootKey (root dh : Term)
  | chainKey (root dh : Term)
  | mac (key : Term) (data : UInt8)
  | x3dh (dh1 dh2 dh3 : Term)
  | x3dhOneTime (dh1 dh2 dh3 dh4 : Term)
  deriving DecidableEq

def Term.agree (a b : Key32) : Term :=
  if a.toList ≤ b.toList then .dh a b else .dh b a

inductive Ciphertext
  | box (key : Term) (plaintext aad : Bytes)
  | junk (bytes : Bytes)
  deriving DecidableEq

/-- A secret is named by its public key. -/
def symbolic : Suite Term Key32 Ciphertext where
  hkdfRatchet rootKey dhOutput := .ok (.rootKey rootKey dhOutput, .chainKey rootKey dhOutput)
  hmacSha256 key data := .ok (.mac key data)
  aeadEncrypt key plaintext aad := .ok (.box key plaintext aad)
  aeadDecrypt key ciphertext aad :=
    match ciphertext with
    | .box key' plaintext aad' =>
      if key' = key ∧ aad' = aad then .ok plaintext else .error .decryptionFailed
    | .junk _ => .error .decryptionFailed
  ciphertextLen
    | .box _ plaintext _ => plaintext.length + 16
    | .junk bytes => bytes.length
  diffieHellman a b := Term.agree a b
  toPublic a := a

theorem symbolic_kdfTotal : symbolic.KdfTotal :=
  ⟨fun _ _ => ⟨_, rfl⟩, fun _ _ => ⟨_, rfl⟩⟩

theorem agree_comm (a b : Key32) : Term.agree a b = Term.agree b a := by
  unfold Term.agree
  by_cases hab : a.toList ≤ b.toList
  · by_cases hba : b.toList ≤ a.toList
    · have : a = b := List.Vector.toList_injective (List.le_antisymm hab hba)
      rw [this]
    · rw [if_pos hab, if_neg hba]
  · rw [if_neg hab, if_pos ((List.le_total _ _).resolve_left hab)]

theorem agree_inj {a b c d : Key32} (h : Term.agree a b = Term.agree c d) :
    (a = c ∧ b = d) ∨ (a = d ∧ b = c) := by
  unfold Term.agree at h
  split at h <;> split at h <;> cases h <;> simp

theorem symbolic_dhCommutes : symbolic.DhCommutes := fun a b => agree_comm a b

theorem symbolic_aeadDecrypt_eq_ok (k : Term) (c : Ciphertext) (aad p : Bytes) :
    symbolic.aeadDecrypt k c aad = .ok p ↔ c = .box k p aad := by
  cases c with
  | box k' p' aad' =>
    simp only [symbolic, Ciphertext.box.injEq]
    split
    · next h => simp [h]
    · next h => simp only [reduceCtorEq, false_iff]; tauto
  | junk b => simp [symbolic]

theorem symbolic_aeadOpens : symbolic.AeadOpens := by
  intro k p aad c h
  cases h
  exact (symbolic_aeadDecrypt_eq_ok _ _ _ _).mpr rfl

theorem symbolic_tagLength : symbolic.TagLength := by
  intro key plaintext aad ciphertext h
  cases h
  rfl

theorem symbolic_free : symbolic.Free where
  newChain_inj h := by cases h; exact ⟨rfl, rfl⟩
  nextChain_inj h := by cases h; rfl
  messageKey_inj h := by cases h; rfl
  newChain_ne_nextChain _ _ _ h := by cases h
  diffieHellman_inj h := (agree_inj h).imp id id
  opens_only he hd := by
    cases he
    cases (symbolic_aeadDecrypt_eq_ok _ _ _ _).mp hd
    exact ⟨rfl, rfl, rfl⟩

/-- A key of equal bytes. -/
def key32 (n : UInt8) : Key32 := List.Vector.replicate 32 n

end Cmp.Crypto
