import Cmp.Crypto.SymbolicIdentity
import Cmp.Crypto.Spent

/-! The first message of a session. Both sides of X3DH derive one secret, and the
session Bob makes from it opens the first message of Alice's; a session that was
itself initiated does not. -/

namespace Cmp.Crypto

open Cmp.Lib

variable {K Sec C : Type}

/-- X3DH secrets are the start of the root keys. -/
def IdentitySuite.SecretsFirst (S : IdentitySuite K Sec C) (rank : K → Nat) : Prop :=
  ∀ blocks secret, S.hkdfX3dh blocks = .ok secret → rank secret = 0

theorem symbolicIdentity_secretsFirst : symbolicIdentity.SecretsFirst Term.rootRank := by
  intro blocks secret h
  simp only [symbolicIdentity] at h
  split at h <;> cases h <;> rfl

/-! ## X3DH -/

section X3dh

variable {S : IdentitySuite K Sec C}

/-- A signed prekey that its owner made. -/
def SignedPreKey.Of (S : IdentitySuite K Sec C) (identity : Sec) (spk : SignedPreKey Sec) : Prop :=
  spk = SignedPreKey.generate S spk.keyId identity spk.secret

def OneTimePreKey.Made (S : IdentitySuite K Sec C) (opk : OneTimePreKey Sec) : Prop :=
  opk = OneTimePreKey.generate S opk.secret

/-- The keys of a published bundle, as Alice decodes them. -/
def peerBundle (S : IdentitySuite K Sec C) (identity : Sec) (spk : SignedPreKey Sec)
    (opk : Option (UInt32 × OneTimePreKey Sec)) : PeerPreKeyBundle where
  identityKey := S.verifyingKey identity
  signedPrekey := spk.publicKey
  signedPrekeyId := spk.keyId
  signedPrekeySignature := spk.signature
  oneTimePrekey := opk.map fun entry => (entry.1, entry.2.publicKey)

theorem aliceInitiate_eq_ok {aliceIdentity ephemeral : Sec} {bundle : PeerPreKeyBundle}
    {result : X3dhInitResult K} (h : aliceInitiate S aliceIdentity ephemeral bundle = .ok result) :
    result.ephemeralPublic = S.toPublic ephemeral ∧
      deriveX3dhSecret S (S.diffieHellman (S.toX25519Secret aliceIdentity) bundle.signedPrekey)
        (S.diffieHellman ephemeral (S.verifyingKeyToX25519 bundle.identityKey))
        (S.diffieHellman ephemeral bundle.signedPrekey)
        (bundle.oneTimePrekey.map fun opk => S.diffieHellman ephemeral opk.2) =
        .ok result.sharedSecret := by
  unfold aliceInitiate at h
  split at h
  · obtain ⟨secret, hsecret, h⟩ := (Action.bind_eq_ok _ _ _).mp h
    cases h
    exact ⟨rfl, hsecret⟩
  · cases h

theorem aliceInitiate_ok (hL : S.Lawful) (aliceIdentity ephemeral bobIdentity : Sec)
    {spk : SignedPreKey Sec} (hspk : spk.Of S bobIdentity)
    (opk : Option (UInt32 × OneTimePreKey Sec)) :
    ∃ result, aliceInitiate S aliceIdentity ephemeral (peerBundle S bobIdentity spk opk) =
      .ok result := by
  have hverify :
    S.verify (S.verifyingKey bobIdentity) spk.publicKey.toList spk.signature = true := by
    rw [hspk]
    exact hL.verifies _ _
  simp only [aliceInitiate, peerBundle, hverify, if_true]
  obtain ⟨secret, hsecret⟩ := hL.x3dhTotal _ _ _ _
  rw [hsecret]
  exact ⟨_, rfl⟩

/-- **X3DH agreement.** Bob derives the secret that Alice derived from his bundle. -/
theorem x3dh_agreement (hL : S.Lawful) (hdh : S.toSuite.DhCommutes)
    {aliceIdentity ephemeral bobIdentity : Sec} {spk : SignedPreKey Sec}
    {opk : Option (UInt32 × OneTimePreKey Sec)} (hspk : spk.Of S bobIdentity)
    (hopk : ∀ entry, opk = some entry → entry.2.Made S) {result : X3dhInitResult K}
    (h : aliceInitiate S aliceIdentity ephemeral (peerBundle S bobIdentity spk opk) = .ok result) :
    bobRespond S bobIdentity spk (opk.map Prod.snd) (S.verifyingKey aliceIdentity)
      result.ephemeralPublic = .ok result.sharedSecret := by
  obtain ⟨hephemeral, hsecret⟩ := aliceInitiate_eq_ok h
  have hpublic : spk.publicKey = S.toPublic spk.secret := by rw [hspk]; rfl
  rw [hephemeral]
  unfold bobRespond
  dsimp only
  rw [hL.montgomery, hdh spk.secret, hdh (S.toX25519Secret bobIdentity), hdh spk.secret,
    ← hL.montgomery bobIdentity]
  simp only [peerBundle, hpublic] at hsecret
  rw [← hsecret]
  cases opk with
  | none => rfl
  | some entry =>
    have hpk : entry.2.publicKey = S.toPublic entry.2.secret := by rw [hopk entry rfl]; rfl
    simp only [Option.map_some, hdh entry.2.secret, hpk]

end X3dh

/-! ## The first ratchet message -/

section First

variable {S : Suite K Sec C} {rank : K → Nat} {s s' : SessionState K Sec} {a drawn : Sec} {ss : K}
  {their : Key32} {p aad : Bytes} {m : RatchetMessage C}

/-- The first message of an initiated session. -/
theorem encrypt_initializeAlice (hs : initializeAlice S a ss their = .ok s)
    (hm : (encrypt S p aad).run s = .ok m s') :
    m.header = ⟨S.toPublic a, 0, 0⟩ ∧
      S.aeadEncrypt (S.messageKeyAt (S.newChain ss (S.diffieHellman a their)) 0) p
        (authenticatedData aad m.header) = .ok m.ciphertext := by
  obtain ⟨rkOut, hrk, rfl⟩ := initializeAlice_eq_ok hs
  obtain ⟨-, chainKey, ckOut, hchain, hck, hheader, hct, -⟩ := (encrypt_eq_ok S _ _ _ _ _).mp hm
  cases hchain
  cases kdfCk_eq_ok hck
  rw [(kdfRk_eq_ok hrk).2] at hct
  rw [hheader]
  exact ⟨rfl, hct⟩

/-- Bob's new session opens it. -/
theorem decrypt_first (hS : S.KdfTotal) (hdh : S.DhCommutes) (haead : S.AeadOpens) {b : Sec}
    (hs : initializeAlice S a ss (S.toPublic b) = .ok s)
    (hm : (encrypt S p aad).run s = .ok m s') (drawn : Sec) :
    ∃ t, (decrypt S drawn m.header m.ciphertext aad).run (initializeBob ss ⟨b, S.toPublic b⟩) =
      .ok p t := by
  obtain ⟨hheader, hct⟩ := encrypt_initializeAlice hs hm
  have hopen := haead _ _ _ _ hct
  have hunset : (initializeBob ss ⟨b, S.toPublic b⟩).receivingChainKey.isSome → False := by
    rintro ⟨⟩
  have hinner := (tryDecryptInner_new hS drawn m.header m.ciphertext aad p
    (initializeBob ss ⟨b, S.toPublic b⟩) _ (fun h => (hunset h).elim) (by rintro ⟨⟩)).mpr
    ⟨fun h => (hunset h).elim, ?_, ?_, ?_, rfl⟩
  · exact ⟨_, (decrypt_eq_ok S _ _ _ _ _ _ _).mpr (.inr ⟨Finmap.lookup_empty _, hinner⟩)⟩
  · refine maySkip_of_le _ _ ?_
    rw [hheader]
    exact Nat.zero_le _
  · show S.aeadDecrypt (S.messageKeyAt
      (S.newChain ss (S.diffieHellman b m.header.ratchetKey)) m.header.messageNumber.toNat) _ _ = _
    have hkey : S.diffieHellman b m.header.ratchetKey = S.diffieHellman a (S.toPublic b) := by
      rw [hheader]
      exact hdh b a
    have hnumber : m.header.messageNumber.toNat = 0 := by rw [hheader]; rfl
    rw [hkey, hnumber]
    exact hopen
  · rw [hheader]
    show (0 : UInt32).toNat + 1 < UInt32.size
    decide

/-- A session that has received nothing does not open what was made from a secret
below its root key. -/
theorem decrypt_unstarted (hF : S.Free) (hR : S.RootsGrow rank) {d : K} {n : Nat}
    {header : RatchetHeader} {c : C} {p' aad' : Bytes} (hskipped : s.skipped = ∅)
    (hchain : s.receivingChainKey = none) (hrank : rank ss < rank s.rootKey)
    (hmade : S.aeadEncrypt (S.messageKeyAt (S.newChain ss d) n) p aad = .ok c) :
    (decrypt S drawn header c aad').run s ≠ .ok p' s' := by
  intro h
  have hsupplied : s.Supplied S rank := by
    rw [SessionState.Supplied, hskipped, hchain]
    exact Supply.start s.rootKey
  obtain ⟨k, hk, hreach, -⟩ := decrypt_spends hF hR drawn header c aad' p' hsupplied h
  obtain ⟨rfl, -⟩ := hF.opens_only hmade hk
  rcases hreach with hold | hstart
  · rw [SessionState.Holds, hskipped, hchain] at hold
    exact not_holds_start hold
  · have hroot : s.rootKey = ss := hstart.root_eq hF ⟨d, n, rfl⟩
    rw [hroot] at hrank
    exact Nat.lt_irrefl _ hrank

/-- A session that opened something has a receiving chain. -/
theorem decrypt_receives {header : RatchetHeader} {c : C}
    (hs : s.receivingChainKey = none → s.skipped = ∅)
    (h : (decrypt S drawn header c aad).run s = .ok p s') : s'.receivingChainKey.isSome := by
  rcases (decrypt_eq_ok S _ _ _ _ _ _ _).mp h with ⟨k, hk, -, rfl⟩ | ⟨-, h⟩
  · refine Option.isSome_iff_ne_none.mpr fun hnone => ?_
    rw [hs hnone] at hk
    cases hk
  · obtain ⟨u, v, c, ckOut, -, -, -, -, -, -, rfl⟩ := (tryDecryptInner_eq_ok S _ _ _ _ _ _ _).mp h
    rfl

/-- An initiated session has received nothing, and its root key is not the secret. -/
theorem initializeAlice_unstarted (hR : S.RootsGrow rank)
    (hs : initializeAlice S a ss their = .ok s) :
    s.skipped = ∅ ∧ s.receivingChainKey = none ∧ rank ss < rank s.rootKey := by
  obtain ⟨rkOut, hrk, rfl⟩ := initializeAlice_eq_ok hs
  exact ⟨rfl, rfl, hR _ _ _ (kdfRk_eq_ok hrk).1⟩

end First

end Cmp.Crypto
