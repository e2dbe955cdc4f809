import Cmp.Client.Inbox
import Cmp.Client.KeyUse
import Cmp.Crypto.Spent

/-! The keys behind the inbound envelopes of a run: the key that opened an envelope is
spent in the session of its sender, for as long as that session is only moved on. -/

namespace Cmp.Client

open Cmp.Crypto Cmp.Protocol Cmp.Lib Cmp.Lib.Action

variable {K Sec C : Type}

/-! ## Sessions and spent keys -/

/-- The key under which the ratchet opens an envelope. -/
def OpensUnder (S : IdentitySuite K Sec C) (envelope : EncryptedEnvelope C) (k : K) : Prop :=
  ∃ header ciphertext aad plaintext, envelopeParts envelope = .ok (header, ciphertext, aad) ∧
    S.aeadDecrypt k ciphertext (authenticatedData aad header) = .ok plaintext

theorem OpensUnder.unique {S : IdentitySuite K Sec C} (hO : S.toSuite.OneKey)
    {envelope : EncryptedEnvelope C} {k k' : K} (h : OpensUnder S envelope k)
    (h' : OpensUnder S envelope k') : k = k' := by
  obtain ⟨_, _, _, _, hparts, hopen⟩ := h
  obtain ⟨_, _, _, _, hparts', hopen'⟩ := h'
  cases hparts.symm.trans hparts'
  exact hO _ _ _ _ _ _ _ hopen hopen'

/-- Sessions whose keys are in order. -/
def SessionsSupplied (S : IdentitySuite K Sec C) (rank : K → Nat)
    (sessions : HMap UserId (PeerSession K Sec)) : Prop :=
  ∀ peerId session, sessions.lookup peerId = some session → session.ratchet.Supplied S.toSuite rank

section Keys

variable {S : IdentitySuite K Sec C} {rank : K → Nat} {m : Manager K Sec C}
  {session : PeerSession K Sec}

theorem SessionsSupplied.insert {sessions : HMap UserId (PeerSession K Sec)}
    (h : SessionsSupplied S rank sessions) {peerId : UserId}
    (hs : session.ratchet.Supplied S.toSuite rank) :
    SessionsSupplied S rank (sessions.insert peerId session) := by
  intro x s hx
  rw [HMap.lookup_insert_eq] at hx
  split at hx
  · cases hx; exact hs
  · exact h x s hx

/-- The key a decryption used was within reach of the session before, and is spent in
the session after. -/
theorem Opens.spends (hF : S.toSuite.Free) (hR : S.toSuite.RootsGrow rank)
    (hs : SessionsSupplied S rank m.sessions) {peerId : UserId} {envelope : EncryptedEnvelope C}
    {drawn : Sec} {plaintext : Bytes} {opkId : Option UInt32}
    (h : Opens S m peerId envelope drawn plaintext session opkId) :
    ∃ k, OpensUnder S envelope k ∧ session.ratchet.Spent S.toSuite rank k ∧
      session.ratchet.Supplied S.toSuite rank ∧
      ∀ original, m.sessions.lookup peerId = some original →
        original.ratchet.Reaches S.toSuite k ∧
        original.ratchet.Advances S.toSuite rank session.ratchet := by
  cases h with
  | existing original header ciphertext aad _ ratchet hparts hsession hopen =>
    obtain ⟨k, hk, hreach, hspent, hadvance⟩ :=
      decrypt_spends hF hR drawn header ciphertext aad plaintext (hs _ _ hsession) hopen
    refine ⟨k, ⟨_, _, _, _, hparts, hk⟩, hspent, hadvance.supplied, fun other hother => ?_⟩
    cases hsession.symm.trans hother
    exact ⟨hreach, hadvance⟩
  | first identityKey ephemeralKey spkId _ proto fields bob ratchet _ hheader hfields hnone hbob
      hopen =>
    obtain ⟨spk, opk, secret, -, -, -, -, rfl⟩ := createBobSession_eq_ok hbob
    obtain ⟨k, hk, -, hspent, hadvance⟩ :=
      decrypt_spends hF hR drawn fields.header fields.ciphertext fields.envelopeAad plaintext
        (supplied_initializeBob secret _) hopen
    have hparts := envelopeParts_preKey hheader hfields
    refine ⟨k, ⟨_, _, _, _, hparts, hk⟩, hspent, hadvance.supplied, fun other hother => ?_⟩
    cases hnone.symm.trans hother

/-- Every stored opening's key is spent in the session of its sender. -/
structure KeysSpent (S : IdentitySuite K Sec C) (rank : K → Nat)
    (sessions : HMap UserId (PeerSession K Sec)) (opened : List (Opening C)) : Prop where
  supplied : SessionsSupplied S rank sessions
  spent : ∀ o ∈ opened, o.kept = true → ∃ session k,
    sessions.lookup o.peerId = some session ∧ OpensUnder S o.envelope k ∧
      session.ratchet.Spent S.toSuite rank k

namespace KeysSpent

variable {sessions sessions' : HMap UserId (PeerSession K Sec)} {opened : List (Opening C)}

theorem empty : KeysSpent S rank (∅ : HMap UserId (PeerSession K Sec)) ([] : List (Opening C)) where
  supplied peerId session h := by cases h
  spent o h := by cases h

/-- Sessions that moved on. -/
theorem advance (h : KeysSpent S rank sessions opened) (hF : S.toSuite.Free)
    (hs : SessionsSupplied S rank sessions')
    (hadvance : ∀ peerId session, sessions.lookup peerId = some session →
      ∃ session', sessions'.lookup peerId = some session' ∧
        session.ratchet.Advances S.toSuite rank session'.ratchet) :
    KeysSpent S rank sessions' opened where
  supplied := hs
  spent o ho hkept := by
    obtain ⟨session, k, hsession, hk, hspent⟩ := h.spent o ho hkept
    obtain ⟨session', hsession', ha⟩ := hadvance _ _ hsession
    exact ⟨session', k, hsession', hk, hspent.advance hF ha⟩

/-- A stored envelope is not opened again. -/
theorem not_opens (h : KeysSpent S rank m.sessions opened) (hF : S.toSuite.Free)
    (hR : S.toSuite.RootsGrow rank) (hO : S.toSuite.OneKey) {o : Opening C} (ho : o ∈ opened)
    (hkept : o.kept = true) {drawn : Sec} {plaintext : Bytes} {opkId : Option UInt32} :
    ¬ Opens S m o.peerId o.envelope drawn plaintext session opkId := by
  intro hopens
  obtain ⟨original, k, hsession, hk, hspent⟩ := h.spent o ho hkept
  obtain ⟨k', hk', -, -, hreach⟩ := hopens.spends hF hR h.supplied
  cases hk.unique hO hk'
  exact hspent.not_reaches hF (hreach _ hsession).1

theorem append (h : KeysSpent S rank sessions opened) {new : List (Opening C)}
    (hnew : ∀ o ∈ new, o.kept = false) : KeysSpent S rank sessions (opened ++ new) where
  supplied := h.supplied
  spent o ho hkept := by
    rcases List.mem_append.mp ho with ho | ho
    · exact h.spent o ho hkept
    · rw [hnew o ho] at hkept; cases hkept

/-- An envelope opened and stored. -/
theorem opens (h : KeysSpent S rank m.sessions opened) (hF : S.toSuite.Free)
    (hR : S.toSuite.RootsGrow rank) {o : Opening C} {drawn : Sec} {plaintext : Bytes}
    {opkId : Option UInt32} (hopens : Opens S m o.peerId o.envelope drawn plaintext session opkId) :
    KeysSpent S rank (m.sessions.insert o.peerId session) (opened ++ [o]) := by
  obtain ⟨k, hk, hspent, hsupplied, hadvance⟩ := hopens.spends hF hR h.supplied
  have hold : KeysSpent S rank (m.sessions.insert o.peerId session) opened := by
    refine h.advance hF (h.supplied.insert hsupplied) fun peerId original hsession => ?_
    rw [HMap.lookup_insert_eq]
    split
    · next heq => exact ⟨session, rfl, (hadvance original (heq ▸ hsession)).2⟩
    · exact ⟨original, hsession, .refl (h.supplied _ _ hsession)⟩
  refine ⟨hold.supplied, fun o' ho' hkept => ?_⟩
  rcases List.mem_append.mp ho' with ho' | ho'
  · exact hold.spent o' ho' hkept
  · cases List.mem_singleton.mp ho'
    exact ⟨session, k, Finmap.lookup_insert _, hk, hspent⟩

end KeysSpent

end Keys

end Cmp.Client
