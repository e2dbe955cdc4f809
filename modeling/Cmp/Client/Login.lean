import Cmp.Crypto.SymbolicIdentity
import Cmp.Protocol.Session
import Cmp.Relay.Handlers

/-! The login of `client::net`. The identity key that vouches for signed prekeys also
signs what the relay asks for, and both are plain byte strings. -/

namespace Cmp.Client

open Cmp.Crypto Cmp.Protocol Cmp.Relay Cmp.Lib

variable {K Sec C : Type}

/-- The answer to the first frame of the relay; the length of the nonce is not looked at. -/
def handleAuthFlow (S : IdentitySuite K Sec C) (identity : Sec) :
    ServerMessage C → Option (SessionMessage C)
  | .challenge nonce timestamp serverId =>
    match nonce.decoded with
    | none => none
    | some nonceBytes =>
      some (.authResponse
        (b64Encode (S.sign identity (signedData nonceBytes timestamp serverId)).toList))
  | _ => none

/-- `signature` passes for one over the signed prekey `publicKey` of `identity`, at the relay
or with a peer. -/
def VouchesFor (S : IdentitySuite K Sec C) (identity : Sec) (publicKey : Key32)
    (signature : Signature) : Prop :=
  verifySignedPrekey S (S.verifyingKey identity).toList publicKey signature = .ok () ∨
    ∃ aliceIdentity ephemeral keyId oneTimePrekey result,
      aliceInitiate S aliceIdentity ephemeral
        ⟨S.verifyingKey identity, publicKey, keyId, signature, oneTimePrekey⟩ = .ok result

/-- A signature passes for one over a public key only if it was made over that key. -/
def KeyBinding (S : IdentitySuite K Sec C) : Prop :=
  ∀ identity message (publicKey : Key32),
    S.verify (S.verifyingKey identity) publicKey.toList (S.sign identity message) = true →
      message = publicKey.toList

variable {S : IdentitySuite K Sec C}

theorem verifySignedPrekey_iff (hL : S.Lawful) {identity : Sec} {publicKey : Key32}
    {signature : Signature} :
    verifySignedPrekey S (S.verifyingKey identity).toList publicKey signature = .ok () ↔
      S.verify (S.verifyingKey identity) publicKey.toList signature = true := by
  have hkey : (⟨(S.verifyingKey identity).toList, (S.verifyingKey identity).toList_length⟩ :
      Key32) = S.verifyingKey identity := rfl
  unfold verifySignedPrekey
  rw [dif_pos (S.verifyingKey identity).toList_length, hkey, hL.isKey, if_neg (by simp)]
  split <;> simp_all

theorem vouchesFor_iff (hL : S.Lawful) {identity : Sec} {publicKey : Key32}
    {signature : Signature} :
    VouchesFor S identity publicKey signature ↔
      S.verify (S.verifyingKey identity) publicKey.toList signature = true := by
  unfold VouchesFor
  rw [verifySignedPrekey_iff hL]
  constructor
  · rintro (h | ⟨aliceIdentity, ephemeral, keyId, oneTimePrekey, result, h⟩)
    · exact h
    · unfold aliceInitiate at h
      split at h
      · assumption
      · cases h
  · exact Or.inl

/-- A NUL byte is UTF-8, so a server name may be any number of them. -/
theorem exists_serverId (k : Nat) :
    ∃ serverId : String, serverId.toUTF8.data.toList = List.replicate k 0 := by
  induction k with
  | zero => exact ⟨"", rfl⟩
  | succ k ih =>
    obtain ⟨serverId, hbytes⟩ := ih
    have happend : (serverId ++ "\x00").toUTF8.data.toList =
        serverId.toUTF8.data.toList ++ [0] := by
      simp only [String.toUTF8, String.toByteArray_append, ByteArray.data_append,
        Array.toList_append]
      rfl
    exact ⟨serverId ++ "\x00", by rw [happend, hbytes, List.replicate_succ']⟩

/-- Zero bytes, cut at any place into nonce, timestamp and server name. -/
theorem exists_signedData_zero (n k : Nat) :
    ∃ serverId : String, signedData (List.replicate n 0) 0 serverId = List.replicate
      (n + 8 + k) 0 := by
  obtain ⟨serverId, hbytes⟩ := exists_serverId k
  have htime : beBytes 8 (0 : UInt64).toNat = List.replicate 8 0 := by decide
  refine ⟨serverId, ?_⟩
  rw [signedData, hbytes, htime, List.replicate_append_replicate, List.replicate_append_replicate]

/-- What a client that answers challenges with these nonce lengths signs is apart from signed
prekeys, and differs for different challenges. -/
def Separated (S : IdentitySuite K Sec C) (identity : Sec) (answered : Nat → Prop) : Prop :=
  (∀ (nonce : B64Text Bytes) nonceBytes timestamp serverId, nonce.decoded = some nonceBytes →
    answered nonceBytes.length → ∀ signature : Signature,
      handleAuthFlow S identity (.challenge nonce timestamp serverId) =
        some (.authResponse (b64Encode signature.toList)) →
      ∀ publicKey : Key32, signedData nonceBytes timestamp serverId ≠ publicKey.toList ∧
        ¬VouchesFor S identity publicKey signature) ∧
  ∀ nonceBytes timestamp serverId nonceBytes' timestamp' serverId',
    answered nonceBytes.length → answered nonceBytes'.length →
    signedData nonceBytes timestamp serverId = signedData nonceBytes' timestamp' serverId' →
    nonceBytes = nonceBytes' ∧ timestamp = timestamp' ∧ serverId = serverId'

theorem handleAuthFlow_signature {S : IdentitySuite K Sec C} {identity : Sec}
    {nonce : B64Text Bytes} {nonceBytes : Bytes} {timestamp : UInt64} {serverId : String}
    {signature : Signature} (hnonce : nonce.decoded = some nonceBytes)
    (h : handleAuthFlow S identity (.challenge nonce timestamp serverId) =
      some (.authResponse (b64Encode signature.toList))) :
    signature = S.sign identity (signedData nonceBytes timestamp serverId) := by
  simp only [handleAuthFlow, hnonce, Option.some.injEq, SessionMessage.authResponse.injEq,
    b64Encode, B64Text.mk.injEq] at h
  exact (List.Vector.toList_injective h.1).symm

theorem Separated.long {identity : Sec} {answered : Nat → Prop} (h : Separated S identity answered)
    {n : Nat} (hn : answered n) : 24 < n := by
  by_contra hle
  obtain ⟨serverId, hdata⟩ := exists_signedData_zero n (24 - n)
  -- The server name fills the signed bytes up to the length of a key.
  have hlen : (List.replicate (n + 8 + (24 - n)) (0 : UInt8)).length = 32 := by
    rw [List.length_replicate]
    omega
  have hanswered : answered (List.replicate n (0 : UInt8)).length := by
    rwa [List.length_replicate]
  exact (h.1 (b64Encode _) _ 0 serverId rfl hanswered _ rfl ⟨_, hlen⟩).1 hdata

theorem Separated.lengths_eq {identity : Sec} {answered : Nat → Prop}
    (h : Separated S identity answered) {n n' : Nat} (hn : answered n) (hn' : answered n') :
    n = n' := by
  -- The same zero bytes, with the shorter name behind the longer nonce.
  obtain ⟨serverId, hdata⟩ := exists_signedData_zero n n'
  obtain ⟨serverId', hdata'⟩ := exists_signedData_zero n' n
  have hsame : n + 8 + n' = n' + 8 + n := by omega
  have hanswered : answered (List.replicate n (0 : UInt8)).length := by
    rwa [List.length_replicate]
  have hanswered' : answered (List.replicate n' (0 : UInt8)).length := by
    rwa [List.length_replicate]
  have hnonce := (h.2 _ 0 serverId _ 0 serverId' hanswered hanswered'
    (hdata.trans (hsame ▸ hdata'.symm))).1
  simpa using congrArg List.length hnonce

/-- The client signs the nonce without a look at its length. Its answers keep apart from its
signed prekeys, and from one another, exactly when all nonces that it answers have one length
above 24. -/
theorem login_signatures_separated (S : IdentitySuite K Sec C) (hL : S.Lawful) (hB : KeyBinding S)
    (identity : Sec) (answered : Nat → Prop) :
    Separated S identity answered ↔
      (∀ n, answered n → 24 < n) ∧ ∀ n n', answered n → answered n' → n = n' := by
  constructor
  · intro h
    exact ⟨fun _ => h.long, fun _ _ => h.lengths_eq⟩
  · rintro ⟨hlong, hsame⟩
    refine ⟨?_, ?_⟩
    · intro nonce nonceBytes timestamp serverId hnonce hanswered signature hflow publicKey
      have hne : signedData nonceBytes timestamp serverId ≠ publicKey.toList := by
        intro hdata
        have hsize := congrArg List.length hdata
        rw [length_signedData, List.Vector.toList_length] at hsize
        have := hlong _ hanswered
        omega
      refine ⟨hne, fun hvouches => hne ?_⟩
      rw [vouchesFor_iff hL, handleAuthFlow_signature hnonce hflow] at hvouches
      exact hB _ _ _ hvouches
    · intro nonceBytes timestamp serverId nonceBytes' timestamp' serverId' hanswered hanswered'
      exact signedData_inj (hsame _ _ hanswered hanswered')

/-! ## A suite whose signatures show the key they are made over -/

def tagBytes (message : Bytes) : Bytes :=
  if message.length = 32 then message ++ List.replicate 32 0 else List.replicate 64 1

theorem length_tagBytes (message : Bytes) : (tagBytes message).length = 64 := by
  unfold tagBytes
  split
  · next h => rw [List.length_append, h, List.length_replicate]
  · exact List.length_replicate

def keyTagged (message : Bytes) : Signature := ⟨tagBytes message, length_tagBytes message⟩

def keyTaggedIdentity : IdentitySuite Term Key32 Ciphertext where
  toSuite := symbolic
  hkdfX3dh := symbolicIdentity.hkdfX3dh
  verifyingKey identity := identity
  toX25519Secret identity := identity
  verifyingKeyToX25519 key := key
  isVerifyingKey _ := true
  sign _ message := keyTagged message
  verify _ message signature := decide (signature = keyTagged message)

theorem keyTaggedIdentity_lawful : keyTaggedIdentity.Lawful where
  verifies _ _ := decide_eq_true rfl
  isKey _ := rfl
  montgomery _ := rfl
  x3dhTotal := symbolicIdentity_lawful.x3dhTotal

theorem keyTaggedIdentity_binding : KeyBinding keyTaggedIdentity := by
  intro identity message publicKey h
  have hsame : tagBytes message = tagBytes publicKey.toList :=
    congrArg List.Vector.toList (of_decide_eq_true h)
  have hkey : tagBytes publicKey.toList = publicKey.toList ++ List.replicate 32 0 :=
    if_pos publicKey.toList_length
  rw [hkey] at hsame
  unfold tagBytes at hsame
  split at hsame
  · exact (List.append_inj' hsame rfl).1
  · have hlast := congrArg List.getLast? hsame
    simp at hlast

theorem login_signatures_separated_relay :
    keyTaggedIdentity.Lawful ∧ KeyBinding keyTaggedIdentity ∧
      Separated keyTaggedIdentity (key32 7) (· = 32) :=
  ⟨keyTaggedIdentity_lawful, keyTaggedIdentity_binding,
    (login_signatures_separated keyTaggedIdentity keyTaggedIdentity_lawful
      keyTaggedIdentity_binding (key32 7) (· = 32)).mpr
      ⟨fun _ h => h ▸ by decide, fun _ _ h h' => h.trans h'.symm⟩⟩

/-- A challenge with a 24-byte nonce and no server name is signed as a prekey, and moving a
byte from the nonce to the server name does not change what is signed. -/
theorem login_signature_vouches :
    (∃ signature : Signature,
      handleAuthFlow symbolicIdentity (key32 7)
        (.challenge (b64Encode (List.replicate 24 0)) 0 "") =
          some (.authResponse (b64Encode signature.toList)) ∧
      signedData (List.replicate 24 0) 0 "" = (key32 0).toList ∧
      VouchesFor symbolicIdentity (key32 7) (key32 0) signature) ∧
    signedData [0] 0 "" = signedData [] 0 "\x00" := by
  have hdata : signedData (List.replicate 24 0) 0 "" = (key32 0).toList := by decide
  refine ⟨⟨symbolicIdentity.sign (key32 7) (key32 0).toList, ?_, hdata, ?_⟩, by decide⟩
  · rw [← hdata]
    rfl
  · exact (vouchesFor_iff symbolicIdentity_lawful).mpr (symbolicIdentity_lawful.verifies _ _)

end Cmp.Client
