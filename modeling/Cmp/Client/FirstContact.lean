import Cmp.Client.KeyUse
import Cmp.Crypto.FirstMessage

/-! First contact of two clients. Each may fetch the other's bundle, make a session
from it, send, and receive, in any order. A genuine first message is decrypted to what
was sent whenever its recipient has no session with the sender. -/

namespace Cmp.Client

open Cmp.Crypto Cmp.Protocol Cmp.Lib Cmp.Lib.Action

variable {K Sec C : Type} {S : IdentitySuite K Sec C}

/-! ## Bundles and first messages -/

theorem b64DecodeFixed_encode {N : Nat} (v : List.Vector UInt8 N) (error : ManagerError) :
    b64DecodeFixed N (b64Encode v.toList) error = .ok v := by
  simp only [b64DecodeFixed, b64Encode, List.Vector.toList_length, dif_pos]
  rfl

theorem decodeBundle_published (hL : S.Lawful) (identity : Sec) (spk : SignedPreKey Sec)
    (opk : Option (UInt32 × OneTimePreKey Sec)) :
    decodeBundle S (publishedBundle S identity spk opk) = .ok (peerBundle S identity spk opk) := by
  unfold decodeBundle
  refine (bind_eq_ok _ _ _).mpr ⟨_, b64DecodeFixed_encode _ _, ?_⟩
  rw [if_pos (hL.isKey identity)]
  refine (bind_eq_ok _ _ _).mpr ⟨_, b64DecodeFixed_encode _ _, ?_⟩
  refine (bind_eq_ok _ _ _).mpr ⟨_, b64DecodeFixed_encode _ _, ?_⟩
  cases opk with
  | none => rfl
  | some entry =>
    exact (bind_eq_ok _ _ _).mpr ⟨_, b64DecodeFixed_encode _ _, rfl⟩

/-- A session just made from a bundle. -/
def MadeFrom (S : IdentitySuite K Sec C) (identity : Sec) (bundle : PreKeyBundle)
    (session : PeerSession K Sec) : Prop :=
  ∃ ephemeral drawn now, sessionFromBundle S identity ephemeral drawn now bundle = .ok session

structure FirstMessage (C : Type) where
  messageId : MessageId
  plaintext : Bytes
  envelope : EncryptedEnvelope C

/-- A first message of a session made from a bundle. -/
def FirstMessage.From (S : IdentitySuite K Sec C) (identity : Sec) (bundle : PreKeyBundle)
    (f : FirstMessage C) : Prop :=
  ∃ session message ratchet, MadeFrom S identity bundle session ∧
    (encrypt S.toSuite f.plaintext (session.envelopeAad (S.verifyingKey identity))).run
      session.ratchet = .ok message ratchet ∧
    f.envelope = session.wrap S (S.verifyingKey identity) message

variable {session : PeerSession K Sec}

/-- The header and the fields of an envelope that carries X3DH data. -/
theorem decodePreKey_wrap {x3dhData : StoredX3dhResult}
    (hheader : session.prekeyHeader = some x3dhData) (identityPublic : Key32)
    (message : RatchetMessage C) :
    (session.wrap S identityPublic message).header =
      .preKey (b64Encode identityPublic.toList) (b64Encode x3dhData.ephemeralPublic.toList)
        x3dhData.recipientSignedPrekeyId x3dhData.recipientOneTimePrekeyId
        (protoHeader message.header) ∧
    decodePreKey (session.wrap S identityPublic message) (b64Encode identityPublic.toList)
        (b64Encode x3dhData.ephemeralPublic.toList) x3dhData.recipientSignedPrekeyId
        x3dhData.recipientOneTimePrekeyId (protoHeader message.header) = .ok
      ⟨message.header, identityPublic, x3dhData.ephemeralPublic,
        session.envelopeAad identityPublic, message.ciphertext⟩ := by
  refine ⟨by simp only [PeerSession.wrap, hheader], ?_⟩
  refine (bind_eq_ok _ _ _).mpr ⟨message.header, ?_, ?_⟩
  · exact (bind_eq_ok _ _ _).mpr ⟨_, b64DecodeFixed_encode _ _, rfl⟩
  · refine (bind_eq_ok _ _ _).mpr ⟨_, b64DecodeFixed_encode _ _, ?_⟩
    refine (bind_eq_ok _ _ _).mpr ⟨_, b64DecodeFixed_encode _ _, ?_⟩
    refine (bind_eq_ok _ _ _).mpr ⟨message.ciphertext, rfl, ?_⟩
    simp only [PeerSession.envelopeAad, hheader]
    rfl

variable {identity : Sec} {bundle : PreKeyBundle} {f : FirstMessage C}

/-- What `decrypt_prekey_envelope` reads from a first message, with the secret it was
made from. -/
theorem FirstMessage.From.decoded (h : f.From S identity bundle) :
    ∃ peer a ephemeral result ratchet ratchet' message aad identityKey ephemeralKey proto,
      decodeBundle S bundle = .ok peer ∧
      aliceInitiate S identity ephemeral peer = .ok result ∧
      initializeAlice S.toSuite a result.sharedSecret peer.signedPrekey = .ok ratchet ∧
      (encrypt S.toSuite f.plaintext aad).run ratchet = .ok message ratchet' ∧
      f.envelope.version = PROTOCOL_VERSION ∧
      f.envelope.header = .preKey identityKey ephemeralKey bundle.signedPrekeyId
        (peer.oneTimePrekey.map Prod.fst) proto ∧
      decodePreKey f.envelope identityKey ephemeralKey bundle.signedPrekeyId
          (peer.oneTimePrekey.map Prod.fst) proto = .ok
        ⟨message.header, S.verifyingKey identity, result.ephemeralPublic, aad,
          message.ciphertext⟩ := by
  obtain ⟨session, message, ratchet', ⟨ephemeral, a, now, hsession⟩, hmade, henvelope⟩ := h
  obtain ⟨peer, result, ratchet, hpeer, hresult, hratchet, rfl, hheader⟩ :=
    sessionFromBundle_eq_ok hsession
  refine ⟨peer, a, ephemeral, result, session.ratchet, ratchet', message, _,
    b64Encode (S.verifyingKey identity).toList, b64Encode result.ephemeralPublic.toList,
    protoHeader message.header, hpeer, hresult, hratchet, hmade, ?_, ?_, ?_⟩
  · rw [henvelope]
    rfl
  · rw [henvelope]
    exact (decodePreKey_wrap hheader _ message).1
  · rw [henvelope]
    exact (decodePreKey_wrap hheader _ message).2

/-- The key a first message is sealed under: the first of a chain from an X3DH secret. -/
theorem FirstMessage.From.key {rank : K → Nat} (hX : S.SecretsFirst rank)
    (h : f.From S identity bundle) :
    ∃ secret d header ciphertext aad, rank secret = 0 ∧
      envelopeParts f.envelope = .ok (header, ciphertext, aad) ∧
      S.aeadEncrypt (S.messageKeyAt (S.newChain secret d) 0) f.plaintext
        (authenticatedData aad header) = .ok ciphertext := by
  obtain ⟨peer, a, ephemeral, result, ratchet, ratchet', message, aad, identityKey, ephemeralKey,
    proto, -, hresult, hratchet, hmade, -, hheader, hfields⟩ := h.decoded
  refine ⟨result.sharedSecret, _, message.header, message.ciphertext, aad,
    hX _ _ (aliceInitiate_eq_ok hresult).2, ?_, (encrypt_initializeAlice hratchet hmade).2⟩
  simp only [envelopeParts, hheader, hfields]
  rfl

variable {m : Manager K Sec C}

/-- The recipient's new session, when it still has the prekeys that are named. -/
theorem createBobSession_ok (hL : S.Lawful) (hdh : S.toSuite.DhCommutes) {ephemeral : Sec}
    {spk : SignedPreKey Sec} {opk : Option (UInt32 × OneTimePreKey Sec)} {result : X3dhInitResult K}
    (hfind : (m.storedSpk.toList ++ m.previousSpks).find? (·.keyId == spk.keyId) = some spk)
    (hsigned : spk.Of S m.identity)
    (hopk : ∀ entry, opk = some entry → m.storedOpks.lookup entry.1 = some entry.2 ∧ entry.2.Made S)
    (hresult : aliceInitiate S identity ephemeral (peerBundle S m.identity spk opk) = .ok result) :
    createBobSession S m (S.verifyingKey identity) result.ephemeralPublic spk.keyId
        (opk.map Prod.fst) =
      .ok (initializeBob result.sharedSecret ⟨spk.secret, spk.publicKey⟩) := by
  have hsecret := x3dh_agreement hL hdh hsigned (fun entry he => (hopk entry he).2) hresult
  unfold createBobSession
  rw [hfind]
  dsimp only
  rw [if_pos (hL.isKey identity)]
  cases opk with
  | none => simp only [Option.map_none] at hsecret ⊢; rw [hsecret]
  | some entry =>
    simp only [Option.map_some, (hopk entry rfl).1] at hsecret ⊢
    rw [hsecret]

/-! ## A decryption that succeeds -/

theorem commitOr_ok {call : CoreState K Sec → CryptoStore K Sec C → Option (CryptoStore K Sec C)}
    {st : CryptoStore K Sec C} (h : call m.coreState m.store = some st)
    (rollback : Manager K Sec C → Manager K Sec C) (wrap : Failure → ManagerError) :
    (commitOr false call rollback wrap).run m = .ok () { m with store := st } := by
  simp only [commitOr, run_bind, run_get, storeResult, h]
  rfl

/-- An id this client has not processed. -/
structure Manager.Unseen (m : Manager K Sec C) (key : UserId × MessageId) : Prop where
  memory : m.processedMessages.lookup key = none
  store : m.store.processed.lookup key = none

/-- The store takes every call, and there is room for a marker. -/
structure DecryptEnv.Accepted (env : DecryptEnv Sec) (m : Manager K Sec C) : Prop where
  prune : env.pruneFails = false
  persist : env.persistFails = false
  room : HMap.size (pruneProcessed m.processedMessages env.now) < MAX_PROCESSED_MESSAGES

theorem markAndPersist_ok {key : UserId × MessageId} (plaintext : Bytes) {env : DecryptEnv Sec}
    (undo : Manager K Sec C → Manager K Sec C) (hnone : m.store.processed.lookup key = none)
    (hpersist : env.persistFails = false) :
    (do
      let inserted ← markProcessed key plaintext env
      persistDecrypt key plaintext env fun m => removeMarker inserted key (undo m)
      pure plaintext : ManagerM K Sec C Bytes).run m =
        .ok plaintext ((m.prunedInMemory env.pruneNow).marked key (env.row plaintext)) := by
  have hrow : ¬(m.store.processed.lookup key).isSome = true := by
    rw [hnone]
    exact Bool.false_ne_true
  simp only [markProcessed, run_bind, run_modify, run_get, run_pure]
  unfold persistDecrypt
  rw [hpersist, commitOr_ok (if_neg hrow)]
  rfl

theorem Manager.Unseen.pruned {key : UserId × MessageId} (h : m.Unseen key) (now : Nat) :
    (m.pruned now).Unseen key :=
  ⟨lookup_keepFrom_none _ h.memory, lookup_keepFrom_none _ h.store⟩

variable {plaintext : Bytes}

theorem decryptExisting_ok {m : Manager K Sec C} {peerId : UserId} {messageId : MessageId}
    {env : DecryptEnv Sec} {original : PeerSession K Sec} {header : RatchetHeader} {ciphertext : C}
    {aad plaintext : Bytes} {ratchet : SessionState K Sec} (hnew : m.Unseen (peerId, messageId))
    (hpersist : env.persistFails = false) (hsession : m.sessions.lookup peerId = some original)
    (hopen : (decrypt S.toSuite env.drawn header ciphertext aad).run original.ratchet =
      .ok plaintext ratchet) :
    ∃ m', (decryptExisting S peerId header ciphertext aad messageId env).run m =
      .ok plaintext m' := by
  simp only [decryptExisting, run_bind_ok (run_get m), hsession, hopen,
    run_bind_ok (run_modify _ m)]
  exact ⟨_, markAndPersist_ok plaintext _ hnew.store hpersist⟩

theorem decryptFirst_ok {m : Manager K Sec C} {peerId : UserId} {messageId : MessageId}
    {env : DecryptEnv Sec} {session ratchet : SessionState K Sec} {header : RatchetHeader}
    {ciphertext : C} {aad plaintext : Bytes} (opkId : Option UInt32)
    (hnone : m.store.processed.lookup (peerId, messageId) = none)
    (hpersist : env.persistFails = false)
    (hopen : (decrypt S.toSuite env.drawn header ciphertext aad).run session =
      .ok plaintext ratchet) :
    (decryptFirst S peerId session header ciphertext aad opkId messageId env).run m =
      .ok plaintext (((takeOneTimePrekey opkId
        { m with sessions := m.sessions.insert peerId ⟨ratchet, none, none⟩ }).prunedInMemory
          env.pruneNow).marked (peerId, messageId) (env.row plaintext)) := by
  simp only [decryptFirst, hopen, run_bind_ok (run_get m), run_bind_ok (run_modify _ _)]
  refine markAndPersist_ok plaintext _ ?_ hpersist
  rw [takeOneTimePrekey_eq]
  exact hnone

/-- A new message that the ratchet opens is answered with its text. -/
theorem decryptMessageToText_opens {peerId : UserId} {messageId : MessageId}
    {envelope : EncryptedEnvelope C} {env : DecryptEnv Sec} {opkId : Option UInt32}
    (hversion : envelope.version = PROTOCOL_VERSION) (hnew : m.Unseen (peerId, messageId))
    (henv : env.Accepted m) (hopens : Opens S m peerId envelope env.drawn plaintext session opkId) :
    value? ((decryptMessageToText S peerId messageId envelope env).run m) =
      some (.pending (utf8Text plaintext)) := by
  have hprune : (pruneMarkers env.now env.pruneFails).run m = .ok () (m.pruned env.now) := by
    rw [henv.prune]
    unfold pruneMarkers
    rw [run_bind_ok (commitOr_ok rfl _ _)]
    rfl
  have hroom : ¬HMap.size (m.pruned env.now).processedMessages ≥ MAX_PROCESSED_MESSAGES :=
    Nat.not_le.mpr henv.room
  have hmarker : ∃ m', (decryptWithMarker S peerId envelope messageId env).run m =
      .ok plaintext m' := by
    simp only [decryptWithMarker, hversion, ne_eq, not_true_eq_false, if_false,
      run_bind_ok hprune, run_bind_ok (run_get _), if_neg hroom]
    cases hopens with
    | existing original header ciphertext aad _ ratchet hparts hsession hopen =>
      have hexisting : ∃ m', (decryptExisting S peerId header ciphertext aad messageId env).run
          (m.pruned env.now) = .ok plaintext m' :=
        decryptExisting_ok (hnew.pruned _) henv.persist hsession hopen
      unfold envelopeParts at hparts
      cases hheader : envelope.header with
      | preKey identityKey ephemeralKey spkId named proto =>
        simp only [hheader] at hparts
        obtain ⟨fields, hfields, hparts⟩ := (bind_eq_ok _ _ _).mp hparts
        cases hparts
        have hsome : ((m.pruned env.now).sessions.lookup peerId).isSome = true := by
          rw [show (m.pruned env.now).sessions = m.sessions from rfl, hsession]
          rfl
        simp only [decryptPrekeyEnvelope, hheader, hfields, run_bind_ok (run_ofExcept_ok _ _),
          run_bind_ok (run_get _), if_pos hsome]
        exact hexisting
      | ratchet proto =>
        simp only [hheader] at hparts
        obtain ⟨_, hproto, hparts⟩ := (bind_eq_ok _ _ _).mp hparts
        obtain ⟨_, hciphertext, hparts⟩ := (bind_eq_ok _ _ _).mp hparts
        cases hparts
        simp only [decryptRatchetEnvelope, hproto, hciphertext, run_bind_ok (run_ofExcept_ok _ _)]
        exact hexisting
    | first identityKey ephemeralKey spkId _ proto fields bob ratchet _ hheader hfields hnone hbob
        hopen =>
      have hnone' : ¬((m.pruned env.now).sessions.lookup peerId).isSome = true := by
        rw [show (m.pruned env.now).sessions = m.sessions from rfl, hnone]
        exact Bool.false_ne_true
      have hbob' : createBobSession S (m.pruned env.now) fields.senderIdentityKey
          fields.senderEphemeralKey spkId opkId = .ok bob := hbob
      simp only [hheader, decryptPrekeyEnvelope, hfields, run_bind_ok (run_ofExcept_ok _ _),
        run_bind_ok (run_get _), if_neg hnone', hbob']
      exact ⟨_, decryptFirst_ok opkId (hnew.pruned _).store henv.persist hopen⟩
  obtain ⟨m', hmarker⟩ := hmarker
  simp only [decryptMessageToText, hversion, ne_eq, not_true_eq_false, if_false]
  rw [run_bind_ok (run_get m)]
  simp only [hnew.memory, hmarker]
  rfl

/-! ## Opening and refusing a first message -/

/-- The session has decrypted a message: it has a receiving chain. -/
def PeerSession.hasDecrypted (session : PeerSession K Sec) : Bool :=
  session.ratchet.receivingChainKey.isSome

/-- A decryption leaves such a session, if sessions that have received nothing hold no
skipped keys. -/
theorem Opens.hasDecrypted {m : Manager K Sec C} {peerId : UserId}
    {envelope : EncryptedEnvelope C} {drawn : Sec} {plaintext : Bytes}
    {session : PeerSession K Sec} {opkId : Option UInt32}
    (h : Opens S m peerId envelope drawn plaintext session opkId)
    (hm : ∀ original, m.sessions.lookup peerId = some original →
      original.ratchet.receivingChainKey = none → original.ratchet.skipped = ∅) :
    session.hasDecrypted = true := by
  cases h with
  | existing original header ciphertext aad _ ratchet hparts hsession hopen =>
    exact decrypt_receives (hm original hsession) hopen
  | first _ _ _ _ _ fields bob ratchet _ _ _ _ hbob hopen =>
    obtain ⟨spk, opk, secret, -, -, -, -, rfl⟩ := createBobSession_eq_ok hbob
    exact decrypt_receives (fun _ => rfl) hopen

/-- A bundle the relay may hand out for a client: its current signed prekey, and at most
one of its one-time prekeys. -/
def Manager.Publishes (S : IdentitySuite K Sec C) (m : Manager K Sec C) (bundle : PreKeyBundle) :
    Prop :=
  ∃ spk opk, m.storedSpk = some spk ∧
    (∀ entry, opk = some entry → m.storedOpks.lookup entry.1 = some entry.2) ∧
    bundle = publishedBundle S m.identity spk opk

/-- The client made its prekeys itself. -/
structure Manager.Ready (S : IdentitySuite K Sec C) (m : Manager K Sec C) : Prop where
  signed : ∀ spk, m.storedSpk = some spk → spk.Of S m.identity
  oneTime : ∀ id opk, m.storedOpks.lookup id = some opk → opk.Made S

theorem Manager.Publishes.mono {m' : Manager K Sec C} (h : m.Publishes S bundle)
    (hidentity : m'.identity = m.identity) (hspk : m'.storedSpk = m.storedSpk)
    (hopks : ∀ id opk, m.storedOpks.lookup id = some opk → m'.storedOpks.lookup id = some opk) :
    m'.Publishes S bundle := by
  obtain ⟨spk, opk, hstored, hentry, rfl⟩ := h
  refine ⟨spk, opk, hspk.trans hstored, fun entry he => hopks _ _ (hentry entry he), ?_⟩
  rw [hidentity]

/-- The recipient of a first message opens it, if it has no session with the sender. -/
theorem FirstMessage.From.opens (hL : S.Lawful) (hS : S.toSuite.KdfTotal)
    (hdh : S.toSuite.DhCommutes) (haead : S.toSuite.AeadOpens) (h : f.From S identity bundle)
    (hbundle : m.Publishes S bundle) (hready : m.Ready S) {peerId : UserId}
    (hnone : m.sessions.lookup peerId = none) (drawn : Sec) :
    f.envelope.version = PROTOCOL_VERSION ∧
      ∃ session opkId, Opens S m peerId f.envelope drawn f.plaintext session opkId := by
  obtain ⟨spk, opk, hspk, hopk, rfl⟩ := hbundle
  obtain ⟨peer, a, ephemeral, result, ratchet, ratchet', message, aad, identityKey, ephemeralKey,
    proto, hpeer, hresult, hratchet, hmade, hversion, hheader, hfields⟩ := h.decoded
  rw [decodeBundle_published hL] at hpeer
  cases hpeer
  have hids : (peerBundle S m.identity spk opk).oneTimePrekey.map Prod.fst = opk.map Prod.fst := by
    simp only [peerBundle, Option.map_map, Function.comp_def]
  rw [hids] at hheader hfields
  have hsigned := hready.signed spk hspk
  have hpublic : spk.publicKey = S.toPublic spk.secret := by rw [hsigned]; rfl
  have hfind : (m.storedSpk.toList ++ m.previousSpks).find? (·.keyId == spk.keyId) = some spk := by
    rw [hspk]
    simp
  have hbob := createBobSession_ok hL hdh hfind hsigned
    (fun entry he => ⟨hopk entry he, hready.oneTime _ _ (hopk entry he)⟩) hresult
  simp only [peerBundle] at hratchet
  rw [hpublic] at hratchet
  obtain ⟨t, hopen⟩ := decrypt_first hS hdh haead hratchet hmade drawn
  rw [← hpublic] at hopen
  exact ⟨hversion, _, _, .first identityKey ephemeralKey spk.keyId _ proto _ _ t f.plaintext
    hheader hfields hnone hbob hopen⟩

/-- A session that has received nothing does not open a first message. -/
theorem FirstMessage.From.not_opened {rank : K → Nat} (hF : S.toSuite.Free)
    (hR : S.toSuite.RootsGrow rank) (hX : S.SecretsFirst rank) (h : f.From S identity bundle)
    {s t : SessionState K Sec} (hskipped : s.skipped = ∅) (hchain : s.receivingChainKey = none)
    (hrank : 0 < rank s.rootKey) {drawn : Sec} {header : RatchetHeader} {ciphertext : C}
    {aad p : Bytes} (hparts : envelopeParts f.envelope = .ok (header, ciphertext, aad)) :
    (decrypt S.toSuite drawn header ciphertext aad).run s ≠ .ok p t := by
  obtain ⟨secret, d, _, _, _, hsecret, hparts', hsealed⟩ := h.key hX
  cases hparts.symm.trans hparts'
  exact decrypt_unstarted hF hR hskipped hchain (by omega) hsealed

/-! ## Two clients -/

/-- Two clients, the bundle each has fetched last, and the first messages each has sent. -/
structure Pair (K Sec C : Type) where
  client : Bool → Manager K Sec C
  bundle : Bool → Option PreKeyBundle
  sent : Bool → List (FirstMessage C)

def Pair.withClient (p : Pair K Sec C) (side : Bool) (m : Manager K Sec C) : Pair K Sec C :=
  { p with client := Function.update p.client side m }

/-- The first message in what `encrypt_message` returned. -/
def firstOf (messageId : MessageId) (plaintext : Bytes) :
    Option (ClientMessage C) → List (FirstMessage C)
  | some (.sendMessage _ _ envelope) =>
    if envelope.header.isPreKey then [⟨messageId, plaintext, envelope⟩] else []
  | _ => []

/-- What the two can do from `origin` on: fetch the other's bundle, make a session from
it, encrypt to the other, and be handed a first message of the other. -/
inductive PairRun (S : IdentitySuite K Sec C) (names : Bool → UserId)
    (origin : Bool → Manager K Sec C) : Pair K Sec C → Prop
  | start : PairRun S names origin ⟨origin, fun _ => none, fun _ => []⟩
  | fetch {p : Pair K Sec C} (run : PairRun S names origin p) (side : Bool) (bundle : PreKeyBundle)
      (hbundle : (p.client (!side)).Publishes S bundle) :
      PairRun S names origin { p with bundle := Function.update p.bundle side (some bundle) }
  | initSession {p : Pair K Sec C} (run : PairRun S names origin p) (side : Bool)
      (bundle : PreKeyBundle) (hbundle : p.bundle side = some bundle) (ephemeral drawn : Sec)
      (now : Nat) (fails : Bool) :
      PairRun S names origin (p.withClient side (finalState
        ((initSessionFromBundle S (names (!side)) bundle ephemeral drawn now fails).run
          (p.client side))))
  | send {p : Pair K Sec C} (run : PairRun S names origin p) (side : Bool) (messageId : MessageId)
      (plaintext : Bytes) (fails : Bool)
      (result : EStateM.Result ManagerError (Manager K Sec C) (ClientMessage C))
      (hresult : (encryptMessage S (names (!side)) (names (!side)) messageId plaintext fails).run
        (p.client side) = result) :
      PairRun S names origin
        { p.withClient side (finalState result) with
          sent := Function.update p.sent side
            (p.sent side ++ firstOf messageId plaintext (value? result)) }
  | deliver {p : Pair K Sec C} (run : PairRun S names origin p) (side : Bool) (f : FirstMessage C)
      (hf : f ∈ p.sent (!side)) (env : DecryptEnv Sec) :
      PairRun S names origin (p.withClient side (finalState
        ((decryptMessageToText S (names (!side)) f.messageId f.envelope env).run (p.client side))))

section Invariant

variable (S) (rank : K → Nat)

/-- A client and its session with the peer, against the client it started as. -/
structure Since (peerId : UserId) (origin peer m : Manager K Sec C) : Prop where
  identity : m.identity = origin.identity
  storedSpk : m.storedSpk = origin.storedSpk
  kept : ∀ id opk, m.storedOpks.lookup id = some opk → origin.storedOpks.lookup id = some opk
  untouched : m.sessions.lookup peerId = none → m.storedOpks = origin.storedOpks
  initiated : ∀ session, m.sessions.lookup peerId = some session → session.prekeyHeader.isSome →
    ∃ bundle, peer.Publishes S bundle ∧ MadeFrom S origin.identity bundle session
  unstarted : ∀ session, m.sessions.lookup peerId = some session →
    session.ratchet.receivingChainKey = none →
      session.ratchet.skipped = ∅ ∧ 0 < rank session.ratchet.rootKey

structure Pair.Invariant (names : Bool → UserId) (origin : Bool → Manager K Sec C)
    (p : Pair K Sec C) : Prop where
  client : ∀ side, Since S rank (names (!side)) (origin side) (origin (!side)) (p.client side)
  bundle : ∀ side bundle, p.bundle side = some bundle → (origin (!side)).Publishes S bundle
  sent : ∀ side, ∀ f ∈ p.sent side, ∃ bundle, (origin (!side)).Publishes S bundle ∧
    f.From S (origin side).identity bundle

end Invariant

variable {rank : K → Nat} {peerId : UserId} {origin peer m m' : Manager K Sec C}

theorem MadeFrom.unstarted (hR : S.toSuite.RootsGrow rank)
    (h : MadeFrom S identity bundle session) :
    session.ratchet.skipped = ∅ ∧ session.ratchet.receivingChainKey = none ∧
      0 < rank session.ratchet.rootKey := by
  obtain ⟨ephemeral, drawn, now, hsession⟩ := h
  obtain ⟨_, result, ratchet, -, hresult, hratchet, rfl, -⟩ := sessionFromBundle_eq_ok hsession
  obtain ⟨hskipped, hchain, hrank⟩ := initializeAlice_unstarted hR hratchet
  exact ⟨hskipped, hchain, Nat.zero_lt_of_lt hrank⟩

/-- The same client, with another session with the peer. -/
theorem Since.renew (h : Since S rank peerId origin peer m) {session : PeerSession K Sec}
    (hidentity : m'.identity = m.identity) (hspk : m'.storedSpk = m.storedSpk)
    (hopks : ∀ id opk, m'.storedOpks.lookup id = some opk → m.storedOpks.lookup id = some opk)
    (hsessions : m'.sessions = m.sessions.insert peerId session)
    (hinitiated : session.prekeyHeader.isSome →
      ∃ bundle, peer.Publishes S bundle ∧ MadeFrom S origin.identity bundle session)
    (hunstarted : session.ratchet.receivingChainKey = none →
      session.ratchet.skipped = ∅ ∧ 0 < rank session.ratchet.rootKey) :
    Since S rank peerId origin peer m' := by
  have hlookup : m'.sessions.lookup peerId = some session := by
    rw [hsessions]
    exact Finmap.lookup_insert _
  refine ⟨hidentity.trans h.identity, hspk.trans h.storedSpk,
    fun id opk ho => h.kept id opk (hopks id opk ho), fun hnone => ?_, fun s hs => ?_,
    fun s hs => ?_⟩
  · cases hnone.symm.trans hlookup
  · cases hs.symm.trans hlookup
    exact hinitiated
  · cases hs.symm.trans hlookup
    exact hunstarted

theorem Since.initSession (hR : S.toSuite.RootsGrow rank) (h : Since S rank peerId origin peer m)
    (hbundle : peer.Publishes S bundle) (ephemeral drawn : Sec) (now : Nat) (fails : Bool) :
    Since S rank peerId origin peer (finalState
      ((initSessionFromBundle S peerId bundle ephemeral drawn now fails).run m)) := by
  rcases initSessionFromBundle_cases S peerId bundle ephemeral drawn now fails m with
    ⟨e, hrun⟩ | ⟨session, hsession, hrun⟩
  · rw [hrun]
    exact h
  · rw [hrun]
    rw [h.identity] at hsession
    have hmade : MadeFrom S origin.identity bundle session := ⟨_, _, _, hsession⟩
    obtain ⟨hskipped, -, hrank⟩ := hmade.unstarted hR
    exact h.renew rfl rfl (fun _ _ => id) rfl (fun _ => ⟨bundle, hbundle, hmade⟩)
      fun _ => ⟨hskipped, hrank⟩

theorem Since.send (h : Since S rank peerId origin peer m) {messageId : MessageId}
    {result : EStateM.Result ManagerError (Manager K Sec C) (ClientMessage C)}
    (hresult : EncryptResult S m peerId plaintext (.message peerId messageId) result) :
    Since S rank peerId origin peer (finalState result) ∧
      ∀ f ∈ firstOf messageId plaintext (value? result), ∃ bundle, peer.Publishes S bundle ∧
        f.From S origin.identity bundle := by
  cases hresult with
  | failed e => exact ⟨h, fun f hf => by cases hf⟩
  | filed original message ratchet hsession hmade hnew =>
    refine ⟨h.renew rfl rfl (fun _ _ => id) rfl (fun hheader => by cases hheader)
      fun hchain => ?_, fun f hf => ?_⟩
    · -- encryption changes neither the root key nor what was received
      obtain ⟨-, _, _, -, -, -, -, rfl⟩ := (encrypt_eq_ok _ _ _ _ _ _).mp hmade
      exact h.unstarted original hsession hchain
    · simp only [value?, PendingOutbound.toClientMessage, firstOf] at hf
      split at hf
      · next hheader =>
        cases List.mem_singleton.mp hf
        have hsome : original.prekeyHeader.isSome := by
          unfold PeerSession.wrap at hheader
          cases hnone : original.prekeyHeader with
          | some _ => rfl
          | none =>
            rw [hnone] at hheader
            cases hheader
        obtain ⟨bundle, hbundle, hfrom⟩ := h.initiated original hsession hsome
        rw [h.identity] at hmade ⊢
        exact ⟨bundle, hbundle, original, message, ratchet, hfrom, hmade, rfl⟩
      · cases hf

theorem Since.deliver (hF : S.toSuite.Free) (hR : S.toSuite.RootsGrow rank)
    (hX : S.SecretsFirst rank) (h : Since S rank peerId origin peer m)
    (hfrom : f.From S identity bundle) (env : DecryptEnv Sec) :
    Since S rank peerId origin peer (finalState
      ((decryptMessageToText S peerId f.messageId f.envelope env).run m)) := by
  obtain ⟨answer, m', hrun, hresult⟩ := decryptMessageToText_result S peerId f.messageId f.envelope
    env m
  rw [hrun]
  cases hresult with
  | failed | known => exact h
  | pruned | unsaved =>
    exact ⟨h.identity, h.storedSpk, h.kept, h.untouched, h.initiated, h.unstarted⟩
  | decrypted plaintext session opkId hopens hnew hrow =>
    have hchain := hopens.hasDecrypted fun original hsession hnone =>
      (h.unstarted original hsession hnone).1
    unfold PeerSession.hasDecrypted at hchain
    have hheader : session.prekeyHeader = none := by
      cases hopens with
      | existing original header ciphertext aad _ ratchet hparts hsession hopen =>
        refine Option.not_isSome_iff_eq_none.mp fun hheader => ?_
        obtain ⟨_, -, hmade⟩ := h.initiated original hsession hheader
        obtain ⟨hskipped, hnone, hrank⟩ := hmade.unstarted hR
        exact hfrom.not_opened hF hR hX hskipped hnone hrank hparts hopen
      | first => rfl
    simp only [finalState, Manager.opened, takeOneTimePrekey_eq]
    refine h.renew rfl rfl (fun _ _ => lookup_of_takenOpks) rfl (fun hsome => ?_) fun hnone => ?_
    · rw [hheader] at hsome
      cases hsome
    · rw [hnone] at hchain
      cases hchain

theorem Since.ready (h : Since S rank peerId origin peer m) (hready : origin.Ready S) :
    m.Ready S where
  signed spk hspk := by
    rw [h.identity]
    exact hready.signed spk (h.storedSpk ▸ hspk)
  oneTime id opk hopk := hready.oneTime id opk (h.kept id opk hopk)

section Runs

variable {names : Bool → UserId} {start : Bool → Manager K Sec C} {p : Pair K Sec C}

theorem Pair.Invariant.withClient (h : p.Invariant S rank names start) {side : Bool}
    (hm : Since S rank (names (!side)) (start side) (start (!side)) m) :
    (p.withClient side m).Invariant S rank names start := by
  refine ⟨?_, h.bundle, h.sent⟩
  exact (Function.forall_update_iff p.client
    fun side m => Since S rank (names (!side)) (start side) (start (!side)) m).mpr
      ⟨hm, fun side' _ => h.client side'⟩

theorem PairRun.invariant (hF : S.toSuite.Free) (hR : S.toSuite.RootsGrow rank)
    (hX : S.SecretsFirst rank) (hnone : ∀ side, (start side).sessions.lookup (names (!side)) = none)
    (run : PairRun S names start p) : p.Invariant S rank names start := by
  induction run with
  | start =>
    refine ⟨fun side => ⟨rfl, rfl, fun _ _ => id, fun _ => rfl, fun session hs => ?_,
      fun session hs => ?_⟩, fun side bundle h => (by cases h), fun side f hf => (by cases hf)⟩
    · cases (hnone side).symm.trans hs
    · cases (hnone side).symm.trans hs
  | @fetch p run side bundle hbundle ih =>
    have hpeer := ih.client (!side)
    refine ⟨ih.client, ?_, ih.sent⟩
    refine (Function.forall_update_iff p.bundle fun side fetched => ∀ bundle,
      fetched = some bundle → (start (!side)).Publishes S bundle).mpr
        ⟨?_, fun side' _ => ih.bundle side'⟩
    rintro _ ⟨⟩
    exact hbundle.mono hpeer.identity.symm hpeer.storedSpk.symm hpeer.kept
  | initSession run side bundle hbundle ephemeral drawn now fails ih =>
    exact ih.withClient
      ((ih.client side).initSession hR (ih.bundle side bundle hbundle) ephemeral drawn now fails)
  | @send p run side messageId plaintext fails result hresult ih =>
    have hsent := encryptMessage_result S (names (!side)) (names (!side)) messageId plaintext fails
      (p.client side)
    rw [hresult] at hsent
    obtain ⟨hclient, hfirst⟩ := (ih.client side).send hsent
    refine ⟨(ih.withClient hclient).client, ih.bundle, ?_⟩
    refine (Function.forall_update_iff p.sent fun side sent => ∀ f ∈ sent, ∃ bundle,
      (start (!side)).Publishes S bundle ∧ f.From S (start side).identity bundle).mpr
        ⟨fun f hf => ?_, fun side' _ => ih.sent side'⟩
    exact (List.mem_append.mp hf).elim (ih.sent side f) (hfirst f)
  | deliver run side f hf env ih =>
    obtain ⟨bundle, -, hfrom⟩ := ih.sent (!side) f hf
    exact ih.withClient ((ih.client side).deliver hF hR hX hfrom env)

/-- A first message that reaches a client which has initiated a session itself is not
decrypted. -/
theorem first_message_refused (hF : S.toSuite.Free) (hR : S.toSuite.RootsGrow rank)
    (hX : S.SecretsFirst rank) (hnone : ∀ side, (start side).sessions.lookup (names (!side)) = none)
    (run : PairRun S names start p) (side : Bool) (hf : f ∈ p.sent (!side))
    (hsession : (p.client side).sessions.lookup (names (!side)) = some session)
    (hchain : session.ratchet.receivingChainKey = none) (env : DecryptEnv Sec)
    (hnew : (p.client side).processedMessages.lookup (names (!side), f.messageId) = none) :
    value? ((decryptMessageToText S (names (!side)) f.messageId f.envelope env).run
      (p.client side)) = some .failed := by
  have hinv := run.invariant hF hR hX hnone
  obtain ⟨bundle, -, hfrom⟩ := hinv.sent (!side) f hf
  obtain ⟨hskipped, hrank⟩ := (hinv.client side).unstarted session hsession hchain
  have hrefused : ∀ drawn plaintext after opkId,
      ¬Opens S (p.client side) (names (!side)) f.envelope drawn plaintext after opkId := by
    intro drawn plaintext after opkId hopens
    cases hopens with
    | existing original header ciphertext aad _ ratchet hparts hfound hopen =>
      cases hsession.symm.trans hfound
      exact hfrom.not_opened hF hR hX hskipped hchain hrank hparts hopen
    | first _ _ _ _ _ _ _ _ _ _ _ habsent => cases hsession.symm.trans habsent
  obtain ⟨answer, m', hrun, hresult⟩ := decryptMessageToText_result S (names (!side)) f.messageId
    f.envelope env (p.client side)
  rw [hrun]
  cases hresult with
  | failed => rfl
  | known processed hmarker => cases hnew.symm.trans hmarker
  | pruned => rfl
  | unsaved plaintext after opkId hopens | decrypted plaintext after opkId hopens =>
    exact absurd hopens (hrefused _ _ _ _)

/-- **First messages are opened.** In every interleaving of fetches, session setups,
sends and deliveries of two clients that start without a session with each other, a
first message that reaches a client without a session with its sender is decrypted to
what was sent. -/
theorem first_message_opened (hL : S.Lawful) (hS : S.toSuite.KdfTotal)
    (hdh : S.toSuite.DhCommutes) (haead : S.toSuite.AeadOpens) (hF : S.toSuite.Free)
    (hR : S.toSuite.RootsGrow rank) (hX : S.SecretsFirst rank)
    (hready : ∀ side, (start side).Ready S)
    (hnone : ∀ side, (start side).sessions.lookup (names (!side)) = none)
    (run : PairRun S names start p) (side : Bool) {f : FirstMessage C} (hf : f ∈ p.sent (!side))
    (hsession : (p.client side).sessions.lookup (names (!side)) = none) {env : DecryptEnv Sec}
    (hnew : (p.client side).Unseen (names (!side), f.messageId))
    (henv : env.Accepted (p.client side)) :
    value? ((decryptMessageToText S (names (!side)) f.messageId f.envelope env).run
      (p.client side)) = some (.pending (utf8Text f.plaintext)) := by
  have hinv := run.invariant hF hR hX hnone
  have hclient := hinv.client side
  obtain ⟨bundle, hbundle, hfrom⟩ := hinv.sent (!side) f hf
  rw [Bool.not_not] at hbundle
  -- without a session no one-time prekey has been taken
  have hpublishes : (p.client side).Publishes S bundle :=
    hbundle.mono hclient.identity hclient.storedSpk fun id opk hopk => by
      rw [hclient.untouched hsession]
      exact hopk
  obtain ⟨hversion, after, opkId, hopens⟩ := hfrom.opens hL hS hdh haead hpublishes
    (hclient.ready (hready side)) hsession env.drawn
  exact decryptMessageToText_opens hversion hnew henv hopens

end Runs

/-! ## Alice and Bob -/

def contactName (side : Bool) : UserId := if side then alice else bob

def contactIdentity (side : Bool) : Key32 := key32 (if side then 1 else 9)

/-- A signed prekey, and one one-time prekey under id 7. -/
def contactSpk (side : Bool) : SignedPreKey Key32 :=
  SignedPreKey.generate symbolicIdentity 1 (contactIdentity side) (key32 (if side then 4 else 8))

def contactOpk (side : Bool) : OneTimePreKey Key32 :=
  OneTimePreKey.generate symbolicIdentity (key32 (if side then 5 else 6))

/-- Both have registered, and neither has a session. -/
def contactStart (side : Bool) : Manager Term Key32 Ciphertext :=
  registrationKeys (contactSpk side) [(7, contactOpk side)] 100 100
    (newManager (contactIdentity side))

def contactBundle (side : Bool) : PreKeyBundle :=
  publishedBundle symbolicIdentity (contactIdentity side) (contactSpk side)
    (some (7, contactOpk side))

theorem contactStart_ready (side : Bool) : (contactStart side).Ready symbolicIdentity := by
  refine ⟨fun spk hspk => ?_, fun id opk hopk => ?_⟩
  · cases hspk
    rfl
  · have hstored : (contactStart side).storedOpks =
        (∅ : HMap UInt32 (OneTimePreKey Key32)).insert 7 (contactOpk side) := rfl
    rw [hstored, HMap.lookup_insert_eq] at hopk
    split at hopk
    · cases hopk
      rfl
    · cases hopk

theorem contactStart_publishes (side : Bool) :
    (contactStart side).Publishes symbolicIdentity (contactBundle side) :=
  ⟨contactSpk side, some (7, contactOpk side), rfl, fun _ he => by cases he; rfl, rfl⟩

theorem contactStart_alone (side : Bool) :
    (contactStart side).sessions.lookup (contactName (!side)) = none := rfl

def contactEnv : DecryptEnv Key32 := ⟨200, 200, 200, key32 7, false, false⟩

set_option maxRecDepth 4000 in
theorem first_message_opened_bob :
    ∃ p f, PairRun symbolicIdentity contactName contactStart p ∧ p.sent true = [f] ∧
      f.plaintext = [104] ∧
      value? ((decryptMessageToText symbolicIdentity alice f.messageId f.envelope contactEnv).run
        (p.client false)) = some (.pending (utf8Text f.plaintext)) := by
  have fetched : PairRun symbolicIdentity contactName contactStart _ :=
    .fetch .start true _ (contactStart_publishes false)
  have initiated := PairRun.initSession fetched true _ rfl (key32 2) (key32 3) 0 false
  have sent := PairRun.send initiated true ⟨1⟩ [104] false _ rfl
  exact ⟨_, _, sent, rfl, rfl, first_message_opened symbolicIdentity_lawful symbolic_kdfTotal
    symbolic_dhCommutes symbolic_aeadOpens symbolic_free symbolic_rootsGrow
    symbolicIdentity_secretsFirst contactStart_ready contactStart_alone sent false
    (List.mem_singleton.mpr rfl) rfl ⟨rfl, rfl⟩ ⟨rfl, rfl, by decide⟩⟩

set_option maxRecDepth 4000 in
/-- When both have initiated, Alice's first message fails at Bob. -/
theorem both_initiated_not_opened :
    (∀ side, (contactStart side).Ready symbolicIdentity ∧
      (contactStart side).sessions.lookup (contactName (!side)) = none) ∧
    ∃ p f, PairRun symbolicIdentity contactName contactStart p ∧ p.sent true = [f] ∧
      (p.client false).Unseen (alice, f.messageId) ∧ contactEnv.Accepted (p.client false) ∧
      value? ((decryptMessageToText symbolicIdentity alice f.messageId f.envelope contactEnv).run
        (p.client false)) = some .failed := by
  refine ⟨fun side => ⟨contactStart_ready side, contactStart_alone side⟩, ?_⟩
  have fetched : PairRun symbolicIdentity contactName contactStart _ :=
    .fetch (.fetch .start true _ (contactStart_publishes false)) false _
      (contactStart_publishes true)
  have initiated :=
    PairRun.initSession (.initSession fetched true _ rfl (key32 2) (key32 3) 0 false)
    false _ rfl (key32 12) (key32 13) 0 false
  exact ⟨_, _, .send initiated true ⟨1⟩ [104] false _ rfl, rfl, ⟨rfl, rfl⟩,
    ⟨rfl, rfl, by decide⟩, rfl⟩

set_option maxRecDepth 4000 in
theorem first_message_refused_bob :
    ∃ p f, PairRun symbolicIdentity contactName contactStart p ∧ p.sent true = [f] ∧
      value? ((decryptMessageToText symbolicIdentity alice f.messageId f.envelope contactEnv).run
        (p.client false)) = some .failed := by
  have fetched : PairRun symbolicIdentity contactName contactStart _ :=
    .fetch (.fetch .start true _ (contactStart_publishes false)) false _
      (contactStart_publishes true)
  have initiated :=
    PairRun.initSession (.initSession fetched true _ rfl (key32 2) (key32 3) 0 false)
    false _ rfl (key32 12) (key32 13) 0 false
  have sent := PairRun.send initiated true ⟨1⟩ [104] false _ rfl
  exact ⟨_, _, sent, rfl, first_message_refused symbolic_free symbolic_rootsGrow
    symbolicIdentity_secretsFirst contactStart_alone sent false (List.mem_singleton.mpr rfl) rfl rfl
    contactEnv rfl⟩

end Cmp.Client
