import Cmp.Client.FirstContact
import Cmp.Client.KeyIds
import Cmp.Crypto.Delivery

/-! The first message between two clients, from the bundle to the sessions it leaves. The
bundle may be an old one: any signed prekey the recipient still keeps will do. -/

namespace Cmp.Client

open Cmp.Crypto Cmp.Protocol Cmp.Lib Cmp.Lib.Action

variable {K Sec C : Type} {S : IdentitySuite K Sec C}

/-- Ids tell the signed prekeys apart, so the lookup finds the one that is named. -/
theorem SignedOrder.find {m : Manager K Sec C} (h : SignedOrder m) {spk : SignedPreKey Sec}
    (hmem : spk ∈ m.spks) :
    (m.storedSpk.toList ++ m.previousSpks).find? (·.keyId == spk.keyId) = some spk := by
  have hnodup : (m.spks.map (·.keyId)).Nodup := h.decreasing.imp fun hlt => ne_of_gt hlt
  cases hfind : (m.storedSpk.toList ++ m.previousSpks).find? (·.keyId == spk.keyId) with
  | none =>
    have habsent := List.find?_eq_none.mp hfind spk hmem
    exact absurd (beq_self_eq_true _) habsent
  | some found =>
    have hbeq : (found.keyId == spk.keyId) = true := by
      exact List.find?_some (p := fun x : SignedPreKey Sec => x.keyId == spk.keyId) hfind
    have hid : found.keyId = spk.keyId := beq_iff_eq.mp hbeq
    rw [List.inj_on_of_nodup_map hnodup (List.mem_of_find?_eq_some hfind) hmem hid]

/-- What `init_session_from_bundle` leaves for a published bundle. -/
theorem initSessionFromBundle_published (hL : S.Lawful) (hS : S.toSuite.KdfTotal)
    (A : Manager K Sec C) (peerId : UserId) {bobIdentity : Sec} {spk : SignedPreKey Sec}
    (hspk : spk.Of S bobIdentity) (opk : Option (UInt32 × OneTimePreKey Sec))
    (ephemeral drawn : Sec) (now : Nat) :
    ∃ result session,
      aliceInitiate S A.identity ephemeral (peerBundle S bobIdentity spk opk) = .ok result ∧
      initializeAlice S.toSuite drawn result.sharedSecret (S.toPublic spk.secret) =
        .ok session.ratchet ∧
      session.prekeyHeader = some ⟨result.ephemeralPublic, spk.keyId, opk.map Prod.fst⟩ ∧
      (initSessionFromBundle S peerId (publishedBundle S bobIdentity spk opk) ephemeral drawn now
        false).run A = .ok () (Manager.saved
          { A with
            sessions := A.sessions.insert peerId session
            pendingInits := A.pendingInits.erase peerId }) := by
  obtain ⟨result, hresult⟩ := aliceInitiate_ok hL A.identity ephemeral bobIdentity hspk opk
  have hpublic : spk.publicKey = S.toPublic spk.secret := by rw [hspk]; rfl
  obtain ⟨rootKeys, hkdf⟩ := hS.1 result.sharedSecret (S.diffieHellman drawn spk.publicKey)
  obtain ⟨ratchet, hratchet⟩ : ∃ ratchet, initializeAlice S.toSuite drawn result.sharedSecret
      spk.publicKey = .ok ratchet := by
    simp only [initializeAlice, kdfRk, RatchetKeyPair.generate, hkdf]
    exact ⟨_, rfl⟩
  have hids : (peerBundle S bobIdentity spk opk).oneTimePrekey.map Prod.fst = opk.map Prod.fst := by
    simp only [peerBundle, Option.map_map, Function.comp_def]
  let session : PeerSession K Sec := ⟨ratchet,
    some ⟨result.ephemeralPublic, spk.keyId, opk.map Prod.fst⟩,
    some (min (now + ONE_TIME_PREKEY_RESERVATION_SECS) (2 ^ 64 - 1))⟩
  have hsession : sessionFromBundle S A.identity ephemeral drawn now
      (publishedBundle S bobIdentity spk opk) = .ok session := by
    unfold sessionFromBundle
    refine (bind_eq_ok _ _ _).mpr ⟨_, decodeBundle_published hL bobIdentity spk opk, ?_⟩
    rw [hresult]
    dsimp only
    rw [show (peerBundle S bobIdentity spk opk).signedPrekey = spk.publicKey from rfl,
      hratchet, hids]
    rfl
  refine ⟨result, session, hresult, hpublic ▸ hratchet, rfl, ?_⟩
  simp only [initSessionFromBundle, run_bind, run_get, hsession, run_ofExcept_ok, run_modify]
  rw [commitOr_ok rfl]
  rfl

/-- What the recipient's decryption of a first message leaves. -/
structure Received (B B' : Manager K Sec C) (peerId : UserId) (ratchet : SessionState K Sec)
    (opk : Option (UInt32 × OneTimePreKey Sec)) : Prop where
  session : B'.sessions.lookup peerId = some ⟨ratchet, none, none⟩
  others : ∀ other, other ≠ peerId → B'.sessions.lookup other = B.sessions.lookup other
  oneTime : B'.storedOpks = opk.elim B.storedOpks fun entry => B.storedOpks.erase entry.1
  created : B'.oneTimePrekeyCreatedAt =
    opk.elim B.oneTimePrekeyCreatedAt fun entry => B.oneTimePrekeyCreatedAt.erase entry.1

theorem received_marked {B : Manager K Sec C} {peerId : UserId} {ratchet : SessionState K Sec}
    {opk : Option (UInt32 × OneTimePreKey Sec)}
    (hopk : ∀ entry, opk = some entry → B.storedOpks.lookup entry.1 = some entry.2)
    (pruneNow : Nat) (key : UserId × MessageId) (row : ProcessedMessage) :
    Received B (((takeOneTimePrekey (opk.map Prod.fst)
      { B with sessions := B.sessions.insert peerId ⟨ratchet, none, none⟩ }).prunedInMemory
        pruneNow).marked key row) peerId ratchet opk := by
  rw [takeOneTimePrekey_eq]
  refine ⟨?_, fun other hother => ?_, ?_, ?_⟩
  · exact Finmap.lookup_insert _
  · exact Finmap.lookup_insert_of_ne _ hother
  · cases opk <;> rfl
  · cases opk with
    | none => rfl
    | some entry =>
      simp only [Manager.marked, Manager.prunedInMemory, takenCreated, Option.map_some,
        Option.elim_some, hopk entry rfl, Option.isSome_some, if_true]

/-- The recipient's side: without a session, a first message goes through `create_bob_session`. -/
theorem decryptPrekeyEnvelope_wrap {B : Manager K Sec C} {peerId : UserId}
    {session : PeerSession K Sec} {x3dhData : StoredX3dhResult} {identityPublic : Key32}
    {message : RatchetMessage C} {messageId : MessageId} {env : DecryptEnv Sec}
    {fresh ratchet : SessionState K Sec} {plaintext : Bytes}
    (hheader : session.prekeyHeader = some x3dhData) (hnone : B.sessions.lookup peerId = none)
    (hbob : createBobSession S B identityPublic x3dhData.ephemeralPublic
      x3dhData.recipientSignedPrekeyId x3dhData.recipientOneTimePrekeyId = .ok fresh)
    (hrow : B.store.processed.lookup (peerId, messageId) = none)
    (hpersist : env.persistFails = false)
    (hopen : (decrypt S.toSuite env.drawn message.header message.ciphertext
      (session.envelopeAad identityPublic)).run fresh = .ok plaintext ratchet) :
    (decryptPrekeyEnvelope S peerId (session.wrap S identityPublic message) messageId env).run B =
      .ok plaintext (((takeOneTimePrekey x3dhData.recipientOneTimePrekeyId
        { B with sessions := B.sessions.insert peerId ⟨ratchet, none, none⟩ }).prunedInMemory
          env.pruneNow).marked (peerId, messageId) (env.row plaintext)) := by
  obtain ⟨hprekey, hfields⟩ := decodePreKey_wrap (S := S) hheader identityPublic message
  have habsent : ¬(B.sessions.lookup peerId).isSome = true := by
    rw [hnone]
    exact Bool.false_ne_true
  unfold decryptPrekeyEnvelope
  rw [hprekey]
  dsimp only
  rw [hfields]
  simp only [run_bind_ok (run_ofExcept_ok _ _), run_bind_ok (run_get _), if_neg habsent, hbob]
  exact decryptFirst_ok _ hrow hpersist hopen

/-- The two functions that encrypt: the plaintext and the id of what each of them files. -/
inductive Encryption (S : IdentitySuite K Sec C) (texts : List MessageId → Bytes)
    (peerId recipientId : UserId) :
    Bytes → MessageId → ManagerM K Sec C (ClientMessage C) → Prop
  | message (messageId : MessageId) (plaintext : Bytes) (fails : Bool) :
      Encryption S texts peerId recipientId plaintext messageId
        (encryptMessage S peerId recipientId messageId plaintext fails)
  | readReceipt (messageIds : List MessageId) (receiptId : MessageId) (fails : Bool) :
      Encryption S texts peerId recipientId (receiptPlaintext texts messageIds) receiptId
        (encryptReadReceipt S texts peerId recipientId messageIds receiptId fails)

/-- A successful encryption used the session with the peer and sent what that session sealed. -/
theorem Encryption.sealed {texts : List MessageId → Bytes} {peerId recipientId : UserId}
    {plaintext : Bytes} {messageId : MessageId} {action : ManagerM K Sec C (ClientMessage C)}
    (h : Encryption S texts peerId recipientId plaintext messageId action)
    {m m' : Manager K Sec C} {sent : ClientMessage C} (hrun : action.run m = .ok sent m') :
    ∃ original message ratchet, m.sessions.lookup peerId = some original ∧
      (encrypt S.toSuite plaintext (original.envelopeAad (S.verifyingKey m.identity))).run
        original.ratchet = .ok message ratchet ∧
      sealedTo sent = some (recipientId, original.wrap S (S.verifyingKey m.identity) message) ∧
      m'.sessions = m.sessions.insert peerId (original.used ratchet) := by
  have close : ∀ {item : EncryptedEnvelope C → PendingOutbound C},
      (∀ envelope, sealedTo (item envelope).toClientMessage = some (recipientId, envelope)) →
      EncryptResult S m peerId plaintext item (action.run m) →
      ∃ original message ratchet, m.sessions.lookup peerId = some original ∧
        (encrypt S.toSuite plaintext (original.envelopeAad (S.verifyingKey m.identity))).run
          original.ratchet = .ok message ratchet ∧
        sealedTo sent = some (recipientId, original.wrap S (S.verifyingKey m.identity) message) ∧
        m'.sessions = m.sessions.insert peerId (original.used ratchet) := by
    intro item hitem hresult
    rw [hrun] at hresult
    cases hresult with
    | filed original message ratchet hsession hmade _ =>
      exact ⟨original, message, ratchet, hsession, hmade, hitem _, rfl⟩
  cases h with
  | message messageId plaintext fails =>
    exact close (fun _ => rfl)
      (encryptMessage_result S peerId recipientId messageId plaintext fails m)
  | readReceipt messageIds _ fails =>
    exact close (fun _ => rfl)
      (encryptReadReceipt_result S texts peerId recipientId messageIds messageId fails m)

/-- **First-message round trip.** Alice makes a session from a bundle of Bob and encrypts once;
Bob, who has no session with Alice, decrypts the envelope to the plaintext, gives up the one-time
prekey that it names and nothing else, and both sessions deliver from then on. -/
theorem first_message_round_trip (hL : S.Lawful) (hS : S.toSuite.KdfTotal)
    (hdh : S.toSuite.DhCommutes) (haead : S.toSuite.AeadOpens) {texts : List MessageId → Bytes}
    {B : KeyTrace K Sec C} {n : Nat} (run : KeyRun S texts B n) (A : Manager K Sec C)
    (aliceId bobId recipientId : UserId) (hnone : B.manager.sessions.lookup aliceId = none)
    (spk : SignedPreKey Sec) (hspk : spk ∈ B.manager.storedSpk.toList ++ B.manager.previousSpks)
    (opk : Option (UInt32 × OneTimePreKey Sec))
    (hopk : ∀ entry, opk = some entry → B.manager.storedOpks.lookup entry.1 = some entry.2)
    (ephemeral drawn : Sec) (now : Nat) :
    ∃ A₁, (initSessionFromBundle S bobId (publishedBundle S B.manager.identity spk opk) ephemeral
        drawn now false).run A = .ok () A₁ ∧
      ∀ messageId plaintext action message A₂,
        Encryption S texts bobId recipientId plaintext messageId action →
        action.run A₁ = .ok message A₂ →
      ∃ envelope alice, sealedTo message = some (recipientId, envelope) ∧
        envelope.header.isPreKey = true ∧ A₂.sessions.lookup bobId = some alice ∧
        ∀ env : DecryptEnv Sec, env.persistFails = false →
          B.manager.store.processed.lookup (aliceId, messageId) = none →
        ∃ B' bob, (decryptPrekeyEnvelope S aliceId envelope messageId env).run B.manager =
            .ok plaintext B' ∧
          Received B.manager B' aliceId bob opk ∧
          (S.toPublic drawn ≠ S.toPublic spk.secret →
            S.toPublic env.drawn ∉ [S.toPublic drawn, S.toPublic spk.secret] →
            ∃ ss first m, A₁.sessions.lookup bobId = some first ∧
              initializeAlice S.toSuite drawn ss (S.toPublic spk.secret) = .ok first.ratchet ∧
              envelope = first.wrap S (S.verifyingKey A.identity) m ∧
              let aad := first.envelopeAad (S.verifyingKey A.identity)
              let w := Exchange.afterFirst S.toSuite drawn spk.secret env.drawn ss first.ratchet
                plaintext aad m
              w.session .alice = alice.ratchet ∧ w.session .bob = bob ∧
                w.sent = [⟨.alice, plaintext, aad, m⟩] ∧
                w.opened = [⟨.bob, m.header, aad, plaintext⟩] ∧ Delivering S.toSuite w) := by
  obtain ⟨-, hkeys⟩ := run.keyring
  have hsigned := hkeys.signed spk hspk
  have hpublic : spk.publicKey = S.toPublic spk.secret := by rw [hsigned]; rfl
  obtain ⟨result, session, hresult, hratchet, hheader, hinit⟩ :=
    initSessionFromBundle_published hL hS A bobId hsigned opk ephemeral drawn now
  refine ⟨_, hinit, fun messageId plaintext action message A₂ hencryption hrun => ?_⟩
  obtain ⟨original, ratchetMessage, ratchet, hsession, hmade, hsealed, hsessions⟩ :=
    hencryption.sealed hrun
  -- the session that encrypts is the one just made
  cases (Finmap.lookup_insert A.sessions).symm.trans hsession
  obtain ⟨hprekey, -⟩ :=
    decodePreKey_wrap (S := S) hheader (S.verifyingKey A.identity) ratchetMessage
  refine ⟨_, session.used ratchet, hsealed, congrArg MessageHeader.isPreKey hprekey, ?_,
    fun env hpersist hrow => ?_⟩
  · rw [hsessions]
    exact Finmap.lookup_insert _
  have hbob := createBobSession_ok hL hdh (hkeys.toSignedOrder.find hspk) hsigned
    (fun entry he => ⟨hopk entry he, hkeys.oneTime _ _ (hopk entry he)⟩) hresult
  rw [hpublic] at hbob
  obtain ⟨t, hopen⟩ := decrypt_first hS hdh haead hratchet hmade env.drawn
  refine ⟨_, t, ?_, received_marked hopk env.pruneNow (aliceId, messageId) (env.row plaintext),
    fun hab hfresh => ⟨result.sharedSecret, session, ratchetMessage, hsession, hratchet, rfl,
      delivers_after_first hS hdh haead hratchet hab hfresh hmade hopen⟩⟩
  exact decryptPrekeyEnvelope_wrap hheader hnone hbob hrow hpersist hopen

/-- Bob has registered and rotated the signed prekey since; Alice's bundle still has the old one. -/
theorem first_message_round_trip_rotated :
    ∃ (B : KeyTrace Term Key32 Ciphertext) (A₁ A₂ B' : Manager Term Key32 Ciphertext)
      (message : ClientMessage Ciphertext) (envelope : EncryptedEnvelope Ciphertext),
      KeyRun symbolicIdentity (fun _ => []) B 1 ∧
      (encryptMessage symbolicIdentity bob bob ⟨1⟩ [104] false).run A₁ =
        .ok message A₂ ∧
      sealedTo message = some (bob, envelope) ∧
      (decryptPrekeyEnvelope symbolicIdentity alice envelope ⟨1⟩ contactEnv).run B.manager =
        .ok [104] B' ∧
      ∃ w : Exchange Term Key32 Ciphertext,
        B'.sessions.lookup alice = some ⟨w.session .bob, none, none⟩ ∧ w.sent.length = 1 ∧
        w.opened.length = 1 ∧ Delivering symbolic w := by
  have registered : KeyRun symbolicIdentity (fun _ => []) _ 1 :=
    .register (.start (key32 9) 0 0 0 (newManager (key32 9)) rfl) (key32 8) (fun _ => key32 6) 100
      100 false
  have rotated := registered.op (.queueSignedPrekeyRotation 5000000 (key32 4) ⟨1⟩ false) rfl
  obtain ⟨A₁, hinit, hround⟩ := first_message_round_trip symbolicIdentity_lawful symbolic_kdfTotal
    symbolic_dhCommutes symbolic_aeadOpens rotated (newManager (key32 1)) alice bob bob rfl
    (SignedPreKey.generate symbolicIdentity 0 (key32 9) (key32 8))
    (List.mem_append_right _ (List.mem_singleton.mpr rfl)) none (fun _ he => by cases he) (key32 2)
    (key32 3) 0
  obtain ⟨message, A₂, hencrypt⟩ : ∃ message A₂,
      (encryptMessage symbolicIdentity bob bob ⟨1⟩ [104] false).run A₁ = .ok message A₂ := by
    cases hinit
    exact ⟨_, _, rfl⟩
  obtain ⟨envelope, session, hsealed, -, -, hdecrypt⟩ :=
    hround ⟨1⟩ [104] _ _ _ (.message ⟨1⟩ [104] false) hencrypt
  obtain ⟨B', ratchet, hrun, hreceived, hdelivers⟩ := hdecrypt contactEnv rfl rfl
  obtain ⟨ss, first, m, -, -, -, -, hbob, hsent, hopened, hdelivering⟩ :=
    hdelivers (by decide) (by decide)
  refine ⟨_, A₁, A₂, B', message, envelope, rotated, hencrypt, hsealed, hrun, _, ?_,
    congrArg List.length hsent, congrArg List.length hopened, hdelivering⟩
  rw [hreceived.session, hbob]

end Cmp.Client
