import Cmp.Client.Outcomes

/-! What `decrypt_message_to_text` and the confirmations of inbound messages can do. -/

namespace Cmp.Client

open Cmp.Crypto Cmp.Protocol Cmp.Lib Cmp.Lib.Action

variable {K Sec C : Type}

theorem lookup_keepFrom_none {processed : ProcessedMap} {key : UserId × MessageId} (cutoff : Nat)
    (h : processed.lookup key = none) : (keepFrom cutoff processed).lookup key = none := by
  unfold keepFrom
  rw [HMap.lookup_filter, h]
  rfl

/-! ## Marking and persisting -/

/-- The marker in memory, before the store knows of it. -/
def Manager.markedInMemory (key : UserId × MessageId) (row : ProcessedMessage)
    (m : Manager K Sec C) : Manager K Sec C :=
  { m with processedMessages := m.processedMessages.insert key row }

theorem removeMarker_markedInMemory (key : UserId × MessageId) (row : ProcessedMessage)
    (m : Manager K Sec C) (h : m.processedMessages.lookup key = none) :
    removeMarker true key (m.markedInMemory key row) = m := by
  unfold removeMarker Manager.markedInMemory
  rw [if_pos rfl]
  simp only [HMap.erase_insert_new _ _ _ h]

theorem markProcessed_new (key : UserId × MessageId) (plaintext : Bytes) (env : DecryptEnv Sec)
    (m : Manager K Sec C) (hnew : m.processedMessages.lookup key = none) :
    (markProcessed key plaintext env : ManagerM K Sec C Bool).run m =
      .ok true ((m.prunedInMemory env.pruneNow).markedInMemory key (env.row plaintext)) := by
  simp only [markProcessed, run_bind, run_modify, run_get, run_pure]
  rw [pruneProcessed, lookup_keepFrom_none _ hnew]
  rfl

/-! ## The one-time prekey of an envelope -/

theorem restoreOneTimePrekey_take (opkId : Option UInt32) (before m : Manager K Sec C)
    (hopks : m.storedOpks = before.storedOpks)
    (hcreated : m.oneTimePrekeyCreatedAt = before.oneTimePrekeyCreatedAt) :
    restoreOneTimePrekey opkId before (takeOneTimePrekey opkId m) = m := by
  unfold restoreOneTimePrekey takeOneTimePrekey
  cases opkId with
  | none => rfl
  | some id =>
    rw [← hopks]
    cases ho : m.storedOpks.lookup id with
    | none => simp only [ho]
    | some opk =>
      simp only [ho, HMap.insert_erase_self _ _ _ ho, ← hcreated]
      cases hc : m.oneTimePrekeyCreatedAt.lookup id with
      | some createdAt => simp only [HMap.insert_erase_self _ _ _ hc]
      | none => simp only [HMap.erase_absent _ _ hc]

/-- The one-time prekeys and creation times without the prekey an envelope names. -/
def takenOpks (opkId : Option UInt32) (opks : HMap UInt32 (OneTimePreKey Sec)) :
    HMap UInt32 (OneTimePreKey Sec) :=
  opkId.elim opks opks.erase

def takenCreated (opkId : Option UInt32) (opks : HMap UInt32 (OneTimePreKey Sec))
    (created : HMap UInt32 Nat) : HMap UInt32 Nat :=
  opkId.elim created fun id => if (opks.lookup id).isSome then created.erase id else created

theorem lookup_of_takenOpks {opkId : Option UInt32} {opks : HMap UInt32 (OneTimePreKey Sec)}
    {id : UInt32} {opk : OneTimePreKey Sec} (h : (takenOpks opkId opks).lookup id = some opk) :
    opks.lookup id = some opk := by
  cases opkId with
  | none => exact h
  | some taken =>
    rw [takenOpks, Option.elim_some, HMap.lookup_erase_eq] at h
    split at h
    · cases h
    · exact h

theorem takeOneTimePrekey_eq (opkId : Option UInt32) (m : Manager K Sec C) :
    takeOneTimePrekey opkId m =
      { m with
        storedOpks := takenOpks opkId m.storedOpks
        oneTimePrekeyCreatedAt := takenCreated opkId m.storedOpks m.oneTimePrekeyCreatedAt } := by
  unfold takeOneTimePrekey takenOpks takenCreated
  cases opkId with
  | none => rfl
  | some id =>
    cases h : m.storedOpks.lookup id with
    | some opk => simp only [Option.elim_some, h, Option.isSome_some, if_true]
    | none => simp [h, HMap.erase_absent _ _ h]

/-! ## The two decryptions -/

variable (S : IdentitySuite K Sec C)

/-- How `decrypt_with_marker` can end, for an id without a marker. -/
inductive MarkerResult (S : IdentitySuite K Sec C) (m : Manager K Sec C) (peerId : UserId)
    (messageId : MessageId) (envelope : EncryptedEnvelope C) (env : DecryptEnv Sec) :
    EStateM.Result ManagerError (Manager K Sec C) Bytes → Prop
  | refused (e : ManagerError) : MarkerResult S m peerId messageId envelope env (.error e m)
  | pruned (e : ManagerError) :
      MarkerResult S m peerId messageId envelope env (.error e (m.pruned env.now))
  | unsaved (e : ManagerError) (plaintext : Bytes) (session : PeerSession K Sec)
      (opkId : Option UInt32)
        (hopens : Opens S m peerId envelope env.drawn plaintext session opkId) :
      MarkerResult S m peerId messageId envelope env
        (.error e ((m.pruned env.now).prunedInMemory env.pruneNow))
  | decrypted (plaintext : Bytes) (session : PeerSession K Sec) (opkId : Option UInt32)
      (hopens : Opens S m peerId envelope env.drawn plaintext session opkId)
      (hrow : (m.pruned env.now).store.processed.lookup (peerId, messageId) = none) :
      MarkerResult S m peerId messageId envelope env
        (.ok plaintext
          ((m.opened peerId session opkId env).marked (peerId, messageId) (env.row plaintext)))

variable {S} {m : Manager K Sec C} {peerId : UserId} {messageId : MessageId}
  {envelope : EncryptedEnvelope C} {env : DecryptEnv Sec} {plaintext : Bytes}
  {session : PeerSession K Sec} {opkId : Option UInt32}

/-- The common end of the two decryptions, where `undo` takes back what they wrote before. -/
theorem markAndPersist_result
    (hopens : Opens S m peerId envelope env.drawn plaintext session opkId)
    (hnew : m.processedMessages.lookup (peerId, messageId) = none)
    (undo : Manager K Sec C → Manager K Sec C)
    (hundo : undo ((m.opened peerId session opkId env).markedInMemory (peerId, messageId)
        (env.row plaintext)) =
      ((m.pruned env.now).prunedInMemory env.pruneNow).markedInMemory (peerId, messageId)
        (env.row plaintext)) :
    MarkerResult S m peerId messageId envelope env
      ((do
        let inserted ← markProcessed (peerId, messageId) plaintext env
        persistDecrypt (peerId, messageId) plaintext env fun m =>
          removeMarker inserted (peerId, messageId) (undo m)
        pure plaintext : ManagerM K Sec C Bytes).run
          (takeOneTimePrekey opkId
            { m.pruned env.now with sessions := m.sessions.insert peerId session })) := by
  have hpruned := lookup_keepFrom_none (env.now - RETENTION_SECS) hnew
  have hopened : (takeOneTimePrekey opkId
      { m.pruned env.now with sessions := m.sessions.insert peerId session }).prunedInMemory
        env.pruneNow = m.opened peerId session opkId env := by
    unfold Manager.opened
    rw [takeOneTimePrekey_eq, takeOneTimePrekey_eq]
    rfl
  rw [run_bind_ok (markProcessed_new _ plaintext env _
    (by rw [takeOneTimePrekey_eq]; exact hpruned)), run_bind, hopened]
  unfold persistDecrypt
  rcases commitOr_cases env.persistFails
    (fun core => CryptoStore.saveCoreAndProcessed core (peerId, messageId)
      ⟨some (utf8Text plaintext), env.markedAt⟩)
    (fun m => removeMarker true (peerId, messageId) (undo m)) .persistence
    ((m.opened peerId session opkId env).markedInMemory (peerId, messageId)
      (env.row plaintext)) with ⟨st, hst, h⟩ | ⟨e, h⟩
  · rw [h]
    unfold CryptoStore.saveCoreAndProcessed at hst
    split at hst
    · cases hst
    · next hrow =>
      cases hst
      refine .decrypted plaintext session opkId hopens (Option.not_isSome_iff_eq_none.mp ?_)
      unfold Manager.opened at hrow
      rw [takeOneTimePrekey_eq] at hrow
      exact hrow
  · rw [h, hundo, removeMarker_markedInMemory _ _ _ (lookup_keepFrom_none _ hpruned)]
    exact .unsaved (.persistence e) plaintext session opkId hopens

variable (S)

theorem decryptExisting_result (peerId : UserId) (header : RatchetHeader) (ciphertext : C)
    (aad : Bytes) (messageId : MessageId) (envelope : EncryptedEnvelope C) (env : DecryptEnv Sec)
    (m : Manager K Sec C) (hparts : envelopeParts envelope = .ok (header, ciphertext, aad))
    (hnew : m.processedMessages.lookup (peerId, messageId) = none) :
    MarkerResult S m peerId messageId envelope env
      ((decryptExisting S peerId header ciphertext aad messageId env).run (m.pruned env.now)) := by
  cases hs : (m.pruned env.now).sessions.lookup peerId with
  | none =>
    simp only [decryptExisting, run_bind, run_get, hs, run_throw]
    exact .pruned .noSession
  | some original =>
    cases hd : (decrypt S.toSuite env.drawn header ciphertext aad).run original.ratchet with
    | error e ratchet =>
      cases decrypt_error _ _ _ _ _ _ _ _ hd
      simp only [decryptExisting, run_bind, run_get, hs, hd, run_modify, run_throw]
      rw [HMap.insert_lookup_self _ _ _ hs]
      exact .pruned .decryptFailed
    | ok plaintext ratchet =>
      simp only [decryptExisting, run_bind_ok (run_get _), hs, hd, run_bind_ok (run_modify _ _)]
      refine markAndPersist_result
        (Opens.existing (m := m) original header ciphertext aad plaintext ratchet hparts hs hd) hnew
        (fun m => { m with sessions := m.sessions.insert peerId original }) ?_
      have hsess : (m.sessions.insert peerId { original with ratchet := ratchet }).insert
          peerId original = m.sessions := by
        rw [Finmap.insert_insert]
        exact HMap.insert_lookup_self _ _ _ hs
      unfold Manager.markedInMemory Manager.opened takeOneTimePrekey Manager.prunedInMemory
      simp only [hsess]
      rfl

theorem decryptFirst_result (peerId : UserId) (session : SessionState K Sec)
    (header : RatchetHeader) (ciphertext : C) (aad : Bytes) (opkId : Option UInt32)
    (messageId : MessageId) (envelope : EncryptedEnvelope C) (env : DecryptEnv Sec)
    (m : Manager K Sec C) (hnone : m.sessions.lookup peerId = none)
    (hopens : ∀ plaintext ratchet,
      (decrypt S.toSuite env.drawn header ciphertext aad).run session = .ok plaintext ratchet →
        Opens S m peerId envelope env.drawn plaintext ⟨ratchet, none, none⟩ opkId)
    (hnew : m.processedMessages.lookup (peerId, messageId) = none) :
    MarkerResult S m peerId messageId envelope env
      ((decryptFirst S peerId session header ciphertext aad opkId messageId env).run
        (m.pruned env.now)) := by
  cases hd : (decrypt S.toSuite env.drawn header ciphertext aad).run session with
  | error e ratchet =>
    simp only [decryptFirst, hd]
    exact .pruned .decryptFailed
  | ok plaintext ratchet =>
    simp only [decryptFirst, hd, run_bind_ok (run_get _), run_bind_ok (run_modify _ _)]
    refine markAndPersist_result (hopens plaintext ratchet hd) hnew
      (fun m' => restoreOneTimePrekey opkId (m.pruned env.now)
        { m' with sessions := m'.sessions.erase peerId }) ?_
    -- the rollback sees the prekey taken from the manager with its marker
    refine Eq.trans ?_ (restoreOneTimePrekey_take opkId (m.pruned env.now)
      (((m.pruned env.now).prunedInMemory env.pruneNow).markedInMemory (peerId, messageId)
        (env.row plaintext)) rfl rfl)
    unfold Manager.opened
    rw [takeOneTimePrekey_eq, takeOneTimePrekey_eq]
    unfold Manager.markedInMemory Manager.prunedInMemory
    simp only [HMap.erase_insert_new _ _ _ hnone]
    rfl

/-! ## The whole decryption -/

theorem decryptPrekeyEnvelope_result (peerId : UserId) (messageId : MessageId)
    (envelope : EncryptedEnvelope C) (env : DecryptEnv Sec) (m : Manager K Sec C)
    (hnew : m.processedMessages.lookup (peerId, messageId) = none) :
    MarkerResult S m peerId messageId envelope env
      ((decryptPrekeyEnvelope S peerId envelope messageId env).run (m.pruned env.now)) := by
  unfold decryptPrekeyEnvelope
  cases hh : envelope.header with
  | ratchet proto => exact .pruned _
  | preKey identityKey ephemeralKey spkId opkId proto =>
    dsimp only
    cases hf : decodePreKey envelope identityKey ephemeralKey spkId opkId proto with
    | error e => exact .pruned e
    | ok fields =>
      simp only [run_bind_ok (run_ofExcept_ok _ _), run_bind_ok (run_get _), run_ite]
      split
      · refine decryptExisting_result S peerId _ _ _ messageId envelope env m ?_ hnew
        simp only [envelopeParts, hh, hf]
        rfl
      · next hsome =>
        have hnone : m.sessions.lookup peerId = none := Option.not_isSome_iff_eq_none.mp hsome
        cases hb : createBobSession S (m.pruned env.now) fields.senderIdentityKey
            fields.senderEphemeralKey spkId opkId with
        | error e => exact .pruned e
        | ok session =>
          rw [run_bind_ok (run_ofExcept_ok _ _)]
          exact decryptFirst_result S peerId session fields.header fields.ciphertext
            fields.envelopeAad opkId messageId envelope env m hnone
            (fun plaintext ratchet => .first identityKey ephemeralKey spkId opkId proto fields
              session ratchet plaintext hh hf hnone hb) hnew

theorem decryptRatchetEnvelope_result (peerId : UserId) (messageId : MessageId)
    (envelope : EncryptedEnvelope C) (proto : ProtoRatchetHeader) (env : DecryptEnv Sec)
    (m : Manager K Sec C) (hheader : envelope.header = .ratchet proto)
    (hnew : m.processedMessages.lookup (peerId, messageId) = none) :
    MarkerResult S m peerId messageId envelope env
      ((decryptRatchetEnvelope S peerId envelope proto messageId env).run (m.pruned env.now)) := by
  unfold decryptRatchetEnvelope
  cases hd : decodeRatchetHeader proto with
  | error e => exact .pruned e
  | ok header =>
    rw [run_bind_ok (run_ofExcept_ok _ _)]
    cases hc : decodeCiphertext envelope with
    | error e => exact .pruned e
    | ok ciphertext =>
      rw [run_bind_ok (run_ofExcept_ok _ _)]
      refine decryptExisting_result S peerId header ciphertext _ messageId envelope env m ?_ hnew
      simp only [envelopeParts, hheader, hd, hc]
      rfl

theorem pruneMarkers_cases (now : Nat) (fails : Bool) (m : Manager K Sec C) :
    (∃ e, (pruneMarkers now fails).run m = .error e m) ∨
    (pruneMarkers now fails).run m = .ok () (m.pruned now) := by
  unfold pruneMarkers
  rcases commitOr_cases fails (fun _ => CryptoStore.prune (now - RETENTION_SECS)) id .persistence m
    with ⟨st, hst, h⟩ | ⟨e, h⟩
  · right
    cases hst
    rw [run_bind_ok h]
    rfl
  · exact .inl ⟨_, run_bind_error h⟩

theorem decryptWithMarker_result (peerId : UserId) (messageId : MessageId)
    (envelope : EncryptedEnvelope C) (env : DecryptEnv Sec) (m : Manager K Sec C)
    (hnew : m.processedMessages.lookup (peerId, messageId) = none) :
    MarkerResult S m peerId messageId envelope env
      ((decryptWithMarker S peerId envelope messageId env).run m) := by
  simp only [decryptWithMarker, run_ite]
  split
  · exact .refused _
  · rcases pruneMarkers_cases env.now env.pruneFails m with ⟨e, h⟩ | h
    · rw [run_bind_error h]
      exact .refused e
    · simp only [run_bind_ok h, run_bind_ok (run_get _), run_ite]
      split
      · exact .pruned _
      · cases hh : envelope.header with
        | preKey identityKey ephemeralKey spkId opkId proto =>
          exact decryptPrekeyEnvelope_result S peerId messageId envelope env m hnew
        | ratchet proto =>
          exact decryptRatchetEnvelope_result S peerId messageId envelope proto env m hh hnew

/-- What a delivery of an id with a marker gets. -/
def ProcessedMessage.answer (processed : ProcessedMessage) : InboundDecrypt :=
  match processed.pendingPlaintext with
  | none => .duplicate
  | some text => .pending text

/-- How `decrypt_message_to_text` can end; it never fails. -/
inductive DecryptResult (S : IdentitySuite K Sec C) (m : Manager K Sec C) (peerId : UserId)
    (messageId : MessageId) (envelope : EncryptedEnvelope C) (env : DecryptEnv Sec) :
    InboundDecrypt → Manager K Sec C → Prop
  | failed : DecryptResult S m peerId messageId envelope env .failed m
  | known (processed : ProcessedMessage)
      (hmarker : m.processedMessages.lookup (peerId, messageId) = some processed) :
      DecryptResult S m peerId messageId envelope env processed.answer m
  | pruned : DecryptResult S m peerId messageId envelope env .failed (m.pruned env.now)
  | unsaved (plaintext : Bytes) (session : PeerSession K Sec) (opkId : Option UInt32)
      (hopens : Opens S m peerId envelope env.drawn plaintext session opkId)
      (hnew : m.processedMessages.lookup (peerId, messageId) = none) :
      DecryptResult S m peerId messageId envelope env .failed
        ((m.pruned env.now).prunedInMemory env.pruneNow)
  | decrypted (plaintext : Bytes) (session : PeerSession K Sec) (opkId : Option UInt32)
      (hopens : Opens S m peerId envelope env.drawn plaintext session opkId)
      (hnew : m.processedMessages.lookup (peerId, messageId) = none)
      (hrow : (m.pruned env.now).store.processed.lookup (peerId, messageId) = none) :
      DecryptResult S m peerId messageId envelope env (.pending (utf8Text plaintext))
        ((m.opened peerId session opkId env).marked (peerId, messageId) (env.row plaintext))

theorem decryptMessageToText_result (peerId : UserId) (messageId : MessageId)
    (envelope : EncryptedEnvelope C) (env : DecryptEnv Sec) (m : Manager K Sec C) :
    ∃ answer m', (decryptMessageToText S peerId messageId envelope env).run m = .ok answer m' ∧
      DecryptResult S m peerId messageId envelope env answer m' := by
  simp only [decryptMessageToText, run_ite]
  split
  · exact ⟨_, _, rfl, .failed⟩
  · rw [run_bind_ok (run_get m)]
    cases hm : m.processedMessages.lookup (peerId, messageId) with
    | some processed =>
      refine ⟨processed.answer, m, ?_, .known processed hm⟩
      unfold ProcessedMessage.answer
      cases hp : processed.pendingPlaintext <;> simp only [hp] <;> rfl
    | none =>
      have hresult := decryptWithMarker_result S peerId messageId envelope env m hm
      cases hr : (decryptWithMarker S peerId envelope messageId env).run m with
      | ok plaintext m' =>
        rw [hr] at hresult
        cases hresult with
        | decrypted _ session opkId hopens hrow =>
          exact ⟨_, _, rfl, .decrypted plaintext session opkId hopens hm hrow⟩
      | error e m' =>
        rw [hr] at hresult
        cases hresult with
        | refused => exact ⟨_, _, rfl, .failed⟩
        | pruned => exact ⟨_, _, rfl, .pruned⟩
        | unsaved _ plaintext session opkId hopens =>
          exact ⟨_, _, rfl, .unsaved plaintext session opkId hopens hm⟩

theorem DecryptResult.pendingOutbound {S : IdentitySuite K Sec C}
    {m m' : Manager K Sec C} {peerId : UserId} {messageId : MessageId}
    {envelope : EncryptedEnvelope C} {env : DecryptEnv Sec} {answer : InboundDecrypt}
    (h : DecryptResult S m peerId messageId envelope env answer m') :
    m'.pendingOutbound = m.pendingOutbound := by
  cases h with
  | decrypted plaintext session opkId =>
    unfold Manager.marked Manager.opened
    rw [takeOneTimePrekey_eq]
    rfl
  | _ => rfl

theorem DecryptResult.outcome {S : IdentitySuite K Sec C} {m m' : Manager K Sec C}
    {peerId : UserId} {messageId : MessageId} {envelope : EncryptedEnvelope C}
    {env : DecryptEnv Sec} {answer : InboundDecrypt}
    (h : DecryptResult S m peerId messageId envelope env answer m') :
    Outcome S m (.decryptMessageToText peerId messageId envelope env) [] m' := by
  cases h with
  | failed | known => exact .idle _
  | pruned => exact .pruned peerId messageId envelope env
  | unsaved => exact .prunedTwice peerId messageId envelope env
  | decrypted plaintext session opkId hopens hnew hrow =>
    exact .decrypted peerId messageId envelope env plaintext session opkId hopens hnew hrow

/-! ## Confirmations -/

theorem confirmInboundStored_cases (peerId : UserId) (messageId : MessageId) (fails : Bool)
    (m : Manager K Sec C) :
    finalState ((confirmInboundStored peerId messageId fails).run m) = m ∨
    ∃ processed, m.processedMessages.lookup (peerId, messageId) = some processed ∧
      (confirmInboundStored peerId messageId fails).run m =
        .ok () (m.committed (peerId, messageId) processed) := by
  simp only [confirmInboundStored, run_bind, run_get]
  cases hm : m.processedMessages.lookup (peerId, messageId) with
  | none => exact .inl rfl
  | some processed =>
    simp only [run_bind, run_modify]
    rcases commitOr_cases fails
      (fun _ => CryptoStore.markProcessedCommitted (peerId, messageId))
      (fun m' =>
        { m' with
          processedMessages := m'.processedMessages.insert (peerId, messageId) processed }) .other
      { m with
        processedMessages :=
          m.processedMessages.insert (peerId, messageId)
            { processed with pendingPlaintext := none } } with ⟨st, hst, h⟩ | ⟨e, h⟩
    · right
      refine ⟨processed, rfl, ?_⟩
      rw [h]
      have hst' : (m.store.markProcessedCommitted (peerId, messageId)) = some st := hst
      unfold Manager.committed
      rw [hst']
      rfl
    · left
      rw [h]
      simp only [finalState, Finmap.insert_insert, HMap.insert_lookup_self _ _ _ hm]

theorem correlationId_of_ackedIds {ackId : MessageId} {ids : List MessageId}
    (item : PendingOutbound C) (h : item.ackedIds ackId = some ids) :
    item.correlationId = ackId := by
  cases item <;> simp_all [PendingOutbound.ackedIds, PendingOutbound.correlationId]

theorem confirmAcked_cases (ackId : MessageId) (messageIds : List MessageId) (fails : Bool)
    (m : Manager K Sec C) :
    finalState ((confirmAcked ackId messageIds fails).run m) = m ∨
    ∃ index item, m.pendingOutbound[index]? = some item ∧
      item.ackedIds ackId = some messageIds ∧
      (confirmAcked ackId messageIds fails).run m =
        .ok () ((m.unmarked messageIds).unfiled index ackId) := by
  simp only [confirmAcked, run_bind, run_get]
  cases hf : findItem (fun item => (item.ackedIds ackId).isSome) m.pendingOutbound with
  | none => exact .inl rfl
  | some found =>
    obtain ⟨index, item⟩ := found
    obtain ⟨hitem, -⟩ := findItem_eq_some hf
    simp only [run_ite]
    split
    · exact .inl rfl
    · next hids =>
      simp only [run_bind, run_modify]
      rcases commitOr_cases fails (fun _ => CryptoStore.confirmAck ackId messageIds)
        (fun m' =>
          { m' with
            processedMessages := m.processedMessages
            pendingOutbound := m'.pendingOutbound.insertIdx index item }) .other
        { m with
          pendingOutbound := m.pendingOutbound.eraseIdx index
          processedMessages :=
            HMap.filter (fun key _ => decide (key.2 ∉ messageIds)) m.processedMessages } with
          ⟨st, hst, h⟩ | ⟨e, h⟩
      · right
        rw [h]
        cases hst
        exact ⟨index, item, hitem, not_not.mp hids, rfl⟩
      · left
        rw [h]
        simp only [finalState, insertIdx_eraseIdx hitem]

end Cmp.Client
