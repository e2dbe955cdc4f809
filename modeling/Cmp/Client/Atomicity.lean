import Cmp.Client.FirstContact
import Cmp.Lib.Trace

/-! Operations that fail. The session operations put back everything they wrote, in memory and
in the store; a decryption that fails may have dropped markers that were due. -/

namespace Cmp.Client

open Cmp.Crypto Cmp.Protocol Cmp.Lib Cmp.Lib.Action

variable {K Sec C : Type}

/-! ## Session operations -/

/-- The session operations that return an error when they fail. -/
def Op.isSession : Op Sec C → Bool
  | .initSessionFromBundle .. => true
  | .encryptMessage .. => true
  | .encryptReadReceipt .. => true
  | .expireStalePrekeySession .. => true
  | .rejectMessage .. => true
  | .confirmMessageSent .. => true
  | .confirmReadReceiptSent .. => true
  | .confirmAcked .. => true
  | .confirmInboundStored .. => true
  | .queueAck .. => true
  | .queueReadReceiptAck .. => true
  | _ => false

theorem initSessionFromBundle_putsBack (S : IdentitySuite K Sec C) (peerId : UserId)
    (bundle : PreKeyBundle) (ephemeral drawn : Sec) (now : Nat) (fails : Bool)
    (m : Manager K Sec C) :
    PutsBack (initSessionFromBundle S peerId bundle ephemeral drawn now fails) m := by
  rcases initSessionFromBundle_cases S peerId bundle ephemeral drawn now fails m with
    ⟨e, h⟩ | ⟨session, -, h⟩
  · exact .of_error h
  · exact .of_ok h

theorem expireStalePrekeySession_putsBack (peerId : UserId) (now : Nat) (fails : Bool)
    (m : Manager K Sec C) : PutsBack (expireStalePrekeySession peerId now fails) m := by
  rcases expireStalePrekeySession_cases peerId now fails m with ⟨e, h⟩ | h | ⟨session, -, -, h⟩
  · exact .of_error h
  · exact .of_ok h
  · exact .of_ok h

variable {S : IdentitySuite K Sec C} {m : Manager K Sec C}

theorem EncryptResult.putsBack {peerId : UserId} {plaintext : Bytes}
    {item : EncryptedEnvelope C → PendingOutbound C} {call : ManagerM K Sec C (ClientMessage C)}
    (h : EncryptResult S m peerId plaintext item (call.run m)) : PutsBack call m := by
  intro e m' hrun
  rw [hrun] at h
  cases h
  rfl

theorem queueItem_putsBack (bytes : Nat) (item : PendingOutbound C) (fails : Bool)
    (m : Manager K Sec C) :
    PutsBack (do
      let m ← get
      ofExcept (ensureCapacity m.pendingOutbound bytes)
      pushAndPersist item fails popOutbound : ManagerM K Sec C (ClientMessage C)) m := by
  rcases queueItem_cases bytes item fails m with ⟨e, h⟩ | ⟨-, -, h⟩
  · exact .of_error h
  · exact .of_ok h

theorem confirmSent_putsBack (p : PendingOutbound C → Bool) (id : MessageId) (fails : Bool)
    (hp : ∀ item, p item = true → item.correlationId = id) (m : Manager K Sec C) :
    PutsBack (confirmSent p id fails) m := by
  rcases confirmSent_cases p id fails hp m with ⟨e, h⟩ | ⟨-, h⟩ | ⟨index, item, -, -, -, h⟩
  · exact .of_error h
  · exact .of_ok h
  · exact .of_ok h

theorem rejectMessage_putsBack (messageId : MessageId) (fails : Bool) (m : Manager K Sec C) :
    PutsBack (rejectMessage messageId fails) m := by
  rcases rejectMessage_cases messageId fails m with ⟨e, h⟩ | h |
    ⟨index, recipientId, envelope, -, h⟩
  · exact .of_error h
  · exact .of_ok h
  · exact .of_ok h

theorem confirmInboundStored_putsBack (peerId : UserId) (messageId : MessageId) (fails : Bool)
    (m : Manager K Sec C) : PutsBack (confirmInboundStored peerId messageId fails) m := by
  rcases confirmInboundStored_cases peerId messageId fails m with h | ⟨processed, -, h⟩
  · exact .of_finalState h
  · exact .of_ok h

theorem confirmAcked_putsBack (ackId : MessageId) (messageIds : List MessageId) (fails : Bool)
    (m : Manager K Sec C) : PutsBack (confirmAcked ackId messageIds fails) m := by
  rcases confirmAcked_cases ackId messageIds fails m with h | ⟨index, item, -, -, h⟩
  · exact .of_finalState h
  · exact .of_ok h

theorem Op.isSession_putsBack (S : IdentitySuite K Sec C) (texts : List MessageId → Bytes)
    (op : Op Sec C) (hop : op.isSession = true) (m : Manager K Sec C) :
    PutsBack (perform S texts op) m := by
  cases op with
  | initSessionFromBundle peerId bundle ephemeral drawn now fails =>
    exact (initSessionFromBundle_putsBack S peerId bundle ephemeral drawn now fails m).map _
  | expireStalePrekeySession peerId now fails =>
    exact (expireStalePrekeySession_putsBack peerId now fails m).map _
  | encryptMessage peerId recipientId messageId plaintext fails =>
    exact (encryptMessage_result S peerId recipientId messageId plaintext fails m).putsBack.map _
  | encryptReadReceipt peerId recipientId messageIds receiptId fails =>
    exact (encryptReadReceipt_result S texts peerId recipientId messageIds receiptId fails
      m).putsBack.map _
  | queueAck messageIds ackId fails | queueReadReceiptAck receiptIds ackId fails =>
    exact (queueItem_putsBack _ _ fails m).map _
  | confirmMessageSent messageId fails =>
    exact (confirmSent_putsBack _ messageId fails correlationId_of_isMessage m).map _
  | confirmReadReceiptSent receiptId fails =>
    exact (confirmSent_putsBack _ receiptId fails correlationId_of_isReadReceipt m).map _
  | rejectMessage messageId fails => exact (rejectMessage_putsBack messageId fails m).map _
  | confirmInboundStored peerId messageId fails =>
    exact (confirmInboundStored_putsBack peerId messageId fails m).map _
  | confirmAcked ackId messageIds fails =>
    exact (confirmAcked_putsBack ackId messageIds fails m).map _
  | _ => cases hop

/-! ## Decryptions that fail -/

/-- The second markers are the first, without some that were older than the retention. -/
def Aged (now : Nat) (before after : ProcessedMap) : Prop :=
  ∀ key, after.lookup key = before.lookup key ∨
    after.lookup key = none ∧
      ∃ row, before.lookup key = some row ∧ row.processedAt + RETENTION_SECS < now

theorem Aged.refl (now : Nat) (processed : ProcessedMap) : Aged now processed processed :=
  fun _ => .inl rfl

theorem Aged.trans {now : Nat} {before between after : ProcessedMap} (h : Aged now before between)
    (h' : Aged now between after) : Aged now before after := by
  intro key
  rcases h' key with heq | ⟨hnone, row, hrow, hold⟩
  · rw [heq]
    exact h key
  · rcases h key with heq | ⟨hgone, -⟩
    · exact .inr ⟨hnone, row, heq ▸ hrow, hold⟩
    · rw [hgone] at hrow
      cases hrow

theorem aged_pruneProcessed {now reading : Nat} (hreading : reading ≤ now)
    (processed : ProcessedMap) : Aged now processed (pruneProcessed processed reading) := by
  intro key
  unfold pruneProcessed keepFrom
  rw [HMap.lookup_filter]
  cases hrow : processed.lookup key with
  | none => exact .inl rfl
  | some row =>
    by_cases hkept : reading - RETENTION_SECS ≤ row.processedAt
    · left
      exact Option.filter_eq_some_iff.mpr ⟨rfl, decide_eq_true hkept⟩
    · right
      have hgone : Option.filter (fun row : ProcessedMessage =>
          decide (reading - RETENTION_SECS ≤ row.processedAt)) (some row) = none := by
        rw [Option.filter_some, if_neg]
        exact fun h => hkept (of_decide_eq_true h)
      exact ⟨hgone, row, rfl, by omega⟩

/-- Markers apart, the manager and its store are as before. -/
structure Manager.AgedFrom (now : Nat) (before after : Manager K Sec C) : Prop where
  rest : after =
    { before with
      processedMessages := after.processedMessages
      store := { before.store with processed := after.store.processed } }
  memory : Aged now before.processedMessages after.processedMessages
  rows : Aged now before.store.processed after.store.processed

theorem Manager.AgedFrom.refl (now : Nat) (m : Manager K Sec C) : m.AgedFrom now m :=
  ⟨rfl, .refl now _, .refl now _⟩

theorem Manager.agedFrom_pruned {now reading : Nat} (hreading : reading ≤ now)
    (m : Manager K Sec C) : m.AgedFrom now (m.pruned reading) :=
  ⟨rfl, aged_pruneProcessed hreading _, aged_pruneProcessed hreading _⟩

variable {m' : Manager K Sec C}

theorem DecryptResult.agedFrom {peerId : UserId} {messageId : MessageId}
    {envelope : EncryptedEnvelope C} {env : DecryptEnv Sec}
    (h : DecryptResult S m peerId messageId envelope env .failed m') :
    m.AgedFrom (max env.now env.pruneNow) m' := by
  generalize hanswer : InboundDecrypt.failed = answer at h
  cases h with
  | failed | known => exact .refl _ m
  | pruned => exact m.agedFrom_pruned (le_max_left _ _)
  | unsaved =>
    have hfirst := m.agedFrom_pruned (le_max_left env.now env.pruneNow)
    exact ⟨rfl, hfirst.memory.trans (aged_pruneProcessed (le_max_right _ _) _), hfirst.rows⟩
  | decrypted => cases hanswer

/-- A session operation that returns an error leaves every field and every row as before, whichever
check or store call refused it; a decryption that fails drops old markers at most. -/
theorem session_ops_atomic (S : IdentitySuite K Sec C) (texts : List MessageId → Bytes)
    (m : Manager K Sec C) :
    (∀ (op : Op Sec C) e m', op.isSession = true → (perform S texts op).run m = .error e m' →
      m' = m) ∧
    ∀ peerId messageId envelope env m',
      (decryptMessageToText S peerId messageId envelope env).run m = .ok .failed m' →
      m.AgedFrom (max env.now env.pruneNow) m' := by
  refine ⟨?_, ?_⟩
  · intro op e m' hop h
    exact op.isSession_putsBack S texts hop m e m' h
  · intro peerId messageId envelope env m' h
    obtain ⟨answer, m'', hrun, hresult⟩ :=
      decryptMessageToText_result S peerId messageId envelope env m
    rw [hrun] at h
    cases h
    exact hresult.agedFrom

/-- Alice with a session from Bob's bundle. -/
def initiatedAlice : Manager Term Key32 Ciphertext :=
  finalState
    ((initSessionFromBundle symbolicIdentity bob (contactBundle false) (key32 2) (key32 3) 0
    false).run (contactStart true))

/-- Alice's first message to Bob. -/
def openingEnvelope : EncryptedEnvelope Ciphertext :=
  match (encryptMessage symbolicIdentity bob bob ⟨1⟩ [104] false).run initiatedAlice with
  | .ok (.sendMessage _ _ envelope) _ => envelope
  | _ => ⟨0, .ratchet ⟨b64Encode [], 0, 0⟩, ⟨none, 0⟩⟩

/-- Bob opens it, with a store that refuses the write or takes it. -/
def openedByBob (persistFails : Bool) :
    EStateM.Result ManagerError (Manager Term Key32 Ciphertext) InboundDecrypt :=
  (decryptMessageToText symbolicIdentity alice ⟨1⟩ openingEnvelope
    ⟨200, 200, 200, key32 7, false, persistFails⟩).run (contactStart false)

/-- Alice's message again, with a store that refuses it. -/
def refusedMessage : EStateM.Result ManagerError (Manager Term Key32 Ciphertext)
    (List (ClientMessage Ciphertext)) :=
  (perform symbolicIdentity (fun _ => []) (.encryptMessage bob bob ⟨1⟩ [104] true)).run
    initiatedAlice

set_option maxRecDepth 4000 in
theorem session_ops_atomic_refused :
    refusedMessage = .error (.persistence .unavailable) initiatedAlice ∧
    value? (openedByBob false) = some (.pending (utf8Text [104])) ∧
    value? (openedByBob true) = some .failed ∧
    (contactStart false).AgedFrom 200 (finalState (openedByBob true)) := by
  have hrefused : refusedMessage =
      .error (.persistence .unavailable) (finalState refusedMessage) := rfl
  have hfailed : openedByBob true = .ok .failed (finalState (openedByBob true)) := rfl
  refine ⟨?_, rfl, rfl, ?_⟩
  · have hsame := (session_ops_atomic symbolicIdentity (fun _ => []) initiatedAlice).1
      (.encryptMessage bob bob ⟨1⟩ [104] true) _ _ rfl hrefused
    rw [hsame] at hrefused
    exact hrefused
  · exact (session_ops_atomic symbolicIdentity (fun _ => []) (contactStart false)).2 alice ⟨1⟩
      openingEnvelope ⟨200, 200, 200, key32 7, false, true⟩ _ hfailed

/-! ## Prekey operations -/

def Op.isPrekey : Op Sec C → Bool
  | .persistRegistrationKeys .. => true
  | .queueSignedPrekeyRotation .. => true
  | .confirmSignedPrekeyRotated .. => true
  | .queuePrekeyReplenishment .. => true
  | .confirmPrekeysUploaded .. => true
  | _ => false

theorem persistRegistrationKeys_putsBack (spk : SignedPreKey Sec)
    (opks : List (UInt32 × OneTimePreKey Sec)) (rotatedAt createdAt : Nat) (fails : Bool)
    (m : Manager K Sec C) :
    PutsBack (persistRegistrationKeys spk opks rotatedAt createdAt fails) m := by
  rcases persistRegistrationKeys_cases spk opks rotatedAt createdAt fails m with ⟨e, h⟩ | h
  · exact .of_error h
  · exact .of_ok h

theorem queueSignedPrekeyRotation_putsBack (S : IdentitySuite K Sec C) (now : Nat) (drawn : Sec)
    (rotationId : MessageId) (fails : Bool) (m : Manager K Sec C) :
    PutsBack (queueSignedPrekeyRotation S now drawn rotationId fails) m := by
  rcases queueSignedPrekeyRotation_cases S now drawn rotationId fails m with
    h | ⟨current, keyId, nextKeyId, -, -, -, -, h⟩
  · exact .of_finalState h
  · exact .of_ok h

theorem confirmSignedPrekeyRotated_putsBack (S : IdentitySuite K Sec C) (rotationId : MessageId)
    (accepted previouslyAccepted : Bool) (currentKeyId : UInt32) (now : Nat) (drawn : Sec)
    (newId : MessageId) (fails : Bool) (m : Manager K Sec C) :
    PutsBack (confirmSignedPrekeyRotated S rotationId accepted previouslyAccepted currentKeyId now
      drawn newId fails) m := by
  intro e m' h
  have hanswered := confirmSignedPrekeyRotated_cases S rotationId accepted previouslyAccepted
    currentKeyId now drawn newId fails m
  rw [h] at hanswered
  cases hanswered
  rfl

variable {e : ManagerError}

theorem queuePrekeyReplenishment_error (h : (queuePrekeyReplenishment S env).run m = .error e m') :
    m' = m ↔ ¬(m.MakesBatch ∧ (env.Taken m ∨ m.ReusesId env)) := by
  have hresult := queuePrekeyReplenishment_result S env m
  rw [h] at hresult
  cases hresult with
  | refused _ hnot => exact ⟨fun _ hmakes => hnot hmakes.1, fun _ => rfl⟩
  | undone _ hmakes hnot _ hback =>
    rw [hback]
    exact ⟨fun hreuse hleaves => hleaves.2.elim hnot hreuse,
      fun hleaves hreuse => hleaves ⟨hmakes, .inr hreuse⟩⟩

theorem confirmPrekeysUploaded_error {uploadId : MessageId} {accepted : Bool} {remaining : UInt32}
    {fails : Bool}
    (h : (confirmPrekeysUploaded S uploadId accepted remaining env fails).run m = .error e m') :
    m' = m ↔
      ¬(Op.confirmPrekeysUploaded uploadId accepted remaining env fails : Op Sec C).LeavesTrace
        m := by
  have hanswered := confirmPrekeysUploaded_cases S uploadId accepted remaining env fails m
  rw [h] at hanswered
  cases hanswered with
  | failed e hnot => exact ⟨fun _ => hnot, fun _ => rfl⟩
  | undone e hleaves _ _ m' hne => exact iff_of_false hne (not_not.mpr hleaves)
  | kept e generated nextId hgen hnew hdoubles =>
    refine iff_of_false (fun hsame => ?_) (not_not.mpr (Op.leavesTrace_of_doublesUpload hdoubles))
    -- the outbox has one item more
    have hlength := congrArg (fun m => m.pendingOutbound.length) hsame
    simp [Manager.filed, fileGenerated] at hlength

/-- A prekey operation that returns an error leaves everything as before, except where a batch was
filed before the call that failed, or where the rollback of a batch meets an id in use. -/
theorem prekey_ops_atomic (S : IdentitySuite K Sec C) (texts : List MessageId → Bytes)
    (m m' : Manager K Sec C) (op : Op Sec C) (e : ManagerError) (hop : op.isPrekey = true)
    (h : (perform S texts op).run m = .error e m') : m' = m ↔ ¬op.LeavesTrace m := by
  cases op with
  | persistRegistrationKeys spk opks rotatedAt createdAt fails =>
    refine ⟨fun _ => Op.not_leavesTrace rfl, fun _ => ?_⟩
    exact (persistRegistrationKeys_putsBack spk opks rotatedAt createdAt fails m).map _ e m' h
  | queueSignedPrekeyRotation now drawn rotationId fails =>
    refine ⟨fun _ => Op.not_leavesTrace rfl, fun _ => ?_⟩
    exact (queueSignedPrekeyRotation_putsBack S now drawn rotationId fails m).map _ e m' h
  | confirmSignedPrekeyRotated rotationId accepted previouslyAccepted currentKeyId now drawn newId
      fails =>
    refine ⟨fun _ => Op.not_leavesTrace rfl, fun _ => ?_⟩
    exact (confirmSignedPrekeyRotated_putsBack S rotationId accepted previouslyAccepted currentKeyId
      now drawn newId fails m).map _ e m' h
  | queuePrekeyReplenishment env =>
    rw [Op.leavesTrace_iff rfl]
    exact queuePrekeyReplenishment_error (run_map_eq_error.mp h)
  | confirmPrekeysUploaded uploadId accepted remaining env fails =>
    exact confirmPrekeysUploaded_error (run_map_eq_error.mp h)
  | _ => cases hop

def batchEnv (uploadId : MessageId) (fails : Bool) : UploadEnv Key32 :=
  ⟨fun n => key32 n.toUInt8, 0, 0, uploadId, fails⟩

/-- A new client with its first upload. -/
def uploadWaiting : Trace Term Key32 Ciphertext :=
  Trace.step symbolicIdentity (fun _ => []) ⟨newManager (key32 1), [], [], [], 0⟩
    (.queuePrekeyReplenishment (batchEnv ⟨1⟩ false))

theorem uploadWaiting_run : ManagerRun symbolicIdentity (fun _ => []) uploadWaiting :=
  .op (.start (key32 1) 0 0 0 (newManager (key32 1)) rfl) _

/-- The upload is accepted with `remaining` keys left, and its deletion refused. -/
def deletionRefused (remaining : UInt32) :
    EStateM.Result ManagerError (Manager Term Key32 Ciphertext)
      (List (ClientMessage Ciphertext)) :=
  (perform symbolicIdentity (fun _ => [])
    (.confirmPrekeysUploaded ⟨1⟩ true remaining (batchEnv ⟨2⟩ false) true)).run
      uploadWaiting.manager

/-- With enough keys left, nothing has changed. -/
theorem prekey_ops_atomic_enough :
    deletionRefused 100 = .error (.other .unavailable) uploadWaiting.manager := by
  have h : deletionRefused 100 =
      .error (.other .unavailable) (finalState (deletionRefused 100)) := by
    with_unfolding_all rfl
  have hsame := (prekey_ops_atomic symbolicIdentity (fun _ => []) _ _ _ _ rfl h).mpr
    (Op.not_leavesTrace (by with_unfolding_all rfl))
  rw [hsame] at h
  exact h

/-- With none left, the error returns while a second upload is in the outbox and in the store. -/
theorem answered_upload_not_undone :
    ManagerRun symbolicIdentity (fun _ => []) uploadWaiting ∧
    value? (deletionRefused 0) = none ∧
    uploadWaiting.manager.pendingOutbound.map PendingOutbound.correlationId = [⟨1⟩] ∧
    (finalState (deletionRefused 0)).pendingOutbound.map PendingOutbound.correlationId =
      [⟨1⟩, ⟨2⟩] ∧
    uploadWaiting.manager.store.outbox.map Prod.fst = [⟨1⟩] ∧
    (finalState (deletionRefused 0)).store.outbox.map Prod.fst = [⟨1⟩, ⟨2⟩] ∧
    (finalState (deletionRefused 0)).nextOneTimePrekeyId =
      uploadWaiting.manager.nextOneTimePrekeyId + 100 := by
  refine ⟨uploadWaiting_run, ?_, ?_, ?_, ?_, ?_, ?_⟩ <;> decide +kernel

end Cmp.Client
