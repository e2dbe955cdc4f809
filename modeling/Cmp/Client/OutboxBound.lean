import Cmp.Client.Atomicity
import Cmp.Lib.Weighted

/-! The size of the outbox. `ensure_capacity` runs before an item exists, on what the item will
hold; confirmations and rollbacks do not run it again. -/

namespace Cmp.Client

open Cmp.Crypto Cmp.Protocol Cmp.Lib Cmp.Lib.Action

variable {K Sec C : Type}

/-! ## Reservations -/

/-- What `ensure_capacity` adds to the bytes of the outbox. -/
def reserved (additionalPlaintextBytes : Nat) : Nat := (additionalPlaintextBytes + 18) / 3 * 4

theorem ensureCapacity_eq_ok {pending : List (PendingOutbound C)} {n : Nat} :
    ensureCapacity pending n = .ok () ↔
      pending.length < MAX_PENDING_OUTBOUND_ITEMS ∧
        totalWeight PendingOutbound.ciphertextLen pending + reserved n ≤
          MAX_PENDING_OUTBOUND_BYTES := by
  unfold ensureCapacity
  split
  · next hfull => exact ⟨nofun, fun h => absurd h.1 (Nat.not_lt.mpr hfull)⟩
  · next hlength =>
    dsimp only
    split
    · next hbytes => exact ⟨nofun, fun h => absurd h.2 (Nat.not_le.mpr hbytes)⟩
    · next hbytes =>
        exact ⟨fun _ => ⟨Nat.lt_of_not_le hlength, Nat.le_of_not_lt hbytes⟩, fun _ => rfl⟩

theorem ciphertextLen_of_encrypt {S : Suite K Sec C} (hS : S.TagLength) {plaintext aad : Bytes}
    {s t : SessionState K Sec} {message : RatchetMessage C}
    (h : (encrypt S plaintext aad).run s = .ok message t) :
    S.ciphertextLen message.ciphertext = plaintext.length + 16 := by
  obtain ⟨-, chainKey, ckOut, -, -, -, hsealed, -⟩ := (encrypt_eq_ok _ _ _ _ _ _).mp h
  exact hS _ _ _ _ hsealed

/-- The base64 text of a ciphertext has the size that is reserved for its plaintext. -/
theorem b64Len_tagged (n : Nat) : b64Len (n + 16) = reserved n := rfl

/-- The number an operation hands to `ensure_capacity`. -/
def Op.reserves (texts : List MessageId → Bytes) : Op Sec C → Option Nat
  | .encryptMessage _ _ _ plaintext _ => some plaintext.length
  | .encryptReadReceipt _ _ messageIds _ _ => some (receiptPlaintext texts messageIds).length
  | .queueAck messageIds _ _ => some (messageIds.length * 36)
  | .queueReadReceiptAck receiptIds _ _ => some (receiptIds.length * 36)
  | .queueSignedPrekeyRotation .. => some 96
  | .queuePrekeyReplenishment _ => some (PREKEY_TARGET * 48)
  | .confirmPrekeysUploaded .. => some (PREKEY_TARGET * 48)
  | _ => none

/-- The size of every rotation item: a key of 32 bytes and a signature of 64. -/
def rotationLen : Nat := b64Len 32 + b64Len 64

theorem ciphertextLen_rotationItem (rotationId : MessageId) (spk : SignedPreKey Sec) :
    (rotationItem rotationId spk : PendingOutbound C).ciphertextLen = rotationLen := by
  unfold rotationItem PendingOutbound.ciphertextLen b64Encode rotationLen
  rw [List.Vector.toList_length, List.Vector.toList_length]

/-! ## What an operation does to the outbox -/

/-- The outbox after an operation that hands `reserves` to `ensure_capacity`. In `doubled` a batch
has been checked against the outbox without the upload it replaces, which is then put back. -/
inductive OutboxMove (reserves : Option Nat) (doubles : Prop) (before : List (PendingOutbound C)) :
    List (PendingOutbound C) → Prop
  | taken {kept : List (PendingOutbound C)} (hkept : kept.Sublist before) :
      OutboxMove reserves doubles before kept
  | filed (n : Nat) (hreserves : reserves = some n) {kept : List (PendingOutbound C)}
      (hkept : kept.Sublist before) (item : PendingOutbound C)
      (hroom : ensureCapacity kept n = .ok ()) (hfits : item.ciphertextLen ≤ reserved n)
      (hrotation : isRotation item = true → item.ciphertextLen = rotationLen) :
      OutboxMove reserves doubles before (kept ++ [item])
  | replaced (hreserves : reserves = none) (index : Nat) (item replacement : PendingOutbound C)
      (hitem : before[index]? = some item) (hkind : isRotation item = true)
      (hsize : replacement.ciphertextLen = rotationLen) :
      OutboxMove reserves doubles before (before.set index replacement)
  | doubled (hdoubles : doubles) (hreserves : reserves = some (PREKEY_TARGET * 48))
      (item : PendingOutbound C) (hkind : isUpload item = true)
      (hsize : item.ciphertextLen = PREKEY_TARGET * 48) :
      OutboxMove reserves doubles before (before ++ [item])

/-- The outbox keeps to its limits, and its rotations have their size. -/
structure OutboxBounded (pending : List (PendingOutbound C)) : Prop where
  within : Within PendingOutbound.ciphertextLen MAX_PENDING_OUTBOUND_ITEMS
    MAX_PENDING_OUTBOUND_BYTES pending
  rotations : ∀ item ∈ pending, isRotation item = true → item.ciphertextLen = rotationLen

/-- Room for one more batch. -/
def RoomForBatch (pending : List (PendingOutbound C)) : Prop :=
  pending.length < MAX_PENDING_OUTBOUND_ITEMS ∧
    totalWeight PendingOutbound.ciphertextLen pending + PREKEY_TARGET * 48 ≤
      MAX_PENDING_OUTBOUND_BYTES

namespace OutboxMove

variable {reserves : Option Nat} {doubles : Prop} {before after : List (PendingOutbound C)}

theorem same : OutboxMove reserves doubles before before := .taken (.refl _)

theorem of_eq (h : after = before) : OutboxMove reserves doubles before after := h ▸ same

theorem map {α : Type} {call : ManagerM K Sec C α} {m : Manager K Sec C}
    (f : α → List (ClientMessage C))
    (h : OutboxMove reserves doubles before (finalState (call.run m)).pendingOutbound) :
    OutboxMove reserves doubles before (finalState ((f <$> call).run m)).pendingOutbound := by
  rw [finalState_map]
  exact h

theorem bounded (h : OutboxMove reserves doubles before after) (hbefore : OutboxBounded before)
    (hroom : doubles → RoomForBatch before) : OutboxBounded after := by
  cases h with
  | taken hkept =>
    exact ⟨hbefore.within.sublist hkept, fun item hitem => hbefore.rotations item (hkept.mem hitem)⟩
  | filed n hreserves hkept item hcapacity hfits hrotation =>
    obtain ⟨hlength, hbytes⟩ := ensureCapacity_eq_ok.mp hcapacity
    refine ⟨.append hlength ((Nat.add_le_add_left hfits _).trans hbytes), fun item' hitem' => ?_⟩
    rcases List.mem_append.mp hitem' with hitem' | hitem'
    · exact hbefore.rotations item' (hkept.mem hitem')
    · rw [List.mem_singleton.mp hitem']
      exact hrotation
  | replaced hreserves index item replacement hitem hkind hsize =>
    have hold := hbefore.rotations item (List.mem_of_getElem? hitem) hkind
    refine ⟨hbefore.within.set hitem (by rw [hsize, hold]), fun item' hitem' hkind' => ?_⟩
    rcases List.mem_or_eq_of_mem_set hitem' with hitem' | rfl
    · exact hbefore.rotations item' hitem' hkind'
    · exact hsize
  | doubled hdoubles hreserves item hkind hsize =>
    obtain ⟨hlength, hbytes⟩ := hroom hdoubles
    refine ⟨.append hlength (hsize ▸ hbytes), fun item' hitem' hrotation => ?_⟩
    rcases List.mem_append.mp hitem' with hitem' | hitem'
    · exact hbefore.rotations item' hitem' hrotation
    · rw [List.mem_singleton.mp hitem'] at hrotation
      cases item <;> simp_all [isUpload, isRotation]

/-- A new item is not larger than what was reserved for it. -/
theorem fits {n : Nat} (h : OutboxMove (some n) doubles before after) {item : PendingOutbound C}
    (hitem : item ∈ after) : item ∈ before ∨ item.ciphertextLen ≤ reserved n := by
  cases h with
  | taken hkept => exact .inl (hkept.mem hitem)
  | filed n hreserves hkept item' hroom hfits =>
    cases hreserves
    rcases List.mem_append.mp hitem with hitem | hitem
    · exact .inl (hkept.mem hitem)
    · rw [List.mem_singleton.mp hitem]
      exact .inr hfits
  | replaced hreserves => cases hreserves
  | doubled hdoubles hreserves item' hkind hsize =>
    cases hreserves
    rcases List.mem_append.mp hitem with hitem | hitem
    · exact .inl hitem
    · rw [List.mem_singleton.mp hitem, hsize]
      exact .inr (by decide)

end OutboxMove

variable {texts : List MessageId → Bytes}

section

variable {S : IdentitySuite K Sec C} {m : Manager K Sec C} {doubles : Prop}

theorem EncryptResult.moved (hS : S.toSuite.TagLength) {peerId : UserId} {plaintext : Bytes}
    {item : EncryptedEnvelope C → PendingOutbound C}
    {result : EStateM.Result ManagerError (Manager K Sec C) (ClientMessage C)}
    (h : EncryptResult S m peerId plaintext item result)
    (hitem : ∀ envelope, (item envelope).ciphertextLen = envelope.ciphertext.length ∧
      isRotation (item envelope) = false) :
    OutboxMove (some plaintext.length) doubles m.pendingOutbound
      (finalState result).pendingOutbound := by
  cases h with
  | failed e => exact .same
  | filed original message ratchet hsession hmade hnew hroom =>
    refine .filed _ rfl (.refl _) _ hroom ?_ fun hkind => ?_
    · rw [(hitem _).1]
      unfold PeerSession.wrap
      rw [ciphertextLen_of_encrypt hS hmade, b64Len_tagged]
    · rw [(hitem _).2] at hkind
      cases hkind

/-- An item whose size is what is handed to `ensure_capacity`. -/
theorem queueItem_moved (item : PendingOutbound C) (fails : Bool)
    (hkind : isRotation item = false) :
    OutboxMove (some item.ciphertextLen) doubles m.pendingOutbound
      (finalState ((do
        let m ← get
        ofExcept (ensureCapacity m.pendingOutbound item.ciphertextLen)
        pushAndPersist item fails popOutbound :
          ManagerM K Sec C (ClientMessage C)).run m)).pendingOutbound := by
  rcases queueItem_cases item.ciphertextLen item fails m with ⟨e, h⟩ | ⟨hroom, -, h⟩
  · exact h ▸ .same
  · rw [h]
    refine .filed _ rfl (.refl _) item hroom ?_ fun hrotation => ?_
    · unfold reserved
      omega
    · rw [hkind] at hrotation
      cases hrotation

theorem queueSignedPrekeyRotation_moved (now : Nat) (drawn : Sec) (rotationId : MessageId)
    (fails : Bool) :
    OutboxMove (some 96) doubles m.pendingOutbound
      (finalState ((queueSignedPrekeyRotation S now drawn rotationId fails).run
        m)).pendingOutbound := by
  rcases queueSignedPrekeyRotation_cases S now drawn rotationId fails m with
    h | ⟨current, keyId, nextKeyId, -, -, -, hroom, h⟩
  · rw [h]
    exact .same
  · rw [h]
    refine .filed 96 rfl (.refl _) _ hroom ?_ fun _ => ciphertextLen_rotationItem _ _
    rw [ciphertextLen_rotationItem]
    decide

theorem confirmSignedPrekeyRotated_moved (rotationId : MessageId)
    (accepted previouslyAccepted : Bool) (currentKeyId : UInt32) (now : Nat) (drawn : Sec)
    (newId : MessageId) (fails : Bool) :
    OutboxMove none doubles m.pendingOutbound
      (finalState ((confirmSignedPrekeyRotated S rotationId accepted previouslyAccepted currentKeyId
        now drawn newId fails).run m)).pendingOutbound := by
  have hanswer := confirmSignedPrekeyRotated_cases S rotationId accepted previouslyAccepted
    currentKeyId now drawn newId fails m
  revert hanswer
  generalize EStateM.run (confirmSignedPrekeyRotated S rotationId accepted previouslyAccepted
    currentKeyId now drawn newId fails) m = result
  intro hanswer
  cases hanswer with
  | unknown | failed e => exact .same
  | confirmed index publicKey signature hitem => exact .taken (List.eraseIdx_sublist _ _)
  | replaced index candidateKeyId publicKey signature hitem hrejected keyId nextKeyId hids hnew =>
    exact .replaced rfl index _ _ hitem rfl (ciphertextLen_rotationItem _ _)

theorem Generated.ciphertextLen {env : UploadEnv Sec}
    {generated : List (UInt32 × OneTimePreKey Sec)} {nextId : UInt32}
    (hgen : Generated S m env generated nextId) :
    (env.item generated : PendingOutbound C).ciphertextLen = PREKEY_TARGET * 48 := by
  calc (generated.map publicPrekey).length * 48 = generated.length * 48 := by rw [List.length_map]
    _ = PREKEY_TARGET * 48 := by rw [hgen.length]

/-- A batch is filed on an outbox that may have been shortened for it. -/
theorem Generated.moved {before kept : List (PendingOutbound C)} {env : UploadEnv Sec}
    {generated : List (UInt32 × OneTimePreKey Sec)} {nextId : UInt32}
    (hgen : Generated S m env generated nextId) (hkept : kept.Sublist before)
    (hroom : ensureCapacity kept (PREKEY_TARGET * 48) = .ok ()) :
    OutboxMove (some (PREKEY_TARGET * 48)) doubles before (kept ++ [env.item generated]) := by
  refine .filed _ rfl hkept _ hroom ?_ nofun
  rw [hgen.ciphertextLen]
  decide

theorem Replenished.moved {env : UploadEnv Sec}
    {result : EStateM.Result ManagerError (Manager K Sec C) (ClientMessage C)}
    (h : Replenished S m env result) (hm : m.Sound) :
    OutboxMove (some (PREKEY_TARGET * 48)) doubles m.pendingOutbound
      (finalState result).pendingOutbound := by
  cases h with
  | pending upload hupload hkind | refused e hnot => exact .same
  | undone e hmakes hnot m' hback =>
    cases hback.mpr (hm.not_reusesId hmakes S env)
    exact .same
  | filed hmakes htaken generated nextId hgen => exact hgen.moved (.refl _) hmakes.room

theorem confirmPrekeysUploaded_moved (hm : m.Sound) (uploadId : MessageId) (accepted : Bool)
    (remaining : UInt32) (env : UploadEnv Sec) (fails : Bool) :
    OutboxMove (some (PREKEY_TARGET * 48))
      ((Op.confirmPrekeysUploaded uploadId accepted remaining env fails : Op Sec C).DoublesUpload m)
      m.pendingOutbound
      (finalState ((confirmPrekeysUploaded S uploadId accepted remaining env fails).run
        m)).pendingOutbound := by
  have hanswer := confirmPrekeysUploaded_cases S uploadId accepted remaining env fails m
  generalize EStateM.run (confirmPrekeysUploaded S uploadId accepted remaining env fails) m =
    result at hanswer
  cases hanswer with
  | unknown | failed => exact .same
  | undone e _ hunsound => exact absurd hm hunsound
  | confirmed | resent | rejected => exact .taken (List.eraseIdx_sublist _ _)
  | replaced index prekeys hitem _ _ generated nextId hgen _ _ hroom =>
    have hafter : (((fileGenerated generated nextId env m).filed (env.item generated)).unfiled index
        uploadId).pendingOutbound = m.pendingOutbound.eraseIdx index ++ [env.item generated] :=
      eraseIdx_append hitem
    exact hafter.symm ▸ hgen.moved (List.eraseIdx_sublist _ index) hroom
  | kept e generated nextId hgen _ hdoubles =>
    exact .doubled hdoubles rfl _ rfl hgen.ciphertextLen

theorem perform_moved (hS : S.toSuite.TagLength) (texts : List MessageId → Bytes) (hm : m.Sound)
    (op : Op Sec C) :
    OutboxMove (op.reserves texts) (op.DoublesUpload m) m.pendingOutbound
      (finalState ((perform S texts op).run m)).pendingOutbound := by
  cases op with
  | encryptMessage peerId recipientId messageId plaintext fails =>
    refine .map _ ?_
    exact (encryptMessage_result S peerId recipientId messageId plaintext fails m).moved hS
      fun _ => ⟨rfl, rfl⟩
  | encryptReadReceipt peerId recipientId messageIds receiptId fails =>
    refine .map _ ?_
    exact (encryptReadReceipt_result S texts peerId recipientId messageIds receiptId fails m).moved
      hS fun _ => ⟨rfl, rfl⟩
  | queueAck messageIds ackId fails =>
    refine .map _ ?_
    exact queueItem_moved (.ack ackId messageIds) fails rfl
  | queueReadReceiptAck receiptIds ackId fails =>
    refine .map _ ?_
    exact queueItem_moved (.readReceiptAck ackId receiptIds) fails rfl
  | queueSignedPrekeyRotation now drawn rotationId fails =>
    refine .map _ ?_
    exact queueSignedPrekeyRotation_moved now drawn rotationId fails
  | confirmSignedPrekeyRotated rotationId accepted previouslyAccepted currentKeyId now drawn newId
      fails =>
    refine .map _ ?_
    exact confirmSignedPrekeyRotated_moved rotationId accepted previouslyAccepted currentKeyId now
      drawn newId fails
  | queuePrekeyReplenishment env =>
    refine .map _ ?_
    exact (queuePrekeyReplenishment_result S env m).moved hm
  | confirmPrekeysUploaded uploadId accepted remaining env fails =>
    refine .map _ ?_
    exact confirmPrekeysUploaded_moved hm uploadId accepted remaining env fails
  | _ => exact .taken ((perform_outcome texts hm _).kept fun _ => id)

end

/-! ## Runs -/

/-- Runs in which every operation meets a condition on the manager it finds. -/
inductive GuardedRun (S : IdentitySuite K Sec C) (texts : List MessageId → Bytes)
    (guard : Manager K Sec C → Op Sec C → Prop) : Trace K Sec C → Prop
  | start (identity : Sec) (loadedAt cutoffNow pruneNow : Nat) (m : Manager K Sec C)
      (hload :
        loadOrGenerate identity (CryptoStore.empty K Sec C) loadedAt cutoffNow pruneNow false =
        .ok m) :
      GuardedRun S texts guard ⟨m, [], [], [], 0⟩
  | op {t : Trace K Sec C} (run : GuardedRun S texts guard t) (op : Op Sec C)
      (hguard : guard t.manager op) : GuardedRun S texts guard (t.step S texts op)
  | restart {t : Trace K Sec C} (run : GuardedRun S texts guard t)
      (loadedAt cutoffNow pruneNow : Nat) (m : Manager K Sec C)
      (hload : loadOrGenerate t.manager.identity t.manager.store loadedAt cutoffNow pruneNow false =
        .ok m) :
      GuardedRun S texts guard (t.restart cutoffNow pruneNow m)

theorem GuardedRun.managerRun {S : IdentitySuite K Sec C}
    {guard : Manager K Sec C → Op Sec C → Prop} {t : Trace K Sec C}
    (run : GuardedRun S texts guard t) : ManagerRun S texts t := by
  induction run with
  | start identity loadedAt cutoffNow pruneNow m hload =>
    exact .start identity loadedAt cutoffNow pruneNow m hload
  | op run op hguard ih => exact .op ih op
  | restart run loadedAt cutoffNow pruneNow m hload ih =>
    exact .restart ih loadedAt cutoffNow pruneNow m hload

/-- A batch that is filed beside the upload it replaces finds room. -/
def DoublesWithRoom (m : Manager K Sec C) (op : Op Sec C) : Prop :=
  op.DoublesUpload m → RoomForBatch m.pendingOutbound

theorem GuardedRun.bounded {S : IdentitySuite K Sec C} (hS : S.toSuite.TagLength)
    {t : Trace K Sec C} (run : GuardedRun S texts DoublesWithRoom t) :
    OutboxBounded t.manager.pendingOutbound := by
  induction run with
  | start identity loadedAt cutoffNow pruneNow m hload =>
    cases hload
    exact ⟨.nil, fun _ hitem => absurd hitem List.not_mem_nil⟩
  | op run op hguard ih =>
    exact (perform_moved hS texts run.managerRun.durable.sound op).bounded ih hguard
  | restart run loadedAt cutoffNow pruneNow m hload ih =>
    have hdurable := run.managerRun.durable
    rw [hdurable.load] at hload
    cases hload
    exact ⟨ih.within.perm hdurable.outbox.perm,
      fun item hitem => ih.rotations item (hdurable.outbox.perm.mem_iff.mp hitem)⟩

/-- What `ensure_capacity` reserves is at least the size of the item that is then filed; and the
outbox keeps to its two limits, as long as no batch is filed beside the upload it replaces without
room for both. -/
theorem outbox_bounded (S : IdentitySuite K Sec C) (hS : S.toSuite.TagLength)
    (texts : List MessageId → Bytes) :
    (∀ t : Trace K Sec C, ManagerRun S texts t → ∀ (op : Op Sec C) n, op.reserves texts = some n →
      ∀ item ∈ (t.step S texts op).manager.pendingOutbound,
        item ∈ t.manager.pendingOutbound ∨ item.ciphertextLen ≤ reserved n) ∧
    ∀ t : Trace K Sec C, GuardedRun S texts DoublesWithRoom t →
      t.manager.pendingOutbound.length ≤ MAX_PENDING_OUTBOUND_ITEMS ∧
      (t.manager.pendingOutbound.map PendingOutbound.ciphertextLen).sum ≤
        MAX_PENDING_OUTBOUND_BYTES := by
  refine ⟨?_, ?_⟩
  · intro t run op n hreserves item hitem
    have hmoved := perform_moved hS texts run.durable.sound op
    rw [hreserves] at hmoved
    exact hmoved.fits hitem
  · intro t run
    have hbounded := (run.bounded hS).within
    exact ⟨hbounded.length, hbounded.weights⟩

theorem outbox_bounded_upload :
    (uploadWaiting.manager.pendingOutbound.length ≤ MAX_PENDING_OUTBOUND_ITEMS ∧
      (uploadWaiting.manager.pendingOutbound.map PendingOutbound.ciphertextLen).sum ≤
        MAX_PENDING_OUTBOUND_BYTES) ∧
    ((.ack ⟨2⟩ [⟨7⟩] : PendingOutbound Ciphertext) ∈ uploadWaiting.manager.pendingOutbound ∨
      (.ack ⟨2⟩ [⟨7⟩] : PendingOutbound Ciphertext).ciphertextLen ≤ reserved 36) := by
  have h := outbox_bounded symbolicIdentity symbolic_tagLength fun _ => []
  refine ⟨h.2 uploadWaiting (.op (.start (key32 1) 0 0 0 (newManager (key32 1)) rfl) _ nofun), ?_⟩
  exact h.1 uploadWaiting uploadWaiting_run (.queueAck [⟨7⟩] ⟨2⟩ false) 36 rfl _ (by decide +kernel)

/-! ## A full outbox -/

/-- The batch stays beside the upload. -/
theorem length_of_doublesUpload {S : IdentitySuite K Sec C} {op : Op Sec C} {m : Manager K Sec C}
    (h : op.DoublesUpload m) :
    (finalState ((perform S texts op).run m)).pendingOutbound.length =
      m.pendingOutbound.length + 1 := by
  cases op with
  | confirmPrekeysUploaded uploadId accepted remaining env fails =>
    refine (congrArg (fun m => m.pendingOutbound.length) (finalState_map _ _ m)).trans ?_
    have hanswer := confirmPrekeysUploaded_cases S uploadId accepted remaining env fails m
    generalize EStateM.run (confirmPrekeysUploaded S uploadId accepted remaining env fails) m =
      result at hanswer ⊢
    cases hanswer with
    | unknown hnone =>
      obtain ⟨-, start, env', hon, -⟩ := h
      simp only [Op.batchOn, hnone] at hon
      cases hon
    | failed e hnot => exact absurd (Op.leavesTrace_of_doublesUpload h) hnot
    | undone e _ _ hnot => exact absurd h hnot
    | confirmed _ _ _ _ _ hfails | resent _ _ _ _ _ _ _ _ hfails => cases hfails.symm.trans h.1
    | replaced _ _ _ _ _ _ _ _ _ hfails | rejected _ _ _ _ hfails => cases hfails.symm.trans h.1
    | kept => exact List.length_append
  | _ => cases h

theorem queueAck_files {m : Manager K Sec C} {ackId : MessageId}
    (hcapacity : ensureCapacity m.pendingOutbound 0 = .ok ())
    (hnew : ackId ∉ m.store.outbox.map Prod.fst) :
    (queueAck [] ackId false).run m = .ok (.ack ackId []) (m.filed (.ack ackId [])) := by
  unfold queueAck
  rw [run_bind_ok (run_get m), List.length_nil, Nat.zero_mul, hcapacity]
  exact pushAndPersist_new (.ack ackId []) popOutbound hnew

/-- The client with its upload, and `k` empty acknowledgements after it. -/
def acksWaiting : Nat → Trace Term Key32 Ciphertext
  | 0 => uploadWaiting
  | k + 1 => (acksWaiting k).step symbolicIdentity (fun _ => []) (.queueAck [] ⟨k + 2⟩ false)

theorem acksWaiting_run (k : Nat) : ManagerRun symbolicIdentity (fun _ => []) (acksWaiting k) := by
  induction k with
  | zero => exact uploadWaiting_run
  | succ k ih => exact .op ih _

structure AcksWaiting (k : Nat) (m : Manager Term Key32 Ciphertext) : Prop where
  pending : m.pendingOutbound = uploadWaiting.manager.pendingOutbound ++
    (List.range k).map fun i => .ack ⟨i + 2⟩ []
  rows : m.store.outbox.map Prod.fst = ⟨1⟩ :: (List.range k).map fun i => ⟨i + 2⟩
  next : m.nextOneTimePrekeyId = uploadWaiting.manager.nextOneTimePrekeyId

theorem uploadWaiting_length : uploadWaiting.manager.pendingOutbound.length = 1 := by
  decide +kernel

theorem uploadWaiting_weight :
    totalWeight PendingOutbound.ciphertextLen uploadWaiting.manager.pendingOutbound = 4800 := by
  decide +kernel

/-- The acknowledgements are empty. -/
theorem totalWeight_acks (k : Nat) : totalWeight PendingOutbound.ciphertextLen
    ((List.range k).map fun i => (.ack ⟨i + 2⟩ [] : PendingOutbound Ciphertext)) = 0 := by
  unfold totalWeight
  rw [List.map_map]
  exact List.sum_eq_zero fun n hn => by
    obtain ⟨i, -, rfl⟩ := List.mem_map.mp hn
    rfl

variable {m : Manager Term Key32 Ciphertext}

theorem AcksWaiting.length {k : Nat} (h : AcksWaiting k m) :
    m.pendingOutbound.length = k + 1 := by
  rw [h.pending, List.length_append, uploadWaiting_length, List.length_map, List.length_range]
  omega

theorem AcksWaiting.weight {k : Nat} (h : AcksWaiting k m) :
    totalWeight PendingOutbound.ciphertextLen m.pendingOutbound = 4800 := by
  have hsplit : totalWeight PendingOutbound.ciphertextLen m.pendingOutbound =
      totalWeight PendingOutbound.ciphertextLen uploadWaiting.manager.pendingOutbound +
        totalWeight PendingOutbound.ciphertextLen
          ((List.range k).map fun i => (.ack ⟨i + 2⟩ [] : PendingOutbound Ciphertext)) := by
    rw [h.pending]
    unfold totalWeight
    rw [List.map_append, List.sum_append]
  rw [hsplit, uploadWaiting_weight, totalWeight_acks]

theorem AcksWaiting.notMem {k : Nat} (h : AcksWaiting k m) {n : Nat} (hn : k + 2 ≤ n) :
    (⟨n⟩ : MessageId) ∉ m.store.outbox.map Prod.fst := by
  rw [h.rows]
  intro hmem
  rcases List.mem_cons.mp hmem with heq | hmem
  · cases heq
    omega
  · obtain ⟨i, hi, heq⟩ := List.mem_map.mp hmem
    cases heq
    have := List.mem_range.mp hi
    omega

theorem acksWaiting_acks (k : Nat) (hk : k < MAX_PENDING_OUTBOUND_ITEMS) :
    AcksWaiting k (acksWaiting k).manager := by
  induction k with
  | zero => exact ⟨(List.append_nil _).symm, by decide +kernel, rfl⟩
  | succ k ih =>
    have hacks := ih (Nat.lt_of_succ_lt hk)
    have hcapacity : ensureCapacity (acksWaiting k).manager.pendingOutbound 0 = .ok () := by
      refine ensureCapacity_eq_ok.mpr ⟨?_, ?_⟩
      · rw [hacks.length]
        exact hk
      · rw [hacks.weight]
        decide
    have hrun := queueAck_files hcapacity (hacks.notMem (Nat.le_refl (k + 2)))
    have hmanager : (acksWaiting (k + 1)).manager =
        (acksWaiting k).manager.filed (.ack ⟨k + 2⟩ []) :=
      (finalState_map _ _ _).trans (congrArg finalState hrun)
    rw [hmanager]
    refine ⟨?_, ?_, hacks.next⟩
    · unfold Manager.filed
      simp only [hacks.pending, List.range_succ, List.map_append, List.map_singleton,
        List.append_assoc]
    · unfold Manager.filed
      simp only [List.map_append, hacks.rows, List.range_succ, List.map_singleton]
      rfl

theorem uploadWaiting_pending :
    ∃ prekeys, uploadWaiting.manager.pendingOutbound = [.preKeyUpload ⟨1⟩ prekeys] := by
  obtain ⟨generated, nextId, -, hrun⟩ : ∃ generated nextId, Generated symbolicIdentity
        (newManager (key32 1) : Manager Term Key32 Ciphertext)
          (batchEnv ⟨1⟩ false) generated nextId ∧
      (queuePrekeyReplenishment symbolicIdentity (batchEnv ⟨1⟩ false)).run
        (newManager (key32 1)) = _ :=
    queuePrekeyReplenishment_idle symbolicIdentity rfl rfl (by decide) rfl
  have hmanager := (finalState_map (fun message => [message]) _ _).trans (congrArg finalState hrun)
  exact ⟨generated.map publicPrekey, congrArg Manager.pendingOutbound hmanager⟩

/-- The answer to the upload: accepted, with no keys left. -/
def answerUpload : Op Key32 Ciphertext :=
  .confirmPrekeysUploaded ⟨1⟩ true 0 (batchEnv ⟨2000⟩ false) true

theorem AcksWaiting.doubles {k : Nat} (h : AcksWaiting k m) (hk : k < MAX_PENDING_OUTBOUND_ITEMS) :
    answerUpload.DoublesUpload m := by
  obtain ⟨prekeys, hupload⟩ := uploadWaiting_pending
  have hpending : m.pendingOutbound = .preKeyUpload ⟨1⟩ prekeys ::
      (List.range k).map fun i => .ack ⟨i + 2⟩ [] := by
    rw [h.pending, hupload]
    rfl
  have hf : findItem (isUploadOf ⟨1⟩) m.pendingOutbound =
      some (0, .preKeyUpload ⟨1⟩ prekeys) := by
    rw [hpending]
    simp [findItem, List.findIdx?_cons, isUploadOf]
  have hrest : (m.without 0).pendingOutbound = (List.range k).map fun i => .ack ⟨i + 2⟩ [] := by
    unfold Manager.without
    simp only [hpending, List.eraseIdx_cons_zero]
  refine ⟨rfl, m.without 0, batchEnv ⟨2000⟩ false, ?_, ⟨?_, ?_, ?_⟩, rfl, ?_⟩
  · exact (Op.batchOn_answer hf true 0 _ true).trans (if_pos ⟨rfl, by decide⟩)
  · intro item hitem
    rw [hrest] at hitem
    obtain ⟨i, -, rfl⟩ := List.mem_map.mp hitem
    rfl
  · have hnext : uploadWaiting.manager.nextOneTimePrekeyId.toNat + PREKEY_TARGET < UInt32.size := by
      decide +kernel
    exact h.next ▸ hnext
  · refine ensureCapacity_eq_ok.mpr ⟨?_, ?_⟩
    · rw [hrest, List.length_map, List.length_range]
      exact hk
    · rw [hrest, totalWeight_acks]
      decide
  · exact h.notMem (by unfold MAX_PENDING_OUTBOUND_ITEMS at hk; omega)

theorem AcksWaiting.answered {k : Nat} {t : Trace Term Key32 Ciphertext}
    (h : AcksWaiting k t.manager) (hk : k < MAX_PENDING_OUTBOUND_ITEMS) :
    (t.step symbolicIdentity (fun _ => []) answerUpload).manager.pendingOutbound.length = k + 2 :=
  (length_of_doublesUpload (h.doubles hk)).trans (congrArg (· + 1) h.length)

/-- The client gets the answer with 999 acknowledgements behind its upload. -/
def overfilled : Trace Term Key32 Ciphertext :=
  (acksWaiting 999).step symbolicIdentity (fun _ => []) answerUpload

/-- The outbox holds one item more than it may. -/
theorem outbox_overfilled :
    ManagerRun symbolicIdentity (fun _ => []) overfilled ∧
      overfilled.manager.pendingOutbound.length = MAX_PENDING_OUTBOUND_ITEMS + 1 := by
  unfold overfilled
  exact ⟨.op (acksWaiting_run 999) _, (acksWaiting_acks 999 (by decide)).answered (by decide)⟩

end Cmp.Client
