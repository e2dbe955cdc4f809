import Cmp.Client.PrekeyOutcomes
import Cmp.Crypto.SymbolicIdentity
import Cmp.Lib.Mirror

/-! The durable state refines memory: after every operation, whatever store calls
were refused, a restart finds the sessions, prekeys, ids, outbox and recent markers
that are in memory. -/

namespace Cmp.Client

open Cmp.Crypto Cmp.Protocol Cmp.Lib Cmp.Lib.Action

variable {K Sec C : Type}

/-! ## Prekey ids -/

variable {sent : List (UserId × EncryptedEnvelope C)}

section Sound

variable {S : IdentitySuite K Sec C} {m : Manager K Sec C}

theorem Manager.Sound.take (hm : m.Sound) (opkId : Option UInt32) :
    (takeOneTimePrekey opkId m).Sound := by
  unfold takeOneTimePrekey
  cases opkId with
  | none => exact hm
  | some id =>
    dsimp only
    split
    · refine ⟨fun x => ?_, fun x hx => hm.opkBelow x (Finmap.mem_erase.mp hx).2, hm.floor,
        hm.spkBelow⟩
      rw [Finmap.mem_erase, Finmap.mem_erase, hm.created]
    · exact hm

theorem Manager.Sound.register (hm : m.Sound) (spk : SignedPreKey Sec)
    (opks : List (UInt32 × OneTimePreKey Sec)) (rotatedAt createdAt : Nat) :
    (registrationKeys spk opks rotatedAt createdAt m).Sound where
  created id := by
    unfold registrationKeys
    rw [HMap.mem_insertAll, HMap.mem_insertAll, List.map_map]
    rfl
  opkBelow id hid := by
    unfold registrationKeys at hid ⊢
    rw [HMap.mem_insertAll] at hid
    have hmem : id ∈ opks.map Prod.fst := hid.resolve_right Finmap.notMem_empty
    refine le_trans ?_ (le_max_left _ _)
    cases hmax : (opks.map Prod.fst).max? with
    | none => rw [List.max?_eq_none_iff.mp hmax] at hmem; cases hmem
    | some top => exact saturatingSucc_mono ((List.max?_eq_some_iff.mp hmax).2 id hmem)
  floor := le_trans hm.floor (le_max_right _ _)
  spkBelow spk' h := by
    cases h
    exact le_refl _

theorem Manager.Sound.fileGenerated (hm : m.Sound) {env : UploadEnv Sec}
    {generated : List (UInt32 × OneTimePreKey Sec)} {nextId : UInt32}
    (hgen : Generated S m env generated nextId) : (fileGenerated generated nextId env m).Sound := by
  have hnext := checkedAdd_eq_some hgen.next
  have hle : m.nextOneTimePrekeyId ≤ nextId := UInt32.le_iff_toNat_le.mpr (by omega)
  refine ⟨fun id => ?_, fun id hid => ?_, le_trans hm.floor hle, hm.spkBelow⟩
  · unfold Client.fileGenerated
    rw [HMap.mem_insertAll, HMap.mem_insertAll, HMap.mem_filter_key, HMap.mem_filter_key,
      hm.created, List.map_map]
    rfl
  · unfold Client.fileGenerated at hid ⊢
    rcases (HMap.mem_insertAll _ _ _).mp hid with hid | hid
    · -- a generated id is below the id after the range
      have hub := ((hgen.mem_ids id).mp hid).2
      exact saturatingSucc_le_of_lt (UInt32.lt_iff_toNat_lt.mpr (hnext ▸ hub))
    · exact le_trans (hm.opkBelow id ((HMap.mem_filter_key _ _ _).mp hid).1) hle

theorem Manager.Sound.dropRejected (hm : m.Sound) (ids : List UInt32) :
    (dropRejected ids m).Sound := by
  refine ⟨fun id => ?_, fun id hid => ?_, hm.floor, hm.spkBelow⟩
  · unfold Client.dropRejected
    rw [HMap.mem_removeAll, HMap.mem_removeAll, hm.created]
    constructor
    · rintro ⟨hmem, hnot⟩
      exact ⟨hmem, fun hid => hnot (HMap.mem_removeAll_of_mem ids id _ hid hmem)⟩
    · rintro ⟨hmem, hnot⟩
      exact ⟨hmem, fun hid => hnot (HMap.mem_of_mem_removeAll ids id _ hid).1⟩
  · exact hm.opkBelow id ((HMap.mem_removeAll _ _ _).mp hid).1

theorem nextKeyId_of_replacementIds {currentKeyId keyId nextKeyId : UInt32}
    (h : replacementIds m currentKeyId = .ok (keyId, nextKeyId)) :
    checkedAdd keyId 1 = some nextKeyId := by
  unfold replacementIds at h
  split at h
  · cases h
  · split at h
    · cases h
    · dsimp only at h
      split at h
      · cases h
      · next hnext =>
        cases h
        exact hnext

/-- A new current signed prekey keeps the rest. -/
theorem Manager.Sound.withSpk (hm : m.Sound) {keyId nextKeyId : UInt32}
    (hnext : checkedAdd keyId 1 = some nextKeyId) (drawn : Sec) (history : List (SignedPreKey Sec))
    (now : Nat) :
    Manager.Sound
      { m with
        storedSpk := some (SignedPreKey.generate S keyId m.identity drawn)
        previousSpks := history
        signedPrekeyRotatedAt := now
        nextSignedPrekeyId := nextKeyId } :=
  ⟨hm.created, hm.opkBelow, hm.floor, fun spk h => by
    cases h
    exact saturatingSucc_le_of_checkedAdd hnext⟩

theorem Outcome.sound {op : Op Sec C} {m' : Manager K Sec C} (h : Outcome S m op sent m')
    (hm : m.Sound) : m'.Sound := by
  cases h with
  | decrypted peerId messageId envelope env plaintext session opkId =>
    have htake := Manager.Sound.take
      (m := { (m.pruned env.now).prunedInMemory env.pruneNow with
        sessions := m.sessions.insert peerId session })
      ⟨hm.created, hm.opkBelow, hm.floor, hm.spkBelow⟩ opkId
    exact ⟨htake.created, htake.opkBelow, htake.floor, htake.spkBelow⟩
  | registered spk opks rotatedAt createdAt =>
    have hreg := hm.register spk opks rotatedAt createdAt
    exact ⟨hreg.created, hreg.opkBelow, hreg.floor, hreg.spkBelow⟩
  | rotated now drawn rotationId fails current keyId nextKeyId hids =>
    have hspk := hm.withSpk (S := S) (storedSpk_of_nextRotationIds hids).2 drawn
      (current :: m.previousSpks) now
    exact ⟨hspk.created, hspk.opkBelow, hspk.floor, hspk.spkBelow⟩
  | rotationReplaced _ index item previouslyAccepted currentKeyId keyId nextKeyId now drawn newId _
      _ hids =>
    have hspk := hm.withSpk (S := S) (nextKeyId_of_replacementIds hids) drawn
      ((historyWith previouslyAccepted m.storedSpk m.previousSpks).take
        SIGNED_PREKEY_PRIVATE_HISTORY) now
    exact ⟨hspk.created, hspk.opkBelow, hspk.floor, hspk.spkBelow⟩
  | replenished _ env generated nextId hgen =>
    have hfile := hm.fileGenerated hgen
    exact ⟨hfile.created, hfile.opkBelow, hfile.floor, hfile.spkBelow⟩
  | uploadReplaced _ index item env generated nextId hitem hgen =>
    have hfile := hm.fileGenerated hgen
    exact ⟨hfile.created, hfile.opkBelow, hfile.floor, hfile.spkBelow⟩
  | uploadRejected _ index item ids =>
    have hdrop := hm.dropRejected ids
    exact ⟨hdrop.created, hdrop.opkBelow, hdrop.floor, hdrop.spkBelow⟩
  | _ => exact ⟨hm.created, hm.opkBelow, hm.floor, hm.spkBelow⟩

end Sound

/-! ## The core row -/

/-- The core fields of a manager that has never written its row. -/
def CoreState.fresh (K Sec : Type) : CoreState K Sec :=
  { CoreState.empty K Sec with
    nextSignedPrekeyId := some 0
    nextOneTimePrekeyId := some LEGACY_PREKEY_ID_FLOOR }

/-- The core row holds the core fields. -/
def Manager.CoreKept (m : Manager K Sec C) : Prop :=
  m.store.core = some m.coreState ∨ (m.store.core = none ∧ m.coreState = CoreState.fresh K Sec)

theorem core_markProcessedCommitted (key : UserId × MessageId) (st : CryptoStore K Sec C) :
    ((st.markProcessedCommitted key).getD st).core = st.core ∧
      ((st.markProcessedCommitted key).getD st).outbox = st.outbox := by
  unfold CryptoStore.markProcessedCommitted
  split <;> exact ⟨rfl, rfl⟩

section Kept

variable {S : IdentitySuite K Sec C} {m m' : Manager K Sec C} {op : Op Sec C}
  {sent : List (UserId × EncryptedEnvelope C)}

theorem Outcome.coreKept (h : Outcome S m op sent m') (hm : m.CoreKept) : m'.CoreKept := by
  cases h with
  | idle | asked | pruned | prunedTwice | confirmed | acked => exact hm
  | storedInbound peerId messageId =>
    unfold Manager.CoreKept Manager.committed
    rw [(core_markProcessedCommitted (peerId, messageId) m.store).1]
    exact hm
  | _ => exact .inl rfl

/-! ## The outbox -/

/-- Items that carry a ciphertext: the Message and ReadReceipt items. -/
def isSealed (item : PendingOutbound C) : Bool := (sealedTo item.toClientMessage).isSome

/-- The outbox rows mirror the items in memory. -/
def Manager.OutboxKept (m : Manager K Sec C) : Prop :=
  Mirrors PendingOutbound.correlationId isSealed m.pendingOutbound m.store.outbox

theorem Outcome.outboxKept (h : Outcome S m op sent m') (hm : m.OutboxKept) : m'.OutboxKept := by
  cases h with
  | encrypted _ peerId recipientId plaintext original message ratchet item _ _ _ hnew =>
    exact Mirrors.append hm hnew
  | queued _ item _ hnew => exact Mirrors.append hm hnew
  | confirmed _ index item hitem | rejected messageId fails index recipientId envelope hitem =>
    exact Mirrors.erase hm hitem
  | storedInbound peerId messageId =>
    unfold Manager.OutboxKept Manager.committed
    rw [(core_markProcessedCommitted (peerId, messageId) m.store).2]
    exact hm
  | acked ackId messageIds fails index item hitem hids =>
    cases correlationId_of_ackedIds item hids
    exact Mirrors.erase hm hitem
  | rotated now drawn rotationId fails current keyId nextKeyId hids hnew =>
    exact Mirrors.append hm hnew
  | rotationAccepted _ index item hitem => exact Mirrors.erase hm hitem
  | rotationReplaced _ index item _ _ keyId _ _ drawn newId hitem _ _ hnew =>
    exact Mirrors.replace hm hitem rfl hnew
  | replenished _ env generated nextId hgen hnew => exact Mirrors.append hm hnew
  | uploadReplaced _ index item env generated nextId hitem hgen hnew =>
    have happ : Mirrors PendingOutbound.correlationId isSealed
        (m.pendingOutbound ++ [env.item generated])
        (m.store.outbox ++ [(env.uploadId, env.item generated)]) := Mirrors.append hm hnew
    obtain ⟨hlt, -⟩ := List.getElem?_eq_some_iff.mp hitem
    exact happ.erase ((List.getElem?_append_left hlt).trans hitem)
  | uploadRejected _ index item ids hitem => exact Mirrors.erase hm hitem
  | decrypted peerId messageId envelope env plaintext session opkId =>
    unfold Manager.OutboxKept Manager.marked Manager.opened
    rw [takeOneTimePrekey_eq]
    exact hm
  | _ => exact hm

/-- Every pending ciphertext has the current protocol version. -/
def Manager.Versioned (m : Manager K Sec C) : Prop :=
  ∀ item ∈ m.pendingOutbound, ∀ recipientId envelope,
    sealedTo item.toClientMessage = some (recipientId, envelope) →
      envelope.version = PROTOCOL_VERSION

theorem Manager.Versioned.append (hm : m.Versioned) {item : PendingOutbound C}
    (hitem : ∀ recipientId envelope, sealedTo item.toClientMessage = some (recipientId, envelope) →
      envelope.version = PROTOCOL_VERSION) :
    ∀ other ∈ m.pendingOutbound ++ [item], ∀ recipientId envelope,
      sealedTo other.toClientMessage = some (recipientId, envelope) →
        envelope.version = PROTOCOL_VERSION := by
  intro other hother
  rcases List.mem_append.mp hother with hother | hother
  · exact hm other hother
  · rw [List.mem_singleton.mp hother]
    exact hitem

theorem Manager.Versioned.erase (hm : m.Versioned) (index : Nat) :
    ∀ other ∈ m.pendingOutbound.eraseIdx index, ∀ recipientId envelope,
      sealedTo other.toClientMessage = some (recipientId, envelope) →
        envelope.version = PROTOCOL_VERSION :=
  fun other hother => hm other (List.mem_of_mem_eraseIdx hother)

theorem Outcome.versioned (h : Outcome S m op sent m') (hm : m.Versioned) : m'.Versioned := by
  cases h with
  | encrypted _ peerId recipientId plaintext original message ratchet item _ _ hitem =>
    refine hm.append fun r e he => ?_
    rw [hitem] at he
    cases he
    rfl
  | queued _ item hitem =>
    exact hm.append fun r e he => by rw [Op.queuedItem_open hitem] at he; cases he
  | confirmed _ index | rejected messageId fails index | acked ackId messageIds fails index =>
    exact hm.erase index
  | rotated => exact hm.append fun r e he => by cases he
  | rotationAccepted _ index => exact hm.erase index
  | rotationReplaced _ index =>
    intro other hother r e he
    rcases List.mem_or_eq_of_mem_set hother with hother | rfl
    · exact hm other hother r e he
    · cases he
  | replenished => exact hm.append fun r e he => by cases he
  | uploadReplaced _ index item env generated nextId =>
    have happ : Manager.Versioned
        { m with pendingOutbound := m.pendingOutbound ++ [env.item generated] } :=
      hm.append fun r e he => by cases he
    exact happ.erase index
  | uploadRejected _ index => exact hm.erase index
  | decrypted peerId messageId envelope env plaintext session opkId =>
    unfold Manager.Versioned Manager.marked Manager.opened
    rw [takeOneTimePrekey_eq]
    exact hm
  | _ => exact hm

/-! ## Markers -/

theorem keepFrom_eq_iff {cutoff : Nat} {a b : ProcessedMap} :
    keepFrom cutoff a = keepFrom cutoff b ↔
      ∀ key, (a.lookup key).filter (fun row => decide (cutoff ≤ row.processedAt)) =
        (b.lookup key).filter (fun row => decide (cutoff ≤ row.processedAt)) := by
  constructor
  · intro h key
    have hl := congrArg (Finmap.lookup key) h
    unfold keepFrom at hl
    rwa [HMap.lookup_filter, HMap.lookup_filter] at hl
  · intro h
    apply Finmap.ext_lookup
    intro key
    unfold keepFrom
    rw [HMap.lookup_filter, HMap.lookup_filter]
    exact h key

theorem keepFrom_empty (cutoff : Nat) : keepFrom cutoff ∅ = ∅ := rfl

/-- An older cutoff makes no difference below a newer one. -/
theorem keepFrom_keepFrom {c c' : Nat} (h : c ≤ c') (a : ProcessedMap) :
    keepFrom c' (keepFrom c a) = keepFrom c' a := by
  rw [keepFrom_eq_iff]
  intro key
  unfold keepFrom
  rw [HMap.lookup_filter, Option.filter_filter]
  congr 1
  funext row
  simp only [Bool.and_eq_right_iff_imp, decide_eq_true_eq]
  omega

theorem keepFrom_mono {c c' : Nat} (h : c ≤ c') {a b : ProcessedMap}
    (hab : keepFrom c a = keepFrom c b) : keepFrom c' a = keepFrom c' b := by
  rw [← keepFrom_keepFrom h a, hab, keepFrom_keepFrom h b]

theorem keepFrom_insert {c : Nat} {a b : ProcessedMap} (h : keepFrom c a = keepFrom c b)
    (key : UserId × MessageId) (row : ProcessedMessage) :
    keepFrom c (a.insert key row) = keepFrom c (b.insert key row) := by
  rw [keepFrom_eq_iff] at h ⊢
  intro x
  rw [HMap.lookup_insert_eq, HMap.lookup_insert_eq]
  split
  · rfl
  · exact h x

theorem keepFrom_filter {c : Nat} {a b : ProcessedMap} (h : keepFrom c a = keepFrom c b)
    (p : UserId × MessageId → Bool) :
    keepFrom c (HMap.filter (fun key _ => p key) a) =
      keepFrom c (HMap.filter (fun key _ => p key) b) := by
  rw [keepFrom_eq_iff] at h ⊢
  intro x
  have hcomm : ∀ o : Option ProcessedMessage,
      (o.filter fun _ => p x).filter (fun row => decide (c ≤ row.processedAt)) =
        (o.filter fun row => decide (c ≤ row.processedAt)).filter fun _ => p x := by
    intro o
    rw [Option.filter_filter, Option.filter_filter]
    congr 1
    funext row
    exact Bool.and_comm _ _
  rw [HMap.lookup_filter, HMap.lookup_filter, hcomm, hcomm, h x]

/-- The markers in memory and in the store agree from the last pruning's cutoff on. -/
def Manager.MarkersKept (prunedAt : Nat) (m : Manager K Sec C) : Prop :=
  keepFrom (prunedAt - RETENTION_SECS) m.processedMessages =
    keepFrom (prunedAt - RETENTION_SECS) m.store.processed

theorem Manager.MarkersKept.mono {n n' : Nat} (hm : m.MarkersKept n) (h : n ≤ n') :
    m.MarkersKept n' :=
  keepFrom_mono (Nat.sub_le_sub_right h _) hm

theorem Manager.MarkersKept.pruned {n now : Nat} (hm : m.MarkersKept n) (h : now ≤ n) :
    (m.pruned now).MarkersKept n := by
  have hc : now - RETENTION_SECS ≤ n - RETENTION_SECS := Nat.sub_le_sub_right h _
  unfold Manager.MarkersKept Manager.pruned pruneProcessed
  rw [keepFrom_keepFrom hc, keepFrom_keepFrom hc]
  exact hm

theorem Manager.MarkersKept.prunedInMemory {n now : Nat} (hm : m.MarkersKept n) (h : now ≤ n) :
    (m.prunedInMemory now).MarkersKept n := by
  have hc : now - RETENTION_SECS ≤ n - RETENTION_SECS := Nat.sub_le_sub_right h _
  unfold Manager.MarkersKept Manager.prunedInMemory pruneProcessed
  rw [keepFrom_keepFrom hc]
  exact hm

/-- A marker committed on both sides, or below the cutoff where it is. -/
theorem Manager.MarkersKept.committed {n : Nat} (hm : m.MarkersKept n)
    {key : UserId × MessageId} {processed : ProcessedMessage}
    (hmarker : m.processedMessages.lookup key = some processed) :
    (m.committed key processed).MarkersKept n := by
  unfold Manager.MarkersKept at hm ⊢
  rw [keepFrom_eq_iff] at hm ⊢
  generalize n - RETENTION_SECS = cutoff at hm ⊢
  have hkey := hm key
  rw [hmarker] at hkey
  intro x
  unfold Manager.committed CryptoStore.markProcessedCommitted
  cases hs : m.store.processed.lookup key with
  | none =>
    rw [hs] at hkey
    simp only [Option.getD_some, HMap.lookup_insert_eq]
    split
    · next hx =>
      rw [hx, hs]
      simpa [Option.filter] using hkey
    · exact hm x
  | some row =>
    rw [hs] at hkey
    simp only [Option.getD_some, HMap.lookup_insert_eq]
    split
    · simp only [Option.filter_some, decide_eq_true_eq] at hkey ⊢
      by_cases hc : cutoff ≤ processed.processedAt <;> by_cases hr : cutoff ≤ row.processedAt <;>
        simp only [hc, hr, if_true, if_false] at hkey ⊢
      · cases hkey; rfl
      · cases hkey
      · cases hkey
    · exact hm x

theorem Outcome.markersKept {n : Nat} (h : Outcome S m op sent m') (hm : m.MarkersKept n) :
    m'.MarkersKept (max n op.prunesAt) := by
  have hmax : m.MarkersKept (max n op.prunesAt) := hm.mono (le_max_left _ _)
  cases h with
  | pruned peerId messageId envelope env =>
    exact hmax.pruned (le_max_of_le_right (le_max_left _ _))
  | prunedTwice peerId messageId envelope env =>
    exact (hmax.pruned (le_max_of_le_right (le_max_left _ _))).prunedInMemory
      (le_max_of_le_right (le_max_right _ _))
  | decrypted peerId messageId envelope env plaintext session opkId =>
    have hpruned := (hmax.pruned (le_max_of_le_right (le_max_left _ _))).prunedInMemory
      (le_max_of_le_right (le_max_right _ _))
    unfold Manager.MarkersKept Manager.marked Manager.opened
    rw [takeOneTimePrekey_eq]
    exact keepFrom_insert hpruned (peerId, messageId) (env.row plaintext)
  | storedInbound peerId messageId fails processed hmarker => exact hmax.committed hmarker
  | acked ackId messageIds => exact keepFrom_filter hmax fun key => decide (key.2 ∉ messageIds)
  | _ => exact hmax

end Kept

/-! ## Restarts -/

/-- Everything a restart needs to find memory again. -/
structure Manager.Durable (prunedAt : Nat) (m : Manager K Sec C) : Prop where
  sound : m.Sound
  core : m.CoreKept
  outbox : m.OutboxKept
  versions : m.Versioned
  markers : m.MarkersKept prunedAt

/-- The manager a restart loads. -/
def Manager.reloaded (cutoffNow pruneNow : Nat) (m : Manager K Sec C) : Manager K Sec C :=
  { m with
    pendingInits := ∅
    pendingOutbound := m.store.outbox.map Prod.snd
    processedMessages := pruneProcessed m.store.processed pruneNow
    store := { m.store with processed := keepFrom (cutoffNow - RETENTION_SECS) m.store.processed } }

theorem envelope?_eq_some {item : PendingOutbound C} {envelope : EncryptedEnvelope C}
    (h : item.envelope? = some envelope) :
    ∃ recipientId, sealedTo item.toClientMessage = some (recipientId, envelope) := by
  cases item <;> simp_all [PendingOutbound.envelope?, sealedTo, PendingOutbound.toClientMessage]

theorem validatePendingProtocolVersions_ok {pending : List (PendingOutbound C)}
    (h : ∀ item ∈ pending, ∀ recipientId envelope,
      sealedTo item.toClientMessage = some (recipientId, envelope) →
        envelope.version = PROTOCOL_VERSION) :
    validatePendingProtocolVersions pending = .ok () := by
  unfold validatePendingProtocolVersions
  have hnone : (pending.findSome? fun item =>
      item.envelope?.bind fun envelope =>
        if envelope.version ≠ PROTOCOL_VERSION then some envelope.version else none) = none := by
    rw [List.findSome?_eq_none_iff]
    intro item hitem
    cases he : item.envelope? with
    | none => rfl
    | some envelope =>
      obtain ⟨recipientId, hsealed⟩ := envelope?_eq_some he
      simp [h item hitem recipientId envelope hsealed]
  rw [hnone]

variable {m : Manager K Sec C}

theorem derivedNextId_le (hm : m.Sound) :
    derivedNextId m.storedOpks ≤ m.nextOneTimePrekeyId := by
  unfold derivedNextId
  cases hmax : m.storedOpks.keys.max with
  | bot => exact UInt32.zero_le
  | coe top => exact hm.opkBelow top (Finmap.mem_keys.mp (Finset.mem_of_max hmax))

/-- Creation times and one-time prekeys have the same ids, so loading repairs nothing. -/
theorem created_repair (hm : m.Sound) (loadedAt : Nat) :
    HMap.filter (fun keyId _ => (m.storedOpks.lookup keyId).isSome) m.oneTimePrekeyCreatedAt ∪
      HMap.constOn loadedAt m.storedOpks = m.oneTimePrekeyCreatedAt := by
  apply Finmap.ext_lookup
  intro id
  have hall : ∀ id, id ∈ HMap.filter (fun keyId _ => (m.storedOpks.lookup keyId).isSome)
      m.oneTimePrekeyCreatedAt ↔ id ∈ m.oneTimePrekeyCreatedAt := by
    intro id
    rw [HMap.mem_filter_key, hm.created, Finmap.lookup_isSome]
    exact and_self_iff
  by_cases hid : id ∈ m.oneTimePrekeyCreatedAt
  · rw [Finmap.lookup_union_left ((hall id).mpr hid), HMap.lookup_filter]
    obtain ⟨createdAt, hc⟩ := Finmap.mem_iff.mp hid
    rw [hc]
    exact Option.filter_some_pos (Finmap.lookup_isSome.mpr ((hm.created id).mp hid))
  · rw [Finmap.lookup_union_right (mt (hall id).mp hid), HMap.lookup_constOn,
      Finmap.lookup_eq_none.mpr (mt (hm.created id).mpr hid), Finmap.lookup_eq_none.mpr hid]
    rfl

/-- The fields of the row, where there is one, are those of memory; the two counters
come out the same either way. -/
structure CoreState.Reads (core : CoreState K Sec) (m : Manager K Sec C) : Prop where
  signedPrekey : core.signedPrekey = m.storedSpk
  previous : core.previousSignedPrekeys = m.previousSpks
  rotatedAt : core.signedPrekeyRotatedAt = m.signedPrekeyRotatedAt
  opks : core.oneTimePrekeys = m.storedOpks
  sessions : core.sessions = m.sessions
  created : core.oneTimePrekeyCreatedAt = m.oneTimePrekeyCreatedAt
  nextSpk : max (core.nextSignedPrekeyId.getD 0)
    (m.storedSpk.elim 0 fun prekey => saturatingSucc prekey.keyId) = m.nextSignedPrekeyId
  nextOpk : max (max (core.nextOneTimePrekeyId.getD 0) (derivedNextId m.storedOpks))
    LEGACY_PREKEY_ID_FLOOR = m.nextOneTimePrekeyId

theorem Manager.CoreKept.reads (hm : m.CoreKept) (hs : m.Sound) :
    (m.store.core.getD (CoreState.empty K Sec)).Reads m := by
  rcases hm with hcore | ⟨hcore, hfresh⟩
  · rw [hcore]
    refine ⟨rfl, rfl, rfl, rfl, rfl, rfl, max_eq_left ?_, ?_⟩
    · cases hspk : m.storedSpk with
      | none => exact UInt32.zero_le
      | some spk => exact hs.spkBelow spk hspk
    · show max (max m.nextOneTimePrekeyId (derivedNextId m.storedOpks)) LEGACY_PREKEY_ID_FLOOR = _
      rw [max_eq_left (derivedNextId_le hs), max_eq_left hs.floor]
  · rw [hcore]
    have hspk : m.storedSpk = none := congrArg CoreState.signedPrekey hfresh
    have hopks : m.storedOpks = ∅ := congrArg CoreState.oneTimePrekeys hfresh
    have hnextSpk : m.nextSignedPrekeyId = 0 :=
      Option.some.inj (congrArg CoreState.nextSignedPrekeyId hfresh)
    have hnextOpk : m.nextOneTimePrekeyId = LEGACY_PREKEY_ID_FLOOR :=
      Option.some.inj (congrArg CoreState.nextOneTimePrekeyId hfresh)
    refine ⟨hspk.symm, (congrArg CoreState.previousSignedPrekeys hfresh).symm,
      (congrArg CoreState.signedPrekeyRotatedAt hfresh).symm, hopks.symm,
      (congrArg CoreState.sessions hfresh).symm,
      (congrArg CoreState.oneTimePrekeyCreatedAt hfresh).symm, ?_, ?_⟩
    · rw [hspk, hnextSpk]
      rfl
    · rw [hopks, hnextOpk]
      rfl

theorem Manager.Durable.load {prunedAt : Nat} (hm : m.Durable prunedAt)
    (loadedAt cutoffNow pruneNow : Nat) :
    loadOrGenerate m.identity m.store loadedAt cutoffNow pruneNow false =
      .ok (m.reloaded cutoffNow pruneNow) := by
  have hreads := hm.core.reads hm.sound
  have hversions : validatePendingProtocolVersions (m.store.outbox.map Prod.snd) = .ok () :=
    validatePendingProtocolVersions_ok fun item hitem =>
      hm.versions item (hm.outbox.perm.mem_iff.mp hitem)
  unfold loadOrGenerate
  simp only [hversions, hreads.signedPrekey, hreads.previous, hreads.rotatedAt, hreads.opks,
    hreads.sessions, hreads.created, hreads.nextSpk, hreads.nextOpk, created_repair hm.sound]
  rfl

theorem Manager.Durable.reloaded {prunedAt : Nat} (hm : m.Durable prunedAt)
    (cutoffNow pruneNow : Nat) :
    (m.reloaded cutoffNow pruneNow).Durable (max prunedAt (max cutoffNow pruneNow)) where
  sound := ⟨hm.sound.created, hm.sound.opkBelow, hm.sound.floor, hm.sound.spkBelow⟩
  core := hm.core
  outbox := hm.outbox.reload
  versions item hitem := hm.versions item (hm.outbox.perm.mem_iff.mp hitem)
  markers := by
    unfold Manager.MarkersKept Manager.reloaded pruneProcessed
    rw [keepFrom_keepFrom (by omega), keepFrom_keepFrom (by omega)]

/-! ## Runs -/

theorem Manager.Durable.outcome {S : IdentitySuite K Sec C} {m' : Manager K Sec C} {op : Op Sec C}
    {prunedAt : Nat} (h : Outcome S m op sent m') (hm : m.Durable prunedAt) :
    m'.Durable (max prunedAt op.prunesAt) :=
  ⟨h.sound hm.sound, h.coreKept hm.core, h.outboxKept hm.outbox, h.versioned hm.versions,
    h.markersKept hm.markers⟩

theorem Outcome.identity {S : IdentitySuite K Sec C} {m' : Manager K Sec C} {op : Op Sec C}
    (h : Outcome S m op sent m') :
    m'.identity = m.identity := by
  cases h with
  | decrypted peerId messageId envelope env plaintext session opkId =>
    unfold Manager.marked Manager.opened
    rw [takeOneTimePrekey_eq]
    rfl
  | _ => rfl

/-- The manager of an empty data directory. -/
theorem Manager.Durable.start {identity : Sec} {loadedAt cutoffNow pruneNow : Nat}
    {m : Manager K Sec C}
    (hload : loadOrGenerate identity (CryptoStore.empty K Sec C) loadedAt cutoffNow pruneNow false =
      .ok m) : m.Durable 0 := by
  cases hload
  refine ⟨⟨fun id => Iff.rfl, fun id hid => ?_, le_max_right _ _, fun spk h => ?_⟩, .inr ⟨rfl, rfl⟩,
    Mirrors.empty, fun item hitem => ?_, ?_⟩
  · exact absurd hid Finmap.notMem_empty
  · cases h
  · cases hitem
  · unfold Manager.MarkersKept pruneProcessed CryptoStore.empty
    simp only [keepFrom_empty]

theorem ManagerRun.durable {S : IdentitySuite K Sec C} {texts : List MessageId → Bytes}
    {t : Trace K Sec C} (run : ManagerRun S texts t) : t.manager.Durable t.prunedAt := by
  induction run with
  | start identity loadedAt cutoffNow pruneNow m hload => exact Manager.Durable.start hload
  | @op t run op ih => exact Manager.Durable.outcome (t.step_outcome texts ih.sound op) ih
  | restart run loadedAt cutoffNow pruneNow m hload ih =>
    rw [ih.load] at hload
    cases hload
    exact ih.reloaded cutoffNow pruneNow

/-- What a loaded manager shares with the one in memory. Markers count when they are
not older than the retention at `latest`, the latest reading used to prune them. -/
structure Manager.AgreesWith (latest : Nat) (loaded memory : Manager K Sec C) : Prop where
  sessions : loaded.sessions = memory.sessions
  storedSpk : loaded.storedSpk = memory.storedSpk
  previousSpks : loaded.previousSpks = memory.previousSpks
  signedPrekeyRotatedAt : loaded.signedPrekeyRotatedAt = memory.signedPrekeyRotatedAt
  nextSignedPrekeyId : loaded.nextSignedPrekeyId = memory.nextSignedPrekeyId
  storedOpks : loaded.storedOpks = memory.storedOpks
  oneTimePrekeyCreatedAt : loaded.oneTimePrekeyCreatedAt = memory.oneTimePrekeyCreatedAt
  nextOneTimePrekeyId : loaded.nextOneTimePrekeyId = memory.nextOneTimePrekeyId
  outboxItems : loaded.pendingOutbound.Perm memory.pendingOutbound
  outboxOrder : loaded.pendingOutbound.filter isSealed = memory.pendingOutbound.filter isSealed
  markers : keepFrom (latest - RETENTION_SECS) loaded.processedMessages =
    keepFrom (latest - RETENTION_SECS) memory.processedMessages

/-- **Durable state refines memory.** After every operation of a run, whichever store
calls were refused, a restart succeeds and finds the manager that is in memory. -/
theorem restart_finds_memory {S : IdentitySuite K Sec C} {texts : List MessageId → Bytes}
    {t : Trace K Sec C} (run : ManagerRun S texts t) (loadedAt cutoffNow pruneNow : Nat) :
    ∃ loaded, loadOrGenerate t.manager.identity t.manager.store loadedAt cutoffNow pruneNow false =
        .ok loaded ∧
      loaded.AgreesWith (max t.prunedAt (max cutoffNow pruneNow)) t.manager := by
  have hm := run.durable
  refine ⟨_, hm.load loadedAt cutoffNow pruneNow, rfl, rfl, rfl, rfl, rfl, rfl, rfl, rfl,
    hm.outbox.perm, hm.outbox.order, ?_⟩
  have hmarkers := hm.markers.mono (le_max_left t.prunedAt (max cutoffNow pruneNow))
  unfold Manager.reloaded pruneProcessed
  rw [keepFrom_keepFrom (by omega)]
  exact hmarkers.symm

/-- The manager of a new data directory. -/
def newManager (identity : Sec) : Manager K Sec C where
  identity := identity
  sessions := ∅
  pendingInits := ∅
  storedSpk := none
  previousSpks := []
  signedPrekeyRotatedAt := 0
  nextSignedPrekeyId := 0
  storedOpks := ∅
  nextOneTimePrekeyId := LEGACY_PREKEY_ID_FLOOR
  oneTimePrekeyCreatedAt := ∅
  pendingOutbound := []
  processedMessages := ∅
  store := CryptoStore.empty K Sec C

/-- Registration, an acknowledgement that cannot be stored, and one that can. -/
def sampleOps : List (Op Key32 Ciphertext) :=
  [.persistRegistrationKeys (SignedPreKey.generate symbolicIdentity 1 (key32 1) (key32 2))
      [(7, OneTimePreKey.generate symbolicIdentity (key32 3))] 100 100 false,
    .queueAck [⟨5⟩] ⟨1⟩ true, .queueAck [⟨5⟩] ⟨2⟩ false]

def sampleTrace : Trace Term Key32 Ciphertext :=
  sampleOps.foldl (Trace.step symbolicIdentity fun _ => []) ⟨newManager (key32 1), [], [], [], 0⟩

theorem restart_finds_memory_sample :
    sampleTrace.manager.pendingOutbound = [.ack ⟨2⟩ [⟨5⟩]] ∧
      ∃ loaded, loadOrGenerate sampleTrace.manager.identity sampleTrace.manager.store 200 200 200
          false = .ok loaded ∧
        loaded.AgreesWith 200 sampleTrace.manager :=
  ⟨rfl, restart_finds_memory
    (.op (.op (.op (.start (key32 1) 0 0 0 (newManager (key32 1)) rfl) _) _) _) 200 200 200⟩

end Cmp.Client
