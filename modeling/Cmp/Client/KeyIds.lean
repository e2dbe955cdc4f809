import Cmp.Client.Refinement
import Cmp.Crypto.FirstMessage
import Cmp.Lib.Functional

/-! The ids of the prekeys a client releases. An id is released when it stands in the
durable outbox or in the registration batch; counters only grow, so no id is released with
two keys, and the signed prekeys in use are ordered by their ids. -/

namespace Cmp.Client

open Cmp.Crypto Cmp.Protocol Cmp.Lib Cmp.Lib.Action

variable {K Sec C : Type}

/-! ## Released keys -/

/-- Ids and public keys of an upload. -/
def PendingOutbound.oneTimeKeys : PendingOutbound C → List (UInt32 × B64Text Bytes)
  | .preKeyUpload _ prekeys => prekeys.map fun pk => (pk.keyId, pk.publicKey)
  | _ => []

/-- Id and public key of a rotation. -/
def PendingOutbound.signedKeys : PendingOutbound C → List (UInt32 × B64Text Bytes)
  | .signedPreKeyRotation _ keyId publicKey _ => [(keyId, publicKey)]
  | _ => []

def CryptoStore.oneTimeKeys (st : CryptoStore K Sec C) : List (UInt32 × B64Text Bytes) :=
  st.outbox.flatMap fun row => row.2.oneTimeKeys

def CryptoStore.signedKeys (st : CryptoStore K Sec C) : List (UInt32 × B64Text Bytes) :=
  st.outbox.flatMap fun row => row.2.signedKeys

/-- A manager with the prekeys it has released so far. -/
structure KeyTrace (K Sec C : Type) where
  manager : Manager K Sec C
  oneTime : List (UInt32 × B64Text Bytes)
  signed : List (UInt32 × B64Text Bytes)

/-- The trace after a step that left `m`. -/
def KeyTrace.observe (t : KeyTrace K Sec C) (m : Manager K Sec C) : KeyTrace K Sec C where
  manager := m
  oneTime := t.oneTime ++ m.store.oneTimeKeys
  signed := t.signed ++ m.store.signedKeys

/-- The keys of `register_with_server`. -/
def registrationBatch (S : IdentitySuite K Sec C) (opksDrawn : Nat → Sec) :
    List (UInt32 × OneTimePreKey Sec) :=
  generateFrom S 0 ((List.range PREKEY_TARGET).map opksDrawn)

/-- The registration batch is released with the request, before its keys are persisted. -/
def KeyTrace.register (S : IdentitySuite K Sec C) (drawn : Sec) (opksDrawn : Nat → Sec)
    (rotatedAt createdAt : Nat) (fails : Bool) (t : KeyTrace K Sec C) : KeyTrace K Sec C :=
  let spk := SignedPreKey.generate S 0 t.manager.identity drawn
  let opks := registrationBatch S opksDrawn
  KeyTrace.observe
    { t with
      oneTime := t.oneTime ++ opks.map fun entry => (entry.1, b64Encode entry.2.publicKey.toList)
      signed := t.signed ++ [(spk.keyId, b64Encode spk.publicKey.toList)] }
    (finalState ((persistRegistrationKeys spk opks rotatedAt createdAt fails).run t.manager))

def Op.registers : Op Sec C → Bool
  | .persistRegistrationKeys .. => true
  | _ => false

/-- Runs of one client from an empty data directory, with the number of its registrations. -/
inductive KeyRun (S : IdentitySuite K Sec C) (texts : List MessageId → Bytes) :
    KeyTrace K Sec C → Nat → Prop
  | start (identity : Sec) (loadedAt cutoffNow pruneNow : Nat) (m : Manager K Sec C)
      (hload :
        loadOrGenerate identity (CryptoStore.empty K Sec C) loadedAt cutoffNow pruneNow false =
        .ok m) : KeyRun S texts ⟨m, [], []⟩ 0
  | register {t : KeyTrace K Sec C} {n : Nat} (run : KeyRun S texts t n) (drawn : Sec)
      (opksDrawn : Nat → Sec) (rotatedAt createdAt : Nat) (fails : Bool) :
      KeyRun S texts (t.register S drawn opksDrawn rotatedAt createdAt fails) (n + 1)
  | op {t : KeyTrace K Sec C} {n : Nat} (run : KeyRun S texts t n) (op : Op Sec C)
      (hop : op.registers = false) :
      KeyRun S texts (t.observe (finalState ((perform S texts op).run t.manager))) n
  | restart {t : KeyTrace K Sec C} {n : Nat} (run : KeyRun S texts t n)
      (loadedAt cutoffNow pruneNow : Nat) (m : Manager K Sec C)
      (hload : loadOrGenerate t.manager.identity t.manager.store loadedAt cutoffNow pruneNow false =
        .ok m) : KeyRun S texts (t.observe m) n

/-! ## What an operation releases -/

theorem flatMap_filed {α : Type} (f : PendingOutbound C → List α) (item : PendingOutbound C)
    (m : Manager K Sec C) :
    (m.filed item).store.outbox.flatMap (fun row => f row.2) =
      m.store.outbox.flatMap (fun row => f row.2) ++ f item := by
  simp only [Manager.filed, List.flatMap_append, List.flatMap_singleton]

/-- Rows of a smaller outbox are rows of the outbox. -/
theorem flatMap_subset {α : Type} (f : PendingOutbound C → List α)
    {rows rows' : List (MessageId × PendingOutbound C)} (h : rows' ⊆ rows) :
    ∀ a ∈ rows'.flatMap (fun row => f row.2), a ∈ rows.flatMap fun row => f row.2 := by
  intro a ha
  obtain ⟨row, hrow, ha⟩ := List.mem_flatMap.mp ha
  exact List.mem_flatMap.mpr ⟨row, h hrow, ha⟩

/-- The ids and times of the one-time prekeys after an operation: what is new has an id
between the old counter and the new one. -/
structure OneTimeStep (m m' : Manager K Sec C) : Prop where
  next : m.nextOneTimePrekeyId ≤ m'.nextOneTimePrekeyId
  stored : ∀ id ∈ m'.storedOpks, id ∈ m.storedOpks ∨ id < m'.nextOneTimePrekeyId
  released : ∃ fresh : List (UInt32 × B64Text Bytes), (fresh.map Prod.fst).Nodup ∧
    (∀ e ∈ fresh, m.nextOneTimePrekeyId ≤ e.1 ∧ e.1 < m'.nextOneTimePrekeyId) ∧
    ∀ e ∈ m'.store.oneTimeKeys, e ∈ m.store.oneTimeKeys ∨ e ∈ fresh

variable {m m' : Manager K Sec C}

theorem OneTimeStep.quiet (hnext : m'.nextOneTimePrekeyId = m.nextOneTimePrekeyId)
    (hstored : ∀ id ∈ m'.storedOpks, id ∈ m.storedOpks)
    (hrows : ∀ e ∈ m'.store.oneTimeKeys, e ∈ m.store.oneTimeKeys) : OneTimeStep m m' where
  next := le_of_eq hnext.symm
  stored id hid := .inl (hstored id hid)
  released := ⟨[], List.nodup_nil, fun _ he => by (cases he), fun e he => .inl (hrows e he)⟩

/-- What a replenishment files. -/
structure FreshBatch (m : Manager K Sec C) (generated : List (UInt32 × OneTimePreKey Sec))
    (nextId : UInt32) : Prop where
  next : m.nextOneTimePrekeyId ≤ nextId
  nodup : (generated.map Prod.fst).Nodup
  range : ∀ id ∈ generated.map Prod.fst, m.nextOneTimePrekeyId ≤ id ∧ id < nextId

variable {S : IdentitySuite K Sec C}

theorem Generated.freshBatch {env : UploadEnv Sec} {generated : List (UInt32 × OneTimePreKey Sec)}
    {nextId : UInt32} (h : Generated S m env generated nextId) : FreshBatch m generated nextId := by
  have hnext := checkedAdd_eq_some h.next
  refine ⟨UInt32.le_iff_toNat_le.mpr (by omega), h.nodup, fun id hid => ?_⟩
  obtain ⟨hge, hub⟩ := (h.mem_ids id).mp hid
  exact ⟨UInt32.le_iff_toNat_le.mpr hge, UInt32.lt_iff_toNat_lt.mpr (hnext ▸ hub)⟩

theorem oneTimeKeys_item (env : UploadEnv Sec) (generated : List (UInt32 × OneTimePreKey Sec)) :
    (env.item generated : PendingOutbound C).oneTimeKeys =
      generated.map fun entry => (entry.1, b64Encode entry.2.publicKey.toList) := by
  simp only [UploadEnv.item, PendingOutbound.oneTimeKeys, List.map_map]
  rfl

theorem OneTimeStep.generate {S : IdentitySuite K Sec C} {m m' : Manager K Sec C}
    {env : UploadEnv Sec} {generated : List (UInt32 × OneTimePreKey Sec)} {nextId : UInt32}
    (hgen : Generated S m env generated nextId) (hnext : m'.nextOneTimePrekeyId = nextId)
    (hstored : m'.storedOpks = (fileGenerated generated nextId env m).storedOpks)
    (hrows : ∀ row ∈ m'.store.outbox, row ∈ ((fileGenerated generated nextId env m).filed
      (env.item generated)).store.outbox) : OneTimeStep m m' := by
  have hfresh := hgen.freshBatch
  refine ⟨hnext ▸ hfresh.next, fun id hid => ?_,
    (env.item generated : PendingOutbound C).oneTimeKeys, ?_, ?_, fun e he => ?_⟩
  · rw [hstored] at hid
    rcases (HMap.mem_insertAll _ _ _).mp hid with hid | hid
    · exact .inr (hnext ▸ (hfresh.range id hid).2)
    · exact .inl ((HMap.mem_filter_key _ _ _).mp hid).1
  · rw [oneTimeKeys_item, List.map_map]
    exact hfresh.nodup
  · intro e he
    rw [oneTimeKeys_item] at he
    obtain ⟨entry, hentry, rfl⟩ := List.mem_map.mp he
    rw [hnext]
    exact hfresh.range _ (List.mem_map_of_mem hentry)
  · have he' := flatMap_subset PendingOutbound.oneTimeKeys hrows e he
    rw [flatMap_filed] at he'
    exact List.mem_append.mp he'

theorem oneTimeKeys_of_sealed {item : PendingOutbound C}
    (h : sealedTo item.toClientMessage ≠ none) : item.oneTimeKeys = [] ∧ item.signedKeys = [] := by
  cases item <;> first | exact ⟨rfl, rfl⟩ | exact absurd rfl h

theorem Op.queuedItem_keyless {op : Op Sec C} {item : PendingOutbound C}
    (h : op.queuedItem = some item) : item.oneTimeKeys = [] ∧ item.signedKeys = [] := by
  cases op <;> cases h <;> exact ⟨rfl, rfl⟩

variable {sent : List (UserId × EncryptedEnvelope C)}

theorem Outcome.oneTimeStep {op : Op Sec C} (h : Outcome S m op sent m')
    (hop : op.registers = false) : OneTimeStep m m' := by
  -- an item without one-time prekeys at the end of the outbox
  have hfiled : ∀ (m₁ : Manager K Sec C) (item : PendingOutbound C),
      m₁.store = m.store → item.oneTimeKeys = [] →
      ∀ e ∈ (m₁.filed item).store.oneTimeKeys, e ∈ m.store.oneTimeKeys := by
    intro m₁ item hstore hitem e he
    unfold CryptoStore.oneTimeKeys at he ⊢
    rw [flatMap_filed, hitem, List.append_nil, hstore] at he
    exact he
  have hfilter : ∀ (p : MessageId × PendingOutbound C → Bool),
      ∀ e ∈ (m.store.outbox.filter p).flatMap (fun row => row.2.oneTimeKeys),
        e ∈ m.store.oneTimeKeys :=
    fun p => flatMap_subset _ fun _ => List.mem_of_mem_filter
  cases h with
  | registered => cases hop
  | encrypted _ peerId recipientId plaintext original message ratchet item _ _ hitem =>
    refine .quiet rfl (fun _ hid => hid) (hfiled { m with sessions := _ } item rfl
      (oneTimeKeys_of_sealed ?_).1)
    rw [hitem]
    exact Option.some_ne_none _
  | queued _ item hitem =>
    exact .quiet rfl (fun _ hid => hid) (hfiled m item rfl (Op.queuedItem_keyless hitem).1)
  | confirmed | rejected | acked | rotationAccepted =>
    exact .quiet rfl (fun _ hid => hid) (hfilter _)
  | uploadRejected _ index item ids =>
    exact .quiet rfl (fun id hid => ((HMap.mem_removeAll _ _ _).mp hid).1) (hfilter _)
  | decrypted peerId messageId envelope env plaintext session opkId =>
    unfold Manager.marked Manager.opened
    rw [takeOneTimePrekey_eq]
    refine .quiet rfl (fun id hid => ?_) fun _ he => he
    cases opkId with
    | none => exact hid
    | some taken => exact (Finmap.mem_erase.mp hid).2
  | storedInbound peerId messageId =>
    refine .quiet rfl (fun _ hid => hid) ?_
    unfold Manager.committed CryptoStore.oneTimeKeys
    rw [(core_markProcessedCommitted (peerId, messageId) m.store).2]
    exact fun e he => he
  | rotated now drawn rotationId fails current keyId nextKeyId =>
    exact .quiet rfl (fun _ hid => hid)
      (hfiled (m.rotated S current keyId nextKeyId now drawn) _ rfl rfl)
  | rotationReplaced _ index item previouslyAccepted currentKeyId keyId nextKeyId now drawn newId =>
    refine .quiet rfl (fun _ hid => hid) fun e he => ?_
    unfold CryptoStore.oneTimeKeys at he
    simp only [Manager.refiled, List.flatMap_append] at he
    rcases List.mem_append.mp he with he | he
    · exact hfilter _ e he
    · cases he
  | replenished _ env generated nextId hgen =>
    exact .generate hgen rfl rfl fun _ hrow => hrow
  | uploadReplaced _ index item env generated nextId hitem hgen =>
    exact .generate hgen rfl rfl fun _ hrow => List.mem_of_mem_filter hrow
  | _ => exact .quiet rfl (fun _ hid => hid) fun _ he => he

/-! ## Signed prekeys -/

/-- The signed prekeys that a first message may name, newest first. -/
def Manager.spks (m : Manager K Sec C) : List (SignedPreKey Sec) :=
  m.storedSpk.toList ++ m.previousSpks

def Manager.Rotating (m : Manager K Sec C) : Prop :=
  ∃ item ∈ m.pendingOutbound, isRotation item = true

/-- What an operation does to the signed prekeys. -/
inductive SignedStep (S : IdentitySuite K Sec C) (m m' : Manager K Sec C) : Prop
  | same (hspk : m'.storedSpk = m.storedSpk) (hprevious : m'.previousSpks = m.previousSpks)
      (hnext : m'.nextSignedPrekeyId = m.nextSignedPrekeyId) (hrotating : m.Rotating → m'.Rotating)
      (hrows : ∀ e ∈ m'.store.signedKeys, e ∈ m.store.signedKeys)
  | trimmed (hspk : m'.storedSpk = m.storedSpk)
      (hprevious : m'.previousSpks = m.previousSpks.take SIGNED_PREKEY_PRIVATE_HISTORY)
      (hnext : m'.nextSignedPrekeyId = m.nextSignedPrekeyId)
      (hrows : ∀ e ∈ m'.store.signedKeys, e ∈ m.store.signedKeys)
  | renewed (spk : SignedPreKey Sec) (hof : spk.Of S m.identity) (hspk : m'.storedSpk = some spk)
      (hsome : m.spks ≠ []) (hprevious : m'.previousSpks.Sublist m.spks)
      (hhistory : m'.previousSpks.length ≤ SIGNED_PREKEY_PRIVATE_HISTORY ∨
        m'.previousSpks.length = m.previousSpks.length + 1 ∧ ¬m.Rotating)
      (hnew : m.nextSignedPrekeyId ≤ spk.keyId) (hnext : spk.keyId < m'.nextSignedPrekeyId)
      (hrotating : m'.Rotating)
      (hrows : ∀ e ∈ m'.store.signedKeys,
        e ∈ m.store.signedKeys ∨ e = (spk.keyId, b64Encode spk.publicKey.toList))

theorem lt_of_checkedAdd {a b : UInt32} (h : checkedAdd a 1 = some b) : a < b := by
  have hsum := checkedAdd_eq_some h
  exact UInt32.lt_iff_toNat_lt.mpr (by rw [hsum]; exact Nat.lt_succ_self _)

theorem le_of_nextRotationIds {current : SignedPreKey Sec} {keyId nextKeyId : UInt32}
    (h : nextRotationIds m = .ok (current, keyId, nextKeyId)) :
    m.nextSignedPrekeyId ≤ keyId := by
  unfold nextRotationIds at h
  split at h
  · cases h
  · split at h
    · cases h
    · dsimp only at h
      split at h
      · cases h
      · cases h
        exact le_max_left _ _

theorem le_of_replacementIds {currentKeyId keyId nextKeyId : UInt32}
    (h : replacementIds m currentKeyId = .ok (keyId, nextKeyId)) :
    m.nextSignedPrekeyId ≤ keyId ∧ m.previousSpks ≠ [] := by
  unfold replacementIds at h
  split at h
  · cases h
  · next restored hhead =>
    split at h
    · cases h
    · dsimp only at h
      split at h
      · cases h
      · cases h
        refine ⟨le_trans (le_max_left _ _) (le_max_left _ _), fun hnil => ?_⟩
        rw [hnil] at hhead
        cases hhead

theorem historyWith_sublist (previouslyAccepted : Bool) (m : Manager K Sec C) :
    (historyWith previouslyAccepted m.storedSpk m.previousSpks).Sublist m.spks := by
  unfold historyWith Manager.spks
  split
  · next hstored => rw [hstored]; exact List.Sublist.refl _
  · exact List.sublist_append_right _ _

theorem Manager.Rotating.erase (h : m.Rotating) {index : Nat} {item : PendingOutbound C}
    (hitem : m.pendingOutbound[index]? = some item) (hkind : isRotation item = false) :
    ∃ other ∈ m.pendingOutbound.eraseIdx index, isRotation other = true := by
  obtain ⟨other, hother, hrotation⟩ := h
  obtain ⟨i, hi⟩ := List.mem_iff_getElem?.mp hother
  refine ⟨other, List.mem_eraseIdx_iff_getElem?.mpr ⟨i, fun heq => ?_, hi⟩, hrotation⟩
  rw [heq, hitem] at hi
  cases hi
  exact Bool.false_ne_true (hkind.symm.trans hrotation)

theorem Outcome.signedStep {op : Op Sec C} (h : Outcome S m op sent m') (hop : op.registers = false)
    : SignedStep S m m' := by
  -- an item that is no rotation at the end of the outbox
  have hfiled : ∀ (m₁ : Manager K Sec C) (item : PendingOutbound C),
      m₁.store = m.store → item.signedKeys = [] →
      ∀ e ∈ (m₁.filed item).store.signedKeys, e ∈ m.store.signedKeys := by
    intro m₁ item hstore hitem e he
    unfold CryptoStore.signedKeys at he ⊢
    rw [flatMap_filed, hitem, List.append_nil, hstore] at he
    exact he
  have hfilter : ∀ (p : MessageId × PendingOutbound C → Bool),
      ∀ e ∈ (m.store.outbox.filter p).flatMap (fun row => row.2.signedKeys),
        e ∈ m.store.signedKeys :=
    fun p => flatMap_subset _ fun _ => List.mem_of_mem_filter
  have hpushed : ∀ item : PendingOutbound C, m.Rotating →
      ∃ other ∈ m.pendingOutbound ++ [item], isRotation other = true :=
    fun item ⟨other, hother, hrotation⟩ => ⟨other, List.mem_append_left _ hother, hrotation⟩
  cases h with
  | registered => cases hop
  | encrypted _ peerId recipientId plaintext original message ratchet item _ _ hitem =>
    refine .same rfl rfl rfl (hpushed item) (hfiled { m with sessions := _ } item rfl
      (oneTimeKeys_of_sealed ?_).2)
    rw [hitem]
    exact Option.some_ne_none _
  | queued _ item hitem =>
    exact .same rfl rfl rfl (hpushed item) (hfiled m item rfl (Op.queuedItem_keyless hitem).2)
  | confirmed _ index item hitem hkind =>
    exact .same rfl rfl rfl (fun h => h.erase hitem hkind) (hfilter _)
  | rejected messageId fails index recipientId envelope hitem =>
    exact .same rfl rfl rfl (fun h => h.erase hitem rfl) (hfilter _)
  | acked ackId messageIds fails index item hitem hids =>
    have hkind : isRotation item = false := by cases item <;> first | rfl | cases hids
    exact .same rfl rfl rfl (fun h => h.erase hitem hkind) (hfilter _)
  | rotationAccepted => exact .trimmed rfl rfl rfl (hfilter _)
  | uploadRejected _ index item ids hitem hkind =>
    exact .same rfl rfl rfl (fun h => h.erase hitem hkind) (hfilter _)
  | decrypted peerId messageId envelope env plaintext session opkId =>
    unfold Manager.marked Manager.opened
    rw [takeOneTimePrekey_eq]
    exact .same rfl rfl rfl id fun _ he => he
  | storedInbound peerId messageId =>
    refine .same rfl rfl rfl id ?_
    unfold Manager.committed CryptoStore.signedKeys
    rw [(core_markProcessedCommitted (peerId, messageId) m.store).2]
    exact fun e he => he
  | rotated now drawn rotationId fails current keyId nextKeyId hids hnew hnone =>
    obtain ⟨hstored, hnext⟩ := storedSpk_of_nextRotationIds hids
    have hspks : m.spks = current :: m.previousSpks := by
      rw [Manager.spks, hstored]
      rfl
    refine .renewed (SignedPreKey.generate S keyId m.identity drawn) rfl rfl ?_ ?_ (.inr ⟨rfl, ?_⟩)
      (le_of_nextRotationIds hids) (lt_of_checkedAdd hnext) ?_ fun e he => ?_
    · rw [hspks]
      exact List.cons_ne_nil _ _
    · rw [hspks]
      exact List.Sublist.refl _
    · rintro ⟨item, hitem, hrotation⟩
      exact Bool.false_ne_true ((hnone item hitem).symm.trans hrotation)
    · exact ⟨_, List.mem_append_right _ (List.mem_singleton.mpr rfl), rfl⟩
    · unfold CryptoStore.signedKeys at he
      rw [flatMap_filed] at he
      exact (List.mem_append.mp he).imp id List.mem_singleton.mp
  | rotationReplaced _ index item previouslyAccepted currentKeyId keyId nextKeyId now drawn newId
      hitem _ hids =>
    obtain ⟨hle, hprevious⟩ := le_of_replacementIds hids
    have hlt := lt_of_checkedAdd (nextKeyId_of_replacementIds hids)
    refine .renewed (SignedPreKey.generate S keyId m.identity drawn) rfl rfl ?_ ?_
      (.inl (List.length_take_le _ _)) hle hlt ?_ fun e he => ?_
    · intro hnil
      exact hprevious (List.append_eq_nil_iff.mp hnil).2
    · exact (List.take_sublist _ _).trans (historyWith_sublist previouslyAccepted m)
    · obtain ⟨hindex, -⟩ := List.getElem?_eq_some_iff.mp hitem
      exact ⟨_, List.mem_set hindex _, rfl⟩
    · unfold CryptoStore.signedKeys at he
      simp only [Manager.refiled, List.flatMap_append, List.flatMap_singleton] at he
      exact (List.mem_append.mp he).imp (hfilter _ e) List.mem_singleton.mp
  | replenished _ env generated nextId hgen =>
    exact .same rfl rfl rfl (hpushed _) (hfiled (fileGenerated generated nextId env m) _ rfl rfl)
  | uploadReplaced _ index item env generated nextId hitem hgen _ _ hkind =>
    refine .same rfl rfl rfl (fun h => ?_) fun e he => ?_
    · have hpushed' : Manager.Rotating
          ((fileGenerated generated nextId env m).filed (env.item generated)) := hpushed _ h
      obtain ⟨hindex, -⟩ := List.getElem?_eq_some_iff.mp hitem
      exact hpushed'.erase ((List.getElem?_append_left hindex).trans hitem) hkind
    · refine hfiled (fileGenerated generated nextId env m) (env.item generated) rfl rfl e ?_
      exact flatMap_subset _ (fun _ => List.mem_of_mem_filter) e he
  | _ => exact .same rfl rfl rfl id fun _ he => he

/-! ## The ledger -/

structure SignedOrder (m : Manager K Sec C) : Prop where
  decreasing : (m.spks.map (·.keyId)).Pairwise (· > ·)
  below : ∀ spk ∈ m.spks, spk.keyId < m.nextSignedPrekeyId

theorem SignedOrder.sublist (h : SignedOrder m) (hspks : m'.spks.Sublist m.spks)
    (hnext : m'.nextSignedPrekeyId = m.nextSignedPrekeyId) :
    SignedOrder m' :=
  ⟨h.decreasing.sublist (hspks.map _), fun spk hmem => hnext ▸ h.below spk (hspks.subset hmem)⟩

/-- Signed prekeys that an operation keeps, and the one in front that it makes. -/
theorem SignedStep.spks (h : SignedStep S m m') :
    (m'.spks.Sublist m.spks ∧ m'.nextSignedPrekeyId = m.nextSignedPrekeyId) ∨
      ∃ spk, m'.spks = spk :: m'.previousSpks ∧ spk.Of S m.identity ∧
        m'.previousSpks.Sublist m.spks ∧ m.nextSignedPrekeyId ≤ spk.keyId ∧
        spk.keyId < m'.nextSignedPrekeyId := by
  cases h with
  | same hspk hprevious hnext =>
    refine .inl ⟨?_, hnext⟩
    rw [Manager.spks, hspk, hprevious]
    exact List.Sublist.refl _
  | trimmed hspk hprevious hnext =>
    refine .inl ⟨?_, hnext⟩
    rw [Manager.spks, hspk, hprevious]
    exact List.Sublist.append (List.Sublist.refl _) (List.take_sublist _ _)
  | renewed spk hof hspk _ hprevious _ hnew hnext =>
    refine .inr ⟨spk, ?_, hof, hprevious, hnew, hnext⟩
    rw [Manager.spks, hspk]
    rfl

theorem SignedOrder.advance (h : SignedOrder m) (hstep : SignedStep S m m') : SignedOrder m' := by
  rcases hstep.spks with ⟨hspks, hnext⟩ | ⟨spk, hspks, -, hprevious, hnew, hnext⟩
  · exact h.sublist hspks hnext
  · have hold : ∀ old ∈ m'.previousSpks, old.keyId < spk.keyId := fun old hmem =>
      lt_of_lt_of_le (h.below old (hprevious.subset hmem)) hnew
    refine ⟨?_, ?_⟩
    · rw [hspks, List.map_cons]
      refine List.pairwise_cons.mpr ⟨fun id hid => ?_, h.decreasing.sublist (hprevious.map _)⟩
      obtain ⟨old, hmem, rfl⟩ := List.mem_map.mp hid
      exact hold old hmem
    · rw [hspks]
      intro old hmem
      rcases List.mem_cons.mp hmem with rfl | hmem
      · exact hnext
      · exact lt_trans (hold old hmem) hnext

/-- The signed prekeys in use, and the rotations released. Keys of a registration that could
not be stored are released, but the client has no signed prekey to rotate then. -/
structure SignedLedger (m : Manager K Sec C) (signed : List (UInt32 × B64Text Bytes)) : Prop
    extends SignedOrder m where
  history : m.previousSpks.length ≤ SIGNED_PREKEY_PRIVATE_HISTORY ∨
    m.previousSpks.length ≤ SIGNED_PREKEY_PRIVATE_HISTORY + 1 ∧ m.Rotating
  seen : ∀ e ∈ m.store.signedKeys, e ∈ signed
  released : m.spks ≠ [] → ∀ e ∈ signed, e.1 < m.nextSignedPrekeyId
  functional : Functional signed

structure OneTimeLedger (m : Manager K Sec C) (oneTime : List (UInt32 × B64Text Bytes)) : Prop where
  stored : ∀ id ∈ m.storedOpks, id < m.nextOneTimePrekeyId
  seen : ∀ e ∈ m.store.oneTimeKeys, e ∈ oneTime
  released : ∀ e ∈ oneTime, e.1 < m.nextOneTimePrekeyId
  functional : Functional oneTime

theorem OneTimeLedger.advance {oneTime : List (UInt32 × B64Text Bytes)}
    (h : OneTimeLedger m oneTime) (hstep : OneTimeStep m m') :
    OneTimeLedger m' (oneTime ++ m'.store.oneTimeKeys) := by
  obtain ⟨fresh, hnodup, hrange, hrows⟩ := hstep.released
  have hfrom : ∀ e ∈ m'.store.oneTimeKeys, e ∈ oneTime ∨ e ∈ fresh :=
    fun e he => (hrows e he).imp (h.seen e) id
  refine ⟨fun id hid => ?_, fun e he => List.mem_append_right _ he, fun e he => ?_, ?_⟩
  · rcases hstep.stored id hid with hid | hid
    · exact lt_of_lt_of_le (h.stored id hid) hstep.next
    · exact hid
  · rcases (List.mem_append.mp he).elim .inl (hfrom e) with he | he
    · exact lt_of_lt_of_le (h.released e he) hstep.next
    · exact (hrange e he).2
  · refine h.functional.extend (.of_nodup hnodup) hfrom fun e he f hf heq => ?_
    exact absurd (h.released e he) (not_lt.mpr (heq ▸ (hrange f hf).1))

theorem SignedLedger.advance {signed : List (UInt32 × B64Text Bytes)} (h : SignedLedger m signed)
    (hstep : SignedStep S m m') : SignedLedger m' (signed ++ m'.store.signedKeys) := by
  have horder := h.toSignedOrder.advance hstep
  -- no new rows: what is known stays
  have hquiet : (∀ e ∈ m'.store.signedKeys, e ∈ m.store.signedKeys) →
      (∀ e ∈ signed ++ m'.store.signedKeys, e ∈ signed) ∧
        Functional (signed ++ m'.store.signedKeys) := by
    intro hrows
    refine ⟨fun e he => (List.mem_append.mp he).elim id fun he => h.seen e (hrows e he), ?_⟩
    exact h.functional.extend .nil (fun e he => .inl (h.seen e (hrows e he)))
      fun _ _ f hf => by cases hf
  cases hstep with
  | same hspk hprevious hnext hrotating hrows =>
    obtain ⟨hknown, hfunctional⟩ := hquiet hrows
    have hspks : m'.spks = m.spks := by rw [Manager.spks, hspk, hprevious]; rfl
    refine ⟨horder, ?_, fun e he => List.mem_append_right _ he, ?_, hfunctional⟩
    · rw [hprevious]
      exact h.history.imp id fun ⟨hlen, hrot⟩ => ⟨hlen, hrotating hrot⟩
    · rw [hspks, hnext]
      exact fun hsome e he => h.released hsome e (hknown e he)
  | trimmed hspk hprevious hnext hrows =>
    obtain ⟨hknown, hfunctional⟩ := hquiet hrows
    have hspks : m'.spks.Sublist m.spks := by
      rw [Manager.spks, hspk, hprevious]
      exact List.Sublist.append (List.Sublist.refl _) (List.take_sublist _ _)
    refine ⟨horder, .inl ?_, fun e he => List.mem_append_right _ he, fun hsome e he => ?_,
      hfunctional⟩
    · rw [hprevious]
      exact List.length_take_le _ _
    · rw [hnext]
      refine h.released (fun hnil => hsome ?_) e (hknown e he)
      exact List.eq_nil_of_subset_nil (hnil ▸ hspks.subset)
  | renewed spk _ hspk hsome hprevious hhistory hnew hnext hrotating hrows =>
    have hfrom : ∀ e ∈ m'.store.signedKeys, e ∈ signed ∨
        e ∈ [(spk.keyId, b64Encode spk.publicKey.toList)] :=
      fun e he => (hrows e he).imp (h.seen e) List.mem_singleton.mpr
    have hbelow : ∀ e ∈ signed, e.1 < spk.keyId := fun e he =>
      lt_of_lt_of_le (h.released hsome e he) hnew
    refine ⟨horder, ?_, fun e he => List.mem_append_right _ he, fun _ e he => ?_, ?_⟩
    · refine hhistory.imp id fun ⟨hlen, hidle⟩ => ⟨?_, hrotating⟩
      rw [hlen]
      exact Nat.succ_le_succ (h.history.resolve_right fun hrot => hidle hrot.2)
    · rcases (List.mem_append.mp he).elim .inl (hfrom e) with he | he
      · exact lt_trans (hbelow e he) hnext
      · rw [List.mem_singleton.mp he]
        exact hnext
    · have hone : Functional [(spk.keyId, b64Encode spk.publicKey.toList)] :=
        .of_nodup (List.nodup_singleton spk.keyId)
      refine h.functional.extend hone hfrom fun e he f hf heq => ?_
      rw [List.mem_singleton.mp hf] at heq
      exact absurd (hbelow e he) (heq ▸ lt_irrefl _)

/-- What holds of a run; before the registration nothing below the floor is released, and no
signed prekey exists. -/
structure KeyLedger (t : KeyTrace K Sec C) (registrations : Nat) : Prop where
  durable : ∃ prunedAt, t.manager.Durable prunedAt
  oneTime : OneTimeLedger t.manager t.oneTime
  signed : SignedLedger t.manager t.signed
  unregistered : registrations = 0 → t.manager.spks = [] ∧ t.signed = [] ∧
    ∀ e ∈ t.oneTime, LEGACY_PREKEY_ID_FLOOR ≤ e.1

theorem KeyLedger.advance {t : KeyTrace K Sec C} {n : Nat} (h : KeyLedger t n)
    (hdurable : ∃ prunedAt, m'.Durable prunedAt) (hone : OneTimeStep t.manager m')
    (hsigned : SignedStep S t.manager m') :
    KeyLedger (t.observe m') n := by
  refine ⟨hdurable, h.oneTime.advance hone, h.signed.advance hsigned, fun hreg => ?_⟩
  obtain ⟨hspks, hnone, hfloor⟩ := h.unregistered hreg
  obtain ⟨_, hm⟩ := h.durable
  obtain ⟨fresh, -, hrange, hrows⟩ := hone.released
  have hnorows : ∀ e, e ∉ t.manager.store.signedKeys := fun e he => by
    have hmem := h.signed.seen e he
    rw [hnone] at hmem
    cases hmem
  have hsame : ∀ {rows : List (UInt32 × B64Text Bytes)},
      (∀ e ∈ rows, e ∈ t.manager.store.signedKeys) → rows = [] := fun hrows =>
    List.eq_nil_iff_forall_not_mem.mpr fun e he => hnorows e (hrows e he)
  refine ⟨?_, ?_, fun e he => ?_⟩
  · cases hsigned with
    | same hspk hprevious =>
      rw [← hspks]; unfold KeyTrace.observe Manager.spks; rw [hspk, hprevious]
    | trimmed hspk hprevious =>
      obtain ⟨hstored, hnil⟩ := List.append_eq_nil_iff.mp hspks
      unfold KeyTrace.observe Manager.spks
      rw [hspk, hprevious, hstored, hnil]
      rfl
    | renewed _ _ _ hsome => exact absurd hspks hsome
  · show t.signed ++ m'.store.signedKeys = []
    rw [hnone, List.nil_append]
    cases hsigned with
    | same _ _ _ _ hrows | trimmed _ _ _ hrows => exact hsame hrows
    | renewed _ _ _ hsome => exact absurd hspks hsome
  · rcases List.mem_append.mp he with he | he
    · exact hfloor e he
    · rcases hrows e he with he | he
      · exact hfloor e (h.oneTime.seen e he)
      · exact le_trans hm.sound.floor (hrange e he).1

theorem KeyLedger.start {identity : Sec} {loadedAt cutoffNow pruneNow : Nat} {m : Manager K Sec C}
    (hload : loadOrGenerate identity (CryptoStore.empty K Sec C) loadedAt cutoffNow pruneNow false =
      .ok m) : KeyLedger ⟨m, [], []⟩ 0 := by
  have hdurable := Manager.Durable.start hload
  cases hload
  have hnone : ∀ {e : UInt32 × B64Text Bytes} {p : Prop}, e ∈ [] → p :=
    fun he => absurd he List.not_mem_nil
  refine ⟨⟨_, hdurable⟩, ⟨fun id hid => ?_, fun _ he => he, fun _ => hnone, .nil⟩,
    ⟨⟨List.Pairwise.nil, fun _ hmem => absurd hmem List.not_mem_nil⟩, .inl (Nat.zero_le _),
      fun _ he => he, fun _ _ => hnone, .nil⟩, fun _ => ⟨rfl, rfl, fun _ => hnone⟩⟩
  exact absurd hid Finmap.notMem_empty

/-! ## Registration -/

theorem registrationBatch_in_range (opksDrawn : Nat → Sec) :
    (0 : UInt32).toNat + ((List.range PREKEY_TARGET).map opksDrawn).length < UInt32.size := by
  rw [List.length_map, List.length_range]
  decide

/-- The ids of the registration batch are below the floor of later uploads. -/
theorem registrationBatch_below {opksDrawn : Nat → Sec} :
    ∀ id ∈ (registrationBatch S opksDrawn).map Prod.fst, id < LEGACY_PREKEY_ID_FLOOR := by
  intro id hid
  have hub := (generateFrom_ids S _ 0 (registrationBatch_in_range opksDrawn) id hid).2
  rw [List.length_map, List.length_range] at hub
  have hfloor : (0 : UInt32).toNat + PREKEY_TARGET ≤ LEGACY_PREKEY_ID_FLOOR.toNat := by decide
  exact UInt32.lt_iff_toNat_lt.mpr (lt_of_lt_of_le hub hfloor)

/-- What `persist_registration_keys` makes of a manager without signed prekeys: the manager is
as it was, or has the new keys. -/
structure RegistrationStep (spk : SignedPreKey Sec) (m m' : Manager K Sec C) : Prop where
  durable : ∃ prunedAt, m'.Durable prunedAt
  outbox : m'.store.outbox = m.store.outbox
  next : m.nextOneTimePrekeyId ≤ m'.nextOneTimePrekeyId
  stored : ∀ id ∈ m'.storedOpks, id ∈ m.storedOpks ∨ id < LEGACY_PREKEY_ID_FLOOR
  spks : m'.spks = [] ∨ m'.spks = [spk] ∧ m'.nextSignedPrekeyId = saturatingSucc spk.keyId
  previous : m'.previousSpks = []

theorem registrationStep {prunedAt : Nat} (hm : m.Durable prunedAt) (hspks : m.spks = [])
    (spk : SignedPreKey Sec) {opks : List (UInt32 × OneTimePreKey Sec)}
    (hopks : ∀ id ∈ opks.map Prod.fst, id < LEGACY_PREKEY_ID_FLOOR) (rotatedAt createdAt : Nat)
    (fails : Bool) :
    RegistrationStep spk m
      (finalState ((persistRegistrationKeys spk opks rotatedAt createdAt fails).run m)) := by
  rcases persistRegistrationKeys_cases spk opks rotatedAt createdAt fails m with ⟨e, hrun⟩ | hrun
  · rw [hrun]
    exact ⟨⟨_, hm⟩, rfl, le_refl _, fun _ hid => .inl hid, .inl hspks,
      (List.append_eq_nil_iff.mp hspks).2⟩
  · rw [hrun]
    have hreg := hm.sound.register spk opks rotatedAt createdAt
    refine ⟨⟨prunedAt, ⟨hreg.created, hreg.opkBelow, hreg.floor, hreg.spkBelow⟩, .inl rfl,
      hm.outbox, hm.versions, hm.markers⟩, rfl, le_max_right _ _, fun id hid => .inr ?_,
      .inr ⟨rfl, rfl⟩, rfl⟩
    have hmem := (HMap.mem_insertAll _ _ _).mp hid
    exact hopks id (hmem.resolve_right Finmap.notMem_empty)

theorem KeyLedger.register {t : KeyTrace K Sec C} (h : KeyLedger t 0) (drawn : Sec)
    (opksDrawn : Nat → Sec) (rotatedAt createdAt : Nat) (fails : Bool) :
    KeyLedger (t.register S drawn opksDrawn rotatedAt createdAt fails) 1 := by
  obtain ⟨hspks, hsigned, hfloor⟩ := h.unregistered rfl
  obtain ⟨_, hm⟩ := h.durable
  let spk := SignedPreKey.generate S 0 t.manager.identity drawn
  let batch := (registrationBatch S opksDrawn).map fun entry =>
    (entry.1, b64Encode entry.2.publicKey.toList)
  have hrange : ∀ id ∈ (registrationBatch S opksDrawn).map Prod.fst, id < LEGACY_PREKEY_ID_FLOOR :=
    registrationBatch_below
  have hids : batch.map Prod.fst = (registrationBatch S opksDrawn).map Prod.fst := List.map_map
  have hbelow : ∀ e ∈ batch, e.1 < LEGACY_PREKEY_ID_FLOOR := fun e he =>
    hrange _ (hids ▸ List.mem_map_of_mem he)
  have hbatch : Functional batch :=
    .of_nodup (hids ▸ generateFrom_nodup S _ 0 (registrationBatch_in_range opksDrawn))
  obtain ⟨hdurable, houtbox, hnext, hstored, hnew, hprevious⟩ :=
    registrationStep hm hspks spk hrange rotatedAt createdAt fails
  generalize hfinal : finalState ((persistRegistrationKeys spk (registrationBatch S opksDrawn)
    rotatedAt createdAt fails).run t.manager) = m' at hdurable houtbox hnext hstored hnew hprevious
  have hfirst : spk.keyId < saturatingSucc spk.keyId := by
    show (0 : UInt32) < saturatingSucc 0
    decide
  have hfloor' : LEGACY_PREKEY_ID_FLOOR ≤ m'.nextOneTimePrekeyId := le_trans hm.sound.floor hnext
  have hone : m'.store.oneTimeKeys = t.manager.store.oneTimeKeys := by
    rw [CryptoStore.oneTimeKeys, houtbox]
    rfl
  have hnorows : m'.store.signedKeys = [] := by
    rw [CryptoStore.signedKeys, houtbox]
    refine List.eq_nil_iff_forall_not_mem.mpr fun e he => ?_
    have hmem := h.signed.seen e he
    rw [hsigned] at hmem
    cases hmem
  have htrace : t.register S drawn opksDrawn rotatedAt createdAt fails =
      ⟨m', t.oneTime ++ batch ++ m'.store.oneTimeKeys,
        [(spk.keyId, b64Encode spk.publicKey.toList)]⟩ := by
    rw [KeyTrace.register, hfinal, KeyTrace.observe, hnorows, hsigned]
    rfl
  have hall : ∀ e ∈ t.oneTime ++ batch ++ m'.store.oneTimeKeys, e ∈ t.oneTime ∨ e ∈ batch := by
    intro e he
    rcases List.mem_append.mp he with he | he
    · exact List.mem_append.mp he
    · exact .inl (h.oneTime.seen e (hone ▸ he))
  rw [htrace]
  refine ⟨hdurable, ⟨fun id hid => ?_, fun e he => List.mem_append_right _ he, fun e he => ?_, ?_⟩,
    ⟨⟨?_, ?_⟩, ?_, ?_, ?_, .of_nodup (List.nodup_singleton spk.keyId)⟩, fun hreg => by cases hreg⟩
  · rcases hstored id hid with hid | hid
    · exact lt_of_lt_of_le (h.oneTime.stored id hid) hnext
    · exact lt_of_lt_of_le hid hfloor'
  · rcases hall e he with he | he
    · exact lt_of_lt_of_le (h.oneTime.released e he) hnext
    · exact lt_of_lt_of_le (hbelow e he) hfloor'
  · rw [List.append_assoc]
    refine h.oneTime.functional.extend hbatch (fun e he => ?_) fun e he f hf heq => ?_
    · exact hall e (by rw [List.append_assoc]; exact List.mem_append_right _ he)
    · exact absurd (hbelow f hf) (not_lt.mpr (heq ▸ hfloor e he))
  · rcases hnew with hnil | ⟨hone, -⟩
    · rw [hnil]
      exact List.Pairwise.nil
    · rw [hone]
      exact List.pairwise_singleton _ _
  · rcases hnew with hnil | ⟨hone, hcounter⟩
    · rw [hnil]
      exact fun _ hmem => by cases hmem
    · rw [hone, hcounter]
      intro old hmem
      rw [List.mem_singleton.mp hmem]
      exact hfirst
  · rw [hprevious]
    exact .inl (Nat.zero_le _)
  · rw [hnorows]
    exact fun _ he => by cases he
  · intro hsome e he
    obtain ⟨-, hcounter⟩ := hnew.resolve_left hsome
    rw [List.mem_singleton.mp he, hcounter]
    exact hfirst

/-! ## Runs -/

theorem KeyRun.ledger {texts : List MessageId → Bytes} {t : KeyTrace K Sec C} {n : Nat}
    (run : KeyRun S texts t n) (hn : n ≤ 1) : KeyLedger t n := by
  induction run with
  | start identity loadedAt cutoffNow pruneNow m hload => exact .start hload
  | register run drawn opksDrawn rotatedAt createdAt fails ih =>
    cases Nat.le_zero.mp (Nat.le_of_succ_le_succ hn)
    exact (ih (Nat.zero_le _)).register drawn opksDrawn rotatedAt createdAt fails
  | @op t n run op hop ih =>
    have ih := ih hn
    obtain ⟨_, hm⟩ := ih.durable
    have houtcome := perform_outcome (S := S) texts hm.sound op
    exact ih.advance ⟨_, hm.outcome houtcome⟩ (houtcome.oneTimeStep hop) (houtcome.signedStep hop)
  | @restart t n run loadedAt cutoffNow pruneNow m hload ih =>
    have ih := ih hn
    obtain ⟨_, hm⟩ := ih.durable
    rw [hm.load] at hload
    cases hload
    refine ih.advance (S := S) ⟨_, hm.reloaded cutoffNow pruneNow⟩
      (.quiet rfl (fun _ hid => hid) fun _ he => he) (.same rfl rfl rfl ?_ fun _ he => he)
    rintro ⟨item, hitem, hrotation⟩
    exact ⟨item, hm.outbox.perm.mem_iff.mpr hitem, hrotation⟩

/-- **Key ids are unique.** In every run with at most one registration, whatever the relay
answers and whichever store calls are refused: no id is released with two keys, and the ids in
use lie below the counters, the signed ones in order. -/
theorem released_key_ids_unique {S : IdentitySuite K Sec C} {texts : List MessageId → Bytes}
    {t : KeyTrace K Sec C} {n : Nat} (run : KeyRun S texts t n) (hn : n ≤ 1) :
    (∀ a ∈ t.oneTime, ∀ b ∈ t.oneTime, a.1 = b.1 → a.2 = b.2) ∧
    (∀ a ∈ t.signed, ∀ b ∈ t.signed, a.1 = b.1 → a.2 = b.2) ∧
    (∀ id ∈ t.manager.storedOpks, id < t.manager.nextOneTimePrekeyId) ∧
    (∀ id, id ∈ t.manager.oneTimePrekeyCreatedAt ↔ id ∈ t.manager.storedOpks) ∧
    ((t.manager.storedSpk.toList ++ t.manager.previousSpks).map (·.keyId)).Pairwise (· > ·) ∧
    (∀ spk ∈ t.manager.storedSpk.toList ++ t.manager.previousSpks,
      spk.keyId < t.manager.nextSignedPrekeyId) ∧
    t.manager.previousSpks.length ≤ 4 := by
  have h := run.ledger hn
  obtain ⟨_, hm⟩ := h.durable
  refine ⟨h.oneTime.functional, h.signed.functional, h.oneTime.stored, hm.sound.created,
    h.signed.decreasing, h.signed.below, ?_⟩
  rcases h.signed.history with hlen | ⟨hlen, -⟩
  · exact le_trans hlen (by decide)
  · exact hlen

/-- A registration and a rotation. -/
theorem released_key_ids_unique_rotated :
    ∃ t : KeyTrace Term Key32 Ciphertext, KeyRun symbolicIdentity (fun _ => []) t 1 ∧
      (∃ e ∈ t.signed, e.1 = 0) ∧
      (∀ a ∈ t.signed, ∀ b ∈ t.signed, a.1 = b.1 → a.2 = b.2) ∧
      t.manager.previousSpks.length ≤ 4 := by
  have registered : KeyRun symbolicIdentity (fun _ => []) _ 1 :=
    .register (.start (key32 1) 0 0 0 (newManager (key32 1)) rfl) (key32 2) (fun _ => key32 3) 100
      100 false
  have rotated := registered.op (.queueSignedPrekeyRotation 5000000 (key32 4) ⟨1⟩ false) rfl
  obtain ⟨-, hsigned, -, -, -, -, hlength⟩ := released_key_ids_unique rotated (le_refl 1)
  refine ⟨_, rotated, ⟨(0, b64Encode (key32 2).toList), ?_, rfl⟩, hsigned, hlength⟩
  exact List.mem_append_left _ (List.mem_append_left _ (List.mem_append_right _
    (List.mem_singleton.mpr rfl)))

/-! ## Keys of one's own -/

/-- The prekeys of a client: all its own, the signed ones told apart by their ids. -/
structure Manager.Keyring (S : IdentitySuite K Sec C) (m : Manager K Sec C) : Prop
    extends SignedOrder m where
  signed : ∀ spk ∈ m.spks, spk.Of S m.identity
  oneTime : ∀ id opk, m.storedOpks.lookup id = some opk → opk.Made S

/-- A one-time prekey after an operation was there before, or was just made. -/
theorem Outcome.oneTime_from {op : Op Sec C} (h : Outcome S m op sent m')
    (hop : op.registers = false) {id : UInt32} {opk : OneTimePreKey Sec}
    (hlookup : m'.storedOpks.lookup id = some opk) :
    m.storedOpks.lookup id = some opk ∨ opk.Made S := by
  have hfile : ∀ {env : UploadEnv Sec} {generated : List (UInt32 × OneTimePreKey Sec)}
      {nextId : UInt32}, Generated S m env generated nextId →
      (fileGenerated generated nextId env m).storedOpks.lookup id = some opk →
      m.storedOpks.lookup id = some opk ∨ opk.Made S := by
    intro env generated nextId hgen hlookup
    rcases HMap.lookup_insertAll_eq_some _ _ hlookup with hmem | hlookup
    · obtain ⟨-, rfl⟩ := hgen.eq_generateFrom
      exact .inr (generateFrom_made S _ _ _ hmem)
    · exact .inl (HMap.lookup_filter_eq_some.mp hlookup).1
  cases h with
  | registered => cases hop
  | decrypted peerId messageId envelope env plaintext session opkId =>
    unfold Manager.marked Manager.opened at hlookup
    rw [takeOneTimePrekey_eq] at hlookup
    exact .inl (lookup_of_takenOpks hlookup)
  | replenished _ env generated nextId hgen => exact hfile hgen hlookup
  | uploadReplaced _ index item env generated nextId _ hgen => exact hfile hgen hlookup
  | uploadRejected _ index item ids =>
    unfold dropRejected Manager.saved Manager.unfiled at hlookup
    dsimp only at hlookup
    rw [HMap.lookup_removeAll] at hlookup
    split at hlookup
    · cases hlookup
    · exact .inl hlookup
  | _ => exact .inl hlookup

theorem Manager.Keyring.outcome {op : Op Sec C} (hm : m.Keyring S) (h : Outcome S m op sent m')
    (hop : op.registers = false) : m'.Keyring S := by
  refine ⟨hm.toSignedOrder.advance (h.signedStep hop), fun spk hmem => ?_, fun id opk hlookup => ?_⟩
  · rw [h.identity]
    rcases (h.signedStep hop).spks with ⟨hspks, -⟩ | ⟨new, hspks, hof, hprevious, -⟩
    · exact hm.signed spk (hspks.subset hmem)
    · rw [hspks] at hmem
      rcases List.mem_cons.mp hmem with rfl | hmem
      · exact hof
      · exact hm.signed spk (hprevious.subset hmem)
  · rcases h.oneTime_from hop hlookup with hold | hmade
    · exact hm.oneTime id opk hold
    · exact hmade

theorem Manager.Keyring.register {spk : SignedPreKey Sec} {opks : List (UInt32 × OneTimePreKey Sec)}
    (hid : spk.keyId = 0) (hspk : spk.Of S m.identity) (hopks : ∀ entry ∈ opks, entry.2.Made S)
    (rotatedAt createdAt : Nat) : (registrationKeys spk opks rotatedAt createdAt m).Keyring S := by
  refine ⟨⟨List.pairwise_singleton _ _, fun other hmem => ?_⟩, fun other hmem => ?_,
    fun id opk hlookup => ?_⟩
  · rw [List.mem_singleton.mp hmem]
    show spk.keyId < saturatingSucc spk.keyId
    rw [hid]
    decide
  · rw [List.mem_singleton.mp hmem]
    exact hspk
  · rcases HMap.lookup_insertAll_eq_some _ _ hlookup with hmem | hnone
    · exact hopks _ hmem
    · cases hnone

/-- Every client has such keys, however often it has registered. -/
theorem KeyRun.keyring {texts : List MessageId → Bytes} {t : KeyTrace K Sec C} {n : Nat}
    (run : KeyRun S texts t n) :
    (∃ prunedAt, t.manager.Durable prunedAt) ∧ t.manager.Keyring S := by
  induction run with
  | start identity loadedAt cutoffNow pruneNow m hload =>
    refine ⟨⟨_, Manager.Durable.start hload⟩, ?_⟩
    cases hload
    exact ⟨⟨List.Pairwise.nil, fun _ hmem => absurd hmem List.not_mem_nil⟩,
      fun _ hmem => absurd hmem List.not_mem_nil, fun _ _ hlookup => by cases hlookup⟩
  | @register t n run drawn opksDrawn rotatedAt createdAt fails ih =>
    obtain ⟨⟨prunedAt, hm⟩, hkeys⟩ := ih
    have hmade := generateFrom_made S ((List.range PREKEY_TARGET).map opksDrawn) 0
    unfold KeyTrace.register registrationBatch
    dsimp only [KeyTrace.observe]
    generalize generateFrom S 0 ((List.range PREKEY_TARGET).map opksDrawn) = opks at hmade ⊢
    rcases persistRegistrationKeys_cases (SignedPreKey.generate S 0 t.manager.identity drawn) opks
      rotatedAt createdAt fails t.manager with ⟨e, hrun⟩ | hrun
    · rw [hrun]
      exact ⟨⟨prunedAt, hm⟩, hkeys⟩
    · rw [hrun]
      have hspk : (SignedPreKey.generate S 0 t.manager.identity drawn).Of S t.manager.identity :=
        rfl
      have hnew := Manager.Keyring.register rfl hspk hmade rotatedAt createdAt
      exact ⟨⟨_, hm.outcome (S := S) (.registered _ opks rotatedAt createdAt fails)⟩,
        ⟨⟨hnew.decreasing, hnew.below⟩, hnew.signed, hnew.oneTime⟩⟩
  | @op t n run op hop ih =>
    obtain ⟨⟨_, hm⟩, hkeys⟩ := ih
    have houtcome := perform_outcome (S := S) texts hm.sound op
    exact ⟨⟨_, hm.outcome houtcome⟩, hkeys.outcome houtcome hop⟩
  | @restart t n run loadedAt cutoffNow pruneNow m hload ih =>
    obtain ⟨⟨_, hm⟩, hkeys⟩ := ih
    rw [hm.load] at hload
    cases hload
    exact ⟨⟨_, hm.reloaded cutoffNow pruneNow⟩, ⟨⟨hkeys.decreasing, hkeys.below⟩, hkeys.signed,
      hkeys.oneTime⟩⟩

end Cmp.Client
