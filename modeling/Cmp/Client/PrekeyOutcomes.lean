import Cmp.Client.InboundOutcomes

/-! What registration, rotation and the uploads can do, and the outcome of every
operation. -/

namespace Cmp.Client

open Cmp.Crypto Cmp.Protocol Cmp.Lib Cmp.Lib.Action

variable {K Sec C : Type}

/-- What the prekey fields satisfy in memory: every one-time prekey has its creation
time, and no id in use is handed out again. -/
structure Manager.Sound (m : Manager K Sec C) : Prop where
  created : ∀ id, id ∈ m.oneTimePrekeyCreatedAt ↔ id ∈ m.storedOpks
  opkBelow : ∀ id ∈ m.storedOpks, saturatingSucc id ≤ m.nextOneTimePrekeyId
  floor : LEGACY_PREKEY_ID_FLOOR ≤ m.nextOneTimePrekeyId
  spkBelow : ∀ spk, m.storedSpk = some spk → saturatingSucc spk.keyId ≤ m.nextSignedPrekeyId

/-! ## Registration and rotation -/

theorem persistRegistrationKeys_cases (spk : SignedPreKey Sec)
    (opks : List (UInt32 × OneTimePreKey Sec)) (rotatedAt createdAt : Nat) (fails : Bool)
    (m : Manager K Sec C) :
    (∃ e, (persistRegistrationKeys spk opks rotatedAt createdAt fails).run m = .error e m) ∨
    (persistRegistrationKeys spk opks rotatedAt createdAt fails).run m =
      .ok () (registrationKeys spk opks rotatedAt createdAt m).saved := by
  simp only [persistRegistrationKeys, run_bind, run_get, run_modify]
  rcases commitOr_cases fails CryptoStore.saveCore (restorePrekeyFields m) .other
    (registrationKeys spk opks rotatedAt createdAt m) with ⟨st, hst, h⟩ | ⟨e, h⟩
  · rw [h]
    cases hst
    exact .inr rfl
  · rw [h]
    exact .inl ⟨_, rfl⟩

variable {m : Manager K Sec C}

theorem storedSpk_of_nextRotationIds {current : SignedPreKey Sec} {keyId nextKeyId : UInt32}
    (h : nextRotationIds m = .ok (current, keyId, nextKeyId)) :
    m.storedSpk = some current ∧ checkedAdd keyId 1 = some nextKeyId := by
  unfold nextRotationIds at h
  split at h
  · cases h
  · next spk hs =>
    split at h
    · cases h
    · dsimp only at h
      split at h
      · cases h
      · next hnext =>
        cases h
        exact ⟨hs, hnext⟩

variable (S : IdentitySuite K Sec C)

theorem rotateSignedPrekey_cases (now : Nat) (drawn : Sec) (rotationId : MessageId) (fails : Bool)
    (m : Manager K Sec C) :
    (∃ e, (rotateSignedPrekey S now drawn rotationId fails).run m = .error e m) ∨
    ∃ current keyId nextKeyId, nextRotationIds m = .ok (current, keyId, nextKeyId) ∧
      rotationId ∉ m.store.outbox.map Prod.fst ∧ ensureCapacity m.pendingOutbound 96 = .ok () ∧
      (rotateSignedPrekey S now drawn rotationId fails).run m =
        .ok true ((m.rotated S current keyId nextKeyId now drawn).filed
          (rotationItem rotationId (SignedPreKey.generate S keyId m.identity drawn))) := by
  unfold rotateSignedPrekey
  rw [run_bind_ok (run_get m)]
  cases hids : nextRotationIds m with
  | error e => exact .inl ⟨e, rfl⟩
  | ok ids =>
    obtain ⟨current, keyId, nextKeyId⟩ := ids
    rw [run_bind_ok (run_ofExcept_ok _ _)]
    cases hcap : ensureCapacity m.pendingOutbound 96 with
    | error e => exact .inl ⟨e, rfl⟩
    | ok _ =>
      rw [run_bind_ok (run_ofExcept_ok _ _), run_bind_ok (run_modify _ _)]
      rcases pushAndPersist_cases
        (rotationItem rotationId (SignedPreKey.generate S keyId m.identity drawn)) fails
        (undoRotation m) (m.rotated S current keyId nextKeyId now drawn) with ⟨hnew, h⟩ | ⟨e, h⟩
      · exact .inr ⟨current, keyId, nextKeyId, rfl, hnew, rfl, run_bind_ok h⟩
      · left
        refine ⟨e, (run_bind_error h).trans ?_⟩
        have hspk := (storedSpk_of_nextRotationIds hids).1
        unfold undoRotation popOutbound pushOutbound Manager.rotated
        simp only [List.dropLast_concat, List.head?_cons, List.tail_cons, ← hspk]

theorem queueSignedPrekeyRotation_cases (now : Nat) (drawn : Sec) (rotationId : MessageId)
    (fails : Bool) (m : Manager K Sec C) :
    finalState ((queueSignedPrekeyRotation S now drawn rotationId fails).run m) = m ∨
    ∃ current keyId nextKeyId, (∀ item ∈ m.pendingOutbound, isRotation item = false) ∧
      nextRotationIds m = .ok (current, keyId, nextKeyId) ∧
      rotationId ∉ m.store.outbox.map Prod.fst ∧ ensureCapacity m.pendingOutbound 96 = .ok () ∧
      (queueSignedPrekeyRotation S now drawn rotationId fails).run m =
        .ok true ((m.rotated S current keyId nextKeyId now drawn).filed
          (rotationItem rotationId (SignedPreKey.generate S keyId m.identity drawn))) := by
  simp only [queueSignedPrekeyRotation, run_bind_ok (run_get m), run_ite]
  split
  · exact .inl rfl
  · next hpending =>
    split
    · exact .inl rfl
    · rcases rotateSignedPrekey_cases S now drawn rotationId fails m with
        ⟨e, h⟩ | ⟨current, keyId, nextKeyId, h⟩
      · rw [h]
        exact .inl rfl
      · refine .inr ⟨current, keyId, nextKeyId, fun item hitem => ?_, h⟩
        by_contra hkind
        exact hpending (List.any_eq_true.mpr ⟨item, hitem, eq_true_of_ne_false hkind⟩)

theorem correlationId_of_isRotationOf {rotationId : MessageId} (item : PendingOutbound C)
    (h : isRotationOf rotationId item = true) :
    item.correlationId = rotationId ∧ sealedTo item.toClientMessage = none := by
  cases item <;>
    simp_all
      [isRotationOf, PendingOutbound.correlationId, PendingOutbound.toClientMessage, sealedTo]

theorem confirmAcceptedSignedPrekeyRotation_cases (index : Nat) (rotationId : MessageId)
    (fails : Bool) (m : Manager K Sec C) :
    (∃ e, (confirmAcceptedSignedPrekeyRotation index rotationId fails).run m = .error e m) ∨
    (confirmAcceptedSignedPrekeyRotation index rotationId fails).run m =
      .ok () ((Manager.saved
        { m with previousSpks := m.previousSpks.take SIGNED_PREKEY_PRIVATE_HISTORY }).unfiled
          index rotationId) := by
  simp only [confirmAcceptedSignedPrekeyRotation, run_bind, run_get, run_modify]
  rcases commitOr_cases fails (fun core => CryptoStore.saveCoreAndDeleteOutbound core rotationId)
    (fun m' =>
      { m' with
        previousSpks := m'.previousSpks ++ m.previousSpks.drop SIGNED_PREKEY_PRIVATE_HISTORY })
    .other { m with previousSpks := m.previousSpks.take SIGNED_PREKEY_PRIVATE_HISTORY } with
      ⟨st, hst, h⟩ | ⟨e, h⟩
  · rw [h]
    cases hst
    exact .inr rfl
  · rw [h]
    left
    simp only [List.take_append_drop]
    exact ⟨_, rfl⟩

/-- The rollback of a replacement restores key, history and item. -/
theorem undoReplacement_eq (previouslyAccepted : Bool) (index : Nat)
    (item replacement : PendingOutbound C) (keyId nextKeyId : UInt32) (now : Nat) (drawn : Sec)
    (m : Manager K Sec C) (hitem : m.pendingOutbound[index]? = some item)
    (hspk : ¬(previouslyAccepted = true ∧ m.storedSpk.isNone = true)) :
    undoReplacement previouslyAccepted index item m
      { m.replaced S previouslyAccepted keyId nextKeyId now drawn with
        pendingOutbound := m.pendingOutbound.set index replacement } = m := by
  obtain ⟨hlt, rfl⟩ := List.getElem?_eq_some_iff.mp hitem
  have hset : (m.pendingOutbound.set index replacement).set index m.pendingOutbound[index] =
      m.pendingOutbound := by
    rw [List.set_set, List.set_getElem_self]
  unfold undoReplacement Manager.replaced
  simp only [hset]
  cases previouslyAccepted with
  | false => simp [historyWith]
  | true =>
    cases hs : m.storedSpk with
    | none => simp [hs] at hspk
    | some published =>
      simp only [historyWith, SIGNED_PREKEY_PRIVATE_HISTORY, if_true, List.take_succ_cons,
        List.head?_cons, List.tail_cons, List.drop_succ_cons, List.take_append_drop, ← hs]

theorem reconcileRejectedSignedPrekeyRotation_cases (index : Nat) (item : PendingOutbound C)
    (rotationId : MessageId) (previouslyAccepted : Bool) (currentKeyId : UInt32) (now : Nat)
    (drawn : Sec) (newId : MessageId) (fails : Bool) (m : Manager K Sec C)
    (hitem : m.pendingOutbound[index]? = some item) :
    (∃ e, (reconcileRejectedSignedPrekeyRotation S index item rotationId previouslyAccepted
      currentKeyId now drawn newId fails).run m = .error e m) ∨
    ∃ keyId nextKeyId, replacementIds m currentKeyId = .ok (keyId, nextKeyId) ∧
      newId ∉ (m.store.outbox.filter fun row => row.1 ≠ rotationId).map Prod.fst ∧
      (reconcileRejectedSignedPrekeyRotation S index item rotationId previouslyAccepted
        currentKeyId now drawn newId fails).run m =
        .ok (PendingOutbound.toClientMessage
            (rotationItem newId (SignedPreKey.generate S keyId m.identity drawn)))
          ((m.replaced S previouslyAccepted keyId nextKeyId now drawn).refiled index rotationId
            (rotationItem newId (SignedPreKey.generate S keyId m.identity drawn))) := by
  unfold reconcileRejectedSignedPrekeyRotation
  rw [run_bind_ok (run_get m)]
  cases hids : replacementIds m currentKeyId with
  | error e => exact .inl ⟨e, rfl⟩
  | ok ids =>
    obtain ⟨keyId, nextKeyId⟩ := ids
    simp only [run_bind_ok (run_ofExcept_ok _ _), run_ite]
    split
    · exact .inl ⟨_, rfl⟩
    · next hspk =>
      rw [run_bind_ok (run_modify _ _)]
      rcases commitOr_cases fails
        (fun core => CryptoStore.saveCoreAndReplaceOutbound core rotationId newId
          (rotationItem newId (SignedPreKey.generate S keyId m.identity drawn)))
        (undoReplacement previouslyAccepted index item m) .other
        { m.replaced S previouslyAccepted keyId nextKeyId now drawn with
          pendingOutbound := m.pendingOutbound.set index
            (rotationItem newId (SignedPreKey.generate S keyId m.identity drawn)) } with
          ⟨st, hst, h⟩ | ⟨e, h⟩
      · right
        simp only [CryptoStore.saveCoreAndReplaceOutbound, CryptoStore.saveCore,
          CryptoStore.deleteOutbound, CryptoStore.enqueue, Option.bind_some] at hst
        split at hst
        · cases hst
        · next hnew =>
          cases hst
          exact ⟨keyId, nextKeyId, rfl, hnew, run_bind_ok h⟩
      · left
        rw [undoReplacement_eq S previouslyAccepted index item _ keyId nextKeyId now drawn m hitem
          hspk] at h
        exact ⟨_, run_bind_error h⟩

/-- How the answer to a rotation can end. -/
inductive RotationAnswered (S : IdentitySuite K Sec C) (m : Manager K Sec C)
    (rotationId : MessageId) (accepted previouslyAccepted : Bool) (currentKeyId : UInt32)
    (now : Nat) (drawn : Sec) (newId : MessageId) :
    EStateM.Result ManagerError (Manager K Sec C) (Option (ClientMessage C)) → Prop
  | unknown :
    RotationAnswered S m rotationId accepted previouslyAccepted currentKeyId now drawn newId
      (.ok none m)
  | failed (e : ManagerError) :
      RotationAnswered S m rotationId accepted previouslyAccepted currentKeyId now drawn newId
        (.error e m)
  | confirmed (index : Nat) (publicKey signature : B64Text Bytes)
      (hitem : m.pendingOutbound[index]? =
        some (.signedPreKeyRotation rotationId currentKeyId publicKey signature))
      (haccepted : accepted = true) :
      RotationAnswered S m rotationId accepted previouslyAccepted currentKeyId now drawn newId
        (.ok none ((Manager.saved
          { m with previousSpks := m.previousSpks.take SIGNED_PREKEY_PRIVATE_HISTORY }).unfiled
            index rotationId))
  | replaced (index : Nat) (candidateKeyId : UInt32) (publicKey signature : B64Text Bytes)
      (hitem : m.pendingOutbound[index]? =
        some (.signedPreKeyRotation rotationId candidateKeyId publicKey signature))
      (hrejected : ¬(accepted = true ∧ candidateKeyId = currentKeyId)) (keyId nextKeyId : UInt32)
      (hids : replacementIds m currentKeyId = .ok (keyId, nextKeyId))
      (hnew : newId ∉ (m.store.outbox.filter fun row => row.1 ≠ rotationId).map Prod.fst) :
      RotationAnswered S m rotationId accepted previouslyAccepted currentKeyId now drawn newId
        (.ok (some (PendingOutbound.toClientMessage
            (rotationItem newId (SignedPreKey.generate S keyId m.identity drawn))))
          ((m.replaced S previouslyAccepted keyId nextKeyId now drawn).refiled index rotationId
            (rotationItem newId (SignedPreKey.generate S keyId m.identity drawn))))

theorem confirmSignedPrekeyRotated_cases (rotationId : MessageId)
    (accepted previouslyAccepted : Bool) (currentKeyId : UInt32) (now : Nat) (drawn : Sec)
    (newId : MessageId) (fails : Bool) (m : Manager K Sec C) :
    RotationAnswered S m rotationId accepted previouslyAccepted currentKeyId now drawn newId
      ((confirmSignedPrekeyRotated S rotationId accepted previouslyAccepted currentKeyId now drawn
        newId fails).run m) := by
  unfold confirmSignedPrekeyRotated
  rw [run_bind_ok (run_get m)]
  cases hf : findItem (isRotationOf rotationId) m.pendingOutbound with
  | none => exact .unknown
  | some found =>
    obtain ⟨index, item⟩ := found
    obtain ⟨hitem, hkind⟩ := findItem_eq_some hf
    cases item with
    | signedPreKeyRotation pendingId candidateKeyId publicKey signature =>
      have hid' : pendingId = rotationId := (correlationId_of_isRotationOf _ hkind).1
      subst hid'
      simp only [run_ite]
      split
      · next haccepted =>
        obtain ⟨haccepted, rfl⟩ := haccepted
        rcases confirmAcceptedSignedPrekeyRotation_cases index pendingId fails m with ⟨e, h⟩ | h
        · rw [run_bind_error h]
          exact .failed e
        · rw [run_bind_ok h]
          exact .confirmed index publicKey signature hitem haccepted
      · next hrejected =>
        rcases reconcileRejectedSignedPrekeyRotation_cases S index _ pendingId previouslyAccepted
          currentKeyId now drawn newId fails m hitem with ⟨e, h⟩ | ⟨keyId, nextKeyId, hids, hnew, h⟩
        · rw [run_bind_error h]
          exact .failed e
        · rw [run_bind_ok h]
          exact .replaced index candidateKeyId publicKey signature hitem hrejected keyId nextKeyId
            hids hnew
    | _ => exact .unknown

/-! ## One-time prekeys -/

/-- The generated ids are a range from `start` on. -/
theorem mem_generateFrom_ids (drawn : List Sec) :
    ∀ start : UInt32, start.toNat + drawn.length < UInt32.size → ∀ id : UInt32,
      id ∈ (generateFrom S start drawn).map Prod.fst ↔
        start.toNat ≤ id.toNat ∧ id.toNat < start.toNat + drawn.length := by
  induction drawn with
  | nil =>
    intro start _ id
    refine ⟨fun h => absurd h List.not_mem_nil, fun h => ?_⟩
    rw [List.length_nil] at h
    omega
  | cons secret rest ih =>
    intro start hlt id
    rw [List.length_cons] at hlt ⊢
    have hs : (start + 1).toNat = start.toNat + 1 := toNat_succ (by omega)
    refine List.mem_cons.trans ?_
    rw [ih (start + 1) (by omega) id, hs, ← UInt32.toNat_inj]
    dsimp only
    omega

theorem generateFrom_ids (drawn : List Sec) (start : UInt32)
    (hlt : start.toNat + drawn.length < UInt32.size) (id : UInt32)
    (hid : id ∈ (generateFrom S start drawn).map Prod.fst) :
    start.toNat ≤ id.toNat ∧ id.toNat < start.toNat + drawn.length :=
  (mem_generateFrom_ids S drawn start hlt id).mp hid

theorem generateFrom_length (drawn : List Sec) :
    ∀ start : UInt32, (generateFrom S start drawn).length = drawn.length := by
  induction drawn with
  | nil => intro start; rfl
  | cons secret rest ih => intro start; exact congrArg (· + 1) (ih (start + 1))

theorem generateFrom_nodup (drawn : List Sec) :
    ∀ start : UInt32, start.toNat + drawn.length < UInt32.size →
      ((generateFrom S start drawn).map Prod.fst).Nodup := by
  induction drawn with
  | nil => intro start _; exact List.nodup_nil
  | cons secret rest ih =>
    intro start hlt
    rw [List.length_cons] at hlt
    have hs : (start + 1).toNat = start.toNat + 1 := toNat_succ (by omega)
    refine List.nodup_cons.mpr ⟨fun hmem => ?_, ih (start + 1) (by omega)⟩
    have hge := (generateFrom_ids S rest (start + 1) (by omega) start hmem).1
    omega

/-- A generated key is the public half of its secret. -/
theorem generateFrom_made (drawn : List Sec) :
    ∀ start : UInt32, ∀ entry ∈ generateFrom S start drawn,
      entry.2 = OneTimePreKey.generate S entry.2.secret := by
  induction drawn with
  | nil => intro start entry hentry; cases hentry
  | cons secret rest ih =>
    intro start entry hentry
    rcases List.mem_cons.mp hentry with rfl | hentry
    · rfl
    · exact ih (start + 1) entry hentry

namespace Generated

variable {S : IdentitySuite K Sec C} {m : Manager K Sec C} {env : UploadEnv Sec}
  {generated : List (UInt32 × OneTimePreKey Sec)} {nextId : UInt32}

theorem eq_generateFrom (hgen : Generated S m env generated nextId) :
    m.nextOneTimePrekeyId.toNat + ((List.range PREKEY_TARGET).map env.drawn).length < UInt32.size ∧
      generated = generateFrom S m.nextOneTimePrekeyId
        ((List.range PREKEY_TARGET).map env.drawn) := by
  have hkeys := hgen.keys
  unfold generateOneTimePrekeys at hkeys
  split at hkeys
  · next hlt => exact ⟨hlt, (Except.ok.inj hkeys).symm⟩
  · cases hkeys

theorem nodup (hgen : Generated S m env generated nextId) : (generated.map Prod.fst).Nodup := by
  obtain ⟨hlt, rfl⟩ := hgen.eq_generateFrom
  exact generateFrom_nodup S _ _ hlt

theorem length (hgen : Generated S m env generated nextId) : generated.length = PREKEY_TARGET := by
  obtain ⟨-, rfl⟩ := hgen.eq_generateFrom
  rw [generateFrom_length, List.length_map, List.length_range]

theorem mem_ids (hgen : Generated S m env generated nextId) (id : UInt32) :
    id ∈ generated.map Prod.fst ↔ m.nextOneTimePrekeyId.toNat ≤ id.toNat ∧
      id.toNat < m.nextOneTimePrekeyId.toNat + PREKEY_TARGET := by
  obtain ⟨hlt, rfl⟩ := hgen.eq_generateFrom
  rw [mem_generateFrom_ids S _ _ hlt, List.length_map, List.length_range]

/-- An id that was handed out is below every generated id. -/
theorem notMem (hgen : Generated S m env generated nextId) {id : UInt32}
    (hid : saturatingSucc id ≤ m.nextOneTimePrekeyId) : id ∉ generated.map Prod.fst := by
  intro hmem
  obtain ⟨hlt, -⟩ := hgen.eq_generateFrom
  rw [List.length_map, List.length_range] at hlt
  obtain ⟨hge, hub⟩ := (hgen.mem_ids id).mp hmem
  have hbelow := UInt32.le_iff_toNat_le.mp hid
  have hroom : id.toNat + 1 < UInt32.size := by omega
  have hsucc : (saturatingSucc id).toNat = id.toNat + 1 := by
    unfold saturatingSucc
    rw [if_pos hroom]
    exact toNat_succ hroom
  omega

end Generated

/-- A batch can be made: no upload waits, there are ids for it and room in the outbox. -/
structure Manager.MakesBatch (m : Manager K Sec C) : Prop where
  alone : ∀ item ∈ m.pendingOutbound, isUpload item = false
  ids : m.nextOneTimePrekeyId.toNat + PREKEY_TARGET < UInt32.size
  room : ensureCapacity m.pendingOutbound (PREKEY_TARGET * 48) = .ok ()

/-- The store takes the batch. -/
def UploadEnv.Taken (env : UploadEnv Sec) (m : Manager K Sec C) : Prop :=
  env.fails = false ∧ env.uploadId ∉ m.store.outbox.map Prod.fst

/-- An id of the batch is in use, by a key that is not due. -/
def Manager.ReusesId (m : Manager K Sec C) (env : UploadEnv Sec) : Prop :=
  ∃ id : UInt32, m.nextOneTimePrekeyId.toNat ≤ id.toNat ∧
    id.toNat < m.nextOneTimePrekeyId.toNat + PREKEY_TARGET ∧
    (id ∈ m.storedOpks ∨ id ∈ m.oneTimePrekeyCreatedAt) ∧ isStale m env.cutoffNow id = false

/-- While there are ids, the keys of a batch can be generated. -/
theorem generated_of_ids (hids : m.nextOneTimePrekeyId.toNat + PREKEY_TARGET < UInt32.size)
    (env : UploadEnv Sec) :
    ∃ generated nextId, Generated S m env generated nextId := by
  refine ⟨generateFrom S m.nextOneTimePrekeyId ((List.range PREKEY_TARGET).map env.drawn),
    m.nextOneTimePrekeyId + 100, ?_, if_pos hids⟩
  unfold generateOneTimePrekeys
  rw [List.length_map, List.length_range, if_pos hids]

/-- The rollback of a replenishment restores both prekey maps, unless an id was reused. -/
theorem undoGenerated_eq_iff {S : IdentitySuite K Sec C} {env : UploadEnv Sec}
    {generated : List (UInt32 × OneTimePreKey Sec)} {nextId : UInt32}
    (hgen : Generated S m env generated nextId) (item : PendingOutbound C) :
    undoGenerated generated env m (pushOutbound item (fileGenerated generated nextId env m)) = m ↔
      ¬m.ReusesId env := by
  have hids : generated.map Prod.fst =
      (generated.map fun entry => (entry.1, env.createdAt)).map Prod.fst := by
    rw [List.map_map]
    rfl
  have hopks := HMap.union_removeAll_eq_iff (isStale m env.cutoffNow) generated m.storedOpks
  have hcreated := HMap.union_removeAll_eq_iff (isStale m env.cutoffNow)
    (generated.map fun entry => (entry.1, env.createdAt)) m.oneTimePrekeyCreatedAt
  rw [← hids] at hcreated
  unfold undoGenerated popOutbound pushOutbound fileGenerated
  simp only [List.dropLast_concat]
  constructor
  · rintro h ⟨id, hge, hlt, hused, hfresh⟩
    have hnew := (hgen.mem_ids id).mpr ⟨hge, hlt⟩
    have hstale : isStale m env.cutoffNow id = true := by
      rcases hused with hused | hused
      · exact hopks.mp (congrArg Manager.storedOpks h) id hnew hused
      · exact hcreated.mp (congrArg Manager.oneTimePrekeyCreatedAt h) id hnew hused
    rw [hstale] at hfresh
    cases hfresh
  · intro h
    have hdue (id : UInt32) (hid : id ∈ generated.map Prod.fst)
        (hused : id ∈ m.storedOpks ∨ id ∈ m.oneTimePrekeyCreatedAt) :
        isStale m env.cutoffNow id = true := by
      by_contra hfresh
      obtain ⟨hge, hlt⟩ := (hgen.mem_ids id).mp hid
      exact h ⟨id, hge, hlt, hused, eq_false_of_ne_true hfresh⟩
    rw [hopks.mpr fun id hid hmem => hdue id hid (.inl hmem),
      hcreated.mpr fun id hid hmem => hdue id hid (.inr hmem)]

/-- In a sound manager no id is used twice. -/
theorem Manager.Sound.not_reusesId (hm : m.Sound) (hmakes : m.MakesBatch)
    (S : IdentitySuite K Sec C) (env : UploadEnv Sec) : ¬m.ReusesId env := by
  rintro ⟨id, hge, hlt, hused, -⟩
  obtain ⟨generated, nextId, hgen⟩ := generated_of_ids S hmakes.ids env
  have hmem : id ∈ m.storedOpks := hused.elim (fun h => h) (hm.created id).mp
  exact hgen.notMem (hm.opkBelow id hmem) ((hgen.mem_ids id).mpr ⟨hge, hlt⟩)

/-- How a replenishment can end. -/
inductive Replenished (S : IdentitySuite K Sec C) (m : Manager K Sec C) (env : UploadEnv Sec) :
    EStateM.Result ManagerError (Manager K Sec C) (ClientMessage C) → Prop
  | pending (upload : PendingOutbound C) (hupload : upload ∈ m.pendingOutbound)
      (hkind : isUpload upload = true) : Replenished S m env (.ok upload.toClientMessage m)
  | refused (e : ManagerError) (hnot : ¬m.MakesBatch) : Replenished S m env (.error e m)
  | undone (e : ManagerError) (hmakes : m.MakesBatch) (hnot : ¬env.Taken m) (m' : Manager K Sec C)
      (hback : m' = m ↔ ¬m.ReusesId env) : Replenished S m env (.error e m')
  | filed (hmakes : m.MakesBatch) (htaken : env.Taken m)
      (generated : List (UInt32 × OneTimePreKey Sec)) (nextId : UInt32)
      (hgen : Generated S m env generated nextId) :
      Replenished S m env (.ok (PendingOutbound.toClientMessage (env.item generated))
        ((fileGenerated generated nextId env m).filed (env.item generated)))

theorem replenishPrekeys_result (env : UploadEnv Sec) (m : Manager K Sec C)
    (halone : ∀ item ∈ m.pendingOutbound, isUpload item = false) :
    Replenished S m env ((replenishPrekeys S env).run m) := by
  unfold replenishPrekeys
  rw [run_bind_ok (run_get m)]
  by_cases hids : m.nextOneTimePrekeyId.toNat + PREKEY_TARGET < UInt32.size
  · obtain ⟨generated, nextId, hgen⟩ := generated_of_ids S hids env
    rw [hgen.keys]
    dsimp only
    rw [hgen.length]
    cases hcap : ensureCapacity m.pendingOutbound (PREKEY_TARGET * 48) with
    | error e =>
      refine .refused e fun hmakes => ?_
      rw [hmakes.room] at hcap
      cases hcap
    | ok _ =>
      have hmakes : m.MakesBatch := ⟨halone, hids, hcap⟩
      rw [run_bind_ok (run_ofExcept_ok _ _), hgen.next]
      dsimp only
      rw [run_bind_ok (run_modify _ _)]
      by_cases htaken : env.Taken m
      · rw [htaken.1]
        refine Eq.mpr (congrArg _ (pushAndPersist_new (env.item generated) _ htaken.2)) ?_
        exact .filed hmakes htaken generated nextId hgen
      · rcases pushAndPersist_cases (env.item generated) env.fails (undoGenerated generated env m)
          (fileGenerated generated nextId env m) with ⟨hnew, h⟩ | ⟨e, h⟩
        · exfalso
          cases hfails : env.fails with
          | false => exact htaken ⟨hfails, hnew⟩
          | true =>
            rw [hfails] at h
            cases h
        · refine Eq.mpr (congrArg _ h) ?_
          exact .undone e hmakes htaken _ (undoGenerated_eq_iff hgen _)
  · have hkeys : generateOneTimePrekeys S m.nextOneTimePrekeyId
        ((List.range PREKEY_TARGET).map env.drawn) =
          .error (.invalidBundle "pre-key ID range overflow") := by
      unfold generateOneTimePrekeys
      rw [List.length_map, List.length_range, if_neg hids]
    rw [hkeys]
    exact .refused _ fun hmakes => hids hmakes.ids

theorem queuePrekeyReplenishment_result (env : UploadEnv Sec) (m : Manager K Sec C) :
    Replenished S m env ((queuePrekeyReplenishment S env).run m) := by
  unfold queuePrekeyReplenishment
  rw [run_bind_ok (run_get m)]
  cases hf : m.pendingOutbound.find? isUpload with
  | some pending => exact .pending pending (List.mem_of_find?_eq_some hf) (List.find?_some hf)
  | none =>
    refine replenishPrekeys_result S env m fun item hitem => ?_
    exact eq_false_of_ne_true (List.find?_eq_none.mp hf item hitem)

theorem sealedTo_of_isUpload {item : PendingOutbound C} (h : isUpload item = true) :
    sealedTo item.toClientMessage = none := by
  cases item <;> simp_all [isUpload, PendingOutbound.toClientMessage, sealedTo]

/-- A batch that can be made and that the store takes is filed. -/
theorem queuePrekeyReplenishment_files {env : UploadEnv Sec} (hmakes : m.MakesBatch)
    (htaken : env.Taken m) :
    ∃ generated nextId, Generated S m env generated nextId ∧
      (queuePrekeyReplenishment S env).run m =
        .ok (PendingOutbound.toClientMessage (env.item generated))
          ((fileGenerated generated nextId env m).filed (env.item generated)) := by
  have h := queuePrekeyReplenishment_result S env m
  revert h
  generalize (queuePrekeyReplenishment S env).run m = result
  intro h
  cases h with
  | pending upload hupload hkind =>
    rw [hmakes.alone upload hupload] at hkind
    cases hkind
  | refused e hnot => exact absurd hmakes hnot
  | undone e _ hnot => exact absurd htaken hnot
  | filed _ _ generated nextId hgen => exact ⟨generated, nextId, hgen, rfl⟩

theorem queuePrekeyReplenishment_cases (env : UploadEnv Sec) (m : Manager K Sec C) (hm : m.Sound) :
    (∃ e, (queuePrekeyReplenishment S env).run m = .error e m) ∨
    (∃ upload ∈ m.pendingOutbound, isUpload upload = true ∧
      (queuePrekeyReplenishment S env).run m = .ok upload.toClientMessage m) ∨
    ∃ generated nextId, Generated S m env generated nextId ∧
      env.uploadId ∉ m.store.outbox.map Prod.fst ∧
      (queuePrekeyReplenishment S env).run m =
        .ok (PendingOutbound.toClientMessage (env.item generated))
          ((fileGenerated generated nextId env m).filed (env.item generated)) := by
  have h := queuePrekeyReplenishment_result S env m
  revert h
  generalize (queuePrekeyReplenishment S env).run m = result
  intro h
  cases h with
  | pending upload hupload hkind => exact .inr (.inl ⟨upload, hupload, hkind, rfl⟩)
  | refused e hnot => exact .inl ⟨e, rfl⟩
  | undone e hmakes hnot m' hback =>
    cases hback.mpr (hm.not_reusesId hmakes S env)
    exact .inl ⟨e, rfl⟩
  | filed hmakes htaken generated nextId hgen =>
    exact .inr (.inr ⟨generated, nextId, hgen, htaken.2, rfl⟩)

theorem correlationId_of_isUploadOf {uploadId : MessageId} (item : PendingOutbound C)
    (h : isUploadOf uploadId item = true) : item.correlationId = uploadId := by
  cases item <;> simp_all [isUploadOf, PendingOutbound.correlationId]

/-- A rejected batch put back restores both prekey maps. -/
theorem restoreRejected_drop (ids : List UInt32) (m : Manager K Sec C) :
    restoreRejected ids m (dropRejected ids m) = m := by
  unfold restoreRejected dropRejected
  simp only [HMap.insertAll_removeAll]

/-! ## Every operation -/

/-- The manager with the item at `index` taken out of memory. -/
def Manager.without (index : Nat) (m : Manager K Sec C) : Manager K Sec C :=
  { m with pendingOutbound := m.pendingOutbound.eraseIdx index }

theorem reinsert_without {index : Nat} {item : PendingOutbound C}
    (hitem : m.pendingOutbound[index]? = some item) :
    reinsert index item (m.without index) = m := by
  unfold reinsert Manager.without
  simp only [insertIdx_eraseIdx hitem]

theorem eraseIdx_append {α : Type} {l : List α} {index : Nat} {a b : α} (h : l[index]? = some a) :
    (l ++ [b]).eraseIdx index = l.eraseIdx index ++ [b] := by
  obtain ⟨hlt, -⟩ := List.getElem?_eq_some_iff.mp h
  exact List.eraseIdx_append_of_lt_length hlt [b]

theorem insertIdx_eraseIdx_append {α : Type} {l : List α} {index : Nat} {a b : α}
    (h : l[index]? = some a) : (l.eraseIdx index ++ [b]).insertIdx index a = l ++ [b] := by
  rw [← eraseIdx_append h]
  refine insertIdx_eraseIdx ?_
  obtain ⟨hlt, hget⟩ := List.getElem?_eq_some_iff.mp h
  rw [List.getElem?_append_left hlt, h]

theorem reinsert_injective {m' : Manager K Sec C} {index : Nat} {item : PendingOutbound C}
    (h : reinsert index item m = reinsert index item m') : m = m' := by
  have hpending : m.pendingOutbound = m'.pendingOutbound :=
    List.insertIdx_injective index item (congrArg Manager.pendingOutbound h)
  calc m = { reinsert index item m with pendingOutbound := m.pendingOutbound } := rfl
    _ = { reinsert index item m' with pendingOutbound := m'.pendingOutbound } := by
      rw [h, hpending]
    _ = m' := rfl

/-- The manager on which an operation asks for a new batch of one-time prekeys: for the answer to
an upload, the one without that upload. -/
def Op.batchOn (m : Manager K Sec C) : Op Sec C → Option (Manager K Sec C × UploadEnv Sec)
  | .queuePrekeyReplenishment env => some (m, env)
  | .confirmPrekeysUploaded uploadId accepted remaining env _ =>
    match findItem (isUploadOf uploadId) m.pendingOutbound with
    | some (index, _) =>
      if accepted = true ∧ remaining.toNat < PREKEY_TARGET then
        some (m.without index, env) else none
    | none => none
  | _ => none

/-- The batch can be made, and the store takes it, so that only a later call can fail; or an id of
the batch is in use, so that the rollback removes a key that was there. -/
def Op.LeavesTrace (op : Op Sec C) (m : Manager K Sec C) : Prop :=
  ∃ start env, op.batchOn m = some (start, env) ∧ start.MakesBatch ∧
    (env.Taken start ∨ start.ReusesId env)

theorem Op.not_leavesTrace {op : Op Sec C} (h : op.batchOn m = none) :
    ¬op.LeavesTrace m := by
  rintro ⟨start, env, hon, -⟩
  rw [h] at hon
  cases hon

theorem Op.leavesTrace_iff {op : Op Sec C} {start : Manager K Sec C} {env : UploadEnv Sec}
    (h : op.batchOn m = some (start, env)) :
    op.LeavesTrace m ↔ start.MakesBatch ∧ (env.Taken start ∨ start.ReusesId env) := by
  constructor
  · rintro ⟨start', env', hon, hleaves⟩
    rw [h] at hon
    cases hon
    exact hleaves
  · intro hleaves
    exact ⟨start, env, h, hleaves⟩

theorem Op.batchOn_answer {uploadId : MessageId} {index : Nat} {item : PendingOutbound C}
    (hf : findItem (isUploadOf uploadId) m.pendingOutbound = some (index, item)) (accepted : Bool)
    (remaining : UInt32) (env : UploadEnv Sec) (fails : Bool) :
    (Op.confirmPrekeysUploaded uploadId accepted remaining env fails : Op Sec C).batchOn m =
      if accepted = true ∧ remaining.toNat < PREKEY_TARGET then some (m.without index, env)
      else none := by
  simp only [Op.batchOn, hf]

theorem Manager.MakesBatch.not_of_mem {upload : PendingOutbound C}
    (hupload : upload ∈ m.pendingOutbound) (hkind : isUpload upload = true) : ¬m.MakesBatch := by
  intro hmakes
  rw [hmakes.alone upload hupload] at hkind
  cases hkind

/-- The store refuses to delete an upload after it has taken the batch that replaces it. -/
def Op.DoublesUpload (op : Op Sec C) (m : Manager K Sec C) : Prop :=
  match op with
  | .confirmPrekeysUploaded _ _ _ _ fails =>
    fails = true ∧ ∃ start env, op.batchOn m = some (start, env) ∧ start.MakesBatch ∧
      env.Taken start
  | _ => False

theorem Op.leavesTrace_of_doublesUpload {op : Op Sec C} (h : op.DoublesUpload m) :
    op.LeavesTrace m := by
  cases op with
  | confirmPrekeysUploaded =>
    obtain ⟨-, start, env, hon, hmakes, htaken⟩ := h
    exact ⟨start, env, hon, hmakes, .inl htaken⟩
  | _ => cases h

/-- How the answer to an upload can end. An error leaves a trace where a batch was filed before the
deletion failed, or where the rollback of a batch met an id in use. -/
inductive UploadAnswered (S : IdentitySuite K Sec C) (m : Manager K Sec C) (uploadId : MessageId)
    (accepted : Bool) (remaining : UInt32) (env : UploadEnv Sec) (fails : Bool) :
    EStateM.Result ManagerError (Manager K Sec C) (Option (ClientMessage C)) → Prop
  | unknown (hnone : findItem (isUploadOf uploadId) m.pendingOutbound = none) :
      UploadAnswered S m uploadId accepted remaining env fails (.ok none m)
  | failed (e : ManagerError)
      (hnot : ¬(Op.confirmPrekeysUploaded uploadId accepted remaining env fails).LeavesTrace m) :
      UploadAnswered S m uploadId accepted remaining env fails (.error e m)
  | undone (e : ManagerError)
      (hleaves : (Op.confirmPrekeysUploaded uploadId accepted remaining env fails).LeavesTrace m)
      (hunsound : ¬m.Sound)
      (hnot : ¬(Op.confirmPrekeysUploaded uploadId accepted remaining env fails).DoublesUpload m)
      (m' : Manager K Sec C) (hne : m' ≠ m) :
      UploadAnswered S m uploadId accepted remaining env fails (.error e m')
  | confirmed (index : Nat) (prekeys : List PublicOneTimePreKey)
      (hitem : m.pendingOutbound[index]? = some (.preKeyUpload uploadId prekeys))
      (haccepted : accepted = true) (henough : PREKEY_TARGET ≤ remaining.toNat)
      (hfails : fails = false) :
      UploadAnswered S m uploadId accepted remaining env fails (.ok none (m.unfiled index uploadId))
  | resent (index : Nat) (prekeys : List PublicOneTimePreKey)
      (hitem : m.pendingOutbound[index]? = some (.preKeyUpload uploadId prekeys))
      (haccepted : accepted = true) (hfew : remaining.toNat < PREKEY_TARGET)
      (upload : PendingOutbound C) (hupload : upload ∈ m.pendingOutbound.eraseIdx index)
      (hkind : isUpload upload = true) (hfails : fails = false) :
      UploadAnswered S m uploadId accepted remaining env fails
        (.ok (some upload.toClientMessage) (m.unfiled index uploadId))
  | replaced (index : Nat) (prekeys : List PublicOneTimePreKey)
      (hitem : m.pendingOutbound[index]? = some (.preKeyUpload uploadId prekeys))
      (haccepted : accepted = true) (hfew : remaining.toNat < PREKEY_TARGET)
      (generated : List (UInt32 × OneTimePreKey Sec)) (nextId : UInt32)
      (hgen : Generated S m env generated nextId)
      (hnew : env.uploadId ∉ m.store.outbox.map Prod.fst) (hfails : fails = false)
      (hroom : ensureCapacity (m.pendingOutbound.eraseIdx index) (PREKEY_TARGET * 48) = .ok ()) :
      UploadAnswered S m uploadId accepted remaining env fails
        (.ok (some (PendingOutbound.toClientMessage (env.item generated)))
          (((fileGenerated generated nextId env m).filed (env.item generated)).unfiled index
            uploadId))
  | kept (e : ManagerError) (generated : List (UInt32 × OneTimePreKey Sec)) (nextId : UInt32)
      (hgen : Generated S m env generated nextId)
      (hnew : env.uploadId ∉ m.store.outbox.map Prod.fst)
      (hdoubles : (Op.confirmPrekeysUploaded uploadId accepted remaining env fails).DoublesUpload
        m) :
      UploadAnswered S m uploadId accepted remaining env fails
        (.error e ((fileGenerated generated nextId env m).filed (env.item generated)))
  | rejected (index : Nat) (prekeys : List PublicOneTimePreKey)
      (hitem : m.pendingOutbound[index]? = some (.preKeyUpload uploadId prekeys))
      (hrejected : accepted = false) (hfails : fails = false) :
      UploadAnswered S m uploadId accepted remaining env fails
        (.ok none ((dropRejected (prekeys.map (·.keyId)) m).saved.unfiled index uploadId))

/-- The answer that accepts an upload, run with the upload taken out of memory. -/
theorem acceptUpload_answered {index : Nat} {uploadId : MessageId}
    {prekeys : List PublicOneTimePreKey}
    (hf : findItem (isUploadOf uploadId) m.pendingOutbound =
      some (index, .preKeyUpload uploadId prekeys)) (remaining : UInt32) (env : UploadEnv Sec)
    (fails : Bool) :
    UploadAnswered S m uploadId true remaining env fails
      ((do
        let replacement ← replacementUpload S index (.preKeyUpload uploadId prekeys) remaining env
        commitOr fails (fun _ => CryptoStore.deleteOutbound uploadId)
          (reinsert index (.preKeyUpload uploadId prekeys)) .other
        pure replacement : ManagerM K Sec C (Option (ClientMessage C))).run (m.without index)) := by
  have hitem := (findItem_eq_some hf).1
  have hon := Op.batchOn_answer hf true remaining env fails
  have hfailed (e : ManagerError)
      (hnot : ¬(Op.confirmPrekeysUploaded uploadId true remaining env fails).LeavesTrace m) :
      UploadAnswered S m uploadId true remaining env fails
        (.error e (reinsert index (.preKeyUpload uploadId prekeys) (m.without index))) := by
    rw [reinsert_without hitem]
    exact .failed e hnot
  rw [run_bind]
  simp only [replacementUpload, run_ite]
  by_cases hfew : remaining.toNat < PREKEY_TARGET
  · rw [if_pos ⟨rfl, hfew⟩] at hon
    rw [if_pos hfew, run_bind_ok (run_get _)]
    have hresult := queuePrekeyReplenishment_result S env (m.without index)
    generalize (queuePrekeyReplenishment S env).run (m.without index) = result at hresult ⊢
    cases hresult with
    | pending upload hupload hkind =>
      cases fails with
      | false => exact .resent index prekeys hitem rfl hfew upload hupload hkind rfl
      | true =>
        refine hfailed (.other .unavailable) fun hleaves => ?_
        exact Manager.MakesBatch.not_of_mem hupload hkind ((Op.leavesTrace_iff hon).mp hleaves).1
    | refused e hnot =>
      exact hfailed e fun hleaves => hnot ((Op.leavesTrace_iff hon).mp hleaves).1
    | undone e hmakes hnot m' hback =>
      by_cases hreuses : (m.without index).ReusesId env
      · refine .undone e ((Op.leavesTrace_iff hon).mpr ⟨hmakes, .inr hreuses⟩) (fun hm => ?_)
          (fun hdoubles => ?_) _ fun hsame => ?_
        · have hw : (m.without index).Sound := ⟨hm.created, hm.opkBelow, hm.floor, hm.spkBelow⟩
          exact hw.not_reusesId hmakes S env hreuses
        · obtain ⟨-, start, env', hon', -, htaken⟩ := hdoubles
          cases hon.symm.trans hon'
          exact hnot htaken
        · exact hback.mp (reinsert_injective (hsame.trans (reinsert_without hitem).symm)) hreuses
      · cases hback.mpr hreuses
        exact hfailed e fun hleaves =>
          ((Op.leavesTrace_iff hon).mp hleaves).2.elim hnot hreuses
    | filed hmakes htaken generated nextId hgen =>
      cases fails with
      | false =>
        have hreplaced : UploadAnswered S m uploadId true remaining env false _ :=
          .replaced index prekeys hitem rfl hfew generated nextId ⟨hgen.keys, hgen.next⟩ htaken.2
            rfl hmakes.room
        unfold Manager.unfiled Manager.filed fileGenerated at hreplaced
        simp only [eraseIdx_append hitem] at hreplaced
        exact hreplaced
      | true =>
        -- the upload comes back in front of its replacement
        have hkept : UploadAnswered S m uploadId true remaining env true _ :=
          .kept (.other .unavailable) generated nextId ⟨hgen.keys, hgen.next⟩ htaken.2
            ⟨rfl, _, env, hon, hmakes, htaken⟩
        unfold Manager.filed fileGenerated at hkept
        simp only [← insertIdx_eraseIdx_append hitem] at hkept
        exact hkept
  · rw [if_neg hfew]
    rw [if_neg fun hboth => hfew hboth.2] at hon
    cases fails with
    | false => exact .confirmed index prekeys hitem rfl (Nat.le_of_not_lt hfew) rfl
    | true => exact hfailed (.other .unavailable) (Op.not_leavesTrace hon)

theorem confirmPrekeysUploaded_cases (uploadId : MessageId) (accepted : Bool) (remaining : UInt32)
    (env : UploadEnv Sec) (fails : Bool) (m : Manager K Sec C) :
    UploadAnswered S m uploadId accepted remaining env fails
      ((confirmPrekeysUploaded S uploadId accepted remaining env fails).run m) := by
  unfold confirmPrekeysUploaded
  rw [run_bind_ok (run_get m)]
  cases hf : findItem (isUploadOf uploadId) m.pendingOutbound with
  | none => exact .unknown hf
  | some found =>
    obtain ⟨index, item⟩ := found
    obtain ⟨hitem, hkind⟩ := findItem_eq_some hf
    cases item with
    | preKeyUpload pendingId prekeys =>
      have hid' : pendingId = uploadId := correlationId_of_isUploadOf _ hkind
      subst hid'
      simp only [run_bind_ok (run_modify _ m), run_ite]
      cases accepted with
      | true => exact acceptUpload_answered S hf remaining env fails
      | false =>
        cases fails with
        | false => exact .rejected index prekeys hitem rfl rfl
        | true =>
          have hback : reinsert index (.preKeyUpload pendingId prekeys)
              (restoreRejected (prekeys.map (·.keyId)) m
                (dropRejected (prekeys.map (·.keyId)) (m.without index))) = m := by
            refine Eq.trans ?_ (reinsert_without hitem)
            exact congrArg (reinsert index _) (restoreRejected_drop _ (m.without index))
          have hon := Op.batchOn_answer hf false remaining env true
          exact Eq.mpr (congrArg (fun m' => UploadAnswered S m pendingId false remaining env true
            (.error (.other .unavailable) m')) hback) (.failed _ (Op.not_leavesTrace hon))
    | _ => cases hkind

/-- The outcome of a run whose value stands for these client messages. -/
def HasOutcome {α : Type} (S : IdentitySuite K Sec C) (m : Manager K Sec C) (op : Op Sec C)
    (messages : α → List (ClientMessage C))
    (result : EStateM.Result ManagerError (Manager K Sec C) α) : Prop :=
  Outcome S m op ((((value? result).map messages).getD []).filterMap sealedTo) (finalState result)

section

variable {S : IdentitySuite K Sec C} {m : Manager K Sec C} {op : Op Sec C}

theorem HasOutcome.error {α : Type} (messages : α → List (ClientMessage C)) (e : ManagerError) :
    HasOutcome S m op messages (.error e m) := .idle op

/-- Nothing returned and nothing changed. -/
theorem HasOutcome.unchanged {α : Type}
    {result : EStateM.Result ManagerError (Manager K Sec C) α} (h : finalState result = m) :
    HasOutcome S m op (fun _ => []) result := by
  cases result with
  | ok a m' | error e m' => cases h; exact .idle op

theorem EncryptResult.outcome {peerId recipientId : UserId} {plaintext : Bytes}
    {item : EncryptedEnvelope C → PendingOutbound C}
    {result : EStateM.Result ManagerError (Manager K Sec C) (ClientMessage C)}
    (h : EncryptResult S m peerId plaintext item result)
    (hitem : ∀ envelope, sealedTo (item envelope).toClientMessage = some (recipientId, envelope))
    (hmakes : ∀ envelope, op.Makes (item envelope)) :
    HasOutcome S m op (fun message => [message]) result := by
  cases h with
  | failed e => exact .error _ e
  | filed original message ratchet hsession hmade hnew =>
    have houtcome := Outcome.encrypted op peerId recipientId plaintext original message ratchet
      (item (original.wrap S (S.verifyingKey m.identity) message)) hsession hmade
      (hitem _) hnew (hmakes _)
    unfold HasOutcome
    simpa [value?, finalState, hitem] using houtcome

theorem queuePrekeyReplenishment_outcome (hm : m.Sound) (env : UploadEnv Sec)
    (henv : op.uploadEnv? = some env) :
    HasOutcome S m op (fun message => [message]) ((queuePrekeyReplenishment S env).run m) := by
  rcases queuePrekeyReplenishment_cases S env m hm with
    ⟨e, h⟩ | ⟨upload, -, hkind, h⟩ | ⟨generated, nextId, hgen, hnew, h⟩
  · exact h ▸ .error _ e
  · rw [h]
    unfold HasOutcome
    simp only [value?, finalState, Option.map_some, Option.getD_some,
      List.filterMap_cons_none (sealedTo_of_isUpload hkind), List.filterMap_nil]
    exact .idle op
  · exact h ▸ .replenished op env generated nextId hgen hnew henv

theorem queueItem_outcome (bytes : Nat) (item : PendingOutbound C) (fails : Bool)
    (hitem : op.queuedItem = some item) :
    HasOutcome S m op (fun message => [message])
      ((do
        let m ← get
        ofExcept (ensureCapacity m.pendingOutbound bytes)
        pushAndPersist item fails popOutbound : ManagerM K Sec C (ClientMessage C)).run m) := by
  rcases queueItem_cases bytes item fails m with ⟨e, h⟩ | ⟨-, hnew, h⟩
  · rw [h]
    exact .error _ e
  · rw [h]
    unfold HasOutcome
    simp only [value?, finalState, Option.map_some, Option.getD_some,
      List.filterMap_cons_none (Op.queuedItem_open hitem)]
    exact .queued op item hitem hnew

theorem confirmSent_outcome (p : PendingOutbound C → Bool) (id : MessageId) (fails : Bool)
    (hp : ∀ item, p item = true → item.correlationId = id)
    (hkind : ∀ item, p item = true → isRotation item = false) :
    HasOutcome S m op (fun _ => []) ((confirmSent p id fails).run m) := by
  rcases confirmSent_cases p id fails hp m with
    ⟨e, h⟩ | ⟨-, h⟩ | ⟨index, item, hitem, hpi, rfl, h⟩
  · exact h ▸ .error _ e
  · exact h ▸ .idle op
  · rw [h]
    exact .confirmed op index item hitem (hkind item hpi)

theorem decryptMessageToText_outcome (peerId : UserId) (messageId : MessageId)
    (envelope : EncryptedEnvelope C) (env : DecryptEnv Sec) :
    HasOutcome S m (.decryptMessageToText peerId messageId envelope env) (fun _ => [])
      ((decryptMessageToText S peerId messageId envelope env).run m) := by
  obtain ⟨answer, m', h, hresult⟩ := decryptMessageToText_result S peerId messageId envelope env m
  rw [h]
  exact hresult.outcome

theorem confirmSignedPrekeyRotated_outcome (rotationId : MessageId)
    (accepted previouslyAccepted : Bool) (currentKeyId : UInt32) (now : Nat) (drawn : Sec)
    (newId : MessageId) (fails : Bool)
    (hmakes : ∀ spk : SignedPreKey Sec, op.Makes (rotationItem newId spk)) :
    HasOutcome S m op Option.toList
      ((confirmSignedPrekeyRotated S rotationId accepted previouslyAccepted currentKeyId now drawn
        newId fails).run m) := by
  have hanswer := confirmSignedPrekeyRotated_cases S rotationId accepted previouslyAccepted
    currentKeyId now drawn newId fails m
  generalize EStateM.run (confirmSignedPrekeyRotated S rotationId accepted previouslyAccepted
    currentKeyId now drawn newId fails) m = result at hanswer
  cases hanswer with
  | unknown => exact .idle op
  | failed e => exact .error _ e
  | confirmed index publicKey signature hitem => exact .rotationAccepted op index _ hitem
  | replaced index candidateKeyId publicKey signature hitem _ keyId nextKeyId hids hnew =>
    exact .rotationReplaced op index _ previouslyAccepted currentKeyId keyId nextKeyId now drawn
      newId hitem rfl hids hnew (hmakes _)

theorem confirmPrekeysUploaded_outcome (hm : m.Sound) (uploadId : MessageId) (accepted : Bool)
    (remaining : UInt32) (env : UploadEnv Sec) (fails : Bool) (henv : op.uploadEnv? = some env) :
    HasOutcome S m op Option.toList
      ((confirmPrekeysUploaded S uploadId accepted remaining env fails).run m) := by
  have hanswer := confirmPrekeysUploaded_cases S uploadId accepted remaining env fails m
  generalize EStateM.run (confirmPrekeysUploaded S uploadId accepted remaining env fails) m =
    result at hanswer
  cases hanswer with
  | unknown => exact .idle op
  | failed e => exact .error _ e
  | undone e _ hunsound => exact absurd hm hunsound
  | confirmed index prekeys hitem => exact .confirmed op index _ hitem rfl
  | resent index prekeys hitem _ _ upload _ hkind =>
    unfold HasOutcome
    simp only [value?, finalState, Option.map_some, Option.getD_some, Option.toList_some,
      List.filterMap_cons_none (sealedTo_of_isUpload hkind), List.filterMap_nil]
    exact .confirmed op index _ hitem rfl
  | replaced index prekeys hitem _ _ generated nextId hgen hnew =>
    exact .uploadReplaced op index _ env generated nextId hitem hgen hnew henv rfl
  | kept e generated nextId hgen hnew => exact .replenished op env generated nextId hgen hnew henv
  | rejected index prekeys hitem => exact .uploadRejected op index _ _ hitem rfl

theorem HasOutcome.map {α : Type} {f : α → List (ClientMessage C)} {x : ManagerM K Sec C α}
    (h : HasOutcome S m op f (x.run m)) : HasOutcome S m op id ((f <$> x).run m) := by
  rw [run_map]
  cases hr : x.run m with
  | ok a m' | error e m' => rw [hr] at h; exact h

/-- Every operation on a sound manager has an outcome. -/
theorem perform_outcome (texts : List MessageId → Bytes) (hm : m.Sound) (op : Op Sec C) :
    HasOutcome S m op id ((perform S texts op).run m) := by
  cases op with
  | addPending peerId => exact .asked peerId
  | initSessionFromBundle peerId bundle ephemeral drawn now fails =>
    refine HasOutcome.map ?_
    rcases initSessionFromBundle_cases S peerId bundle ephemeral drawn now fails m with
      ⟨e, h⟩ | ⟨session, hsession, h⟩
    · exact h ▸ .error _ e
    · exact h ▸ .initiated peerId bundle ephemeral drawn now fails session hsession
  | expireStalePrekeySession peerId now fails =>
    refine HasOutcome.map ?_
    rcases expireStalePrekeySession_cases peerId now fails m with
      ⟨e, h⟩ | h | ⟨session, hsession, hheader, h⟩
    · exact h ▸ .error _ e
    · exact .unchanged (congrArg finalState h)
    · exact h ▸ .expired peerId now fails session hsession hheader
  | encryptMessage peerId recipientId messageId plaintext fails =>
    exact HasOutcome.map
      ((encryptMessage_result S peerId recipientId messageId plaintext fails m).outcome
        (fun _ => rfl) fun envelope => ⟨envelope, rfl⟩)
  | encryptReadReceipt peerId recipientId messageIds receiptId fails =>
    exact HasOutcome.map
      ((encryptReadReceipt_result S texts peerId recipientId messageIds receiptId fails m).outcome
        (fun _ => rfl) fun envelope => ⟨envelope, rfl⟩)
  | queueAck messageIds ackId fails | queueReadReceiptAck receiptIds ackId fails =>
    exact HasOutcome.map (queueItem_outcome _ _ fails rfl)
  | confirmMessageSent messageId fails =>
    exact HasOutcome.map (confirmSent_outcome _ messageId fails correlationId_of_isMessage
      fun _ => not_rotation_of_isMessage)
  | confirmReadReceiptSent receiptId fails =>
    exact HasOutcome.map (confirmSent_outcome _ receiptId fails correlationId_of_isReadReceipt
      fun _ => not_rotation_of_isReadReceipt)
  | rejectMessage messageId fails =>
    refine HasOutcome.map ?_
    rcases rejectMessage_cases messageId fails m with
      ⟨e, h⟩ | h | ⟨index, recipientId, envelope, hitem, h⟩
    · exact h ▸ .error _ e
    · exact .unchanged (congrArg finalState h)
    · exact h ▸ .rejected messageId fails index recipientId envelope hitem
  | decryptMessageToText peerId messageId envelope env =>
    exact HasOutcome.map (decryptMessageToText_outcome peerId messageId envelope env)
  | confirmInboundStored peerId messageId fails =>
    refine HasOutcome.map ?_
    rcases confirmInboundStored_cases peerId messageId fails m with h | ⟨processed, hmarker, h⟩
    · exact .unchanged h
    · exact h ▸ .storedInbound peerId messageId fails processed hmarker
  | confirmAcked ackId messageIds fails =>
    refine HasOutcome.map ?_
    rcases confirmAcked_cases ackId messageIds fails m with h | ⟨index, item, hitem, hids, h⟩
    · exact .unchanged h
    · exact h ▸ .acked ackId messageIds fails index item hitem hids
  | persistRegistrationKeys spk opks rotatedAt createdAt fails =>
    refine HasOutcome.map ?_
    rcases persistRegistrationKeys_cases spk opks rotatedAt createdAt fails m with ⟨e, h⟩ | h
    · exact h ▸ .error _ e
    · exact h ▸ .registered spk opks rotatedAt createdAt fails
  | queueSignedPrekeyRotation now drawn rotationId fails =>
    refine HasOutcome.map ?_
    rcases queueSignedPrekeyRotation_cases S now drawn rotationId fails m with
      h | ⟨current, keyId, nextKeyId, hnone, hids, hnew, -, h⟩
    · exact .unchanged h
    · exact h ▸ .rotated now drawn rotationId fails current keyId nextKeyId hids hnew hnone
  | confirmSignedPrekeyRotated rotationId accepted previouslyAccepted currentKeyId now drawn newId
      fails =>
    exact HasOutcome.map (confirmSignedPrekeyRotated_outcome rotationId accepted
      previouslyAccepted currentKeyId now drawn newId fails fun _ => beq_self_eq_true newId)
  | queuePrekeyReplenishment env =>
    exact HasOutcome.map (queuePrekeyReplenishment_outcome hm env rfl)
  | confirmPrekeysUploaded uploadId accepted remaining env fails =>
    exact HasOutcome.map
      (confirmPrekeysUploaded_outcome hm uploadId accepted remaining env fails rfl)

/-- The same, for a step of a trace. -/
theorem Trace.step_outcome (texts : List MessageId → Bytes) (t : Trace K Sec C)
    (hm : t.manager.Sound) (op : Op Sec C) :
    Outcome S t.manager op
      (((value? ((perform S texts op).run t.manager)).getD []).filterMap sealedTo)
      (t.step S texts op).manager := by
  have houtcome := perform_outcome (S := S) texts hm op
  unfold HasOutcome at houtcome
  rw [Option.map_id] at houtcome
  exact houtcome

/-- An operation that makes no item leaves a part of the outbox. -/
theorem Outcome.kept {m' : Manager K Sec C} {sent : List (UserId × EncryptedEnvelope C)}
    (h : Outcome S m op sent m') (hquiet : ∀ item, ¬op.Makes item) :
    m'.pendingOutbound.Sublist m.pendingOutbound := by
  cases h with
  | encrypted _ _ _ _ _ _ _ item _ _ _ _ hmakes => exact absurd hmakes (hquiet item)
  | rotationReplaced _ _ _ _ _ _ _ _ _ _ _ _ _ _ hmakes => exact absurd hmakes (hquiet _)
  | queued _ item hitem => exact absurd (Op.makes_of_queuedItem hitem) (hquiet item)
  | rotated now drawn rotationId fails current =>
    exact absurd (beq_self_eq_true rotationId) (hquiet (rotationItem rotationId current))
  | replenished _ env generated _ _ _ henv | uploadReplaced _ _ _ env generated _ _ _ _ henv =>
    exact absurd (Op.makes_of_uploadEnv henv generated) (hquiet _)
  | confirmed | rejected | acked | rotationAccepted | uploadRejected =>
    exact List.eraseIdx_sublist _ _
  | decrypted peerId messageId envelope env plaintext session opkId =>
    unfold Manager.opened
    rw [takeOneTimePrekey_eq]
    exact .refl _
  | _ => exact .refl _

end

/-! ## An outbox with at most one upload -/

section Uploads

variable (S : IdentitySuite K Sec C) {m : Manager K Sec C} {env : UploadEnv Sec}

theorem queuePrekeyReplenishment_idle (hpending : m.pendingOutbound = [])
    (houtbox : m.store.outbox = [])
    (hroom : m.nextOneTimePrekeyId.toNat + PREKEY_TARGET < UInt32.size)
    (hfails : env.fails = false) :
    ∃ generated nextId, Generated S m env generated nextId ∧
      (queuePrekeyReplenishment S env).run m =
        .ok (PendingOutbound.toClientMessage (env.item generated))
          ((fileGenerated generated nextId env m).filed (env.item generated)) := by
  refine queuePrekeyReplenishment_files S ⟨fun item hitem => ?_, hroom, ?_⟩ ⟨hfails, ?_⟩
  · rw [hpending] at hitem
    exact absurd hitem List.not_mem_nil
  · simp [hpending, ensureCapacity, MAX_PENDING_OUTBOUND_ITEMS, MAX_PENDING_OUTBOUND_BYTES,
      PREKEY_TARGET]
  · rw [houtbox]
    exact List.not_mem_nil

end Uploads

end Cmp.Client
