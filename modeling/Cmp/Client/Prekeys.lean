import Cmp.Client.Inbound

/-! `crypto_mgr_prekeys.rs`: registration keys, signed-prekey rotation and one-time
prekey uploads. -/

namespace Cmp.Client

open Cmp.Crypto Cmp.Protocol Cmp.Lib

variable {K Sec C : Type}

def SIGNED_PREKEY_PRIVATE_HISTORY : Nat := 3

/-! ## Registration -/

/-- Put back the prekey fields of `before`. -/
def restorePrekeyFields (before m : Manager K Sec C) : Manager K Sec C :=
  { m with
    storedSpk := before.storedSpk
    previousSpks := before.previousSpks
    signedPrekeyRotatedAt := before.signedPrekeyRotatedAt
    nextSignedPrekeyId := before.nextSignedPrekeyId
    storedOpks := before.storedOpks
    nextOneTimePrekeyId := before.nextOneTimePrekeyId
    oneTimePrekeyCreatedAt := before.oneTimePrekeyCreatedAt }

/-- The fields `persist_registration_keys` replaces. -/
def registrationKeys (spk : SignedPreKey Sec) (opks : List (UInt32 × OneTimePreKey Sec))
    (rotatedAt createdAt : Nat) (m : Manager K Sec C) : Manager K Sec C :=
  { m with
    storedSpk := some spk
    previousSpks := []
    signedPrekeyRotatedAt := rotatedAt
    nextSignedPrekeyId := saturatingSucc spk.keyId
    storedOpks := HMap.insertAll opks ∅
    oneTimePrekeyCreatedAt := HMap.insertAll (opks.map fun opk => (opk.1, createdAt)) ∅
    nextOneTimePrekeyId :=
      max ((opks.map Prod.fst).max?.elim m.nextOneTimePrekeyId saturatingSucc)
        m.nextOneTimePrekeyId }

def persistRegistrationKeys (spk : SignedPreKey Sec) (opks : List (UInt32 × OneTimePreKey Sec))
    (rotatedAt createdAt : Nat) (fails : Bool) : ManagerM K Sec C Unit := do
  let before ← get
  modify (registrationKeys spk opks rotatedAt createdAt)
  commitOr fails CryptoStore.saveCore (restorePrekeyFields before) .other

/-! ## Signed-prekey rotation -/

def isRotation : PendingOutbound C → Bool
  | .signedPreKeyRotation .. => true
  | _ => false

def isRotationOf (rotationId : MessageId) : PendingOutbound C → Bool
  | .signedPreKeyRotation pendingId _ _ _ => pendingId == rotationId
  | _ => false

def rotationItem (rotationId : MessageId) (spk : SignedPreKey Sec) : PendingOutbound C :=
  .signedPreKeyRotation rotationId spk.keyId (b64Encode spk.publicKey.toList)
    (b64Encode spk.signature.toList)

/-- The current key, the next rotation's key id and the id after it. -/
def nextRotationIds (m : Manager K Sec C) :
    Except ManagerError (SignedPreKey Sec × UInt32 × UInt32) :=
  match m.storedSpk with
  | none => .error .noSession
  | some current =>
    match checkedAdd current.keyId 1 with
    | none => .error .ratchetFailed
    | some successor =>
      let keyId := max m.nextSignedPrekeyId successor
      match checkedAdd keyId 1 with
      | none => .error .ratchetFailed
      | some nextKeyId => .ok (current, keyId, nextKeyId)

/-- The rollback of `queue_signed_prekey_rotation`. -/
def undoRotation (before m : Manager K Sec C) : Manager K Sec C :=
  popOutbound
    { m with
      storedSpk := m.previousSpks.head?
      previousSpks := m.previousSpks.tail
      signedPrekeyRotatedAt := before.signedPrekeyRotatedAt
      nextSignedPrekeyId := before.nextSignedPrekeyId }

/-- The rotation itself, once it is due. -/
def rotateSignedPrekey (S : IdentitySuite K Sec C) (now : Nat) (drawn : Sec)
    (rotationId : MessageId) (fails : Bool) : ManagerM K Sec C Bool := do
  let before ← get
  let ids ← ofExcept (nextRotationIds before)
  ofExcept (ensureCapacity before.pendingOutbound 96)
  let newSpk := SignedPreKey.generate S ids.2.1 before.identity drawn
  modify fun m =>
    { m with
      storedSpk := some newSpk
      previousSpks := ids.1 :: m.previousSpks
      signedPrekeyRotatedAt := now
      nextSignedPrekeyId := ids.2.2 }
  let _ ← pushAndPersist (rotationItem rotationId newSpk) fails (undoRotation before)
  pure true

def queueSignedPrekeyRotation (S : IdentitySuite K Sec C) (now : Nat) (drawn : Sec)
    (rotationId : MessageId) (fails : Bool) : ManagerM K Sec C Bool := do
  let m ← get
  if m.pendingOutbound.any isRotation then
    pure false
  else if m.signedPrekeyRotatedAt ≠ 0 ∧
      now - m.signedPrekeyRotatedAt < SIGNED_PREKEY_ROTATION_SECS then
    pure false
  else
    rotateSignedPrekey S now drawn rotationId fails

def confirmAcceptedSignedPrekeyRotation (index : Nat) (rotationId : MessageId) (fails : Bool) :
    ManagerM K Sec C Unit := do
  let before ← get
  modify fun m => { m with previousSpks := m.previousSpks.take SIGNED_PREKEY_PRIVATE_HISTORY }
  commitOr fails (fun core => CryptoStore.saveCoreAndDeleteOutbound core rotationId)
    (fun m =>
      { m with
        previousSpks := m.previousSpks ++ before.previousSpks.drop SIGNED_PREKEY_PRIVATE_HISTORY })
    .other
  modify fun m => { m with pendingOutbound := m.pendingOutbound.eraseIdx index }

/-- The replacement's key id and the id after it. -/
def replacementIds (m : Manager K Sec C) (currentKeyId : UInt32) :
    Except ManagerError (UInt32 × UInt32) :=
  match m.previousSpks.head? with
  | none => .error (.other (.text "previous signed prekey missing"))
  | some restored =>
    match checkedAdd currentKeyId 1 with
    | none => .error (.other (.text "signed prekey ID exhausted"))
    | some successor =>
      let replacementKeyId :=
        max (max m.nextSignedPrekeyId (saturatingSucc restored.keyId)) successor
      match checkedAdd replacementKeyId 1 with
      | none => .error (.other (.text "signed prekey ID exhausted"))
      | some nextKeyId => .ok (replacementKeyId, nextKeyId)

/-- The private history with a published candidate in front. -/
def historyWith (previouslyAccepted : Bool) (candidate : Option (SignedPreKey Sec))
    (previous : List (SignedPreKey Sec)) : List (SignedPreKey Sec) :=
  match previouslyAccepted, candidate with
  | true, some published => published :: previous
  | _, _ => previous

/-- The rollback of `reconcile_rejected_signed_prekey_rotation`. -/
def undoReplacement (previouslyAccepted : Bool) (index : Nat) (item : PendingOutbound C)
    (before m : Manager K Sec C) : Manager K Sec C :=
  let history := historyWith previouslyAccepted before.storedSpk before.previousSpks
  { m with
    storedSpk := if previouslyAccepted then m.previousSpks.head? else before.storedSpk
    previousSpks :=
      (if previouslyAccepted then m.previousSpks.tail else m.previousSpks) ++
        history.drop SIGNED_PREKEY_PRIVATE_HISTORY
    pendingOutbound := m.pendingOutbound.set index item
    signedPrekeyRotatedAt := before.signedPrekeyRotatedAt
    nextSignedPrekeyId := before.nextSignedPrekeyId }

def reconcileRejectedSignedPrekeyRotation (S : IdentitySuite K Sec C) (index : Nat)
    (item : PendingOutbound C) (rotationId : MessageId) (previouslyAccepted : Bool)
    (currentKeyId : UInt32) (now : Nat) (drawn : Sec) (newId : MessageId) (fails : Bool) :
    ManagerM K Sec C (ClientMessage C) := do
  let before ← get
  let ids ← ofExcept (replacementIds before currentKeyId)
  let replacementKey := SignedPreKey.generate S ids.1 before.identity drawn
  let replacement : PendingOutbound C := rotationItem newId replacementKey
  if previouslyAccepted ∧ before.storedSpk.isNone then
    throw (.other (.text "published signed prekey missing"))
  else
    modify fun m =>
      { m with
        storedSpk := some replacementKey
        previousSpks :=
          (historyWith previouslyAccepted m.storedSpk m.previousSpks).take
            SIGNED_PREKEY_PRIVATE_HISTORY
        pendingOutbound := m.pendingOutbound.set index replacement
        signedPrekeyRotatedAt := now
        nextSignedPrekeyId := ids.2 }
    commitOr fails
      (fun core => CryptoStore.saveCoreAndReplaceOutbound core rotationId newId replacement)
      (undoReplacement previouslyAccepted index item before) .other
    pure replacement.toClientMessage

def confirmSignedPrekeyRotated (S : IdentitySuite K Sec C) (rotationId : MessageId)
    (accepted previouslyAccepted : Bool) (currentKeyId : UInt32) (now : Nat) (drawn : Sec)
    (newId : MessageId) (fails : Bool) : ManagerM K Sec C (Option (ClientMessage C)) := do
  let m ← get
  match findItem (isRotationOf rotationId) m.pendingOutbound with
  | some (index, .signedPreKeyRotation pendingId candidateKeyId publicKey signature) =>
    if accepted ∧ candidateKeyId = currentKeyId then
      confirmAcceptedSignedPrekeyRotation index rotationId fails
      pure none
    else
      let replacement ←
        reconcileRejectedSignedPrekeyRotation S index
          (.signedPreKeyRotation pendingId candidateKeyId publicKey signature) rotationId
          previouslyAccepted currentKeyId now drawn newId fails
      pure (some replacement)
  | _ => pure none

/-! ## One-time prekeys -/

def isUpload : PendingOutbound C → Bool
  | .preKeyUpload .. => true
  | _ => false

def isUploadOf (uploadId : MessageId) : PendingOutbound C → Bool
  | .preKeyUpload pendingId _ => pendingId == uploadId
  | _ => false

def publicPrekey (entry : UInt32 × OneTimePreKey Sec) : PublicOneTimePreKey :=
  ⟨entry.1, b64Encode entry.2.publicKey.toList⟩

/-- Drawn secrets, clock readings, the new id and refused calls of a replenishment. -/
structure UploadEnv (Sec : Type) where
  drawn : Nat → Sec
  cutoffNow : Nat
  createdAt : Nat
  uploadId : MessageId
  fails : Bool

/-- A one-time prekey older than its private retention. -/
def isStale (m : Manager K Sec C) (now : Nat) (keyId : UInt32) : Bool :=
  (m.oneTimePrekeyCreatedAt.lookup keyId).any fun createdAt =>
    decide (createdAt < now - ONE_TIME_PREKEY_PRIVATE_RETENTION_SECS)

/-- The prekey maps with the stale keys gone and the generated ones filed. -/
def fileGenerated (generated : List (UInt32 × OneTimePreKey Sec)) (nextId : UInt32)
    (env : UploadEnv Sec) (m : Manager K Sec C) : Manager K Sec C :=
  { m with
    storedOpks :=
      HMap.insertAll generated
        (HMap.filter (fun keyId _ => !isStale m env.cutoffNow keyId) m.storedOpks)
    oneTimePrekeyCreatedAt :=
      HMap.insertAll (generated.map fun entry => (entry.1, env.createdAt))
        (HMap.filter (fun keyId _ => !isStale m env.cutoffNow keyId) m.oneTimePrekeyCreatedAt)
    nextOneTimePrekeyId := nextId }

/-- The rollback of `queue_prekey_replenishment`: the generated ids are removed and
the stale entries of `before` put back. -/
def undoGenerated (generated : List (UInt32 × OneTimePreKey Sec)) (env : UploadEnv Sec)
    (before m : Manager K Sec C) : Manager K Sec C :=
  popOutbound
    { m with
      storedOpks :=
        HMap.filter (fun keyId _ => isStale before env.cutoffNow keyId) before.storedOpks ∪
          (HMap.removeAll (generated.map Prod.fst) m.storedOpks).2
      oneTimePrekeyCreatedAt :=
        HMap.filter (fun keyId _ => isStale before env.cutoffNow keyId)
            before.oneTimePrekeyCreatedAt ∪
          (HMap.removeAll (generated.map Prod.fst) m.oneTimePrekeyCreatedAt).2
      nextOneTimePrekeyId := before.nextOneTimePrekeyId }

/-- The replenishment itself, when no upload is pending. -/
def replenishPrekeys (S : IdentitySuite K Sec C) (env : UploadEnv Sec) :
    ManagerM K Sec C (ClientMessage C) := do
  let before ← get
  match generateOneTimePrekeys S before.nextOneTimePrekeyId
      ((List.range PREKEY_TARGET).map env.drawn) with
  | .error _ => throw .ratchetFailed
  | .ok generated =>
    ofExcept (ensureCapacity before.pendingOutbound (generated.length * 48))
    match checkedAdd before.nextOneTimePrekeyId 100 with
    | none =>
      -- the stale keys are already gone here; generation has ruled this out
      modify fun m =>
        { m with
          storedOpks := HMap.filter (fun keyId _ => !isStale m env.cutoffNow keyId) m.storedOpks
          oneTimePrekeyCreatedAt :=
            HMap.filter (fun keyId _ => !isStale m env.cutoffNow keyId) m.oneTimePrekeyCreatedAt }
      throw .ratchetFailed
    | some nextId =>
      modify (fileGenerated generated nextId env)
      pushAndPersist (.preKeyUpload env.uploadId (generated.map publicPrekey)) env.fails
        (undoGenerated generated env before)

def queuePrekeyReplenishment (S : IdentitySuite K Sec C) (env : UploadEnv Sec) :
    ManagerM K Sec C (ClientMessage C) := do
  let m ← get
  match m.pendingOutbound.find? isUpload with
  | some pending => pure pending.toClientMessage
  | none => replenishPrekeys S env

/-- Put an item back at its index. -/
def reinsert (index : Nat) (item : PendingOutbound C) (m : Manager K Sec C) : Manager K Sec C :=
  { m with pendingOutbound := m.pendingOutbound.insertIdx index item }

/-- The replacement upload of an accepted one that left too few keys. -/
def replacementUpload (S : IdentitySuite K Sec C) (index : Nat) (item : PendingOutbound C)
    (remaining : UInt32) (env : UploadEnv Sec) : ManagerM K Sec C (Option (ClientMessage C)) := do
  if remaining.toNat < PREKEY_TARGET then
    let m ← get
    match (queuePrekeyReplenishment S env).run m with
    | .ok upload m' =>
      set m'
      pure (some upload)
    | .error e m' =>
      set (reinsert index item m')
      throw e
  else pure none

/-- The rejected batch taken out of both prekey maps. -/
def dropRejected (ids : List UInt32) (m : Manager K Sec C) : Manager K Sec C :=
  { m with
    storedOpks := (HMap.removeAll ids m.storedOpks).2
    oneTimePrekeyCreatedAt :=
      (HMap.removeAll ((HMap.removeAll ids m.storedOpks).1.map Prod.fst)
        m.oneTimePrekeyCreatedAt).2 }

/-- The batch of `before` put back. -/
def restoreRejected (ids : List UInt32) (before m : Manager K Sec C) : Manager K Sec C :=
  { m with
    storedOpks := HMap.insertAll (HMap.removeAll ids before.storedOpks).1 m.storedOpks
    oneTimePrekeyCreatedAt :=
      HMap.insertAll
        (HMap.removeAll ((HMap.removeAll ids before.storedOpks).1.map Prod.fst)
          before.oneTimePrekeyCreatedAt).1
        m.oneTimePrekeyCreatedAt }

def confirmPrekeysUploaded (S : IdentitySuite K Sec C) (uploadId : MessageId) (accepted : Bool)
    (remaining : UInt32) (env : UploadEnv Sec) (fails : Bool) :
    ManagerM K Sec C (Option (ClientMessage C)) := do
  let before ← get
  match findItem (isUploadOf uploadId) before.pendingOutbound with
  | some (index, .preKeyUpload pendingId prekeys) =>
    let item : PendingOutbound C := .preKeyUpload pendingId prekeys
    modify fun m => { m with pendingOutbound := m.pendingOutbound.eraseIdx index }
    if accepted then
      let replacement ← replacementUpload S index item remaining env
      commitOr fails (fun _ => CryptoStore.deleteOutbound uploadId) (reinsert index item) .other
      pure replacement
    else
      let ids := prekeys.map (·.keyId)
      modify (dropRejected ids)
      commitOr fails (fun core => CryptoStore.saveCoreAndDeleteOutbound core uploadId)
        (fun m => reinsert index item (restoreRejected ids before m)) .other
      pure none
  | _ => pure none

end Cmp.Client
