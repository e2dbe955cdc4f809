import Cmp.Relay.Database

/-! `db/users.rs` and `db/prekeys.rs`: registration, one-time prekeys with their
high-water mark and reservations, and signed prekeys. -/

namespace Cmp.Relay

open Cmp.Crypto Cmp.Protocol Cmp.Lib

variable {C D : Type}

/-! ## Batches of one-time prekeys -/

abbrev Batch := List (UInt32 × Bytes)

/-- The rows of a batch; `createdAt` is `unixepoch()` at the insert of each key. -/
def batchRows (userId : UserId) (prekeys : Batch) (createdAt : UInt32 → Nat) : List PrekeyRow :=
  prekeys.map fun prekey => ⟨userId, prekey.1, prekey.2, createdAt prekey.1⟩

def batchIds (prekeys : Batch) : List Int := prekeys.map fun prekey => (prekey.1.toNat : Int)

def isOf (userId : UserId) (row : PrekeyRow) : Bool := decide (row.userId = userId)

/-- `u32::try_from(n).unwrap_or(u32::MAX)`. -/
def saturatingU32 (n : Nat) : UInt32 :=
  if n < UInt32.size then UInt32.ofNat n else 0xFFFFFFFF

/-! ## Registration -/

structure Registration where
  userId : UserId
  identityKey : Bytes
  signedPrekeyId : UInt32
  signedPrekeyPublic : Bytes
  signedPrekeySignature : Bytes
  oneTimePrekeys : Batch

/-- `(1 << 31) - 1`. -/
def LEGACY_HIGH_WATER : Int := 2147483647

def registerAtomic (registration : Registration) (createdAt : UInt32 → Nat) (db : Db C D) :
    Except DbError (Bool × Db C D) :=
  let userId := registration.userId
  match db.users.insert ⟨userId, registration.identityKey⟩ with
  | none => .ok (false, db)
  | some users =>
    let highWater :=
      max ((batchIds registration.oneTimePrekeys).max?.getD (-1)) LEGACY_HIGH_WATER
    match db.prekeyInventory.insert ⟨userId, highWater⟩ with
    | none => .error .constraint
    | some inventory =>
      .ok (true,
        { db with
          users := users
          signedPrekeys := db.signedPrekeys.insertOrReplace
            ⟨userId, registration.signedPrekeyId, registration.signedPrekeyPublic,
              registration.signedPrekeySignature⟩
          prekeys := db.prekeys.insertAllOrIgnore
            (batchRows userId registration.oneTimePrekeys createdAt)
          prekeyInventory := inventory })

/-- `get_identity_key`. -/
def getIdentityKey (userId : UserId) (db : Db C D) : Option Bytes :=
  (db.users.find? userId).map UserRow.identityKey

/-! ## Uploads -/

def ONE_TIME_PREKEY_PUBLIC_RETENTION_SECS : Nat := 30 * 24 * 60 * 60

inductive UploadResult
  | accepted (remaining : UInt32)
  | inventoryFull (remaining : UInt32)
  | invalidSequence
  deriving DecidableEq, Repr

/-- A one-time prekey of `userId` from before `cutoff`. -/
def isOutdated (userId : UserId) (cutoff : Nat) (row : PrekeyRow) : Bool :=
  decide (row.userId = userId ∧ row.createdAt < cutoff)

/-- The prekeys without the outdated ones of `userId`. -/
def currentPrekeys (userId : UserId) (now : Nat) (db : Db C D) : Table PrekeyRow.key :=
  db.prekeys.deleteWhere (isOutdated userId (now - ONE_TIME_PREKEY_PUBLIC_RETENTION_SECS))

def uploadPrekeys (userId : UserId) (prekeys : Batch) (maxPrekeysPerUser : Nat) (unixepoch : Nat)
    (createdAt : UInt32 → Nat) (db : Db C D) : Except DbError (UploadResult × Db C D) :=
  let current := currentPrekeys userId unixepoch db
  match db.prekeyInventory.find? userId with
  | none => .error .noRows
  | some inventory =>
    let highWater := inventory.highWater
    let minimum := (batchIds prekeys).min?
    let maximumId := (batchIds prekeys).max?
    let existing := current.count (isOf userId)
    if maximumId.any fun maximum => decide (maximum ≤ highWater) then
      .ok (.accepted (saturatingU32 existing), db)
    else if minimum.all fun minimum => decide (minimum ≤ highWater) then
      .ok (.invalidSequence, db)
    else if existing + prekeys.length > maxPrekeysPerUser then
      .ok (.inventoryFull (saturatingU32 existing), db)
    else
      let inserted := current.insertAllOrIgnore (batchRows userId prekeys createdAt)
      let remaining := inserted.count (isOf userId)
      if remaining < UInt32.size then
        .ok (.accepted (UInt32.ofNat remaining),
          { db with
            prekeys := inserted
            prekeyInventory := db.prekeyInventory.update userId
              (fun row => { row with highWater := maximumId.getD highWater }) fun _ => rfl })
      else .error .outOfRange

/-! ## Signed prekeys -/

inductive SignedPreKeyRotationResult
  | accepted (currentKeyId : UInt32)
  | previouslyAccepted (currentKeyId : UInt32)
  | invalidSequence (currentKeyId : UInt32)
  | conflict (currentKeyId : UInt32)
  deriving DecidableEq, Repr

/-- The highest key id of a user. -/
def currentSignedPrekeyId (userId : UserId) (db : Db C D) : Option UInt32 :=
  ((db.signedPrekeys.rows.filter fun row => decide (row.userId = userId)).map
    SignedPrekeyRow.keyId).max?

/-- Not among the two highest of its user. -/
def isSuperseded (userId : UserId) (rows : Table SignedPrekeyRow.key) (row : SignedPrekeyRow) :
    Bool :=
  decide (row.userId = userId ∧
    2 ≤ rows.count fun other => decide (other.userId = userId ∧ row.keyId < other.keyId))

def rotateSignedPrekey (userId : UserId) (keyId : UInt32) (publicKey signature : Bytes)
    (db : Db C D) : Except DbError (SignedPreKeyRotationResult × Db C D) :=
  match currentSignedPrekeyId userId db with
  | none => .error .noRows
  | some currentId =>
    match db.signedPrekeys.find? (userId, keyId) with
    | some existing =>
      .ok (if existing.publicKey = publicKey ∧ existing.signature = signature then
          if keyId = currentId then .accepted currentId else .previouslyAccepted currentId
        else .conflict currentId, db)
    | none =>
      if keyId ≤ currentId then .ok (.invalidSequence currentId, db)
      else
        match db.signedPrekeys.insert ⟨userId, keyId, publicKey, signature⟩ with
        | none => .error .constraint
        | some inserted =>
          .ok (.accepted keyId,
            { db with signedPrekeys := inserted.deleteWhere (isSuperseded userId inserted) })

/-- The signed prekey with the highest id. -/
def getSignedPrekey (userId : UserId) (db : Db C D) : Option SignedPrekeyRow :=
  (currentSignedPrekeyId userId db).bind fun keyId => db.signedPrekeys.find? (userId, keyId)

/-! ## Fetches -/

structure FetchLimits where
  windowSecs : Nat
  perRequester : Nat
  perTarget : Nat

inductive FetchResult
  | fetched (keyId : UInt32) (publicKey : Bytes)
  | empty
  | targetDepleted
  | rateLimited
  deriving DecidableEq, Repr

/-- `SELECT ... LIMIT 1` without an order: the row is the database's `choice`. -/
def pickPrekey (userId : UserId) (choice : Nat) (prekeys : Table PrekeyRow.key) :
    Option PrekeyRow :=
  let candidates := prekeys.rows.filter (isOf userId)
  candidates[choice % candidates.length]?

def fetchForRequester (requesterId targetId : UserId) (now : Nat) (limits : FetchLimits)
    (choice : Nat) (db : Db C D) : Except DbError (FetchResult × Db C D) :=
  let reservations := db.prekeyReservations.deleteWhere fun row => decide (row.expiresAt < now)
  let cutoff := now - limits.windowSecs
  let prekeys := currentPrekeys targetId now db
  let events := db.prekeyFetchEvents.filter fun row => decide (cutoff ≤ row.createdAt)
  let requesterCount := events.countP fun row =>
    decide (row.requesterId = requesterId ∧ cutoff ≤ row.createdAt)
  let targetCount := events.countP fun row =>
    decide (row.targetId = targetId ∧ cutoff ≤ row.createdAt)
  if requesterCount ≥ limits.perRequester then .ok (.rateLimited, db)
  else if targetCount ≥ limits.perTarget then .ok (.targetDepleted, db)
  else
    match pickPrekey targetId choice prekeys with
    | none =>
      .ok (.empty,
        { db with
          prekeys := prekeys
          prekeyFetchEvents := events
          prekeyReservations := reservations })
    | some prekey =>
      let expiresAt := now + ONE_TIME_PREKEY_RESERVATION_SECS
      match reservations.insert ⟨requesterId, targetId, prekey.keyId, expiresAt⟩ with
      | none => .error .constraint
      | some reserved =>
        .ok (.fetched prekey.keyId prekey.publicKey,
          { db with
            prekeys := prekeys.deleteWhere fun row => decide (row = prekey)
            prekeyFetchEvents := events ++ [⟨requesterId, targetId, now⟩]
            prekeyReservations := reserved })

/-- `count_prekeys`. -/
def countPrekeys (userId : UserId) (unixepoch : Nat) (db : Db C D) : UInt32 :=
  saturatingU32 (db.prekeys.count fun row =>
    decide (row.userId = userId ∧
      unixepoch - ONE_TIME_PREKEY_PUBLIC_RETENTION_SECS ≤ row.createdAt))

/-! ## What the transactions do -/

/-- The ways `register_atomic` can end. -/
inductive Registered (registration : Registration) (createdAt : UInt32 → Nat) (db : Db C D) :
    Bool → Db C D → Prop
  | known (huser : db.hasUser registration.userId = true) :
      Registered registration createdAt db false db
  | stored (users : Table UserRow.userId) (inventory : Table InventoryRow.userId)
      (husers : db.users.insert ⟨registration.userId, registration.identityKey⟩ = some users)
      (hinventory : db.prekeyInventory.insert
        ⟨registration.userId, max ((batchIds registration.oneTimePrekeys).max?.getD (-1))
          LEGACY_HIGH_WATER⟩ = some inventory) :
      Registered registration createdAt db true
        { db with
          users := users
          signedPrekeys := db.signedPrekeys.insertOrReplace
            ⟨registration.userId, registration.signedPrekeyId, registration.signedPrekeyPublic,
              registration.signedPrekeySignature⟩
          prekeys := db.prekeys.insertAllOrIgnore
            (batchRows registration.userId registration.oneTimePrekeys createdAt)
          prekeyInventory := inventory }

theorem registerAtomic_cases {registration : Registration} {createdAt : UInt32 → Nat}
    {db db' : Db C D} {result : Bool}
    (h : registerAtomic registration createdAt db = .ok (result, db')) :
    Registered registration createdAt db result db' := by
  unfold registerAtomic at h
  dsimp only at h
  split at h
  · next hnone =>
    cases h
    obtain ⟨row, hrow, hid⟩ := Table.insert_eq_none.mp hnone
    exact .known (Table.find?_isSome.mpr ⟨row, hrow, hid⟩)
  · next users husers =>
    split at h
    · cases h
    · next inventory hinventory =>
      cases h
      exact .stored users inventory husers hinventory

/-- The database after a batch has been added. -/
def uploaded (userId : UserId) (prekeys : Batch) (unixepoch : Nat) (createdAt : UInt32 → Nat)
    (maximum : Int) (db : Db C D) : Db C D :=
  { db with
    prekeys :=
      (currentPrekeys userId unixepoch db).insertAllOrIgnore (batchRows userId prekeys createdAt)
    prekeyInventory := db.prekeyInventory.update userId
      (fun row => { row with highWater := maximum }) fun _ => rfl }

/-- The ways `upload_prekeys` can end. -/
inductive Uploaded (userId : UserId) (prekeys : Batch) (maxPrekeysPerUser unixepoch : Nat)
    (createdAt : UInt32 → Nat) (db : Db C D) : UploadResult → Db C D → Prop
  | known (inventory : InventoryRow) (hinventory : db.prekeyInventory.find? userId = some inventory)
      (hne : prekeys ≠ []) (hbelow : ∀ id ∈ batchIds prekeys, id ≤ inventory.highWater)
      (remaining : UInt32) :
      Uploaded userId prekeys maxPrekeysPerUser unixepoch createdAt db (.accepted remaining) db
  | invalid :
      Uploaded userId prekeys maxPrekeysPerUser unixepoch createdAt db .invalidSequence db
  | full (inventory : InventoryRow)
      (hinventory : db.prekeyInventory.find? userId = some inventory)
      (habove : ∀ id ∈ batchIds prekeys, inventory.highWater < id)
      (hfull : maxPrekeysPerUser <
        (currentPrekeys userId unixepoch db).count (isOf userId) + prekeys.length)
      (remaining : UInt32) :
      Uploaded userId prekeys maxPrekeysPerUser unixepoch createdAt db (.inventoryFull remaining) db
  | stored (inventory : InventoryRow)
      (hinventory : db.prekeyInventory.find? userId = some inventory) (maximum : Int)
      (hmaximum : (batchIds prekeys).max? = some maximum)
      (habove : ∀ id ∈ batchIds prekeys, inventory.highWater < id)
      (hroom : (currentPrekeys userId unixepoch db).count (isOf userId) + prekeys.length ≤
        maxPrekeysPerUser) (remaining : UInt32) :
      Uploaded userId prekeys maxPrekeysPerUser unixepoch createdAt db (.accepted remaining)
        (uploaded userId prekeys unixepoch createdAt maximum db)

theorem uploadPrekeys_cases {userId : UserId} {prekeys : Batch} {maxPrekeysPerUser unixepoch : Nat}
    {createdAt : UInt32 → Nat} {db db' : Db C D} {result : UploadResult}
    (h : uploadPrekeys userId prekeys maxPrekeysPerUser unixepoch createdAt db =
      .ok (result, db')) :
    Uploaded userId prekeys maxPrekeysPerUser unixepoch createdAt db result db' := by
  unfold uploadPrekeys at h
  dsimp only at h
  split at h
  · cases h
  next inventory hinventory =>
  split at h
  · next hknown =>
    cases h
    obtain ⟨maximum, hmaximum, hle⟩ := (Option.any_eq_true _ _).mp hknown
    refine .known inventory hinventory (fun hnil => ?_) (fun id hid => ?_) _
    · rw [hnil] at hmaximum
      cases hmaximum
    exact le_trans ((List.max?_eq_some_iff.mp hmaximum).2 id hid) (of_decide_eq_true hle)
  split at h
  · cases h
    exact .invalid
  next hminimum =>
  have habove : ∀ id ∈ batchIds prekeys, inventory.highWater < id := by
    intro id hid
    cases hmin : (batchIds prekeys).min? with
    | none =>
      rw [List.min?_eq_none_iff.mp hmin] at hid
      cases hid
    | some minimum =>
      rw [hmin, Option.all_some, decide_eq_true_eq, not_le] at hminimum
      exact lt_of_lt_of_le hminimum ((List.min?_eq_some_iff.mp hmin).2 id hid)
  split at h
  · next hfull =>
    cases h
    exact .full inventory hinventory habove hfull _
  next hroom =>
  split at h
  · cases h
    cases hmaximum : (batchIds prekeys).max? with
    | none =>
      rw [List.max?_eq_none_iff.mp hmaximum] at hminimum
      exact absurd rfl hminimum
    | some maximum =>
      exact .stored inventory hinventory maximum hmaximum habove (not_lt.mp hroom) _
  · cases h

/-- The ways `rotate_signed_prekey` can end. -/
inductive Rotated (userId : UserId) (keyId : UInt32) (publicKey signature : Bytes) (db : Db C D) :
    SignedPreKeyRotationResult → Db C D → Prop
  | current (row : SignedPrekeyRow) (hrow : row ∈ db.signedPrekeys)
      (heq : row = ⟨userId, keyId, publicKey, signature⟩)
      (hcurrent : currentSignedPrekeyId userId db = some keyId) :
      Rotated userId keyId publicKey signature db (.accepted keyId) db
  | previous (row : SignedPrekeyRow) (hrow : row ∈ db.signedPrekeys)
      (heq : row = ⟨userId, keyId, publicKey, signature⟩) (currentId : UInt32)
      (hcurrent : currentSignedPrekeyId userId db = some currentId) (hne : keyId ≠ currentId) :
      Rotated userId keyId publicKey signature db (.previouslyAccepted currentId) db
  | conflict (row : SignedPrekeyRow) (hrow : row ∈ db.signedPrekeys) (huser : row.userId = userId)
      (hid : row.keyId = keyId) (hne : ¬(row.publicKey = publicKey ∧ row.signature = signature))
      (currentId : UInt32) (hcurrent : currentSignedPrekeyId userId db = some currentId) :
      Rotated userId keyId publicKey signature db (.conflict currentId) db
  | outdated (hnew : ∀ row ∈ db.signedPrekeys, row.userId = userId → row.keyId ≠ keyId)
      (currentId : UInt32) (hcurrent : currentSignedPrekeyId userId db = some currentId)
      (hle : keyId ≤ currentId) :
      Rotated userId keyId publicKey signature db (.invalidSequence currentId) db
  | stored (currentId : UInt32) (hcurrent : currentSignedPrekeyId userId db = some currentId)
      (hlt : currentId < keyId) (inserted : Table SignedPrekeyRow.key)
      (hinserted : db.signedPrekeys.insert ⟨userId, keyId, publicKey, signature⟩ = some inserted) :
      Rotated userId keyId publicKey signature db (.accepted keyId)
        { db with signedPrekeys := inserted.deleteWhere (isSuperseded userId inserted) }

theorem rotateSignedPrekey_cases {userId : UserId} {keyId : UInt32} {publicKey signature : Bytes}
    {db db' : Db C D} {result : SignedPreKeyRotationResult}
    (h : rotateSignedPrekey userId keyId publicKey signature db = .ok (result, db')) :
    Rotated userId keyId publicKey signature db result db' := by
  unfold rotateSignedPrekey at h
  split at h
  · cases h
  next currentId hcurrent =>
  split at h
  · next row hfind =>
    cases h
    obtain ⟨hrow, hkey⟩ := Table.find?_eq_some.mp hfind
    obtain ⟨huser, hid⟩ := Prod.mk.inj hkey
    split
    · next hsame =>
      have heq : row = ⟨userId, keyId, publicKey, signature⟩ := by
        obtain ⟨rowUser, rowId, rowKey, rowSignature⟩ := row
        cases huser
        cases hid
        cases hsame.1
        cases hsame.2
        rfl
      split
      · next hid' =>
        subst hid'
        exact .current row hrow heq hcurrent
      · next hne => exact .previous row hrow heq currentId hcurrent hne
    · next hne => exact .conflict row hrow huser hid hne currentId hcurrent
  next hfind =>
  split at h
  · next hle =>
    cases h
    refine .outdated (fun row hrow huser hid => ?_) currentId hcurrent hle
    exact Table.find?_eq_none.mp hfind row hrow (Prod.ext huser hid)
  next hle =>
  split at h
  · cases h
  · next inserted hinserted =>
    cases h
    exact .stored currentId hcurrent (not_le.mp hle) inserted hinserted

theorem mem_of_pickPrekey {userId : UserId} {choice : Nat} {prekeys : Table PrekeyRow.key}
    {row : PrekeyRow} (h : pickPrekey userId choice prekeys = some row) :
    row ∈ prekeys ∧ row.userId = userId := by
  obtain ⟨hrow, hof⟩ := List.mem_filter.mp (List.mem_of_getElem? h)
  exact ⟨hrow, of_decide_eq_true hof⟩

/-- The database without expired reservations, outdated prekeys of `targetId` and the
fetches before the window. -/
def swept (targetId : UserId) (now : Nat) (limits : FetchLimits) (db : Db C D) : Db C D :=
  { db with
    prekeys := currentPrekeys targetId now db
    prekeyFetchEvents := db.prekeyFetchEvents.filter fun row =>
      decide (now - limits.windowSecs ≤ row.createdAt)
    prekeyReservations := db.prekeyReservations.deleteWhere fun row =>
      decide (row.expiresAt < now) }

/-- The database after the fetch of `prekey`. -/
def fetchedFrom (requesterId targetId : UserId) (now : Nat) (prekey : PrekeyRow)
    (reserved : Table ReservationRow.key) (db : Db C D) : Db C D :=
  { db with
    prekeys := db.prekeys.deleteWhere fun row => decide (row = prekey)
    prekeyFetchEvents := db.prekeyFetchEvents ++ [⟨requesterId, targetId, now⟩]
    prekeyReservations := reserved }

/-- The ways `fetch_for_requester` can end. -/
inductive Fetched (requesterId targetId : UserId) (now : Nat) (limits : FetchLimits) (choice : Nat)
    (db : Db C D) : Except DbError (FetchResult × Db C D) → Prop
  | refused (result : FetchResult)
    (hresult : ∀ keyId publicKey, result ≠ .fetched keyId publicKey) :
      Fetched requesterId targetId now limits choice db (.ok (result, db))
  | empty (hnone : pickPrekey targetId choice (currentPrekeys targetId now db) = none) :
      Fetched requesterId targetId now limits choice db
        (.ok (.empty, swept targetId now limits db))
  | taken (prekey : PrekeyRow) (hprekey : prekey ∈ currentPrekeys targetId now db)
      (huser : prekey.userId = targetId)
      (hreserved : (swept targetId now limits db).prekeyReservations.insert
        ⟨requesterId, targetId, prekey.keyId, now + ONE_TIME_PREKEY_RESERVATION_SECS⟩ = none) :
      Fetched requesterId targetId now limits choice db (.error .constraint)
  | fetched (prekey : PrekeyRow) (hprekey : prekey ∈ currentPrekeys targetId now db)
      (huser : prekey.userId = targetId) (reserved : Table ReservationRow.key)
      (hreserved : (swept targetId now limits db).prekeyReservations.insert
        ⟨requesterId, targetId, prekey.keyId, now + ONE_TIME_PREKEY_RESERVATION_SECS⟩ =
          some reserved) :
      Fetched requesterId targetId now limits choice db
        (.ok (.fetched prekey.keyId prekey.publicKey,
          fetchedFrom requesterId targetId now prekey reserved (swept targetId now limits db)))

theorem fetchForRequester_cases (requesterId targetId : UserId) (now : Nat) (limits : FetchLimits)
    (choice : Nat) (db : Db C D) :
    Fetched requesterId targetId now limits choice db
      (fetchForRequester requesterId targetId now limits choice db) := by
  unfold fetchForRequester
  dsimp only
  split
  · exact .refused _ nofun
  split
  · exact .refused _ nofun
  split
  · next hnone => exact .empty hnone
  · next prekey hpick =>
    obtain ⟨hprekey, huser⟩ := mem_of_pickPrekey hpick
    split
    · next hreserved => exact .taken prekey hprekey huser hreserved
    · next reserved hreserved => exact .fetched prekey hprekey huser reserved hreserved

end Cmp.Relay
