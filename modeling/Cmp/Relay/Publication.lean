import Cmp.Relay.Issuance

/-! Where the rows of a user come from: users and one-time prekeys from what the user has
registered or uploaded, reservations from the prekeys. -/

namespace Cmp.Relay

open Cmp.Crypto Cmp.Protocol Cmp.Lib

variable {C D : Type}

/-- The owner and the one-time prekeys that a transaction has published. -/
def publishedBatch : Transaction C → Option Answer → Option (UserId × Batch)
  | .registerAtomic registration _, some (.registered true) =>
    some (registration.userId, registration.oneTimePrekeys)
  | .uploadPrekeys userId prekeys _ _ _, some (.uploaded (.accepted _)) => some (userId, prekeys)
  | _, _ => none

variable {userId : UserId}

theorem publishedBatch_eq_some {t : Transaction C} {answer : Option Answer} {batch : Batch}
    (h : publishedBatch t answer = some (userId, batch)) :
    (∃ registration createdAt, t = .registerAtomic registration createdAt ∧
      registration.userId = userId ∧ registration.oneTimePrekeys = batch) ∨
    ∃ maxPrekeysPerUser unixepoch createdAt,
      t = .uploadPrekeys userId batch maxPrekeysPerUser unixepoch createdAt := by
  unfold publishedBatch at h
  split at h
  · cases h
    exact .inl ⟨_, _, rfl, rfl, rfl⟩
  · cases h
    exact .inr ⟨_, _, _, rfl⟩
  · cases h

/-- A message publishes keys by an upload of them. -/
theorem Transaction.Serves.published {me : UserId} {env : RelayEnv} {message : ClientMessage C}
    {t : Transaction C} (h : t.Serves me env message) {answer : Option Answer} {batch : Batch}
    (hbatch : publishedBatch t answer = some (userId, batch)) :
    ∃ uploadId prekeys, message = .uploadPreKeys uploadId prekeys ∧
      batch.map Prod.fst = prekeys.map (·.keyId) := by
  rcases publishedBatch_eq_some hbatch with ⟨registration, createdAt, rfl, -⟩ | ⟨_, _, _, rfl⟩
  · exact h.elim
  · obtain ⟨-, -, uploadId, published, rfl, hdecoded⟩ := h
    exact ⟨uploadId, published, rfl, ids_of_decodePrekeys hdecoded⟩

/-- All clock readings of the transaction are `now`. -/
def Transaction.At (now : Nat) : Transaction C → Prop
  | .registerAtomic _ createdAt => ∀ keyId, createdAt keyId = now
  | .uploadPrekeys _ _ _ unixepoch createdAt => unixepoch = now ∧ ∀ keyId, createdAt keyId = now
  | .fetchForRequester _ _ time _ _ => time = now
  | .enqueue request createdAt => request.now = now ∧ createdAt = now
  | .gcOldMessages _ time => time = now
  | _ => True

theorem mem_of_mem_insertBatch {prekeys : Batch} {createdAt : UInt32 → Nat}
    {table : Table PrekeyRow.key} {row : PrekeyRow}
    (h : row ∈ table.insertAllOrIgnore (batchRows userId prekeys createdAt)) :
    row ∈ table ∨ row.userId = userId ∧ (row.keyId, row.publicKey) ∈ prekeys ∧
      row.createdAt = createdAt row.keyId := by
  refine (Table.mem_of_mem_insertAllOrIgnore h).imp_right fun hrow => ?_
  obtain ⟨prekey, hprekey, rfl⟩ := List.mem_map.mp hrow
  exact ⟨rfl, hprekey, rfl⟩

theorem not_marked_of_above {db : Db C D} {inventory : InventoryRow}
    (hinventory : db.prekeyInventory.find? userId = some inventory) {keyId : UInt32}
    (habove : inventory.highWater < keyId.toNat) : ¬Marked db (userId, keyId) := by
  rintro ⟨row, hrow, huser, hle⟩
  obtain ⟨hmem, huser'⟩ := Table.find?_eq_some.mp hinventory
  have heq := db.prekeyInventory.eq_of_key_eq hrow hmem (huser.trans huser'.symm)
  subst heq
  exact absurd hle (not_le.mpr habove)

/-! ## Effects -/

variable [DecidableEq D] {digest : EncryptedEnvelope C → D} {db db' : Db C D} {t : Transaction C}
  {answer : Option Answer}

/-- A new row is of a batch that has been published, and above the mark. -/
theorem Effect.prekey_from (h : Effect digest db t answer db') {row : PrekeyRow}
    (hrow : row ∈ db'.prekeys) :
    row ∈ db.prekeys ∨ ∃ batch, publishedBatch t answer = some (row.userId, batch) ∧
      (row.keyId, row.publicKey) ∈ batch ∧ ¬Marked db row.key ∧
        ∀ now, t.At now → row.createdAt = now := by
  cases h with
  | registered registration createdAt result db' h =>
    cases h with
    | known => exact .inl hrow
    | stored users inventory _ hinventory =>
      refine (mem_of_mem_insertBatch hrow).imp_right ?_
      rintro ⟨huser, hmem, hcreated⟩
      refine ⟨_, by rw [huser]; rfl, hmem, ?_, fun now hat => hcreated.trans (hat _)⟩
      rintro ⟨other, hother, hid, -⟩
      exact Table.ne_of_insert hinventory other hother (hid.trans huser)
  | uploaded userId prekeys maxPrekeysPerUser unixepoch createdAt result db' h =>
    cases h with
    | stored inventory hinventory _ _ habove =>
      refine (mem_of_mem_insertBatch hrow).imp Table.mem_of_mem_deleteWhere ?_
      rintro ⟨rfl, hmem, hcreated⟩
      refine ⟨_, rfl, hmem, ?_, fun now hat => hcreated.trans (hat.2 _)⟩
      exact not_marked_of_above hinventory (habove _ (List.mem_map.mpr ⟨_, hmem, rfl⟩))
    | _ => exact .inl hrow
  | fetched requesterId targetId now limits choice result db' h =>
    cases h with
    | refused => exact .inl hrow
    | empty => exact .inl (Table.mem_of_mem_deleteWhere hrow)
    | fetched =>
      exact .inl (Table.mem_of_mem_deleteWhere (Table.mem_of_mem_deleteWhere hrow))
  | rotated _ _ _ _ _ _ h | enqueued _ _ _ _ h => cases h <;> exact .inl hrow
  | receiptQueued _ _ _ _ _ _ _ h =>
    rcases enqueueReceipt_cases h with ⟨-, rfl⟩ | ⟨-, queue, -, rfl⟩ <;> exact .inl hrow
  | _ => exact .inl hrow

theorem Effect.reservation_from (h : Effect digest db t answer db') {row : ReservationRow}
    (hrow : row ∈ db'.prekeyReservations) :
    row ∈ db.prekeyReservations ∨ ∃ prekey ∈ db.prekeys, prekey.key = row.prekeyId ∧
      ∀ now, t.At now → now ≤ prekey.createdAt + ONE_TIME_PREKEY_PUBLIC_RETENTION_SECS ∧
        row.expiresAt = now + ONE_TIME_PREKEY_RESERVATION_SECS := by
  cases h with
  | fetched requesterId targetId now limits choice result db' h =>
    cases h with
    | refused => exact .inl hrow
    | empty => exact .inl (Table.mem_of_mem_deleteWhere hrow)
    | fetched prekey hprekey huser reserved hreserved =>
      rcases (Table.mem_insert hreserved).mp hrow with hrow | rfl
      · exact .inl (Table.mem_of_mem_deleteWhere hrow)
      · obtain ⟨hmem, hcurrent⟩ := Table.mem_deleteWhere.mp hprekey
        refine .inr ⟨prekey, hmem, Prod.ext huser rfl, fun time hat => ?_⟩
        cases hat
        have hnot := not_lt.mp fun hlt => of_decide_eq_false hcurrent ⟨huser, hlt⟩
        exact ⟨Nat.le_add_of_sub_le hnot, rfl⟩
  | enqueued _ _ _ _ h =>
    cases h with
    | inserted | ignored => exact .inl (EnqueueRequest.mem_claimed hrow)
    | _ => exact .inl hrow
  | registered _ _ _ _ h | uploaded _ _ _ _ _ _ _ h | rotated _ _ _ _ _ _ h =>
    cases h <;> exact .inl hrow
  | receiptQueued _ _ _ _ _ _ _ h =>
    rcases enqueueReceipt_cases h with ⟨-, rfl⟩ | ⟨-, queue, -, rfl⟩ <;> exact .inl hrow
  | _ => exact .inl hrow

/-- A key that others may have: it is stored, or reserved. -/
def Outstanding (userId : UserId) (db : Db C D) (keyId : UInt32) : Prop :=
  (∃ row ∈ db.prekeys, row.key = (userId, keyId)) ∨
    ∃ row ∈ db.prekeyReservations, row.prekeyId = (userId, keyId)

/-- Keys become outstanding by being published. -/
theorem Effect.outstanding_from (h : Effect digest db t answer db') {keyId : UInt32}
    (hout : Outstanding userId db' keyId) :
    Outstanding userId db keyId ∨ ∃ batch, publishedBatch t answer = some (userId, batch) ∧
      keyId ∈ batch.map Prod.fst := by
  rcases hout with ⟨row, hrow, hkey⟩ | ⟨row, hrow, hkey⟩
  · obtain ⟨rfl, rfl⟩ := Prod.mk.inj hkey
    rcases h.prekey_from hrow with hold | ⟨batch, hbatch, hmem, -⟩
    · exact .inl (.inl ⟨row, hold, rfl⟩)
    · exact .inr ⟨batch, hbatch, List.mem_map_of_mem hmem⟩
  · rcases h.reservation_from hrow with hold | ⟨prekey, hprekey, heq, -⟩
    · exact .inl (.inr ⟨row, hold, hkey⟩)
    · exact .inl (.inl ⟨prekey, hprekey, heq.trans hkey⟩)

theorem Issuance.marked_of_outstanding {log : List (Entry C D)} (h : Issuance digest log db)
    {keyId : UInt32} (hout : Outstanding userId db keyId) :
    Marked db (userId, keyId) := by
  rcases hout with ⟨row, hrow, hkey⟩ | ⟨row, hrow, hkey⟩
  · exact hkey ▸ h.rows row hrow
  · exact hkey ▸ (h.fetched _ (h.reserved row hrow)).1

omit [DecidableEq D] in
/-- A batch for which there is no room is above the mark. -/
theorem Uploaded.unmarked {userId : UserId} {prekeys : Batch} {maxPrekeysPerUser unixepoch : Nat}
    {createdAt : UInt32 → Nat} {remaining : UInt32}
    (h : Uploaded userId prekeys maxPrekeysPerUser unixepoch createdAt db (.inventoryFull remaining)
      db') : db' = db ∧ ∀ keyId ∈ prekeys.map Prod.fst, ¬Marked db (userId, keyId) := by
  cases h with
  | full inventory hinventory habove =>
    refine ⟨rfl, ?_⟩
    intro keyId hkeyId
    obtain ⟨prekey, hprekey, rfl⟩ := List.mem_map.mp hkeyId
    exact not_marked_of_above hinventory (habove _ (List.mem_map.mpr ⟨prekey, hprekey, rfl⟩))

/-- Users are added by registrations and stay. -/
theorem Effect.user_from (h : Effect digest db t answer db') {row : UserRow} :
    row ∈ db'.users ↔ row ∈ db.users ∨ ∃ registration createdAt,
      t = .registerAtomic registration createdAt ∧ answer = some (.registered true) ∧
        row = ⟨registration.userId, registration.identityKey⟩ := by
  cases h with
  | registered registration createdAt result db' h =>
    cases h with
    | known => simp
    | stored users inventory husers =>
      rw [Table.mem_insert husers]
      refine or_congr_right ⟨fun heq => ⟨registration, createdAt, rfl, rfl, heq⟩, ?_⟩
      rintro ⟨_, _, ⟨⟩, -, rfl⟩
      rfl
  | failed => simp
  | uploaded _ _ _ _ _ _ _ h | rotated _ _ _ _ _ _ h | fetched _ _ _ _ _ _ _ h =>
    cases h <;> exact (or_iff_left nofun).symm
  | enqueued _ _ _ _ h => cases h <;> exact (or_iff_left nofun).symm
  | receiptQueued _ _ _ _ _ _ _ h =>
    rcases enqueueReceipt_cases h with ⟨-, rfl⟩ | ⟨-, queue, -, rfl⟩ <;>
      exact (or_iff_left nofun).symm
  | _ => exact (or_iff_left nofun).symm

end Cmp.Relay
