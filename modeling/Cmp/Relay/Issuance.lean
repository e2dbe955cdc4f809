import Cmp.Relay.Acceptance
import Cmp.Relay.Handlers

/-! One-time prekeys are issued once. The high-water mark of a user is above every id
that has been inserted, so that a new batch, which must start above it, has new ids; a
fetch takes its key out of the table and leaves a reservation for it. -/

namespace Cmp.Relay

open Cmp.Crypto Cmp.Protocol Cmp.Lib

variable {K Sec C D : Type}

/-- Batches as `decode_prekeys` lets them through, within the limits of the handlers. -/
def Transaction.Decoded : Transaction C → Prop
  | .registerAtomic registration _ =>
    (registration.oneTimePrekeys.map Prod.fst).Nodup ∧
      registration.oneTimePrekeys.length ≤ MAX_PREKEYS_PER_UPLOAD
  | .uploadPrekeys _ prekeys maxPrekeysPerUser _ _ =>
    (prekeys.map Prod.fst).Nodup ∧ maxPrekeysPerUser = MAX_PREKEYS_PER_USER
  | _ => True

variable {userId : UserId}

theorem handleRegister_decoded {S : IdentitySuite K Sec C} {bundle : PreKeyBundle}
    {oneTimePrekeys : List PublicOneTimePreKey} {env : RelayEnv} {t : Transaction C}
    {respond : Option Answer → Option (ServerMessage C)}
    (h : handleRegister S userId bundle oneTimePrekeys env = .transact t respond) :
    t.Decoded ∧ ∃ registration createdAt, t = .registerAtomic registration createdAt := by
  rcases handleRegister_cases S userId bundle oneTimePrekeys env with
    ⟨reply, hreply, -⟩ | ⟨registration, -, -, -, -, -, hdecoded, hlength, hregister⟩
  · cases hreply.symm.trans h
  · cases hregister.symm.trans h
    obtain ⟨hnodup, hpairsLength⟩ := nodup_of_decodePrekeys hdecoded
    exact ⟨⟨hnodup, hpairsLength ▸ hlength⟩, _, _, rfl⟩

theorem Transaction.Serves.decoded {env : RelayEnv} {message : ClientMessage C}
    {t : Transaction C} (h : t.Serves userId env message) : t.Decoded := by
  cases t with
  | registerAtomic => exact h.elim
  | uploadPrekeys user prekeys maxPrekeysPerUser unixepoch createdAt =>
    obtain ⟨-, hmax, uploadId, published, -, hdecoded⟩ := h
    exact ⟨(nodup_of_decodePrekeys hdecoded).1, hmax⟩
  | _ => trivial

/-! ## The mark -/

/-- The id is not above the high-water mark of its user. -/
def Marked (db : Db C D) (id : UserId × UInt32) : Prop :=
  ∃ inventory ∈ db.prekeyInventory, inventory.userId = id.1 ∧ (id.2.toNat : Int) ≤
    inventory.highWater

/-- The marks of `db'` are not below those of `db`. -/
def MarksGrow (db db' : Db C D) : Prop :=
  ∀ inventory ∈ db.prekeyInventory, ∃ inventory' ∈ db'.prekeyInventory,
    inventory'.userId = inventory.userId ∧ inventory.highWater ≤ inventory'.highWater

variable {db db' : Db C D}

theorem MarksGrow.of_eq (h : db'.prekeyInventory = db.prekeyInventory) :
    MarksGrow db db' :=
  fun inventory hinventory => ⟨inventory, h ▸ hinventory, rfl, le_rfl⟩

theorem MarksGrow.trans {db'' : Db C D} (h : MarksGrow db db') (h' : MarksGrow db' db'') :
    MarksGrow db db'' := by
  intro inventory hinventory
  obtain ⟨inventory', hmem', huser', hle'⟩ := h inventory hinventory
  obtain ⟨inventory'', hmem'', huser'', hle''⟩ := h' inventory' hmem'
  exact ⟨inventory'', hmem'', huser''.trans huser', hle'.trans hle''⟩

theorem Marked.grow {id : UserId × UInt32} (h : Marked db id) (hgrow : MarksGrow db db') :
    Marked db' id := by
  obtain ⟨inventory, hmem, huser, hle⟩ := h
  obtain ⟨inventory', hmem', huser', hle'⟩ := hgrow inventory hmem
  exact ⟨inventory', hmem', huser'.trans huser, hle.trans hle'⟩

variable {prekeys : Batch} {createdAt : UInt32 → Nat}

theorem mem_batchRows {row : PrekeyRow} (h : row ∈ batchRows userId prekeys createdAt) :
    row.userId = userId ∧ (row.keyId.toNat : Int) ∈ batchIds prekeys := by
  obtain ⟨prekey, hprekey, rfl⟩ := List.mem_map.mp h
  exact ⟨rfl, List.mem_map.mpr ⟨prekey, hprekey, rfl⟩⟩

theorem nodup_batchRows (h : (prekeys.map Prod.fst).Nodup) :
    ((batchRows userId prekeys createdAt).map PrekeyRow.key).Nodup := by
  have hkeys : (batchRows userId prekeys createdAt).map PrekeyRow.key =
      (prekeys.map Prod.fst).map fun keyId => (userId, keyId) := by
    unfold batchRows
    rw [List.map_map, List.map_map]
    rfl
  rw [hkeys]
  exact h.map (Prod.mk_right_injective userId)

/-! ## What a transaction does to the prekeys -/

/-- The prekey that is reserved. -/
def ReservationRow.prekeyId (row : ReservationRow) : UserId × UInt32 := (row.targetId, row.keyId)

/-- `issued` are the rows that are new, `fetched` is the id that is handed out. -/
inductive PrekeyChange (db db' : Db C D) : List PrekeyRow → Option (UserId × UInt32) → Prop
  | shrink (hprekeys : ∀ row ∈ db'.prekeys, row ∈ db.prekeys)
      (hcount : ∀ userId, db'.prekeys.count (isOf userId) ≤ db.prekeys.count (isOf userId))
      (hreserved : ∀ row ∈ db'.prekeyReservations, row ∈ db.prekeyReservations)
      (hinventory : db'.prekeyInventory = db.prekeyInventory) : PrekeyChange db db' [] none
  | issue (userId : UserId) (issued : List PrekeyRow) (kept : Table PrekeyRow.key)
      (hkept : ∀ row ∈ kept, row ∈ db.prekeys)
      (hcount : ∀ userId, kept.count (isOf userId) ≤ db.prekeys.count (isOf userId))
      (hprekeys : db'.prekeys.rows = kept.rows ++ issued)
      (huser : ∀ row ∈ issued, row.userId = userId) (hnodup : (issued.map PrekeyRow.key).Nodup)
      (hnew : ∀ row ∈ issued, ¬Marked db row.key) (hmarked : ∀ row ∈ issued, Marked db' row.key)
      (hgrow : MarksGrow db db') (hreserved : db'.prekeyReservations = db.prekeyReservations)
      (hroom : kept.count (isOf userId) + issued.length ≤ MAX_PREKEYS_PER_USER) :
      PrekeyChange db db' issued none
  | fetch (prekey : PrekeyRow) (hprekey : prekey ∈ db.prekeys)
      (hprekeys : ∀ row ∈ db'.prekeys, row ∈ db.prekeys ∧ row ≠ prekey)
      (hcount : ∀ userId, db'.prekeys.count (isOf userId) ≤ db.prekeys.count (isOf userId))
      (reservation : ReservationRow) (hreservation : reservation.prekeyId = prekey.key)
      (hreserved : ∀ row ∈ db'.prekeyReservations,
        row ∈ db.prekeyReservations ∨ row = reservation)
      (hinventory : db'.prekeyInventory = db.prekeyInventory) :
      PrekeyChange db db' [] (some prekey.key)

theorem PrekeyChange.same (hprekeys : db'.prekeys = db.prekeys)
    (hreserved : ∀ row ∈ db'.prekeyReservations, row ∈ db.prekeyReservations)
    (hinventory : db'.prekeyInventory = db.prekeyInventory) : PrekeyChange db db' [] none := by
  refine .shrink ?_ ?_ hreserved hinventory
  · rw [hprekeys]; exact fun _ => id
  · rw [hprekeys]; exact fun _ => le_rfl

/-- A batch above all marks, added to what `kept` keeps. -/
theorem PrekeyChange.batch {db db' : Db C D} {userId : UserId} {prekeys : Batch}
    {createdAt : UInt32 → Nat} {p : PrekeyRow → Bool}
    (hrows : ∀ row ∈ db.prekeys, Marked db row.key) (hnodup : (prekeys.map Prod.fst).Nodup)
    (hnew : ∀ row ∈ batchRows userId prekeys createdAt, ¬Marked db row.key)
    (hmarked : ∀ row ∈ batchRows userId prekeys createdAt, Marked db' row.key)
    (hgrow : MarksGrow db db') (hreserved : db'.prekeyReservations = db.prekeyReservations)
    (hroom : (db.prekeys.deleteWhere p).count (isOf userId) + prekeys.length ≤ MAX_PREKEYS_PER_USER)
    (hprekeys : db'.prekeys =
      (db.prekeys.deleteWhere p).insertAllOrIgnore (batchRows userId prekeys createdAt)) :
    PrekeyChange db db' (batchRows userId prekeys createdAt) none := by
  refine .issue userId _ (db.prekeys.deleteWhere p) (fun _ => Table.mem_of_mem_deleteWhere)
    (fun _ => Table.count_deleteWhere_le _ _ _) ?_ (fun row hrow => (mem_batchRows hrow).1)
    (nodup_batchRows hnodup) hnew hmarked hgrow hreserved ?_
  · rw [hprekeys]
    refine Table.rows_insertAllOrIgnore (nodup_batchRows hnodup) fun row hrow old hold hkey => ?_
    exact hnew row hrow (hkey ▸ hrows old (Table.mem_of_mem_deleteWhere hold))
  · rw [show (batchRows userId prekeys createdAt).length = prekeys.length from List.length_map ..]
    exact hroom

theorem Registered.change {registration : Registration} {result : Bool}
    (h : Registered registration createdAt db result db')
    (hrows : ∀ row ∈ db.prekeys, Marked db row.key)
    (hnodup : (registration.oneTimePrekeys.map Prod.fst).Nodup)
    (hlength : registration.oneTimePrekeys.length ≤ MAX_PREKEYS_PER_UPLOAD) :
    ∃ issued, PrekeyChange db db' issued none := by
  cases h with
  | known => exact ⟨[], .same rfl (fun _ => id) rfl⟩
  | stored users inventory _ hinventory =>
    -- a user without an inventory row has no marks, hence no rows
    have hunmarked : ∀ id : UserId × UInt32, id.1 = registration.userId → ¬Marked db id := by
      rintro id hid ⟨row, hrow, huser, -⟩
      exact Table.ne_of_insert hinventory row hrow (huser.trans hid)
    have hall : db.prekeys = db.prekeys.deleteWhere fun _ => false := by
      obtain ⟨rows, hrows⟩ := db.prekeys
      simp only [Table.deleteWhere, Bool.not_false, List.filter_true]
    have hnone : db.prekeys.count (isOf registration.userId) = 0 := by
      refine List.countP_eq_zero.mpr fun row hrow hof => ?_
      exact hunmarked row.key (of_decide_eq_true hof) (hrows row hrow)
    refine ⟨_, .batch (p := fun _ => false) hrows hnodup
      (fun row hrow => hunmarked row.key (mem_batchRows hrow).1) (fun row hrow => ?_)
      (fun row hrow => ⟨row, (Table.mem_insert hinventory).mpr (.inl hrow), rfl, le_rfl⟩) rfl ?_
      (by rw [← hall])⟩
    · obtain ⟨huser, hid⟩ := mem_batchRows hrow
      refine ⟨_, (Table.mem_insert hinventory).mpr (.inr rfl), huser.symm, ?_⟩
      cases hmax : (batchIds registration.oneTimePrekeys).max? with
      | none =>
        rw [List.max?_eq_none_iff.mp hmax] at hid
        cases hid
      | some maximum =>
        exact le_max_of_le_left ((List.max?_eq_some_iff.mp hmax).2 _ hid)
    · rw [← hall, hnone, Nat.zero_add]
      exact hlength

theorem Uploaded.change {unixepoch : Nat} {result : UploadResult}
    (h : Uploaded userId prekeys MAX_PREKEYS_PER_USER unixepoch createdAt db result db')
    (hrows : ∀ row ∈ db.prekeys, Marked db row.key) (hnodup : (prekeys.map Prod.fst).Nodup) :
    ∃ issued, PrekeyChange db db' issued none := by
  cases h with
  | known | invalid | full => exact ⟨[], .same rfl (fun _ => id) rfl⟩
  | stored inventory hinventory maximum hmaximum habove hroom =>
    obtain ⟨hmem, huser⟩ := Table.find?_eq_some.mp hinventory
    have hmax := List.max?_eq_some_iff.mp hmaximum
    have hupdated : ∀ row ∈ db.prekeyInventory, row.userId = userId →
        (⟨row.userId, maximum⟩ : InventoryRow) ∈
          (uploaded userId prekeys unixepoch createdAt maximum db).prekeyInventory :=
      fun row hrow hrowUser => List.mem_map.mpr ⟨row, hrow, if_pos hrowUser⟩
    refine ⟨_, .batch hrows hnodup (fun row hrow => ?_) (fun row hrow => ?_)
      (fun row hrow => ?_) rfl hroom rfl⟩
    · rintro ⟨other, hother, hotherUser, hle⟩
      obtain ⟨hrowUser, hid⟩ := mem_batchRows hrow
      have heq := db.prekeyInventory.eq_of_key_eq hother hmem
        (hotherUser.trans (hrowUser.trans huser.symm))
      subst heq
      exact absurd hle (not_le.mpr (habove _ hid))
    · obtain ⟨hrowUser, hid⟩ := mem_batchRows hrow
      exact ⟨_, hupdated inventory hmem huser, huser.trans hrowUser.symm, hmax.2 _ hid⟩
    · by_cases hrowUser : row.userId = userId
      · have heq := db.prekeyInventory.eq_of_key_eq hrow hmem (hrowUser.trans huser.symm)
        subst heq
        exact ⟨_, hupdated row hmem huser, rfl, le_of_lt (habove maximum hmax.1)⟩
      · exact ⟨row, List.mem_map.mpr ⟨row, hrow, if_neg hrowUser⟩, rfl, le_rfl⟩

theorem Fetched.change {requesterId targetId : UserId} {now : Nat} {limits : FetchLimits}
    {choice : Nat} {result : FetchResult}
    (h : Fetched requesterId targetId now limits choice db (.ok (result, db'))) :
    (∃ prekey : PrekeyRow, result = .fetched prekey.keyId prekey.publicKey ∧
      prekey.userId = targetId ∧ PrekeyChange db db' [] (some prekey.key)) ∨
    (∀ keyId publicKey, result ≠ .fetched keyId publicKey) ∧ PrekeyChange db db' [] none := by
  cases h with
  | refused _ hresult => exact .inr ⟨hresult, .same rfl (fun _ => id) rfl⟩
  | empty =>
    exact .inr ⟨nofun, .shrink (fun _ => Table.mem_of_mem_deleteWhere)
      (fun _ => Table.count_deleteWhere_le _ _ _) (fun _ => Table.mem_of_mem_deleteWhere) rfl⟩
  | fetched prekey hprekey huser reserved hreserved =>
    refine .inl ⟨prekey, rfl, huser, .fetch prekey (Table.mem_of_mem_deleteWhere hprekey)
      (fun row hrow => ?_) (fun userId => ?_)
      ⟨requesterId, targetId, prekey.keyId, now + ONE_TIME_PREKEY_RESERVATION_SECS⟩
      (Prod.ext huser.symm rfl) (fun row hrow => ?_) rfl⟩
    · obtain ⟨hrow, hne⟩ := Table.mem_deleteWhere.mp hrow
      exact ⟨Table.mem_of_mem_deleteWhere hrow, of_decide_eq_false hne⟩
    · exact (Table.count_deleteWhere_le _ _ _).trans (Table.count_deleteWhere_le _ _ _)
    · exact ((Table.mem_insert hreserved).mp hrow).imp_left Table.mem_of_mem_deleteWhere

variable [DecidableEq D] {digest : EncryptedEnvelope C → D}

/-- The id a transaction with this answer hands out. -/
def fetchedId : Transaction C → Option Answer → Option (UserId × UInt32)
  | .fetchForRequester _ targetId _ _ _, some (.fetched (.fetched keyId _)) =>
    some (targetId, keyId)
  | _, _ => none

def Entry.fetched (digest : EncryptedEnvelope C → D) (e : Entry C D) : Option (UserId × UInt32) :=
  fetchedId e.transaction (e.answer? digest)

/-- The rows an entry adds. -/
def Entry.issued (digest : EncryptedEnvelope C → D) (e : Entry C D) : List PrekeyRow :=
  (e.transaction.after digest e.before).prekeys.rows.filter fun row =>
    decide (row ∉ e.before.prekeys.rows)

omit [DecidableEq D] in
theorem EnqueueRequest.mem_claimed {request : EnqueueRequest C} {row : ReservationRow}
    (h : row ∈ (request.claimed db).prekeyReservations) :
    row ∈ db.prekeyReservations := by
  unfold EnqueueRequest.claimed at h
  dsimp only at h
  cases hid : request.oneTimePrekeyId with
  | none =>
    rw [hid] at h
    exact Table.mem_of_mem_deleteWhere h
  | some keyId =>
    rw [hid] at h
    exact Table.mem_of_mem_deleteWhere (Table.mem_of_mem_deleteWhere h)

/-- Every transaction changes the prekeys in one of these ways. -/
theorem Effect.change {t : Transaction C} {answer : Option Answer}
    (h : Effect digest db t answer db') (hdecoded : t.Decoded)
    (hrows : ∀ row ∈ db.prekeys, Marked db row.key) :
    ∃ issued, PrekeyChange db db' issued (fetchedId t answer) := by
  cases h with
  | failed t =>
    have hnone : fetchedId t none = none := by cases t <;> rfl
    exact hnone ▸ ⟨[], .same rfl (fun _ => id) rfl⟩
  | registered registration createdAt result db' h => exact h.change hrows hdecoded.1 hdecoded.2
  | uploaded userId prekeys maxPrekeysPerUser unixepoch createdAt result db' h =>
    obtain ⟨hnodup, rfl⟩ := hdecoded
    exact h.change hrows hnodup
  | fetched requesterId targetId now limits choice result db' h =>
    rcases h.change with ⟨prekey, rfl, rfl, hchange⟩ | ⟨hresult, hchange⟩
    · exact ⟨[], hchange⟩
    · refine ⟨[], ?_⟩
      cases result with
      | fetched keyId publicKey => exact absurd rfl (hresult keyId publicKey)
      | _ => exact hchange
  | rotated _ _ _ _ _ _ h => cases h <;> exact ⟨[], .same rfl (fun _ => id) rfl⟩
  | enqueued request createdAt result db' h =>
    cases h with
    | refused | known => exact ⟨[], .same rfl (fun _ => id) rfl⟩
    | inserted | ignored => exact ⟨[], .same rfl (fun _ => EnqueueRequest.mem_claimed) rfl⟩
  | receiptQueued _ _ _ _ _ _ _ h =>
    rcases enqueueReceipt_cases h with ⟨-, rfl⟩ | ⟨-, queue, -, rfl⟩ <;>
      exact ⟨[], .same rfl (fun _ => id) rfl⟩
  | _ => exact ⟨[], .same rfl (fun _ => id) rfl⟩

/-! ## Runs -/

/-- The ids of the prekeys inserted in a run, and of those handed out. -/
def issuedIds (digest : EncryptedEnvelope C → D) (log : List (Entry C D)) :
    List (UserId × UInt32) :=
  log.flatMap fun e => (e.issued digest).map PrekeyRow.key

def fetchedIds (digest : EncryptedEnvelope C → D) (log : List (Entry C D)) :
    List (UserId × UInt32) :=
  log.filterMap (Entry.fetched digest)

/-- The entry is an upload of the batch that the relay accepted. -/
def Entry.Accepts (digest : EncryptedEnvelope C → D) (e : Entry C D) (userId : UserId)
    (prekeys : Batch) : Prop :=
  ∃ maxPrekeysPerUser unixepoch createdAt remaining,
    e.transaction = .uploadPrekeys userId prekeys maxPrekeysPerUser unixepoch createdAt ∧
    e.answer? digest = some (.uploaded (.accepted remaining))

structure Issuance (digest : EncryptedEnvelope C → D) (log : List (Entry C D)) (db : Db C D) :
    Prop where
  rows : ∀ row ∈ db.prekeys, Marked db row.key
  bounded : ∀ userId, db.prekeys.count (isOf userId) ≤ MAX_PREKEYS_PER_USER
  issued : ∀ id ∈ issuedIds digest log, Marked db id
  issuedOnce : (issuedIds digest log).Nodup
  fetched : ∀ id ∈ fetchedIds digest log, Marked db id ∧ ∀ row ∈ db.prekeys, row.key ≠ id
  fetchedOnce : (fetchedIds digest log).Nodup
  reserved : ∀ row ∈ db.prekeyReservations, row.prekeyId ∈ fetchedIds digest log
  grow : ∀ e ∈ log, MarksGrow e.before db
  accepted : ∀ e ∈ log, ∀ userId prekeys, e.Accepts digest userId prekeys →
    prekeys ≠ [] ∧ ∀ prekey ∈ prekeys, Marked db (userId, prekey.1)

section

variable {db db' : Db C D} {log : List (Entry C D)}

omit [DecidableEq D] in
/-- The rows an entry adds are those that its change issues. -/
theorem PrekeyChange.issued_eq {issued : List PrekeyRow} {fetched : Option (UserId × UInt32)}
    (h : PrekeyChange db db' issued fetched) (hrows : ∀ row ∈ db.prekeys, Marked db row.key) :
    (db'.prekeys.rows.filter fun row => decide (row ∉ db.prekeys.rows)) = issued := by
  cases h with
  | shrink hprekeys =>
    exact List.filter_eq_nil_iff.mpr fun row hrow hnew => of_decide_eq_true hnew (hprekeys row hrow)
  | fetch prekey _ hprekeys =>
    exact List.filter_eq_nil_iff.mpr fun row hrow hnew => of_decide_eq_true hnew
      (hprekeys row hrow).1
  | issue userId issued kept hkept _ hprekeys _ _ hnew =>
    rw [hprekeys, List.filter_append]
    have hnil : (kept.rows.filter fun row => decide (row ∉ db.prekeys.rows)) = [] :=
      List.filter_eq_nil_iff.mpr fun row hrow hfresh => of_decide_eq_true hfresh (hkept row hrow)
    have hall : (issued.filter fun row => decide (row ∉ db.prekeys.rows)) = issued :=
      List.filter_eq_self.mpr fun row hrow =>
        decide_eq_true fun hold => hnew row hrow (hrows row hold)
    rw [hnil, hall, List.nil_append]

omit [DecidableEq D] in
theorem PrekeyChange.marksGrow {issued : List PrekeyRow} {fetched : Option (UserId × UInt32)}
    (h : PrekeyChange db db' issued fetched) : MarksGrow db db' := by
  cases h with
  | shrink _ _ _ hinventory => exact .of_eq hinventory
  | issue _ _ _ _ _ _ _ _ _ _ hgrow => exact hgrow
  | fetch _ _ _ _ _ _ _ hinventory => exact .of_eq hinventory

theorem fetchedIds_append (e : Entry C D) :
    fetchedIds digest (log ++ [e]) = fetchedIds digest log ++ (e.fetched digest).toList := by
  unfold fetchedIds
  rw [List.filterMap_append]
  cases hid : e.fetched digest <;> simp [hid]

theorem issuedIds_append (e : Entry C D) :
    issuedIds digest (log ++ [e]) =
      issuedIds digest log ++ (e.issued digest).map PrekeyRow.key := by
  unfold issuedIds
  rw [List.flatMap_append, List.flatMap_singleton]

theorem Issuance.grow_append (h : Issuance digest log db) {e : Entry C D} (hbefore : e.before = db)
    (hgrow : MarksGrow db db') : ∀ e' ∈ log ++ [e], MarksGrow e'.before db' := by
  intro e' he'
  rcases List.mem_append.mp he' with he' | he'
  · exact (h.grow e' he').trans hgrow
  · rw [List.mem_singleton.mp he', hbefore]
    exact hgrow

theorem Issuance.accepted_append (h : Issuance digest log db) {e : Entry C D}
    (hgrow : MarksGrow db db')
    (haccepted : ∀ userId prekeys, e.Accepts digest userId prekeys →
      prekeys ≠ [] ∧ ∀ prekey ∈ prekeys, Marked db' (userId, prekey.1)) :
    ∀ e' ∈ log ++ [e], ∀ userId prekeys, e'.Accepts digest userId prekeys →
      prekeys ≠ [] ∧ ∀ prekey ∈ prekeys, Marked db' (userId, prekey.1) := by
  intro e' he' userId prekeys haccepts
  rcases List.mem_append.mp he' with he' | he'
  · obtain ⟨hne, hmarked⟩ := h.accepted e' he' userId prekeys haccepts
    exact ⟨hne, fun prekey hprekey => (hmarked prekey hprekey).grow hgrow⟩
  · rw [List.mem_singleton.mp he'] at haccepts
    exact haccepted userId prekeys haccepts

/-- New rows of one user leave the counts of the others. -/
theorem Issuance.bounded_append (h : Issuance digest log db) {kept : Table PrekeyRow.key}
    {issued : List PrekeyRow} {userId : UserId}
    (hcount : ∀ userId, kept.count (isOf userId) ≤ db.prekeys.count (isOf userId))
    (hprekeys : db'.prekeys.rows = kept.rows ++ issued)
    (huser : ∀ row ∈ issued, row.userId = userId)
    (hroom : kept.count (isOf userId) + issued.length ≤ MAX_PREKEYS_PER_USER) (other : UserId) :
    db'.prekeys.count (isOf other) ≤ MAX_PREKEYS_PER_USER := by
  have happend : db'.prekeys.count (isOf other) =
      kept.count (isOf other) + issued.countP (isOf other) := by
    unfold Table.count
    rw [hprekeys, List.countP_append]
  rw [happend]
  by_cases hother : other = userId
  · rw [hother]
    exact (Nat.add_le_add_left List.countP_le_length _).trans hroom
  · have hnone : issued.countP (isOf other) = 0 :=
      List.countP_eq_zero.mpr fun row hrow hof =>
        hother ((of_decide_eq_true hof).symm.trans (huser row hrow))
    rw [hnone]
    exact (hcount other).trans (h.bounded other)

/-- The part of a step that concerns rows, issued and fetched ids. -/
theorem Issuance.change (h : Issuance digest log db) {e : Entry C D} {issued : List PrekeyRow}
    (hchange : PrekeyChange db db' issued (e.fetched digest))
    (hbefore : e.before = db) (hissued : e.issued digest = issued)
    (haccepted : ∀ userId prekeys, e.Accepts digest userId prekeys →
      prekeys ≠ [] ∧ ∀ prekey ∈ prekeys, Marked db' (userId, prekey.1)) :
    Issuance digest (log ++ [e]) db' := by
  have hgrow := hchange.marksGrow
  have hgrow' := h.grow_append hbefore hgrow
  have haccepted' := h.accepted_append hgrow haccepted
  have hissuedIds : issuedIds digest (log ++ [e]) = _ := issuedIds_append e
  have hfetchedIds : fetchedIds digest (log ++ [e]) = _ := fetchedIds_append e
  rw [hissued] at hissuedIds
  generalize e.fetched digest = fetched at hchange hfetchedIds
  cases hchange with
  | shrink hprekeys hcount hreserved hinventory =>
    rw [List.map_nil, List.append_nil] at hissuedIds
    rw [Option.toList_none, List.append_nil] at hfetchedIds
    exact
      { rows := fun row hrow => (h.rows row (hprekeys row hrow)).grow hgrow
        bounded := fun userId => (hcount userId).trans (h.bounded userId)
        issued := hissuedIds ▸ fun id hid => (h.issued id hid).grow hgrow
        issuedOnce := hissuedIds ▸ h.issuedOnce
        fetched := hfetchedIds ▸ fun id hid =>
          ⟨(h.fetched id hid).1.grow hgrow,
            fun row hrow => (h.fetched id hid).2 row (hprekeys row hrow)⟩
        fetchedOnce := hfetchedIds ▸ h.fetchedOnce
        reserved := hfetchedIds ▸ fun row hrow => h.reserved row (hreserved row hrow)
        grow := hgrow'
        accepted := haccepted' }
  | issue userId _ kept hkept hcount hprekeys huser hnodup hnew hmarked _ hreserved hroom =>
    rw [Option.toList_none, List.append_nil] at hfetchedIds
    have hmem : ∀ row ∈ db'.prekeys, row ∈ kept ∨ row ∈ issued := by
      intro row hrow
      rw [Table.mem_def, hprekeys] at hrow
      exact List.mem_append.mp hrow
    exact
      { rows := fun row hrow => by
          rcases hmem row hrow with hrow | hrow
          · exact (h.rows row (hkept row hrow)).grow hgrow
          · exact hmarked row hrow
        bounded := h.bounded_append hcount hprekeys huser hroom
        issued := by
          rw [hissuedIds]
          intro id hid
          rcases List.mem_append.mp hid with hid | hid
          · exact (h.issued id hid).grow hgrow
          · obtain ⟨row, hrow, rfl⟩ := List.mem_map.mp hid
            exact hmarked row hrow
        issuedOnce := by
          rw [hissuedIds]
          refine List.nodup_append.mpr ⟨h.issuedOnce, hnodup, fun id hid id' hid' heq => ?_⟩
          obtain ⟨row, hrow, rfl⟩ := List.mem_map.mp hid'
          exact hnew row hrow (heq ▸ h.issued id hid)
        fetched := hfetchedIds ▸ fun id hid => by
          refine ⟨(h.fetched id hid).1.grow hgrow, fun row hrow => ?_⟩
          rcases hmem row hrow with hrow | hrow
          · exact (h.fetched id hid).2 row (hkept row hrow)
          · exact fun heq => hnew row hrow (heq ▸ (h.fetched id hid).1)
        fetchedOnce := hfetchedIds ▸ h.fetchedOnce
        reserved := hfetchedIds ▸ hreserved ▸ h.reserved
        grow := hgrow'
        accepted := haccepted' }
  | fetch prekey hprekey hprekeys hcount reservation hreservation hreserved hinventory =>
    rw [List.map_nil, List.append_nil] at hissuedIds
    rw [Option.toList_some] at hfetchedIds
    exact
      { rows := fun row hrow => (h.rows row (hprekeys row hrow).1).grow hgrow
        bounded := fun userId => (hcount userId).trans (h.bounded userId)
        issued := hissuedIds ▸ fun id hid => (h.issued id hid).grow hgrow
        issuedOnce := hissuedIds ▸ h.issuedOnce
        fetched := by
          rw [hfetchedIds]
          intro id hid
          rcases List.mem_append.mp hid with hid | hid
          · exact ⟨(h.fetched id hid).1.grow hgrow,
              fun row hrow => (h.fetched id hid).2 row (hprekeys row hrow).1⟩
          · rw [List.mem_singleton.mp hid]
            refine ⟨(h.rows prekey hprekey).grow hgrow, fun row hrow heq => ?_⟩
            obtain ⟨hrow, hne⟩ := hprekeys row hrow
            exact hne (db.prekeys.eq_of_key_eq hrow hprekey heq)
        fetchedOnce := by
          rw [hfetchedIds]
          refine List.nodup_append.mpr
            ⟨h.fetchedOnce, List.nodup_singleton _, fun id hid id' hid' => ?_⟩
          rw [List.mem_singleton.mp hid']
          exact ((h.fetched id hid).2 prekey hprekey).symm
        reserved := by
          rw [hfetchedIds]
          intro row hrow
          rcases hreserved row hrow with hrow | rfl
          · exact List.mem_append_left _ (h.reserved row hrow)
          · exact List.mem_append_right _ (List.mem_singleton.mpr hreservation)
        grow := hgrow'
        accepted := haccepted' }

omit [DecidableEq D] in
/-- An accepted batch is below the mark. -/
theorem Uploaded.marked {maxPrekeysPerUser unixepoch : Nat} {remaining : UInt32}
    (h : Uploaded userId prekeys maxPrekeysPerUser unixepoch createdAt db (.accepted remaining)
      db') :
    prekeys ≠ [] ∧ ∀ prekey ∈ prekeys, Marked db' (userId, prekey.1) := by
  have hmem : ∀ prekey ∈ prekeys, (prekey.1.toNat : Int) ∈ batchIds prekeys :=
    fun prekey hprekey => List.mem_map.mpr ⟨prekey, hprekey, rfl⟩
  cases h with
  | known inventory hinventory hne hbelow =>
    obtain ⟨hrow, huser⟩ := Table.find?_eq_some.mp hinventory
    exact ⟨hne, fun prekey hprekey => ⟨inventory, hrow, huser, hbelow _ (hmem prekey hprekey)⟩⟩
  | stored inventory hinventory maximum hmaximum =>
    obtain ⟨hrow, huser⟩ := Table.find?_eq_some.mp hinventory
    refine ⟨fun hnil => ?_, fun prekey hprekey => ?_⟩
    · rw [hnil] at hmaximum
      cases hmaximum
    · exact ⟨⟨inventory.userId, maximum⟩, List.mem_map.mpr ⟨inventory, hrow, if_pos huser⟩, huser,
        (List.max?_eq_some_iff.mp hmaximum).2 _ (hmem prekey hprekey)⟩

theorem Issuance.step (h : Issuance digest log db) {t : Transaction C} (hdecoded : t.Decoded) :
    Issuance digest (log ++ [⟨db, t⟩]) (t.after digest db) := by
  have heffect := t.effect digest db
  obtain ⟨issued, hchange⟩ := heffect.change hdecoded h.rows
  refine h.change (e := ⟨db, t⟩) hchange rfl (hchange.issued_eq h.rows) ?_
  rintro userId prekeys ⟨maxPrekeysPerUser, unixepoch, createdAt, remaining, ht, hanswer⟩
  change t = _ at ht
  change t.answer? digest db = _ at hanswer
  subst ht
  rw [hanswer] at heffect
  generalize Transaction.after digest _ db = db' at heffect
  cases heffect with
  | uploaded _ _ _ _ _ _ _ huploaded => exact huploaded.marked

theorem Run.issuance (run : Run digest (fun _ t => t.Decoded) log db) : Issuance digest log db := by
  induction run with
  | fresh =>
    exact
      { rows := fun row hrow => absurd hrow (Table.notMem_empty row)
        bounded := fun userId => Nat.zero_le _
        issued := fun id hid => absurd hid List.not_mem_nil
        issuedOnce := List.nodup_nil
        fetched := fun id hid => absurd hid List.not_mem_nil
        fetchedOnce := List.nodup_nil
        reserved := fun row hrow => absurd hrow (Table.notMem_empty row)
        grow := fun e he => absurd he List.not_mem_nil
        accepted := fun e he => absurd he List.not_mem_nil }
  | transact run t hdecoded ih => exact ih.step hdecoded

/-- No fetch meets a reservation of its key. -/
theorem Issuance.fetch_ok (h : Issuance digest log db) (requesterId targetId : UserId) (now : Nat)
    (limits : FetchLimits) (choice : Nat) :
    ∃ result, fetchForRequester requesterId targetId now limits choice db = .ok result := by
  have hcases := fetchForRequester_cases requesterId targetId now limits choice db
  cases hfetch : fetchForRequester requesterId targetId now limits choice db with
  | ok result => exact ⟨result, rfl⟩
  | error err =>
    rw [hfetch] at hcases
    cases hcases with
    | taken prekey hprekey huser hreserved =>
      obtain ⟨row, hrow, hkey⟩ := Table.insert_eq_none.mp hreserved
      have hid : row.prekeyId = prekey.key :=
        (congrArg Prod.snd hkey).trans (Prod.ext huser.symm rfl)
      have hfetched := h.reserved row (Table.mem_of_mem_deleteWhere hrow)
      exact absurd hid.symm ((h.fetched _ hfetched).2 prekey (Table.mem_of_mem_deleteWhere hprekey))

omit [DecidableEq D] in
/-- A batch below the mark is accepted again and nothing is written. -/
theorem uploadPrekeys_marked (hne : prekeys ≠ [])
    (hmarked : ∀ prekey ∈ prekeys, Marked db (userId, prekey.1)) (maxPrekeysPerUser unixepoch : Nat)
    (createdAt : UInt32 → Nat) :
    ∃ remaining, uploadPrekeys userId prekeys maxPrekeysPerUser unixepoch createdAt db =
      .ok (.accepted remaining, db) := by
  obtain ⟨inventory, hrow, huser, -⟩ := hmarked _ (List.head_mem hne)
  have hinventory : db.prekeyInventory.find? userId = some inventory :=
    Table.find?_eq_some.mpr ⟨hrow, huser⟩
  have hids : batchIds prekeys ≠ [] := fun hnil => hne (List.map_eq_nil_iff.mp hnil)
  obtain ⟨maximum, hmaximum⟩ := Option.isSome_iff_exists.mp (List.isSome_max?_of_ne_nil hids)
  have hle : maximum ≤ inventory.highWater := by
    obtain ⟨prekey, hprekey, rfl⟩ := List.mem_map.mp (List.max?_eq_some_iff.mp hmaximum).1
    obtain ⟨inventory', hrow', huser', hle⟩ := hmarked prekey hprekey
    rw [← db.prekeyInventory.eq_of_key_eq hrow' hrow (huser'.trans huser.symm)]
    exact hle
  refine ⟨saturatingU32 ((currentPrekeys userId unixepoch db).count (isOf userId)), ?_⟩
  unfold uploadPrekeys
  simp only [hinventory, hmaximum, Option.any_some, hle, decide_true, if_true]

/-- **One-time prekeys are issued once.** In every run with batches as the handlers let
them through: no user has more rows than allowed, ids are not above the high-water mark,
the mark never goes down, no id is inserted or handed out twice, no fetch fails on a
reservation, and an accepted batch is accepted again and changes nothing. -/
theorem prekeys_issued_once (run : Run digest (fun _ t => t.Decoded) log db) :
    (∀ userId, db.prekeys.count (isOf userId) ≤ MAX_PREKEYS_PER_USER) ∧
    (∀ row ∈ db.prekeys, Marked db row.key) ∧
    (∀ e ∈ log, MarksGrow e.before db) ∧
    (issuedIds digest log).Nodup ∧
    (fetchedIds digest log).Nodup ∧
    (∀ requesterId targetId now limits choice,
      ∃ result, fetchForRequester requesterId targetId now limits choice db = .ok result) ∧
    ∀ e ∈ log, ∀ userId prekeys, e.Accepts digest userId prekeys →
      ∀ maxPrekeysPerUser unixepoch createdAt, ∃ remaining,
        uploadPrekeys userId prekeys maxPrekeysPerUser unixepoch createdAt db =
          .ok (.accepted remaining, db) := by
  have h := run.issuance
  refine ⟨h.bounded, h.rows, h.grow, h.issuedOnce, h.fetchedOnce, h.fetch_ok, ?_⟩
  intro e he userId prekeys haccepts
  obtain ⟨hne, hmarked⟩ := h.accepted e he userId prekeys haccepts
  exact uploadPrekeys_marked hne hmarked

end

/-! ## A key that is fetched -/

/-- Bob registers with two keys and uploads a third; Alice fetches a key before and after. -/
def bobIssues : List (Transaction Bytes) :=
  [.registerAtomic ⟨bob, [], 1, [], [], [(0, [1]), (1, [2])]⟩ fun _ => 50,
    .fetchForRequester alice bob 100 FETCH_LIMITS 0,
    .uploadPrekeys bob [(2147483648, [3])] MAX_PREKEYS_PER_USER 200 fun _ => 200,
    .fetchForRequester alice bob 300 FETCH_LIMITS 1]

def bobIssued : List (Entry Bytes Unit) × Db Bytes Unit :=
  bobIssues.foldl (fun (log, db) t => (log ++ [⟨db, t⟩], t.after (fun _ => ()) db)) ([], Db.fresh)

theorem bobIssued_run :
    Run (fun _ => ()) (fun _ t => Transaction.Decoded t) bobIssued.1 bobIssued.2 :=
  .transact (.transact (.transact (.transact .fresh _ ⟨by decide, by decide⟩) _ trivial) _
    ⟨by decide, rfl⟩) _ trivial

theorem prekeys_issued_once_bob :
    fetchedIds (fun _ => ()) bobIssued.1 = [(bob, 0), (bob, 2147483648)] ∧
      (fetchedIds (fun _ => ()) bobIssued.1).Nodup :=
  ⟨by decide, (prekeys_issued_once bobIssued_run).2.2.2.2.1⟩

end Cmp.Relay
