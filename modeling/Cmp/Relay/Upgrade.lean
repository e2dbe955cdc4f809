import Cmp.Relay.Schema

/-! The upgrade of a database file. Each migration takes a file of one version to a file of the
next and keeps its rows; so does every start of the relay, however often it crashes between
two of them. -/

namespace Cmp.Relay

open Cmp.Crypto Cmp.Protocol Cmp.Lib

variable {C D : Type}

/-! ## Files of a version -/

/-- What a version can add to the file. -/
inductive SchemaPart
  | users
  | signedPrekeys
  | prekeys
  | messageQueue
  | readReceiptQueue
  | prekeyFetchEvents
  | prekeyInventory
  | prekeysDated
  | prekeyReservations
  | messageAcceptances
  | acceptanceStats

/-- The version that adds a part. -/
def SchemaPart.since : SchemaPart → Nat
  | .users => 1
  | .signedPrekeys => 1
  | .prekeys => 1
  | .messageQueue => 1
  | .readReceiptQueue => 2
  | .prekeyFetchEvents => 3
  | .prekeyInventory => 4
  | .prekeysDated => 5
  | .prekeyReservations => 7
  | .messageAcceptances => 8
  | .acceptanceStats => 8

def Disk.has (disk : Disk D) : SchemaPart → Bool
  | .users => disk.users.isSome
  | .signedPrekeys => disk.signedPrekeys.isSome
  | .prekeys => disk.prekeys.isSome
  | .messageQueue => disk.messageQueue.isSome
  | .readReceiptQueue => disk.readReceiptQueue.isSome
  | .prekeyFetchEvents => disk.prekeyFetchEvents.isSome
  | .prekeyInventory => disk.prekeyInventory.isSome
  | .prekeysDated => disk.prekeysDated
  | .prekeyReservations => disk.prekeyReservations.isSome
  | .messageAcceptances => disk.messageAcceptances.isSome
  | .acceptanceStats => disk.acceptanceStats.isSome

/-- Every user has a high-water mark that covers its one-time prekeys. -/
def Disk.Covered (disk : Disk D) : Prop :=
  ∀ users prekeys, disk.users = some users → disk.prekeys = some prekeys →
    ∃ inventory, disk.prekeyInventory = some inventory ∧ ∀ user ∈ users,
      ∃ row ∈ inventory, row.userId = user.userId ∧
        ∀ prekey ∈ prekeys, prekey.userId = user.userId → prekey.keyId ≤ row.highWater

/-- No high-water mark is below the ids of the legacy clients. -/
def Disk.Floored (disk : Disk D) : Prop :=
  ∀ inventory, disk.prekeyInventory = some inventory →
    ∀ row ∈ inventory, LEGACY_HIGH_WATER ≤ row.highWater

/-- The ledger has one row for each queued message, and their number. -/
def Disk.Ledgered (T : Texts D) (disk : Disk D) : Prop :=
  ∃ queue ledger, disk.messageQueue = some queue ∧ disk.messageAcceptances = some ledger ∧
    ledger.rows.map some = queue.rows.map (QueuedText.acceptance? T) ∧
    disk.acceptanceStats = some ledger.rows.length

/-- A file of its version, whose queued messages have a time. -/
structure Conforms (T : Texts D) (disk : Disk D) : Prop where
  present : ∀ part, disk.has part = decide (part.since ≤ disk.userVersion)
  covered : 4 ≤ disk.userVersion → disk.Covered
  floored : 6 ≤ disk.userVersion → disk.Floored
  dated : ∀ row ∈ disk.queued, (row.acceptance? T).isSome

/-! ## What is kept -/

/-- What is there stays as it is. -/
def Persists {α : Type} (before after : Option α) : Prop := ∀ a, before = some a → after = some a

theorem Persists.refl {α : Type} (before : Option α) : Persists before before := fun _ h => h

theorem Persists.trans {α : Type} {a b c : Option α} (h : Persists a b) (h' : Persists b c) :
    Persists a c :=
  fun x hx => h' x (h x hx)

theorem Persists.of_none {α : Type} {before after : Option α} (h : before.isSome = false) :
    Persists before after := by
  rintro a rfl
  cases h

theorem Persists.created {α κ : Type} {key : α → κ} (table : Option (Table key)) :
    Persists table (createIfNotExists table) := by
  rintro t rfl
  rfl

/-- A prekey without its date. -/
def PrekeyText.undated (row : PrekeyText) : String × Int × Bytes :=
  (row.userId, row.keyId, row.publicKey)

/-- Rows are kept with their values: those of the prekeys apart from a date that they did not
have, and the high-water marks as lower bounds. -/
structure Kept (disk disk' : Disk D) : Prop where
  users : Persists disk.users disk'.users
  signedPrekeys : Persists disk.signedPrekeys disk'.signedPrekeys
  prekeys : ∀ prekeys, disk.prekeys = some prekeys → ∃ prekeys', disk'.prekeys = some prekeys' ∧
    prekeys'.rows.map PrekeyText.undated = prekeys.rows.map PrekeyText.undated ∧
    (disk.prekeysDated = true → prekeys' = prekeys)
  messageQueue : Persists disk.messageQueue disk'.messageQueue
  readReceiptQueue : Persists disk.readReceiptQueue disk'.readReceiptQueue
  prekeyFetchEvents : Persists disk.prekeyFetchEvents disk'.prekeyFetchEvents
  prekeyInventory : ∀ inventory, disk.prekeyInventory = some inventory →
    ∃ inventory', disk'.prekeyInventory = some inventory' ∧ ∀ row ∈ inventory,
      ∃ row' ∈ inventory', row'.userId = row.userId ∧ row.highWater ≤ row'.highWater
  prekeysDated : disk.prekeysDated = true → disk'.prekeysDated = true
  prekeyReservations : Persists disk.prekeyReservations disk'.prekeyReservations
  messageAcceptances : Persists disk.messageAcceptances disk'.messageAcceptances
  acceptanceStats : Persists disk.acceptanceStats disk'.acceptanceStats
  queued : disk'.queued = disk.queued
  receipts : disk'.receipts = disk.receipts

namespace Kept

variable {disk disk' disk'' : Disk D}

theorem refl (disk : Disk D) : Kept disk disk where
  users := .refl _
  signedPrekeys := .refl _
  prekeys prekeys h := ⟨prekeys, h, rfl, fun _ => rfl⟩
  messageQueue := .refl _
  readReceiptQueue := .refl _
  prekeyFetchEvents := .refl _
  prekeyInventory inventory h := ⟨inventory, h, fun row hrow => ⟨row, hrow, rfl, le_refl _⟩⟩
  prekeysDated := id
  prekeyReservations := .refl _
  messageAcceptances := .refl _
  acceptanceStats := .refl _
  queued := rfl
  receipts := rfl

theorem trans (h : Kept disk disk') (h' : Kept disk' disk'') : Kept disk disk'' where
  users := h.users.trans h'.users
  signedPrekeys := h.signedPrekeys.trans h'.signedPrekeys
  prekeys prekeys hprekeys := by
    obtain ⟨prekeys', hprekeys', hsame, hdated⟩ := h.prekeys prekeys hprekeys
    obtain ⟨prekeys'', hprekeys'', hsame', hdated'⟩ := h'.prekeys prekeys' hprekeys'
    refine ⟨prekeys'', hprekeys'', hsame'.trans hsame, fun hd => ?_⟩
    rw [hdated' (h.prekeysDated hd), hdated hd]
  messageQueue := h.messageQueue.trans h'.messageQueue
  readReceiptQueue := h.readReceiptQueue.trans h'.readReceiptQueue
  prekeyFetchEvents := h.prekeyFetchEvents.trans h'.prekeyFetchEvents
  prekeyInventory inventory hinventory := by
    obtain ⟨inventory', hinventory', hrows⟩ := h.prekeyInventory inventory hinventory
    obtain ⟨inventory'', hinventory'', hrows'⟩ := h'.prekeyInventory inventory' hinventory'
    refine ⟨inventory'', hinventory'', fun row hrow => ?_⟩
    obtain ⟨row', hrow', huser, hle⟩ := hrows row hrow
    obtain ⟨row'', hrow'', huser', hle'⟩ := hrows' row' hrow'
    exact ⟨row'', hrow'', huser'.trans huser, le_trans hle hle'⟩
  prekeysDated hd := h'.prekeysDated (h.prekeysDated hd)
  prekeyReservations := h.prekeyReservations.trans h'.prekeyReservations
  messageAcceptances := h.messageAcceptances.trans h'.messageAcceptances
  acceptanceStats := h.acceptanceStats.trans h'.acceptanceStats
  queued := h'.queued.trans h.queued
  receipts := h'.receipts.trans h.receipts

theorem envelopes (h : Kept disk disk') : disk'.envelopes = disk.envelopes := by
  unfold Disk.envelopes
  rw [h.queued, h.receipts]

end Kept

/-- A table that is made for the file is empty. -/
theorem elim_created {α κ : Type} {key : α → κ} (table : Option (Table key)) :
    (createIfNotExists table).elim [] Table.rows = table.elim [] Table.rows := by
  cases table with
  | none | some table => rfl

/-! ## The migrations -/

/-- A migration does what it has to do with files of the version before its own. -/
structure Migrates (T : Texts D) (k : Nat) (disk disk' : Disk D) : Prop where
  version : disk'.userVersion = k + 1
  conforms : Conforms T disk'
  kept : Kept disk disk'
  ledgered : k + 1 = CURRENT_VERSION → disk'.Ledgered T

section

variable {T : Texts D} {disk disk' : Disk D} (h : Conforms T disk)

include h

theorem Conforms.absent (part : SchemaPart) (hlt : disk.userVersion < part.since) :
    disk.has part = false := by
  rw [h.present part]
  exact decide_eq_false (not_le.mpr hlt)

theorem Conforms.exists (part : SchemaPart) (hle : part.since ≤ disk.userVersion) :
    disk.has part = true := by
  rw [h.present part]
  exact decide_eq_true hle

/-- A migration adds the parts of its version. -/
theorem Conforms.present_next {k : Nat} (hversion : disk.userVersion = k)
    (hnext : disk'.userVersion = k + 1)
    (hhas : ∀ part, disk'.has part = (decide (part.since = k + 1) || disk.has part))
    (part : SchemaPart) : disk'.has part = decide (part.since ≤ disk'.userVersion) := by
  rw [hhas, h.present, hversion, hnext, ← Bool.decide_or]
  exact decide_eq_decide.mpr (by omega)

theorem migrateV1_migrates (hversion : disk.userVersion = 0) :
    ∃ disk', migrateV1 disk = .ok disk' ∧ Migrates T 0 disk disk' := by
  have hqueued : (createIfNotExists disk.messageQueue).elim [] Table.rows = disk.queued :=
    elim_created disk.messageQueue
  refine ⟨_, rfl, rfl, ⟨h.present_next hversion rfl fun part => by cases part <;> rfl, nofun, nofun,
    fun row hrow => h.dated row (hqueued ▸ hrow)⟩, ?_, nofun⟩
  exact
    { Kept.refl disk with
      users := .created _
      signedPrekeys := .created _
      prekeys := fun prekeys hprekeys =>
        ⟨prekeys, Persists.created _ prekeys hprekeys, rfl, fun _ => rfl⟩
      messageQueue := .created _
      queued := hqueued }

theorem migrateV2_migrates (hversion : disk.userVersion = 1) :
    ∃ disk', migrateV2 disk = .ok disk' ∧ Migrates T 1 disk disk' := by
  refine ⟨_, rfl, rfl, ⟨h.present_next hversion rfl fun part => by cases part <;> rfl, nofun, nofun,
    h.dated⟩, ?_, nofun⟩
  exact
    { Kept.refl disk with
      readReceiptQueue := .created _
      receipts := elim_created disk.readReceiptQueue }

theorem migrateV3_migrates (hversion : disk.userVersion = 2) :
    ∃ disk', migrateV3 disk = .ok disk' ∧ Migrates T 2 disk disk' := by
  refine ⟨_, rfl, rfl, ⟨h.present_next hversion rfl fun part => by cases part <;> rfl, nofun, nofun,
    h.dated⟩, { Kept.refl disk with prekeyFetchEvents := ?_ }, nofun⟩
  rintro events hevents
  rw [hevents]
  rfl

omit h in
/-- The row that version 4 adds covers the prekeys of its user. -/
theorem le_firstInventory {prekeys : Table PrekeyText.key} {user : UserText} {prekey : PrekeyText}
    (hprekey : prekey ∈ prekeys) (huser : prekey.userId = user.userId) :
    prekey.keyId ≤ (firstInventory prekeys user).highWater := by
  have hmem : prekey.keyId ∈ (prekeys.rows.filter fun prekey =>
      decide (prekey.userId = user.userId)).map PrekeyText.keyId :=
    List.mem_map_of_mem (List.mem_filter.mpr ⟨hprekey, decide_eq_true huser⟩)
  unfold firstInventory
  dsimp only
  cases hmax : ((prekeys.rows.filter fun prekey => decide (prekey.userId = user.userId)).map
      PrekeyText.keyId).max? with
  | none =>
    rw [List.max?_eq_none_iff.mp hmax] at hmem
    cases hmem
  | some maximum => exact (List.max?_eq_some_iff.mp hmax).2 _ hmem

theorem migrateV4_migrates (hversion : disk.userVersion = 3) :
    ∃ disk', migrateV4 disk = .ok disk' ∧ Migrates T 3 disk disk' := by
  have hnone : disk.prekeyInventory = none := by
    have habsent : disk.prekeyInventory.isSome = false :=
      h.absent .prekeyInventory (by rw [hversion]; decide)
    exact Option.isNone_iff_eq_none.mp (Option.isSome_eq_false_iff.mp habsent)
  obtain ⟨users, husers⟩ := Option.isSome_iff_exists.mp
    (h.exists .users (by rw [hversion]; decide))
  obtain ⟨prekeys, hprekeys⟩ := Option.isSome_iff_exists.mp
    (h.exists .prekeys (by rw [hversion]; decide))
  have hrows : ((disk.prekeyInventory.getD .empty).insertAllOrIgnore
      (users.rows.map (firstInventory prekeys))).rows = users.rows.map
        (firstInventory prekeys) := by
    rw [hnone, Option.getD_none]
    refine Table.rows_insertAllOrIgnore ?_ fun _ _ a ha => absurd ha (Table.notMem_empty a)
    rw [List.map_map]
    exact users.nodup
  have hrun : migrateV4 disk = .ok { disk with
      prekeyInventory := some ((disk.prekeyInventory.getD .empty).insertAllOrIgnore
        (users.rows.map (firstInventory prekeys)))
      userVersion := 4 } := by
    unfold migrateV4
    split
    · next users' prekeys' husers' hprekeys' =>
      cases husers.symm.trans husers'
      cases hprekeys.symm.trans hprekeys'
      rfl
    · next hmissing => exact absurd hprekeys (hmissing users prekeys husers)
  refine ⟨_, hrun, rfl, ⟨h.present_next hversion rfl fun part => by cases part <;> rfl, ?_, nofun,
    h.dated⟩, ?_, nofun⟩
  · rintro - users' prekeys' husers' hprekeys'
    cases husers.symm.trans husers'
    cases hprekeys.symm.trans hprekeys'
    refine ⟨_, rfl, fun user huser => ?_⟩
    have hmem : firstInventory prekeys user ∈ (disk.prekeyInventory.getD .empty).insertAllOrIgnore
        (users.rows.map (firstInventory prekeys)) := by
      rw [Table.mem_def, hrows]
      exact List.mem_map_of_mem huser
    exact ⟨_, hmem, rfl, fun prekey hprekey hof => le_firstInventory hprekey hof⟩
  · refine { Kept.refl disk with prekeyInventory := ?_ }
    intro inventory hinventory
    cases hnone.symm.trans hinventory

theorem migrateV5_migrates (unixepoch : Nat) (hversion : disk.userVersion = 4) :
    ∃ disk', migrateV5 unixepoch disk = .ok disk' ∧ Migrates T 4 disk disk' := by
  have hundated : disk.prekeysDated = false :=
    h.absent .prekeysDated (by rw [hversion]; decide)
  obtain ⟨prekeys, hprekeys⟩ := Option.isSome_iff_exists.mp
    (h.exists .prekeys (by rw [hversion]; decide))
  unfold migrateV5
  rw [hprekeys, hundated]
  refine ⟨_, rfl, rfl, ⟨h.present_next hversion rfl fun part => ?_, ?_, nofun, h.dated⟩, ?_, nofun⟩
  · cases part <;> first | rfl | exact (congrArg Option.isSome hprekeys).symm
  · rintro - users dated husers hdated
    cases hdated
    obtain ⟨inventory, hinventory, hcovers⟩ :=
      h.covered (by rw [hversion]) users prekeys husers hprekeys
    refine ⟨inventory, hinventory, fun user huser => ?_⟩
    obtain ⟨row, hrow, hid, hbound⟩ := hcovers user huser
    refine ⟨row, hrow, hid, fun prekey hprekey hof => ?_⟩
    obtain ⟨undated, hmem, rfl⟩ := Table.mem_updateAll.mp hprekey
    exact hbound undated hmem hof
  · refine { Kept.refl disk with prekeys := ?_, prekeysDated := fun _ => rfl }
    intro before hbefore
    cases hprekeys.symm.trans hbefore
    refine ⟨_, rfl, ?_, fun hdated => ?_⟩
    · unfold Table.updateAll
      rw [List.map_map]
      rfl
    · cases hundated.symm.trans hdated

theorem migrateV6_migrates (hversion : disk.userVersion = 5) :
    ∃ disk', migrateV6 disk = .ok disk' ∧ Migrates T 5 disk disk' := by
  obtain ⟨inventory, hinventory⟩ := Option.isSome_iff_exists.mp
    (h.exists .prekeyInventory (by rw [hversion]; decide))
  unfold migrateV6
  rw [hinventory]
  refine ⟨_, rfl, rfl, ⟨h.present_next hversion rfl fun part => ?_, ?_, ?_, h.dated⟩, ?_, nofun⟩
  · cases part <;> first | rfl | exact (congrArg Option.isSome hinventory).symm
  · rintro - users prekeys husers hprekeys
    obtain ⟨inventory', hinventory', hcovers⟩ :=
      h.covered (by rw [hversion]; decide) users prekeys husers hprekeys
    cases hinventory.symm.trans hinventory'
    refine ⟨_, rfl, fun user huser => ?_⟩
    obtain ⟨row, hrow, hid, hbound⟩ := hcovers user huser
    refine ⟨_, Table.mem_updateAll.mpr ⟨row, hrow, rfl⟩, hid, fun prekey hprekey hof => ?_⟩
    exact le_trans (hbound prekey hprekey hof) (le_max_left _ _)
  · rintro - raised hraised row hrow
    cases hraised
    obtain ⟨before, -, rfl⟩ := Table.mem_updateAll.mp hrow
    exact le_max_right _ _
  · refine { Kept.refl disk with prekeyInventory := ?_ }
    intro before hbefore
    cases hinventory.symm.trans hbefore
    refine ⟨_, rfl, fun row hrow => ⟨_, Table.mem_updateAll.mpr ⟨row, hrow, rfl⟩, rfl, ?_⟩⟩
    exact le_max_left _ _

theorem migrateV7_migrates (hversion : disk.userVersion = 6) :
    ∃ disk', migrateV7 disk = .ok disk' ∧ Migrates T 6 disk disk' := by
  have habsent : disk.prekeyReservations.isSome = false :=
    h.absent .prekeyReservations (by rw [hversion]; decide)
  unfold migrateV7
  rw [habsent]
  exact ⟨_, rfl, rfl, ⟨h.present_next hversion rfl fun part => by cases part <;> rfl,
    fun _ => h.covered (by rw [hversion]; decide), fun _ => h.floored (by rw [hversion]), h.dated⟩,
    { Kept.refl disk with prekeyReservations := .of_none habsent }, nofun⟩

omit h in
/-- The ledger that version 8 starts with. -/
theorem backfill_eq (rows : List QueuedText) (hdated : ∀ row ∈ rows, (row.acceptance? T).isSome) :
    ∀ (acceptances : Table (AcceptanceText.messageId (D := D))) (count : Nat),
      (acceptances.rows.map AcceptanceText.messageId ++ rows.map QueuedText.messageId).Nodup →
      ∃ filled, backfill T rows (acceptances, count) = .ok (filled, count + rows.length) ∧
        filled.rows.map some = acceptances.rows.map some ++ rows.map
          (QueuedText.acceptance? T) := by
  induction rows with
  | nil => intro acceptances count _; exact ⟨acceptances, rfl, (List.append_nil _).symm⟩
  | cons row rows ih =>
    intro acceptances count hnodup
    obtain ⟨acceptance, hacceptance⟩ := Option.isSome_iff_exists.mp (hdated row List.mem_cons_self)
    have hid : acceptance.messageId = row.messageId := by
      obtain ⟨time, -, rfl⟩ := Option.map_eq_some_iff.mp hacceptance
      rfl
    cases hinsert : acceptances.insert acceptance with
    | none =>
      obtain ⟨a, ha, hsame⟩ := Table.insert_eq_none.mp hinsert
      have hdisjoint := List.disjoint_of_nodup_append hnodup
      exact (hdisjoint (List.mem_map_of_mem ha) (hsame.trans hid ▸ List.mem_cons_self)).elim
    | some inserted =>
      have hrows := Table.rows_insert hinsert
      obtain ⟨filled, hfilled, hall⟩ :=
        ih (fun row hrow => hdated row (List.mem_cons_of_mem _ hrow)) inserted (count + 1) (by
          rw [hrows, List.map_append, List.append_assoc, List.map_singleton, hid]
          exact hnodup)
      refine ⟨filled, ?_, ?_⟩
      · rw [backfill, hacceptance]
        dsimp only
        rw [hinsert]
        dsimp only
        rw [hfilled, List.length_cons, Nat.add_assoc, Nat.add_comm 1]
      · rw [hall, hrows, List.map_append, List.append_assoc, List.map_singleton, List.map_cons,
          hacceptance, List.singleton_append]

theorem migrateV8_migrates (hversion : disk.userVersion = 7) :
    ∃ disk', migrateV8 T disk = .ok disk' ∧ Migrates T 7 disk disk' := by
  have hledger : disk.messageAcceptances.isSome = false :=
    h.absent .messageAcceptances (by rw [hversion]; decide)
  have hstats : disk.acceptanceStats.isSome = false :=
    h.absent .acceptanceStats (by rw [hversion]; decide)
  obtain ⟨queue, hqueue⟩ := Option.isSome_iff_exists.mp
    (h.exists .messageQueue (by rw [hversion]; decide))
  have hdated : ∀ row ∈ queue.rows, (row.acceptance? T).isSome := by
    have hqueued := h.dated
    rwa [Disk.queued, hqueue] at hqueued
  obtain ⟨filled, hfilled, hrows⟩ := backfill_eq queue.rows hdated .empty 0 queue.nodup
  have hlength : some queue.rows.length = some filled.rows.length := by
    have hlengths := congrArg List.length hrows
    rw [List.length_append, List.length_map, List.length_map, List.length_map] at hlengths
    exact congrArg some (hlengths.trans (Nat.zero_add _)).symm
  have hrun : migrateV8 T disk = .ok { disk with
      messageAcceptances := some filled
      acceptanceStats := some queue.rows.length
      userVersion := CURRENT_VERSION } := by
    unfold migrateV8
    rw [hledger, hstats, if_neg (by decide)]
    split
    · next hnone => cases hqueue.symm.trans hnone
    · next queue' hqueue' =>
      cases hqueue.symm.trans hqueue'
      rw [hfilled, Nat.zero_add]
      rfl
  exact ⟨_, hrun, rfl, ⟨h.present_next hversion rfl fun part => by cases part <;> rfl,
    fun _ => h.covered (by rw [hversion]; decide), fun _ => h.floored (by rw [hversion]; decide),
    h.dated⟩,
    { Kept.refl disk with
      messageAcceptances := .of_none hledger
      acceptanceStats := .of_none hstats },
    fun _ => ⟨queue, filled, hqueue, rfl, hrows, hlength⟩⟩

/-- Each migration does what it has to do. -/
theorem migrate_migrates (unixepoch : Nat) {k : Nat} (hk : k < CURRENT_VERSION)
    (hversion : disk.userVersion = k) :
    ∃ disk', migrate T unixepoch (k + 1) disk = .ok disk' ∧ Migrates T k disk disk' := by
  match k, hk, hversion with
  | 0, _, hversion => exact migrateV1_migrates h hversion
  | 1, _, hversion => exact migrateV2_migrates h hversion
  | 2, _, hversion => exact migrateV3_migrates h hversion
  | 3, _, hversion => exact migrateV4_migrates h hversion
  | 4, _, hversion => exact migrateV5_migrates h unixepoch hversion
  | 5, _, hversion => exact migrateV6_migrates h hversion
  | 6, _, hversion => exact migrateV7_migrates h hversion
  | 7, _, hversion => exact migrateV8_migrates h hversion

end

/-! ## Whole starts -/

/-- What starts make of a file. -/
structure Upgraded (T : Texts D) (disk disk' : Disk D) : Prop where
  conforms : Conforms T disk'
  kept : Kept disk disk'
  version : disk.userVersion ≤ disk'.userVersion ∧ disk'.userVersion ≤ CURRENT_VERSION
  ledgered : disk.userVersion < CURRENT_VERSION → disk'.userVersion = CURRENT_VERSION →
    disk'.Ledgered T

theorem Disk.Ledgered.of_kept {T : Texts D} {disk disk' : Disk D}
    (h : disk.Ledgered T) (hkept : Kept disk disk') : disk'.Ledgered T := by
  obtain ⟨queue, ledger, hqueue, hledger, hrows, hstats⟩ := h
  exact ⟨queue, ledger, hkept.messageQueue queue hqueue, hkept.messageAcceptances ledger hledger,
    hrows, hkept.acceptanceStats _ hstats⟩

namespace Upgraded

variable {T : Texts D} {disk disk' disk'' : Disk D}

theorem refl (h : Conforms T disk) (hversion : disk.userVersion ≤ CURRENT_VERSION) :
    Upgraded T disk disk :=
  ⟨h, .refl disk, ⟨le_refl _, hversion⟩, fun hlt heq => absurd heq (ne_of_lt hlt)⟩

theorem trans (h : Upgraded T disk disk') (h' : Upgraded T disk' disk'') :
    Upgraded T disk disk'' where
  conforms := h'.conforms
  kept := h.kept.trans h'.kept
  version := ⟨le_trans h.version.1 h'.version.1, h'.version.2⟩
  ledgered hlt hcurrent := by
    rcases lt_or_eq_of_le h.version.2 with hbelow | hreached
    · exact h'.ledgered hbelow hcurrent
    · exact (h.ledgered hlt hreached).of_kept h'.kept

/-- The first migrations of a start. -/
theorem migrateTo (T : Texts D) (h : Conforms T disk)
    (hversion : disk.userVersion ≤ CURRENT_VERSION)
    (unixepoch : Nat) {k : Nat} (hk : k ≤ CURRENT_VERSION) :
    ∃ disk', Relay.migrateTo T unixepoch disk.userVersion k disk = (.ok (), disk') ∧
      disk'.userVersion = max disk.userVersion k ∧ Upgraded T disk disk' := by
  induction k with
  | zero => exact ⟨disk, rfl, (Nat.max_zero _).symm, refl h hversion⟩
  | succ k ih =>
    obtain ⟨reached, hrun, hreached, hupgraded⟩ := ih (Nat.le_of_succ_le hk)
    unfold Relay.migrateTo
    rw [hrun]
    dsimp only
    split
    · next hlt =>
      have hat : reached.userVersion = k := by omega
      obtain ⟨disk', hmigrate, hnext, hconforms, hkept, hledgered⟩ :=
        migrate_migrates hupgraded.conforms unixepoch hk hat
      rw [hmigrate]
      refine ⟨disk', rfl, by omega, hupgraded.trans ⟨hconforms, hkept, by omega, ?_⟩⟩
      exact fun _ hcurrent => hledgered (hnext.symm.trans hcurrent)
    · next hge => exact ⟨reached, rfl, by omega, hupgraded⟩

/-- Starts that crash. -/
theorem crashed (starts : List (Nat × Nat)) :
    ∀ {disk : Disk D}, Conforms T disk → disk.userVersion ≤ CURRENT_VERSION →
      Upgraded T disk (Relay.crashed T starts disk) := by
  induction starts with
  | nil => intro disk h hversion; exact refl h hversion
  | cons start starts ih =>
    intro disk h hversion
    obtain ⟨unixepoch, last⟩ := start
    obtain ⟨disk', hrun, -, hupgraded⟩ :=
      migrateTo T h hversion unixepoch (Nat.min_le_right last CURRENT_VERSION)
    rw [Relay.crashed, hrun]
    exact hupgraded.trans (ih hupgraded.conforms hupgraded.version.2)

/-- A start that gets to the end of its migrations, after others that crashed. -/
theorem started (T : Texts D) (starts : List (Nat × Nat)) (unixepoch : Nat) (h : Conforms T disk)
    (hversion : disk.userVersion ≤ CURRENT_VERSION) :
    ∃ disk', Relay.migrateTo T unixepoch (Relay.crashed T starts disk).userVersion
        CURRENT_VERSION (Relay.crashed T starts disk) = (.ok (), disk') ∧
      disk'.userVersion = CURRENT_VERSION ∧ Upgraded T disk disk' := by
  have hcrashed : Upgraded T disk (Relay.crashed T starts disk) :=
    .crashed starts h hversion
  obtain ⟨disk', hrun, hreached, hstarted⟩ := migrateTo T hcrashed.conforms
    hcrashed.version.2 unixepoch (le_refl CURRENT_VERSION)
  exact ⟨disk', hrun, hreached.trans (max_eq_right hcrashed.version.2), hcrashed.trans hstarted⟩

end Upgraded

/-- A file of the current version is left as it is. -/
theorem migrateTo_current (T : Texts D) (unixepoch : Nat) {version k : Nat}
    (hk : k ≤ version) (disk : Disk D) :
    migrateTo T unixepoch version k disk = (.ok (), disk) := by
  induction k with
  | zero => rfl
  | succ k ih =>
    unfold migrateTo
    rw [ih (Nat.le_of_succ_le hk)]
    exact if_neg (not_lt.mpr hk)

theorem ensureQueuedProtocolVersions_ok {W : Wire C} {disk : Disk D}
    (hqueue : disk.messageQueue.isSome = true) (hreceipts : disk.readReceiptQueue.isSome = true)
    (h : ∀ text ∈ disk.envelopes, ∀ envelope, W.parseEnvelope text = some envelope →
      envelope.version = PROTOCOL_VERSION) :
    ensureQueuedProtocolVersions W disk = .ok () := by
  have hnone : disk.envelopes.findSome? (unsupportedVersion? W) = none := by
    rw [List.findSome?_eq_none_iff]
    intro text htext
    unfold unsupportedVersion?
    cases hparse : W.parseEnvelope text with
    | none => rfl
    | some envelope => exact if_neg (not_not.mpr (h text htext envelope hparse))
  unfold ensureQueuedProtocolVersions
  rw [if_neg, hnone]
  rw [Option.isNone_eq_false_iff.mpr hqueue, Option.isNone_eq_false_iff.mpr hreceipts]
  decide

/-- However often a start crashes, the one that completes leaves a file of the current version with
all that was there, and a further start leaves that file alone. -/
theorem schema_upgrade (W : Wire C) (T : Texts D) (disk : Disk D)
    (hconforms : Conforms T disk) (hlast : disk.userVersion ≤ CURRENT_VERSION)
    (hqueued : ∀ text ∈ disk.envelopes, ∀ envelope, W.parseEnvelope text = some envelope →
      envelope.version = PROTOCOL_VERSION) (starts : List (Nat × Nat)) (unixepoch : Nat) :
    ∃ disk', initializeSchema W T unixepoch (crashed T starts disk) = (.ok (), disk') ∧
      disk'.userVersion = CURRENT_VERSION ∧ Conforms T disk' ∧ Kept disk disk' ∧
      disk'.Covered ∧ disk'.Floored ∧
      (disk.userVersion < CURRENT_VERSION → disk'.Ledgered T) ∧
      ∀ later, initializeSchema W T later disk' = (.ok (), disk') := by
  obtain ⟨disk', hrun, hcurrent, hupgraded⟩ :=
    Upgraded.started T starts unixepoch hconforms hlast
  have hensured : ensureQueuedProtocolVersions W disk' = .ok () := by
    refine ensureQueuedProtocolVersions_ok ?_ ?_ fun text htext => ?_
    · exact hupgraded.conforms.exists .messageQueue (hcurrent ▸ by decide)
    · exact hupgraded.conforms.exists .readReceiptQueue (hcurrent ▸ by decide)
    · exact hqueued text (hupgraded.kept.envelopes ▸ htext)
  refine ⟨disk', ?_, hcurrent, hupgraded.conforms, hupgraded.kept,
    hupgraded.conforms.covered (hcurrent ▸ by decide),
    hupgraded.conforms.floored (hcurrent ▸ by decide),
    fun hold => hupgraded.ledgered hold hcurrent, fun later => ?_⟩
  · unfold initializeSchema
    rw [hrun]
    dsimp only
    rw [hensured]
  · unfold initializeSchema
    rw [migrateTo_current T later (le_of_eq hcurrent.symm)]
    dsimp only
    rw [hensured]

/-- One text is an envelope of this protocol. -/
def oneText : Wire Bytes where
  envelopeJson _ := "message"
  parseEnvelope text :=
    if text = "message" then some ⟨PROTOCOL_VERSION, .ratchet ⟨b64Encode [], 0, 0⟩, b64Encode []⟩
    else none
  uuidText _ := ""
  parseUuid _ := none
  datetime _ := ""

/-- A file of version 2: Bob has two one-time prekeys and a message, and a row that does not
parse. -/
def versionTwo : Disk String :=
  { Disk.empty with
    userVersion := 2
    users := some ⟨[⟨"bob", [], ""⟩], by decide⟩
    signedPrekeys := some ⟨[⟨"bob", 1, [], [], ""⟩], by decide⟩
    prekeys := some ⟨[⟨"bob", 3, [], none⟩, ⟨"bob", 4, [], none⟩], by decide⟩
    messageQueue := some ⟨[⟨"1", "bob", "alice", "message", ""⟩, ⟨"2", "bob", "alice", "?", ""⟩],
      by decide⟩
    readReceiptQueue := some .empty }

/-- Digests are the texts themselves, and all times are one. -/
def sameTime : Texts String := ⟨id, fun _ => some 100⟩

theorem schema_upgrade_versionTwo :
    ∃ disk', initializeSchema oneText sameTime 400 (crashed sameTime [(300, 5)] versionTwo) =
        (.ok (), disk') ∧ disk'.Ledgered sameTime := by
  obtain ⟨disk', hrun, -, -, -, -, -, hledgered, -⟩ := schema_upgrade oneText sameTime versionTwo
    ⟨fun part => by cases part <;> rfl, fun h => absurd h (by decide),
      fun h => absurd h (by decide), fun _ _ => rfl⟩ (by decide) (by
      intro text _ envelope hparse
      simp only [oneText, Option.ite_none_right_eq_some, Option.some.injEq] at hparse
      rw [← hparse.2]) [(300, 5)] 400
  exact ⟨disk', hrun, hledgered (by decide)⟩

end Cmp.Relay
