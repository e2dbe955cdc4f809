import Cmp.Relay.Acceptance
import Cmp.Relay.SignedPrekeys

/-! Rotations of signed prekeys over whole histories of the relay. Registration and the
rotations that are accepted put keys on record, newest first; the record never loses a key,
and the relay stores its first two. -/

namespace Cmp.Relay

open Cmp.Crypto Cmp.Protocol Cmp.Lib

variable {C D : Type} {userId : UserId} {db db' : Db C D} {history rest : List SignedPrekeyRow}
  {row top : SignedPrekeyRow} {result : SignedPreKeyRotationResult}

/-- What is stored for a user, against the record. -/
structure OnRecord (userId : UserId) (history : List SignedPrekeyRow) (db : Db C D) : Prop where
  ordered : SpkHistory userId history
  retains : db.Retains userId (history.take 2)
  registered : db.hasUser userId = true ↔ history ≠ []

theorem hasUser_iff : db.hasUser userId = true ↔ ∃ row ∈ db.users, row.userId = userId :=
  Table.find?_isSome

/-- A user with a current key has a record. -/
theorem OnRecord.exists_top (h : OnRecord userId history db) {keyId : UInt32}
    (hcurrent : currentSignedPrekeyId userId db = some keyId) :
    ∃ top rest, history = top :: rest := by
  cases history with
  | cons top rest => exact ⟨top, rest, rfl⟩
  | nil =>
    have hnone : currentSignedPrekeyId userId db = none := by
      unfold currentSignedPrekeyId
      rw [List.max?_eq_none_iff, List.map_eq_nil_iff, List.filter_eq_nil_iff]
      intro row hrow huser
      cases (h.retains row).mp ⟨hrow, of_decide_eq_true huser⟩
    cases hnone.symm.trans hcurrent

/-- The first key of a user. -/
theorem OnRecord.registers {registration : Registration} {users : Table UserRow.userId}
    (inventory : Table InventoryRow.userId) (prekeys : Table PrekeyRow.key)
    (h : OnRecord registration.userId history db)
    (husers : db.users.insert ⟨registration.userId, registration.identityKey⟩ = some users) :
    history = [] ∧ OnRecord registration.userId
      [⟨registration.userId, registration.signedPrekeyId, registration.signedPrekeyPublic,
        registration.signedPrekeySignature⟩]
      { db with
        users := users
        signedPrekeys := db.signedPrekeys.insertOrReplace
          ⟨registration.userId, registration.signedPrekeyId, registration.signedPrekeyPublic,
            registration.signedPrekeySignature⟩
        prekeys := prekeys
        prekeyInventory := inventory } := by
  have hnil : history = [] := by
    by_contra hne
    obtain ⟨user, huser, hid⟩ := hasUser_iff.mp (h.registered.mpr hne)
    exact Table.ne_of_insert husers user huser hid
  subst hnil
  refine ⟨rfl, ⟨?_, ?_⟩, ?_, ?_⟩
  · intro row hrow
    rw [List.mem_singleton.mp hrow]
  · exact List.pairwise_singleton _ _
  · intro row
    rw [Table.mem_insertOrReplace, List.take_succ_cons, List.take_nil, List.mem_singleton]
    constructor
    · rintro ⟨rfl | ⟨hrow, -⟩, huser⟩
      · rfl
      · cases (h.retains row).mp ⟨hrow, huser⟩
    · rintro rfl
      exact ⟨.inl rfl, rfl⟩
  · refine iff_of_true ?_ (List.cons_ne_nil _ _)
    exact hasUser_iff.mpr ⟨_, (Table.mem_insert husers).mpr (.inr rfl), rfl⟩

theorem Rotated.exists_current {keyId : UInt32} {publicKey signature : Bytes}
    (h : Rotated userId keyId publicKey signature db result db') :
    ∃ currentId, currentSignedPrekeyId userId db = some currentId := by
  cases h with
  | current _ _ _ hcurrent | previous _ _ _ _ hcurrent | conflict _ _ _ _ _ _ hcurrent =>
    exact ⟨_, hcurrent⟩
  | outdated _ _ hcurrent | stored _ hcurrent => exact ⟨_, hcurrent⟩

/-- A rotation leaves the record, or puts a newer key in front. -/
theorem OnRecord.rotates {keyId : UInt32} {publicKey signature : Bytes}
    (h : OnRecord userId (top :: rest) db)
    (hrot : Rotated userId keyId publicKey signature db result db') :
    (db' = db ∧ ∀ current, result = .accepted current →
      (⟨userId, keyId, publicKey, signature⟩ : SignedPrekeyRow) = top) ∨
    (result = .accepted keyId ∧ top.keyId < keyId ∧
      OnRecord userId (⟨userId, keyId, publicKey, signature⟩ :: top :: rest) db') := by
  have hcurrent := h.retains.current h.ordered
  cases hrot with
  | current row hrow heq hid =>
    refine .inl ⟨rfl, fun _ _ => ?_⟩
    cases hcurrent.symm.trans hid
    have hmem : row ∈ top :: rest :=
      List.mem_of_mem_take ((h.retains row).mp ⟨hrow, heq ▸ rfl⟩)
    rw [← heq]
    exact h.ordered.eq_of_keyId hmem List.mem_cons_self (heq ▸ rfl)
  | previous | conflict | outdated => exact .inl ⟨rfl, nofun⟩
  | stored currentId hid hlt inserted hinserted =>
    cases hcurrent.symm.trans hid
    refine .inr ⟨rfl, hlt, ?_⟩
    have hnew : SpkHistory userId (⟨userId, keyId, publicKey, signature⟩ :: top :: rest) := by
      refine ⟨?_, List.pairwise_cons.mpr ⟨?_, h.ordered.sorted⟩⟩
      · intro row hrow
        rcases List.mem_cons.mp hrow with rfl | hrow
        · rfl
        · exact h.ordered.owner row hrow
      · intro row hrow
        exact lt_of_le_of_lt (h.ordered.le_top hrow) hlt
    refine ⟨hnew, h.retains.insert h.ordered hnew hinserted, ?_⟩
    exact iff_of_true (h.registered.mpr (List.cons_ne_nil _ _)) (List.cons_ne_nil _ _)

/-! ## Histories -/

/-- The signed prekey that a transaction has put on record. -/
def recordedSpk (t : Transaction C) (answer : Option Answer) : Option SignedPrekeyRow :=
  match t, answer with
  | .registerAtomic registration _, some (.registered true) =>
    some ⟨registration.userId, registration.signedPrekeyId, registration.signedPrekeyPublic,
      registration.signedPrekeySignature⟩
  | .rotateSignedPrekey userId keyId publicKey signature, some (.rotated (.accepted _)) =>
    some ⟨userId, keyId, publicKey, signature⟩
  | _, _ => none

/-- The record of a user with a key that is new to it. -/
def recordSpk (userId : UserId) (history : List SignedPrekeyRow) :
    Option SignedPrekeyRow → List SignedPrekeyRow
  | some row => if row.userId = userId ∧ row ∉ history then row :: history else history
  | none => history

theorem recordSpk_suffix (userId : UserId) (history : List SignedPrekeyRow)
    (row? : Option SignedPrekeyRow) : history <:+ recordSpk userId history row? := by
  cases row? with
  | none => exact List.suffix_refl _
  | some row =>
    simp only [recordSpk]
    split
    · exact List.suffix_cons row history
    · exact List.suffix_refl _

theorem recordSpk_new (huser : row.userId = userId) (hnew : row ∉ history) :
    recordSpk userId history (some row) = row :: history :=
  if_pos ⟨huser, hnew⟩

theorem recordSpk_known (hrow : row ∈ history) : recordSpk userId history (some row) = history :=
  if_neg fun h => h.2 hrow

theorem recordSpk_other {row? : Option SignedPrekeyRow}
    (h : ∀ row, row? = some row → row.userId ≠ userId) :
    recordSpk userId history row? = history := by
  cases row? with
  | none => rfl
  | some row => exact if_neg fun hrow => h row rfl hrow.1

section

variable [DecidableEq D] {digest : EncryptedEnvelope C → D} {answer : Option Answer}

theorem Effect.hasUser_of_others {t : Transaction C} (heffect : Effect digest db t answer db')
    (hother : t.spkOwner? ≠ some userId) :
    db'.hasUser userId = true ↔ db.hasUser userId = true := by
  cases heffect with
  | registered registration createdAt result db' hreg =>
    cases hreg with
    | known => exact Iff.rfl
    | stored users inventory husers =>
      rw [hasUser_iff, hasUser_iff]
      constructor
      · rintro ⟨row, hrow, huser⟩
        rcases (Table.mem_insert husers).mp hrow with hrow | rfl
        · exact ⟨row, hrow, huser⟩
        · exact absurd (congrArg some huser) hother
      · rintro ⟨row, hrow, huser⟩
        exact ⟨row, (Table.mem_insert husers).mpr (.inl hrow), huser⟩
  | uploaded _ _ _ _ _ _ _ h | rotated _ _ _ _ _ _ h | fetched _ _ _ _ _ _ _ h =>
    cases h <;> exact Iff.rfl
  | enqueued _ _ _ _ h => cases h <;> exact Iff.rfl
  | receiptQueued _ _ _ _ _ _ _ h =>
    rcases enqueueReceipt_cases h with ⟨-, rfl⟩ | ⟨-, queue, -, rfl⟩ <;> exact Iff.rfl
  | _ => exact Iff.rfl

theorem recordedSpk_cases {t : Transaction C} (h : recordedSpk t answer = some row) :
    (∃ registration createdAt, t = .registerAtomic registration createdAt ∧
      answer = some (.registered true) ∧
      row = ⟨registration.userId, registration.signedPrekeyId, registration.signedPrekeyPublic,
        registration.signedPrekeySignature⟩) ∨
    ∃ current, t = .rotateSignedPrekey row.userId row.keyId row.publicKey row.signature ∧
      answer = some (.rotated (.accepted current)) := by
  unfold recordedSpk at h
  split at h
  · next registration createdAt =>
    cases h
    exact .inl ⟨registration, createdAt, rfl, rfl, rfl⟩
  · next current =>
    cases h
    exact .inr ⟨current, rfl, rfl⟩
  · cases h

theorem recordedSpk_owner {t : Transaction C} (h : recordedSpk t answer = some row) :
    t.spkOwner? = some row.userId := by
  rcases recordedSpk_cases h with ⟨registration, createdAt, rfl, -, rfl⟩ | ⟨current, rfl, -⟩
  · rfl
  · rfl

/-- A transaction keeps what is stored in line with the record. -/
theorem OnRecord.step {t : Transaction C} (h : OnRecord userId history db)
    (heffect : Effect digest db t answer db') :
    OnRecord userId (recordSpk userId history (recordedSpk t answer)) db' := by
  by_cases howner : t.spkOwner? = some userId
  · cases heffect with
    | registered registration createdAt result db' hreg =>
      cases howner
      cases hreg with
      | known => exact h
      | stored users inventory husers =>
        obtain ⟨rfl, hfirst⟩ := h.registers inventory (db.prekeys.insertAllOrIgnore
          (batchRows registration.userId registration.oneTimePrekeys createdAt)) husers
        rw [recordedSpk, recordSpk_new ?_ List.not_mem_nil]
        · exact hfirst
        · rfl
    | rotated owner keyId publicKey signature result db' hrot =>
      cases howner
      obtain ⟨currentId, hcurrent⟩ := hrot.exists_current
      obtain ⟨top, rest, rfl⟩ := h.exists_top hcurrent
      rcases h.rotates hrot with ⟨rfl, htop⟩ | ⟨rfl, hlt, hnew⟩
      · cases result with
        | accepted current =>
          rw [recordedSpk, htop current rfl, recordSpk_known List.mem_cons_self]
          exact h
        | _ => exact h
      · have hmem : (⟨userId, keyId, publicKey, signature⟩ : SignedPrekeyRow) ∉ top :: rest :=
          fun hmem => absurd hlt (not_lt.mpr (h.ordered.le_top hmem))
        rw [recordedSpk, recordSpk_new rfl hmem]
        exact hnew
    | failed t =>
      have hnone : recordedSpk t none = none := by
        cases t <;> rfl
      rw [hnone]
      exact h
    | _ => cases howner
  · have hsame : recordSpk userId history (recordedSpk t answer) = history := by
      refine recordSpk_other fun row hrow huser => howner ?_
      rw [recordedSpk_owner hrow, huser]
    rw [hsame]
    exact ⟨h.ordered, heffect.retains_of_others howner h.retains,
      (heffect.hasUser_of_others howner).trans h.registered⟩

/-- The record of a user after the first transactions on a fresh database. -/
def spkRecord (digest : EncryptedEnvelope C → D) (ts : Nat → Transaction C) (userId : UserId) :
    Nat → List SignedPrekeyRow
  | 0 => []
  | n + 1 =>
    recordSpk userId (spkRecord digest ts userId n)
      (recordedSpk (ts n) ((Db.fresh : Db C D).answer? digest ts n))

variable (digest) (ts : Nat → Transaction C) (userId)

theorem spkRecord_onRecord (n : Nat) :
    OnRecord userId (spkRecord digest ts userId n) ((Db.fresh : Db C D).after digest ts n) := by
  induction n with
  | zero =>
    refine ⟨⟨nofun, .nil⟩, fun row => ?_, iff_of_false nofun (fun h => h rfl)⟩
    exact iff_of_false (fun h => Table.notMem_empty row h.1) List.not_mem_nil
  | succ n ih => exact ih.step (Db.fresh.after_effect digest ts n)

/-- The record only grows, at its front. -/
theorem spkRecord_suffix {i j : Nat} (hle : i ≤ j) :
    spkRecord digest ts userId i <:+ spkRecord digest ts userId j := by
  induction hle with
  | refl => exact List.suffix_refl _
  | step _ ih => exact ih.trans (recordSpk_suffix userId _ _)

end

/-! ## Answers -/

/-- A rotation of a user with a current key gets an answer. -/
theorem rotateSignedPrekey_total {currentId : UInt32}
    (hcurrent : currentSignedPrekeyId userId db = some currentId) (keyId : UInt32)
    (publicKey signature : Bytes) :
    ∃ result db', rotateSignedPrekey userId keyId publicKey signature db = .ok (result, db') := by
  unfold rotateSignedPrekey
  rw [hcurrent]
  dsimp only
  split
  · exact ⟨_, _, rfl⟩
  next hfind =>
  split
  · exact ⟨_, _, rfl⟩
  split
  · next hnone =>
    obtain ⟨row, hrow, hkey⟩ := Table.insert_eq_none.mp hnone
    exact absurd hkey (Table.find?_eq_none.mp hfind row hrow)
  · exact ⟨_, _, rfl⟩

/-- Only a new key that is accepted changes anything. -/
theorem Rotated.eq_of_ne_accepted {keyId : UInt32} {publicKey signature : Bytes}
    (h : Rotated userId keyId publicKey signature db result db')
    (hresult : ∀ current, result ≠ .accepted current) : db' = db := by
  cases h with
  | stored => exact absurd rfl (hresult keyId)
  | _ => rfl

/-- A stored key that is no longer the current one. -/
theorem Rotated.of_retained (hrow : row ∈ db.signedPrekeys) (huser : row.userId = userId)
    {currentId : UInt32} (hcurrent : currentSignedPrekeyId userId db = some currentId)
    (hlt : row.keyId < currentId)
    (hrot : Rotated userId row.keyId row.publicKey row.signature db result db') :
    result = .previouslyAccepted currentId := by
  cases hrot with
  | current _ _ _ hcurrent' =>
    cases hcurrent.symm.trans hcurrent'
    exact absurd hlt (lt_irrefl _)
  | previous _ _ _ currentId' hcurrent' =>
    cases hcurrent.symm.trans hcurrent'
    rfl
  | conflict row' hrow' huser' hid hne =>
    obtain rfl : row' = row :=
      db.signedPrekeys.eq_of_key_eq hrow' hrow (Prod.ext (huser'.trans huser.symm) hid)
    exact absurd ⟨rfl, rfl⟩ hne
  | outdated hnew => exact absurd rfl (hnew row hrow huser)
  | stored currentId' hcurrent' hlt' =>
    cases hcurrent.symm.trans hcurrent'
    exact absurd hlt (lt_asymm hlt')

/-- One or two keys are stored for a registered user. -/
theorem OnRecord.count (h : OnRecord userId history db) (hne : history ≠ []) :
    (db.signedPrekeys.count fun row => decide (row.userId = userId)) = 1 ∨
      (db.signedPrekeys.count fun row => decide (row.userId = userId)) = 2 := by
  have hperm : (db.signedPrekeys.rows.filter fun row => decide (row.userId = userId)).Perm
      (history.take 2) := by
    rw [List.perm_ext_iff_of_nodup (db.signedPrekeys.rows_nodup.filter _)
      ((h.ordered.nodup.of_map _).sublist (List.take_sublist 2 history))]
    intro row
    rw [List.mem_filter, decide_eq_true_eq]
    exact h.retains row
  have hlength : (db.signedPrekeys.count fun row => decide (row.userId = userId)) =
      (history.take 2).length := by
    rw [Table.count, List.countP_eq_length_filter, hperm.length_eq]
  have hpos : 0 < history.length := List.length_pos_iff.mpr hne
  rw [hlength, List.length_take]
  omega

section

variable [DecidableEq D] (digest : EncryptedEnvelope C → D) (ts : Nat → Transaction C)

/-- After a rotation that was accepted its key is the newest on record. -/
theorem spkRecord_of_accepted {i : Nat} {keyId current : UInt32} {publicKey signature : Bytes}
    (hcall : ts i = .rotateSignedPrekey userId keyId publicKey signature)
    (hanswer : (Db.fresh : Db C D).answer? digest ts i = some (.rotated (.accepted current))) :
    ∃ rest, spkRecord digest ts userId (i + 1) = ⟨userId, keyId, publicKey, signature⟩ :: rest := by
  have hrecord := spkRecord_onRecord userId digest ts i
  have heffect := (Db.fresh : Db C D).after_effect digest ts i
  rw [spkRecord, hcall, hanswer, recordedSpk]
  rw [hcall, hanswer] at heffect
  generalize (Db.fresh : Db C D).after digest ts (i + 1) = db' at heffect
  cases heffect with
  | rotated _ _ _ _ _ _ hrot =>
    obtain ⟨currentId, hcurrent⟩ := hrot.exists_current
    obtain ⟨top, rest, heq⟩ := hrecord.exists_top hcurrent
    rw [heq] at hrecord ⊢
    rcases hrecord.rotates hrot with ⟨-, htop⟩ | ⟨-, hlt, -⟩
    · rw [htop current rfl, recordSpk_known List.mem_cons_self]
      exact ⟨rest, rfl⟩
    · refine ⟨top :: rest, recordSpk_new rfl fun hmem => ?_⟩
      exact absurd hlt (not_lt.mpr (hrecord.ordered.le_top hmem))

/-- The record is the same until a newer key is accepted. -/
theorem spkRecord_until_newer {userId : UserId} {i j : Nat} (hle : i ≤ j)
    (htop : ∃ rest, spkRecord digest ts userId i = top :: rest)
    (hquiet : ∀ k, i ≤ k → k < j → ∀ keyId publicKey signature current,
      ts k = .rotateSignedPrekey userId keyId publicKey signature →
      (Db.fresh : Db C D).answer? digest ts k = some (.rotated (.accepted current)) →
      keyId ≤ top.keyId) :
    ∃ rest, spkRecord digest ts userId j = top :: rest := by
  induction hle with
  | refl => exact htop
  | @step k hle ih =>
    obtain ⟨rest, heq⟩ := ih fun k' hik hkk => hquiet k' hik (Nat.lt_succ_of_lt hkk)
    have hrecord := spkRecord_onRecord userId digest ts k
    have hnext := spkRecord_onRecord userId digest ts (k + 1)
    have heffect := (Db.fresh : Db C D).after_effect digest ts k
    rw [spkRecord, heq] at hnext ⊢
    rw [heq] at hrecord
    cases hrow : recordedSpk (ts k) ((Db.fresh : Db C D).answer? digest ts k) with
    | none => exact ⟨rest, rfl⟩
    | some row =>
      by_cases hknown : row.userId = userId ∧ row ∉ top :: rest
      · rw [hrow, recordSpk_new hknown.1 hknown.2] at hnext
        have hlt : top.keyId < row.keyId :=
          (List.pairwise_cons.mp hnext.ordered.sorted).1 top List.mem_cons_self
        obtain ⟨rfl, -⟩ := hknown
        rcases recordedSpk_cases hrow with
          ⟨registration, createdAt, hcall, hanswer, rfl⟩ | ⟨current, hcall, hanswer⟩
        · -- a user with a key on record is not registered again
          rw [hcall, hanswer] at heffect
          generalize (Db.fresh : Db C D).after digest ts (k + 1) = db' at heffect
          cases heffect with
          | registered _ _ _ _ hreg =>
            cases hreg with
            | stored users inventory husers =>
              cases (hrecord.registers inventory (Table.empty) husers).1
        · exact absurd hlt (not_lt.mpr
            (hquiet k hle (Nat.lt_succ_self k) _ _ _ current hcall hanswer))
      · exact ⟨rest, if_neg hknown⟩

/-- What the relay keeps of the signed prekeys of a user, over every history. -/
theorem signed_prekeys_rotate (userId : UserId) :
    let db := (Db.fresh : Db C D).after digest ts
    let answer := (Db.fresh : Db C D).answer? digest ts
    -- one or two keys are stored for a registered user
    (∀ n, (db n).hasUser userId = true →
      ((db n).signedPrekeys.count fun row => decide (row.userId = userId)) = 1 ∨
        ((db n).signedPrekeys.count fun row => decide (row.userId = userId)) = 2) ∧
    -- the highest id never decreases
    (∀ i j, i ≤ j → (db i).hasUser userId = true → ∃ before after,
      currentSignedPrekeyId userId (db i) = some before ∧
        currentSignedPrekeyId userId (db j) = some after ∧ before ≤ after) ∧
    -- no id is stored with two keys, and what is served is stored
    (∀ i j row row', row ∈ (db i).signedPrekeys → row' ∈ (db j).signedPrekeys →
      row.userId = userId → row'.userId = userId → row.keyId = row'.keyId → row = row') ∧
    (∀ n row, getSignedPrekey userId (db n) = some row →
      row ∈ (db n).signedPrekeys ∧ row.userId = userId) ∧
    -- a call that is not accepted changes nothing
    (∀ n keyId publicKey signature result db',
      rotateSignedPrekey userId keyId publicKey signature (db n) = .ok (result, db') →
      (∀ current, result ≠ .accepted current) → db' = db n) ∧
    -- a call that was accepted changes nothing when it is repeated
    (∀ i j keyId publicKey signature current, i < j →
      ts i = .rotateSignedPrekey userId keyId publicKey signature →
      answer i = some (.rotated (.accepted current)) →
      ∃ result, rotateSignedPrekey userId keyId publicKey signature (db j) = .ok (result, db j) ∧
        ((∀ k, i < k → k < j → ∀ keyId' publicKey' signature' current',
          ts k = .rotateSignedPrekey userId keyId' publicKey' signature' →
          answer k = some (.rotated (.accepted current')) → keyId' ≤ keyId) →
          result = .accepted keyId) ∧
        ∀ k, i < k → k < j → ∀ keyId' publicKey' signature' current',
          ts k = .rotateSignedPrekey userId keyId' publicKey' signature' →
          answer k = some (.rotated (.accepted current')) → keyId < keyId' →
          ⟨userId, keyId, publicKey, signature⟩ ∈ (db j).signedPrekeys →
          ∃ latest, currentSignedPrekeyId userId (db j) = some latest ∧
            result = .previouslyAccepted latest) := by
  intro db answer
  have hrecord : ∀ n, OnRecord userId (spkRecord digest ts userId n) (db n) :=
    spkRecord_onRecord userId digest ts
  have hgrows : ∀ {i j row}, i ≤ j → row ∈ spkRecord digest ts userId i →
      row ∈ spkRecord digest ts userId j :=
    fun hle hrow => (spkRecord_suffix userId digest ts hle).subset hrow
  have hstored : ∀ {n row}, row ∈ (db n).signedPrekeys → row.userId = userId →
      row ∈ spkRecord digest ts userId n := by
    intro n row hrow huser
    exact List.mem_of_mem_take (((hrecord n).retains row).mp ⟨hrow, huser⟩)
  refine ⟨?_, ?_, ?_, ?_, ?_, ?_⟩
  · intro n huser
    exact (hrecord n).count ((hrecord n).registered.mp huser)
  · intro i j hle huser
    obtain ⟨top, rest, htop⟩ := List.exists_cons_of_ne_nil ((hrecord i).registered.mp huser)
    have hmem : top ∈ spkRecord digest ts userId j := hgrows hle (htop ▸ List.mem_cons_self)
    obtain ⟨top', rest', htop'⟩ := List.exists_cons_of_ne_nil (List.ne_nil_of_mem hmem)
    have hi := hrecord i
    have hj := hrecord j
    rw [htop] at hi
    rw [htop'] at hj hmem
    exact ⟨_, _, hi.retains.current hi.ordered, hj.retains.current hj.ordered,
      hj.ordered.le_top hmem⟩
  · intro i j row row' hrow hrow' huser huser' hid
    have hmem := hgrows (le_max_left i j) (hstored hrow huser)
    have hmem' := hgrows (le_max_right i j) (hstored hrow' huser')
    exact (hrecord (max i j)).ordered.eq_of_keyId hmem hmem' hid
  · intro n row hserved
    obtain ⟨keyId, -, hfind⟩ := Option.bind_eq_some_iff.mp hserved
    obtain ⟨hrow, hkey⟩ := Table.find?_eq_some.mp hfind
    exact ⟨hrow, congrArg Prod.fst hkey⟩
  · intro n keyId publicKey signature result db' hcall hresult
    exact (rotateSignedPrekey_cases hcall).eq_of_ne_accepted hresult
  · intro i j keyId publicKey signature current hij hcall hanswer
    obtain ⟨rest, hfirst⟩ := spkRecord_of_accepted digest ts hcall hanswer
    have hmem : (⟨userId, keyId, publicKey, signature⟩ : SignedPrekeyRow) ∈
        spkRecord digest ts userId j := hgrows hij (hfirst ▸ List.mem_cons_self)
    obtain ⟨top, older, htop⟩ := List.exists_cons_of_ne_nil (List.ne_nil_of_mem hmem)
    have hj := hrecord j
    rw [htop] at hj hmem
    have hcurrent := hj.retains.current hj.ordered
    obtain ⟨result, db', hretry⟩ := rotateSignedPrekey_total hcurrent keyId publicKey signature
    have hrot := rotateSignedPrekey_cases hretry
    obtain rfl : db' = db j := Rotated.of_mem hj.ordered hj.retains hrot hmem
    refine ⟨result, hretry, ?_, ?_⟩
    · intro hquiet
      obtain ⟨older', htop'⟩ := spkRecord_until_newer digest ts hij ⟨rest, hfirst⟩
        fun k hik => hquiet k hik
      cases htop.symm.trans htop'
      exact Rotated.of_top hj.ordered hj.retains hrot
    · intro k hik hkj keyId' publicKey' signature' current' hcall' hanswer' hlt hrow
      obtain ⟨rest', hnewer⟩ := spkRecord_of_accepted digest ts hcall' hanswer'
      have hnewest : (⟨userId, keyId', publicKey', signature'⟩ : SignedPrekeyRow) ∈ top :: older :=
        htop ▸ hgrows hkj (hnewer ▸ List.mem_cons_self)
      have hle := hj.ordered.le_top hnewest
      exact ⟨top.keyId, hcurrent,
        Rotated.of_retained hrow rfl hcurrent (lt_of_lt_of_le hlt hle) hrot⟩

end

/-- Bob registers with the key 1, and rotates to 2 and then to 3. -/
def bobRotates : Nat → Transaction Bytes
  | 0 => bobRegisters
  | 1 => .rotateSignedPrekey bob 2 [2] [2]
  | _ => .rotateSignedPrekey bob 3 [3] [3]

/-- The key 1 is gone. A second call for 3 is accepted again, and one for 2 is known to have been
accepted before. -/
theorem signed_prekeys_rotate_bob :
    let db := (Db.fresh : Db Bytes Unit).after (fun _ => ()) bobRotates 3
    getSignedPrekey bob db = some ⟨bob, 3, [3], [3]⟩ ∧
      (db.signedPrekeys.count fun row => decide (row.userId = bob)) = 2 ∧
      rotateSignedPrekey bob 3 [3] [3] db = .ok (.accepted 3, db) ∧
      rotateSignedPrekey bob 2 [2] [2] db = .ok (.previouslyAccepted 3, db) := by
  intro db
  obtain ⟨-, -, -, -, -, hrepeated⟩ :=
    signed_prekeys_rotate (D := Unit) (fun _ => ()) bobRotates bob
  obtain ⟨result, hlatest, haccepted, -⟩ := hrepeated 2 3 3 [3] [3] 3 (by decide) rfl rfl
  obtain ⟨result', hearlier, -, hknown⟩ := hrepeated 1 3 2 [2] [2] 2 (by decide) rfl rfl
  obtain rfl := haccepted fun k hlt hle => absurd hlt (not_lt.mpr (Nat.le_of_lt_succ hle))
  have hretained : ⟨bob, 2, [2], [2]⟩ ∈ db.signedPrekeys := by
    rw [Table.mem_def]
    decide
  obtain ⟨latest, hcurrent, rfl⟩ :=
    hknown 2 (by decide) (by decide) 3 [3] [3] 3 rfl rfl (by decide) hretained
  have hthree : currentSignedPrekeyId bob db = some 3 := by decide
  cases hthree.symm.trans hcurrent
  exact ⟨by decide, by decide, hlatest, hearlier⟩

end Cmp.Relay
