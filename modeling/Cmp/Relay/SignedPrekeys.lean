import Cmp.Relay.Handlers

/-! The signed prekeys of one user. With the keys accepted so far in a list, newest first,
the relay keeps the first two: a rotation with a newer key puts it in front, and one with a
key of the list changes nothing. -/

namespace Cmp.Relay

open Cmp.Crypto Cmp.Protocol Cmp.Lib

variable {C D : Type} {userId : UserId} {db db' : Db C D} {history rest : List SignedPrekeyRow}
  {row top : SignedPrekeyRow} {result : SignedPreKeyRotationResult}

/-- The rows of a user are those of the list. -/
def Db.Retains (db : Db C D) (userId : UserId) (rows : List SignedPrekeyRow) : Prop :=
  ∀ row, row ∈ db.signedPrekeys ∧ row.userId = userId ↔ row ∈ rows

/-- Accepted keys of a user, newest first. -/
structure SpkHistory (userId : UserId) (history : List SignedPrekeyRow) : Prop where
  owner : ∀ row ∈ history, row.userId = userId
  sorted : history.Pairwise fun newer older => older.keyId < newer.keyId

theorem SpkHistory.nodup (h : SpkHistory userId history) :
    (history.map SignedPrekeyRow.keyId).Nodup :=
  List.pairwise_map.mpr (h.sorted.imp ne_of_gt)

theorem SpkHistory.eq_of_keyId (h : SpkHistory userId history) {row' : SignedPrekeyRow}
    (hrow : row ∈ history) (hrow' : row' ∈ history) (hid : row.keyId = row'.keyId) : row = row' :=
  List.inj_on_of_nodup_map h.nodup hrow hrow' hid

theorem SpkHistory.le_top (h : SpkHistory userId (top :: rest)) (hrow : row ∈ top :: rest) :
    row.keyId ≤ top.keyId := by
  rcases List.mem_cons.mp hrow with rfl | hrow
  · exact le_refl _
  · exact le_of_lt ((List.pairwise_cons.mp h.sorted).1 row hrow)

theorem top_mem_take : top ∈ (top :: rest).take 2 := List.mem_cons_self

section Retained

variable (h : SpkHistory userId (top :: rest)) (hret : db.Retains userId ((top :: rest).take 2))

include h hret

theorem Db.Retains.current : currentSignedPrekeyId userId db = some top.keyId := by
  unfold currentSignedPrekeyId
  rw [List.max?_eq_some_iff]
  have hmem : ∀ row, row ∈ db.signedPrekeys.rows.filter (fun row => decide (row.userId = userId)) ↔
      row ∈ (top :: rest).take 2 := by
    intro row
    rw [List.mem_filter, decide_eq_true_eq]
    exact hret row
  constructor
  · exact List.mem_map_of_mem ((hmem top).mpr top_mem_take)
  · intro id hid
    obtain ⟨row, hrow, rfl⟩ := List.mem_map.mp hid
    exact h.le_top (List.mem_of_mem_take ((hmem row).mp hrow))

/-- A key of the list changes nothing. -/
theorem Rotated.of_mem (hrot : Rotated userId row.keyId row.publicKey row.signature db result db')
    (hrow : row ∈ top :: rest) : db' = db := by
  cases hrot with
  | stored currentId hcurrent hlt =>
    cases (hret.current h).symm.trans hcurrent
    exact absurd hlt (not_lt.mpr (h.le_top hrow))
  | _ => rfl

/-- The newest key is accepted again. -/
theorem Rotated.of_top (hrot : Rotated userId top.keyId top.publicKey top.signature db result db') :
    result = .accepted top.keyId := by
  have htop : top ∈ db.signedPrekeys ∧ top.userId = userId := (hret top).mpr top_mem_take
  have hcurrent := hret.current h
  cases hrot with
  | current => rfl
  | previous row _ _ currentId hcurrent' hne =>
    cases hcurrent.symm.trans hcurrent'
    exact absurd rfl hne
  | conflict row hrow huser hid hne =>
    have heq : row = top :=
      db.signedPrekeys.eq_of_key_eq hrow htop.1 (Prod.ext (huser.trans htop.2.symm) hid)
    subst heq
    exact absurd ⟨rfl, rfl⟩ hne
  | outdated hnew => exact absurd rfl (hnew top htop.1 htop.2)
  | stored currentId hcurrent' hlt =>
    cases hcurrent.symm.trans hcurrent'
    exact absurd hlt (lt_irrefl _)

/-- The two newest rows are left when a newer key is inserted. -/
theorem Db.Retains.insert {inserted : Table SignedPrekeyRow.key}
    (hnew : SpkHistory userId (row :: top :: rest))
    (hinserted : db.signedPrekeys.insert row = some inserted) :
    Db.Retains
      { db with signedPrekeys := inserted.deleteWhere (isSuperseded userId inserted) } userId
      ((row :: top :: rest).take 2) := by
  have hlt : ∀ old ∈ top :: rest, old.keyId < row.keyId := (List.pairwise_cons.mp hnew.sorted).1
  have hmem : ∀ other, other ∈ inserted ∧ other.userId = userId ↔
      other = row ∨ other ∈ (top :: rest).take 2 := by
    intro other
    rw [Table.mem_insert hinserted, ← hret other]
    constructor
    · rintro ⟨hother | rfl, huser⟩
      · exact .inr ⟨hother, huser⟩
      · exact .inl rfl
    · rintro (rfl | ⟨hother, huser⟩)
      · exact ⟨.inr rfl, hnew.owner _ List.mem_cons_self⟩
      · exact ⟨.inl hother, huser⟩
  have hrow := (hmem row).mpr (.inl rfl)
  have htop := (hmem top).mpr (.inr top_mem_take)
  intro other
  rw [Table.mem_deleteWhere]
  constructor
  · rintro ⟨⟨hother, hkept⟩, huser⟩
    rcases (hmem other).mp ⟨hother, huser⟩ with rfl | hold
    · exact List.mem_cons_self
    · -- the second of the list has the two newer ones above it
      rcases List.mem_cons.mp hold with rfl | hsecond
      · exact List.mem_cons_of_mem _ List.mem_cons_self
      · have hrest : other ∈ rest := List.mem_of_mem_take hsecond
        have htwo : 2 ≤ inserted.count fun newer =>
            decide (newer.userId = userId ∧ other.keyId < newer.keyId) := by
          refine Table.two_le_count hrow.1 htop.1 ?_ ?_ ?_
          · exact decide_eq_true ⟨hrow.2, hlt other (List.mem_cons_of_mem _ hrest)⟩
          · exact decide_eq_true ⟨htop.2, (List.pairwise_cons.mp h.sorted).1 other hrest⟩
          · rintro rfl
            exact lt_irrefl _ (hlt row List.mem_cons_self)
        exact absurd ⟨huser, htwo⟩ (of_decide_eq_false hkept)
  · intro hother
    have hother' : other = row ∨ other = top := by simpa using hother
    have hin : other ∈ inserted ∧ other.userId = userId := by
      rcases hother' with rfl | rfl
      · exact hrow
      · exact htop
    refine ⟨⟨hin.1, decide_eq_false ?_⟩, hin.2⟩
    rintro ⟨-, htwo⟩
    -- only the inserted row can be newer than one of the two
    have hone : (inserted.count fun newer =>
        decide (newer.userId = userId ∧ other.keyId < newer.keyId)) ≤ 1 := by
      refine Table.count_le_one (x := row) fun newer hnewer hdec => ?_
      obtain ⟨huser, hgt⟩ := of_decide_eq_true hdec
      refine ((hmem newer).mp ⟨hnewer, huser⟩).resolve_right fun hold => ?_
      have hle := h.le_top (List.mem_of_mem_take hold)
      have htople : top.keyId ≤ other.keyId := by
        rcases hother' with rfl | rfl
        · exact le_of_lt (hlt top List.mem_cons_self)
        · exact le_refl _
      exact absurd hgt (not_lt.mpr (le_trans hle htople))
    omega

/-- A newer key is accepted and put in front. -/
theorem Rotated.of_newer (hnew : SpkHistory userId (row :: top :: rest))
    (hrot : Rotated userId row.keyId row.publicKey row.signature db result db') :
    result = .accepted row.keyId ∧ db'.Retains userId ((row :: top :: rest).take 2) := by
  have hlt : ∀ old ∈ top :: rest, old.keyId < row.keyId := (List.pairwise_cons.mp hnew.sorted).1
  have hnone : ∀ old ∈ db.signedPrekeys, old.userId = userId → old.keyId ≠ row.keyId := by
    intro old hold huser
    exact ne_of_lt (hlt old (List.mem_of_mem_take ((hret old).mp ⟨hold, huser⟩)))
  have huser : row.userId = userId := hnew.owner row List.mem_cons_self
  cases hrot with
  | current row' hrow' heq | previous row' hrow' heq =>
    exact absurd (heq ▸ rfl) (hnone row' hrow' (heq ▸ rfl))
  | conflict row' hrow' huser' hid => exact absurd hid (hnone row' hrow' huser')
  | outdated _ currentId hcurrent hle =>
    cases (hret.current h).symm.trans hcurrent
    exact absurd (hlt top List.mem_cons_self) (not_lt.mpr hle)
  | stored _ _ _ inserted hinserted =>
    have heq : (⟨userId, row.keyId, row.publicKey, row.signature⟩ : SignedPrekeyRow) = row := by
      rw [← huser]
    rw [heq] at hinserted
    exact ⟨rfl, hret.insert h hnew hinserted⟩

end Retained

/-! ## What the log says -/

/-- The user whose signed prekeys a transaction may change. -/
def Transaction.spkOwner? : Transaction C → Option UserId
  | .registerAtomic registration _ => some registration.userId
  | .rotateSignedPrekey userId .. => some userId
  | _ => none

/-- The signed prekey that a rotation has got accepted. -/
def acceptedSpk (t : Transaction C) (answer : Option Answer) : Option SignedPrekeyRow :=
  match t, answer with
  | .rotateSignedPrekey userId keyId publicKey signature, some (.rotated (.accepted _)) =>
    some ⟨userId, keyId, publicKey, signature⟩
  | _, _ => none

section

variable [DecidableEq D] {digest : EncryptedEnvelope C → D}

theorem Effect.retains_of_others {t : Transaction C} {answer : Option Answer}
    (heffect : Effect digest db t answer db') (hother : t.spkOwner? ≠ some userId)
    {rows : List SignedPrekeyRow} (hret : db.Retains userId rows) : db'.Retains userId rows := by
  intro row
  rw [← hret row]
  refine and_congr_left fun huser => ?_
  cases heffect with
  | registered registration createdAt result db' hreg =>
    cases hreg with
    | known => exact Iff.rfl
    | stored users inventory =>
      rw [Table.mem_insertOrReplace]
      have hne : row.userId ≠ registration.userId := fun heq => hother (congrArg some (heq ▸ huser))
      constructor
      · rintro (rfl | ⟨hrow, -⟩)
        · exact absurd rfl hne
        · exact hrow
      · exact fun hrow => .inr ⟨hrow, fun hkey => hne (congrArg Prod.fst hkey)⟩
  | rotated owner keyId publicKey signature result db' hrot =>
    have hne : row.userId ≠ owner := fun heq => hother (congrArg some (heq ▸ huser))
    cases hrot with
    | stored currentId _ _ inserted hinserted =>
      rw [Table.mem_deleteWhere, Table.mem_insert hinserted]
      constructor
      · rintro ⟨hrow | rfl, -⟩
        · exact hrow
        · exact absurd rfl hne
      · exact fun hrow => ⟨.inl hrow, decide_eq_false fun hsup => hne hsup.1⟩
    | _ => exact Iff.rfl
  | uploaded _ _ _ _ _ _ _ h | fetched _ _ _ _ _ _ _ h | enqueued _ _ _ _ h =>
    cases h <;> exact Iff.rfl
  | receiptQueued _ _ _ _ _ _ _ h =>
    rcases enqueueReceipt_cases h with ⟨-, rfl⟩ | ⟨-, queue, -, rfl⟩ <;> exact Iff.rfl
  | _ => exact Iff.rfl

/-- The signed prekeys of a user that the relay has accepted: `first`, and what the log
says. -/
def acceptedSpks (digest : EncryptedEnvelope C → D) (first : SignedPrekeyRow)
    (log : List (Entry C D)) : List SignedPrekeyRow :=
  first :: (log.filterMap fun e => acceptedSpk e.transaction (e.answer? digest)).filter
    fun row => decide (row.userId = first.userId)

theorem mem_acceptedSpks_append {first : SignedPrekeyRow} {log entries : List (Entry C D)} :
    row ∈ acceptedSpks digest first (log ++ entries) ↔
      row ∈ acceptedSpks digest first log ∨
        row.userId = first.userId ∧
          ∃ e ∈ entries, acceptedSpk e.transaction (e.answer? digest) = some row := by
  simp only [acceptedSpks, List.filterMap_append, List.filter_append, List.mem_cons,
    List.mem_append, List.mem_filter, List.mem_filterMap, decide_eq_true_eq]
  rw [or_assoc, and_comm (b := row.userId = first.userId) (a := ∃ e ∈ entries, _)]

/-- Entries that get no key of the user accepted. -/
theorem mem_acceptedSpks_quiet {first : SignedPrekeyRow} {log entries : List (Entry C D)}
    (hquiet : ∀ e ∈ entries, ∀ row, acceptedSpk e.transaction (e.answer? digest) = some row →
      row.userId ≠ first.userId) :
    row ∈ acceptedSpks digest first (log ++ entries) ↔ row ∈ acceptedSpks digest first log := by
  rw [mem_acceptedSpks_append]
  refine or_iff_left ?_
  rintro ⟨huser, e, he, hrow⟩
  exact hquiet e he row hrow huser

end

/-! ## Handling a message -/

section

variable [DecidableEq D] {K Sec : Type} (S : IdentitySuite K Sec C)
  (pageLen : InboundMessage C → Nat → Nat) (digest : EncryptedEnvelope C → D) (userId)

/-- Handling a rotation without any effect on signed prekeys, as far as the reply and the
log tell. -/
structure Handling.SpkQuiet (digest : EncryptedEnvelope C → D) (fails : Bool) (db : Db C D)
    (x : Handling C) : Prop where
  log : ∀ e ∈ x.entries fails db, acceptedSpk e.transaction (e.answer? digest) = none
  reply : ∀ id accepted previously current,
    (x.run digest fails db).1 ≠ some (.signedPreKeyRotated id accepted previously current)

/-- A rotation is refused, or ends as `rotate_signed_prekey` does. -/
theorem serve_rotation (env : RelayEnv) (fails : Bool) (rotationId : MessageId) (keyId : UInt32)
    (publicKey signature : Bytes) :
    let x := handleMessage S pageLen userId env db
      (.rotateSignedPreKey rotationId keyId (b64Encode publicKey) (b64Encode signature))
    (x.SpkQuiet digest fails db ∧ (x.run digest fails db).2 = db) ∨
    ∃ result, Rotated userId keyId publicKey signature db result (x.run digest fails db).2 ∧
      (x.run digest fails db).1 = rotationReply rotationId (some (.rotated result)) ∧
      x.entries fails db = [⟨db, .rotateSignedPrekey userId keyId publicKey signature⟩] ∧
      Transaction.answer? digest (.rotateSignedPrekey userId keyId publicKey signature) db =
        some (.rotated result) := by
  intro x
  rcases handleRotation_cases S pageLen userId env db rotationId keyId (b64Encode publicKey)
    (b64Encode signature) with ⟨code, text, h⟩ | ⟨publicBytes, signatureBytes, hp, hs, h⟩
  · have hx : x = .reply (some (.error code text)) := h
    rw [hx]
    exact .inl ⟨⟨fun e he => absurd he List.not_mem_nil, nofun⟩, rfl⟩
  · cases hp
    cases hs
    have hx : x = .transact (.rotateSignedPrekey userId keyId publicKey signature)
      (rotationReply rotationId) := h
    rw [hx]
    cases fails with
    | true => exact .inl ⟨⟨fun e he => absurd he List.not_mem_nil, nofun⟩, rfl⟩
    | false =>
      have heffect :=
        Transaction.effect digest (.rotateSignedPrekey userId keyId publicKey signature) db
      simp only [Handling.run, Handling.entries, Bool.false_eq_true, if_false]
      generalize hanswer : Transaction.answer? digest
        (.rotateSignedPrekey userId keyId publicKey signature) db = answer at heffect ⊢
      generalize Transaction.after digest
        (.rotateSignedPrekey userId keyId publicKey signature) db = db' at heffect ⊢
      cases heffect with
      | failed =>
        refine .inl ⟨⟨fun e he => ?_, fun _ _ _ _ hreply => ?_⟩, rfl⟩
        · cases List.mem_singleton.mp he
          unfold Entry.answer?
          rw [hanswer]
          rfl
        · simp only [Handling.run, Bool.false_eq_true, if_false, hanswer] at hreply
          cases hreply
      | rotated _ _ _ _ result _ hrot => exact .inr ⟨result, hrot, rfl, trivial, rfl⟩

theorem acceptedSpk_of_owner {t : Transaction C} {answer : Option Answer}
    (h : acceptedSpk t answer = some row) : t.spkOwner? = some row.userId := by
  unfold acceptedSpk at h
  split at h
  · cases h
    rfl
  · cases h

/-- Any other message leaves the signed prekeys alone. -/
theorem serve_other {message : ClientMessage C} (env : RelayEnv) (fails : Bool)
    (hother : ∀ id keyId publicKey signature,
      message ≠ .rotateSignedPreKey id keyId publicKey signature)
    {rows : List SignedPrekeyRow} {me : UserId} (hret : db.Retains me rows) :
    let x := handleMessage S pageLen userId env db message
    x.SpkQuiet digest fails db ∧ ((x.run digest fails db).2).Retains me rows := by
  intro x
  have hreply : ∀ id accepted previously current,
      (x.run digest fails db).1 ≠ some (.signedPreKeyRotated id accepted previously current) := by
    intro id accepted previously current hreply
    obtain ⟨keyId, publicKey, signature, hmessage⟩ :=
      (handleMessage_answers (S := S)).run hreply
    exact hother id keyId publicKey signature hmessage
  cases hx : handleMessage S pageLen userId env db message with
  | reply reply =>
    refine ⟨⟨fun e he => ?_, hreply⟩, ?_⟩
    · have hnil : x.entries fails db = [] := by rw [show x = _ from hx]; rfl
      rw [hnil] at he
      exact absurd he List.not_mem_nil
    · rw [show x = _ from hx]
      exact hret
  | transact t respond =>
    have howner : t.spkOwner? = none := by
      have hserves := handleMessage_serves hx
      cases t with
      | registerAtomic => exact hserves.elim
      | rotateSignedPrekey =>
        obtain ⟨-, id, publicKey, signature, hmessage, -⟩ := hserves
        exact absurd hmessage (hother _ _ _ _)
      | _ => rfl
    refine ⟨⟨fun e he => ?_, hreply⟩, ?_⟩
    · rw [show x = _ from hx] at he
      cases fails with
      | true => exact absurd he List.not_mem_nil
      | false =>
        cases List.mem_singleton.mp he
        by_contra hne
        obtain ⟨row, hrow⟩ := Option.ne_none_iff_exists'.mp hne
        cases howner.symm.trans (acceptedSpk_of_owner hrow)
    · rw [show x = _ from hx]
      cases fails with
      | true => exact hret
      | false => exact (t.effect digest db).retains_of_others (by rw [howner]; exact nofun) hret

end

end Cmp.Relay
