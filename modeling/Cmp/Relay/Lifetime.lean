import Cmp.Relay.Publication
import Cmp.Relay.Reservations

/-! How long a one-time prekey can be named. A stored key can be fetched for thirty days, a
reservation holds for one, and the message that claims it may wait thirty days in the queue. -/

namespace Cmp.Relay

open Cmp.Crypto Cmp.Protocol Cmp.Lib

variable {K Sec C D : Type}

/-- `gc_old_messages` keeps a message for this long. -/
def QUEUE_RETENTION_SECS : Nat := GC_MAX_AGE_DAYS * 24 * 60 * 60

/-- The message starts a session with the one-time prekey. -/
def QueueRow.NamesPrekey (row : QueueRow C) (keyId : UInt32) : Prop :=
  (envelopePrekeyIds row.envelope.header).2 = some keyId

/-- A message that names the key of `userId` can wait in the queue until this time. -/
inductive Nameable (userId : UserId) (db : Db C D) (keyId : UInt32) : Nat → Prop
  | stored (row : PrekeyRow) (hrow : row ∈ db.prekeys) (hkey : row.key = (userId, keyId)) :
      Nameable userId db keyId
        (row.createdAt + ONE_TIME_PREKEY_PUBLIC_RETENTION_SECS +
          ONE_TIME_PREKEY_RESERVATION_SECS + QUEUE_RETENTION_SECS)
  | reserved (row : ReservationRow) (hrow : row ∈ db.prekeyReservations)
      (hkey : row.prekeyId = (userId, keyId)) :
      Nameable userId db keyId (row.expiresAt + QUEUE_RETENTION_SECS)
  | queued (row : QueueRow C) (hrow : row ∈ db.messageQueue) (hto : row.recipientId = userId)
      (hnames : row.NamesPrekey keyId) :
      Nameable userId db keyId (row.createdAt + QUEUE_RETENTION_SECS)

/-- The private retention is the sum of the three. -/
theorem retention_sum : ONE_TIME_PREKEY_PUBLIC_RETENTION_SECS + ONE_TIME_PREKEY_RESERVATION_SECS +
    QUEUE_RETENTION_SECS = ONE_TIME_PREKEY_PRIVATE_RETENTION_SECS := by
  decide

section Effects

variable [DecidableEq D] {digest : EncryptedEnvelope C → D} {db db' : Db C D} {t : Transaction C}
  {answer : Option Answer} {now : Nat}

/-- A message enters the queue with the reservation that it claims. -/
theorem Effect.queued_from (h : Effect digest db t answer db') (hat : t.At now)
    (hnames : t.NamesPrekeys) {row : QueueRow C} (hrow : row ∈ db'.messageQueue) :
    row ∈ db.messageQueue ∨ row.createdAt = now ∧ ∀ keyId, row.NamesPrekey keyId →
      ∃ reservation ∈ db.prekeyReservations,
        reservation.prekeyId = (row.recipientId, keyId) ∧ now ≤ reservation.expiresAt := by
  have hframe := h.queue_eq
  cases h with
  | failed => exact .inl hrow
  | enqueued request createdAt result db' h =>
    cases h with
    | inserted queue acceptances hbacked _ hqueue =>
      rcases (Table.mem_insert hqueue).mp hrow with hold | rfl
      · exact .inl hold
      · refine .inr ⟨hat.2, fun keyId hkey => ?_⟩
        have hone : request.oneTimePrekeyId = some keyId := (congrArg Prod.snd hnames).trans hkey
        obtain ⟨reservation, hreservation, hclaims⟩ := hbacked.reservation keyId hone
        obtain ⟨-, htarget, hid, htime⟩ := of_decide_eq_true hclaims
        exact ⟨reservation, hreservation, Prod.ext htarget hid, hat.1 ▸ htime⟩
    | _ => exact .inl hrow
  | confirmed => exact .inl hrow
  | acked | dropped | collected => exact .inl (Table.mem_of_mem_deleteWhere hrow)
  | _ => exact .inl ((hframe rfl).1 ▸ hrow)

/-- **Lifetimes nest.** No transaction puts off the time until which a key can be named; a
key that is published can be named for the private retention. -/
theorem Effect.nameable (h : Effect digest db t answer db') (hat : t.At now)
    (hnames : t.NamesPrekeys) {userId : UserId} {keyId : UInt32} {last : Nat}
    (hlast : Nameable userId db' keyId last) :
    (∃ last', last ≤ last' ∧ Nameable userId db keyId last') ∨
      last = now + ONE_TIME_PREKEY_PRIVATE_RETENTION_SECS ∧ ¬Marked db (userId, keyId) ∧
        ∃ batch, publishedBatch t answer = some (userId, batch) ∧ keyId ∈ batch.map Prod.fst := by
  cases hlast with
  | stored row hrow hkey =>
    obtain ⟨rfl, rfl⟩ := Prod.mk.inj hkey
    rcases h.prekey_from hrow with hold | ⟨batch, hbatch, hmem, hunmarked, hcreated⟩
    · exact .inl ⟨_, le_refl _, .stored row hold rfl⟩
    · refine .inr ⟨?_, hunmarked, batch, hbatch, List.mem_map_of_mem hmem⟩
      rw [hcreated now hat, ← retention_sum]
      omega
  | reserved row hrow hkey =>
    rcases h.reservation_from hrow with hold | ⟨prekey, hprekey, heq, htimes⟩
    · exact .inl ⟨_, le_refl _, .reserved row hold hkey⟩
    · obtain ⟨hfetched, hexpires⟩ := htimes now hat
      refine .inl ⟨_, ?_, .stored prekey hprekey (heq.trans hkey)⟩
      rw [hexpires]
      omega
  | queued row hrow hto hkey =>
    rcases h.queued_from hat hnames hrow with hold | ⟨hcreated, hclaims⟩
    · exact .inl ⟨_, le_refl _, .queued row hold hto hkey⟩
    · obtain ⟨reservation, hreservation, hid, htime⟩ := hclaims keyId hkey
      refine .inl ⟨_, ?_, .reserved reservation hreservation (hto ▸ hid)⟩
      rw [hcreated]
      exact Nat.add_le_add_right htime _

end Effects

/-! ## Handlers -/

/-- The readings of a handler at one time. -/
def RelayEnv.atTime (now choice : Nat) : RelayEnv := ⟨now, now, now, fun _ => now, now, choice⟩

theorem handleMessage_at {S : IdentitySuite K Sec C} {pageLen : InboundMessage C → Nat → Nat}
    {userId : UserId} {now choice : Nat} {db : Db C D} {message : ClientMessage C}
    {t : Transaction C} {respond : Option Answer → Option (ServerMessage C)}
    (h : handleMessage S pageLen userId (RelayEnv.atTime now choice) db message =
      .transact t respond) : t.At now := by
  have hserves := handleMessage_serves h
  cases t with
  | registerAtomic | gcOldMessages => exact hserves.elim
  | uploadPrekeys => exact ⟨hserves.1.2.1, congrFun hserves.1.2.2⟩
  | fetchForRequester => exact hserves.1.2
  | enqueue =>
    obtain ⟨recipientId, messageId, envelope, rfl, -, rfl⟩ := hserves
    exact ⟨rfl, rfl⟩
  | _ => trivial

end Cmp.Relay
