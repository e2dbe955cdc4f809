import Cmp.System.RejectedUpload

/-! One-time prekeys under one common clock. The client drops a private key that is more
than 61 days old, counted from the moment it was made; the relay counts its thirty days from
the moment it took the upload. -/

namespace Cmp.System

open Cmp.Crypto Cmp.Protocol Cmp.Lib Cmp.Lib.Action Cmp.Client Cmp.Relay

variable {K Sec C D : Type}

/-! ## The client -/

def Registers : Op Sec C → Prop
  | .persistRegistrationKeys .. => True
  | _ => False

/-- All clock readings by which an operation dates and drops prekeys are `now`. -/
def OpAt (now : Nat) (op : Op Sec C) : Prop :=
  ∀ env, op.uploadEnv? = some env → env.cutoffNow = now ∧ env.createdAt = now

/-- A key is dated when it is made, and keeps that date; its id is a new one. -/
structure Dated (op : Op Sec C) (m m' : Manager K Sec C) : Prop where
  next : m.nextOneTimePrekeyId ≤ m'.nextOneTimePrekeyId
  created : ∀ keyId createdAt, m'.oneTimePrekeyCreatedAt.lookup keyId = some createdAt →
    m.oneTimePrekeyCreatedAt.lookup keyId = some createdAt ∨
      ¬saturatingSucc keyId ≤ m.nextOneTimePrekeyId ∧
        ∃ env, op.uploadEnv? = some env ∧ env.createdAt = createdAt

variable {m : Manager K Sec C}

theorem lookup_fileGenerated {S : IdentitySuite K Sec C} {env : UploadEnv Sec}
    {generated : List (UInt32 × OneTimePreKey Sec)} {nextId : UInt32}
    (hgen : Generated S m env generated nextId) {keyId : UInt32}
    (hmem : keyId ∈ generated.map Prod.fst) :
    (fileGenerated generated nextId env m).oneTimePrekeyCreatedAt.lookup keyId =
      some env.createdAt := by
  obtain ⟨entry, hentry, rfl⟩ := List.mem_map.mp hmem
  have hnodup : ((generated.map fun entry => (entry.1, env.createdAt)).map Prod.fst).Nodup := by
    rw [List.map_map]
    exact hgen.nodup
  exact HMap.lookup_insertAll_of_mem _ hnodup (List.mem_map_of_mem hentry) _

theorem Dated.filed {S : IdentitySuite K Sec C} {op : Op Sec C} {env : UploadEnv Sec}
    {generated : List (UInt32 × OneTimePreKey Sec)} {nextId : UInt32}
    (hgen : Generated S m env generated nextId) (henv : op.uploadEnv? = some env) :
    Dated op m (fileGenerated generated nextId env m) := by
  refine ⟨?_, fun keyId createdAt hlookup => ?_⟩
  · have hnext := checkedAdd_eq_some hgen.next
    exact UInt32.le_iff_toNat_le.mpr (show _ ≤ nextId.toNat by omega)
  by_cases hmem : keyId ∈ generated.map Prod.fst
  · refine .inr ⟨fun hbelow => hgen.notMem hbelow hmem, env, henv, ?_⟩
    exact Option.some.inj ((lookup_fileGenerated hgen hmem).symm.trans hlookup)
  · have hnot : keyId ∉ (generated.map fun entry => (entry.1, env.createdAt)).map Prod.fst := by
      rw [List.map_map]
      exact hmem
    unfold fileGenerated at hlookup
    dsimp only at hlookup
    rw [HMap.lookup_insertAll_of_notMem _ _ hnot] at hlookup
    exact .inl (HMap.lookup_filter_eq_some.mp hlookup).1

theorem Dated.outcome {S : IdentitySuite K Sec C} {m' : Manager K Sec C} {op : Op Sec C}
    {sent : List (UserId × EncryptedEnvelope C)} (h : Outcome S m op sent m') (hop : ¬Registers op)
    : Dated op m m' := by
  cases h with
  | registered => exact absurd trivial hop
  | decrypted peerId messageId envelope env plaintext session opkId =>
    unfold Manager.marked Manager.opened
    rw [takeOneTimePrekey_eq]
    refine ⟨le_refl _, fun keyId createdAt hlookup => .inl ?_⟩
    cases opkId with
    | none => exact hlookup
    | some id =>
      simp only [takenCreated, Option.elim_some] at hlookup
      split at hlookup
      · rw [HMap.lookup_erase_eq] at hlookup
        split at hlookup
        · cases hlookup
        · exact hlookup
      · exact hlookup
  | replenished _ env generated nextId hgen _ henv =>
    obtain ⟨hnext, hcreated⟩ := Dated.filed hgen henv
    exact ⟨hnext, hcreated⟩
  | uploadReplaced _ _ _ env generated nextId _ hgen _ henv =>
    obtain ⟨hnext, hcreated⟩ := Dated.filed hgen henv
    exact ⟨hnext, hcreated⟩
  | uploadRejected _ _ _ ids =>
    refine ⟨le_refl _, fun keyId createdAt hlookup => .inl ?_⟩
    unfold dropRejected Manager.saved Manager.unfiled at hlookup
    dsimp only at hlookup
    rw [HMap.lookup_removeAll] at hlookup
    split at hlookup
    · cases hlookup
    · exact hlookup
  | _ => exact ⟨le_refl _, fun keyId createdAt hlookup => .inl hlookup⟩

/-- A stale key has a date from before the private retention, and an id that has been used. -/
theorem isStale_iff {now : Nat} {keyId : UInt32} :
    isStale m now keyId = true ↔ ∃ createdAt,
      m.oneTimePrekeyCreatedAt.lookup keyId = some createdAt ∧
        createdAt + ONE_TIME_PREKEY_PRIVATE_RETENTION_SECS < now := by
  unfold isStale
  rw [Option.any_eq_true]
  refine exists_congr fun createdAt => and_congr_right fun _ => ?_
  rw [decide_eq_true_eq]
  exact Nat.lt_sub_iff_add_lt

/-! ## Runs under one clock -/

section Steps

variable (S : IdentitySuite K Sec C) (texts : List MessageId → Bytes)
  (pageLen : InboundMessage C → Nat → Nat) (me : UserId) [DecidableEq D]
  (digest : EncryptedEnvelope C → D)

/-- Runs of a link in which every step reads the same clock, which never goes back. -/
inductive Clocked (start : Link K Sec C D → Nat → Prop)
    (admits : Link K Sec C D → Op Sec C → Prop)
    (reaches : Link K Sec C D → Nat → ClientMessage C → Prop) : Link K Sec C D → Nat → Prop
  | start {s : Link K Sec C D} {now : Nat} (hstart : start s now) :
      Clocked start admits reaches s now
  | tick {s : Link K Sec C D} {now later : Nat} (run : Clocked start admits reaches s now)
      (hle : now ≤ later) : Clocked start admits reaches s later
  | perform {s : Link K Sec C D} {now : Nat} (run : Clocked start admits reaches s now)
      (op : Op Sec C) (hadmits : admits s op) (hat : OpAt now op) :
      Clocked start admits reaches (s.perform S texts op) now
  | resend {s : Link K Sec C D} {now : Nat} (run : Clocked start admits reaches s now) :
      Clocked start admits reaches s.resend now
  | serve {s : Link K Sec C D} {now : Nat} (run : Clocked start admits reaches s now)
      (message : ClientMessage C) (hmessage : message ∈ s.requests)
      (hreaches : reaches s now message) (choice : Nat) (fails : Bool) :
      Clocked start admits reaches
        (s.serve S pageLen me digest message (RelayEnv.atTime now choice) fails) now
  | restart {s : Link K Sec C D} {now : Nat} (run : Clocked start admits reaches s now)
      (m : Manager K Sec C)
      (hload : loadOrGenerate s.manager.identity s.manager.store now now now false = .ok m) :
      Clocked start admits reaches { s with manager := m } now
  | transact {s : Link K Sec C D} {now : Nat} (run : Clocked start admits reaches s now)
      (t : Transaction C) (hothers : OfOthers me t) (hnames : t.NamesPrekeys) (hat : t.At now) :
      Clocked start admits reaches (s.transact me digest t now) now

end Steps

/-- A registered client: the relay has its keys, and had them by the date that the client
has given them. No message for the client waits. -/
structure Link.Settled (me : UserId) (s : Link K Sec C D) (now : Nat) : Prop where
  durable : ∃ prunedAt, s.manager.Durable prunedAt
  calls : s.calls = []
  stored : ∀ row ∈ s.db.prekeys, row.userId = me → row.createdAt ≤ now ∧
    ∀ createdAt, s.manager.oneTimePrekeyCreatedAt.lookup row.keyId = some createdAt →
      row.createdAt ≤ createdAt
  reserved : ∀ row ∈ s.db.prekeyReservations, row.targetId ≠ me
  queued : ∀ row ∈ s.db.messageQueue, row.recipientId ≠ me

/-- An upload that is new to the relay reaches it within `delay` seconds of the making of
its keys. -/
def Within (delay : Nat) (me : UserId) (s : Link K Sec C D) (now : Nat)
    (message : ClientMessage C) : Prop :=
  ∀ uploadId prekeys, message = .uploadPreKeys uploadId prekeys → ∀ prekey ∈ prekeys,
    Marked s.db (me, prekey.keyId) ∨ ∃ createdAt,
      s.manager.oneTimePrekeyCreatedAt.lookup prekey.keyId = some createdAt ∧
        now ≤ createdAt + delay

/-- A key that can still be named is not older than the private retention, and no
replenishment has found it so. -/
structure Covered (me : UserId) (s : Link K Sec C D) (now : Nat) : Prop where
  durable : ∃ prunedAt, s.manager.Durable prunedAt
  bound : ∀ keyId last, Nameable me s.db keyId last →
    last ≤ now + ONE_TIME_PREKEY_PRIVATE_RETENTION_SECS
  young : ∀ keyId last, Nameable me s.db keyId last → ∀ createdAt,
    s.manager.oneTimePrekeyCreatedAt.lookup keyId = some createdAt →
      last ≤ createdAt + ONE_TIME_PREKEY_PRIVATE_RETENTION_SECS
  outlived : ∀ call ∈ s.calls, ∀ env, call.op.uploadEnv? = some env → ∀ keyId,
    isStale call.before env.cutoffNow keyId = true → ∀ last, Nameable me s.db keyId last →
      last < env.cutoffNow
  old : ∀ call ∈ s.calls, ∀ env, call.op.uploadEnv? = some env → ∀ keyId,
    isStale call.before env.cutoffNow keyId = true → env.cutoffNow ≤ now ∧
      saturatingSucc keyId ≤ s.manager.nextOneTimePrekeyId ∧
        ∀ createdAt, s.manager.oneTimePrekeyCreatedAt.lookup keyId = some createdAt →
          createdAt + ONE_TIME_PREKEY_PRIVATE_RETENTION_SECS < env.cutoffNow

section Invariant

variable {S : IdentitySuite K Sec C} {me : UserId} {s : Link K Sec C D} {now : Nat}

theorem Link.Settled.nameable (h : s.Settled me now) {keyId : UInt32} {last : Nat}
    (hlast : Nameable me s.db keyId last) :
    ∃ row ∈ s.db.prekeys, row.userId = me ∧ row.keyId = keyId ∧
      last = row.createdAt + ONE_TIME_PREKEY_PRIVATE_RETENTION_SECS := by
  cases hlast with
  | stored row hrow hkey =>
    obtain ⟨huser, hid⟩ := Prod.mk.inj hkey
    refine ⟨row, hrow, huser, hid, ?_⟩
    rw [← retention_sum]
    omega
  | reserved row hrow hkey => exact absurd (congrArg Prod.fst hkey) (h.reserved row hrow)
  | queued row hrow hto => exact absurd hto (h.queued row hrow)

theorem Covered.start (h : s.Settled me now) : Covered me s now where
  durable := h.durable
  bound keyId last hlast := by
    obtain ⟨row, hrow, huser, -, rfl⟩ := h.nameable hlast
    exact Nat.add_le_add_right (h.stored row hrow huser).1 _
  young keyId last hlast createdAt hcreated := by
    obtain ⟨row, hrow, huser, rfl, rfl⟩ := h.nameable hlast
    exact Nat.add_le_add_right ((h.stored row hrow huser).2 createdAt hcreated) _
  outlived call hcall := by
    rw [h.calls] at hcall
    cases hcall
  old call hcall := by
    rw [h.calls] at hcall
    cases hcall

theorem Covered.tick (h : Covered me s now) {later : Nat} (hle : now ≤ later) :
    Covered me s later :=
  { h with
    bound := fun keyId last hlast =>
      le_trans (h.bound keyId last hlast) (Nat.add_le_add_right hle _)
    old := fun call hcall env henv keyId hstale => by
      obtain ⟨htime, hold⟩ := h.old call hcall env henv keyId hstale
      exact ⟨le_trans htime hle, hold⟩ }

theorem Covered.perform (h : Covered me s now) (texts : List MessageId → Bytes) {op : Op Sec C}
    (hop : ¬Registers op) (hat : OpAt now op) : Covered me (s.perform S texts op) now := by
  obtain ⟨prunedAt, hdurable⟩ := h.durable
  have houtcome := perform_outcome (S := S) texts hdurable.sound op
  have hdated : Dated op s.manager (s.perform S texts op).manager := .outcome houtcome hop
  refine ⟨⟨_, hdurable.outcome houtcome⟩, h.bound, ?_, ?_, ?_⟩
  · intro keyId last hlast createdAt hcreated
    rcases hdated.created keyId createdAt hcreated with hold | ⟨-, env, henv, rfl⟩
    · exact h.young keyId last hlast createdAt hold
    · rw [(hat env henv).2]
      exact h.bound keyId last hlast
  · intro call hcall env henv keyId hstale last hlast
    rcases List.mem_append.mp hcall with hcall | hcall
    · exact h.outlived call hcall env henv keyId hstale last hlast
    · cases List.mem_singleton.mp hcall
      obtain ⟨createdAt, hcreated, hlt⟩ := isStale_iff.mp hstale
      exact lt_of_le_of_lt (h.young keyId last hlast createdAt hcreated) hlt
  · intro call hcall env henv keyId hstale
    -- a new key has a new id, so that the date of an old one is the date it had
    have hdate : saturatingSucc keyId ≤ s.manager.nextOneTimePrekeyId → ∀ createdAt,
        (s.perform S texts op).manager.oneTimePrekeyCreatedAt.lookup keyId = some createdAt →
        s.manager.oneTimePrekeyCreatedAt.lookup keyId = some createdAt :=
      fun hbelow createdAt hcreated =>
        (hdated.created keyId createdAt hcreated).resolve_right fun hnew => hnew.1 hbelow
    rcases List.mem_append.mp hcall with hcall | hcall
    · obtain ⟨htime, hbelow, hold⟩ := h.old call hcall env henv keyId hstale
      exact ⟨htime, le_trans hbelow hdated.next,
        fun createdAt hcreated => hold createdAt (hdate hbelow createdAt hcreated)⟩
    · cases List.mem_singleton.mp hcall
      obtain ⟨createdAt, hcreated, hlt⟩ := isStale_iff.mp hstale
      have hbelow := hdurable.sound.opkBelow keyId
        ((hdurable.sound.created keyId).mp (Finmap.mem_of_lookup_eq_some hcreated))
      refine ⟨le_of_eq (hat env henv).1, le_trans hbelow hdated.next,
        fun createdAt' hcreated' => ?_⟩
      cases hcreated.symm.trans (hdate hbelow createdAt' hcreated')
      exact hlt

theorem Covered.restart (h : Covered me s now)
    (hload : loadOrGenerate s.manager.identity s.manager.store now now now false = .ok m) :
    Covered me { s with manager := m } now := by
  obtain ⟨prunedAt, hdurable⟩ := h.durable
  rw [hdurable.load] at hload
  cases hload
  exact ⟨⟨_, hdurable.reloaded now now⟩, h.bound, h.young, h.outlived, h.old⟩

/-- A step of the relay: a key gains time only by being published in the second in which it
was made. -/
theorem Covered.relay (h : Covered me s now) {db : Db C D} {log : List (Entry C D)}
    {replies : List (ServerMessage C)} {notices : List UInt32}
    (hfrom : ∀ keyId last, Nameable me db keyId last →
      (∃ last', last ≤ last' ∧ Nameable me s.db keyId last') ∨
        last = now + ONE_TIME_PREKEY_PRIVATE_RETENTION_SECS ∧ ∃ createdAt,
          s.manager.oneTimePrekeyCreatedAt.lookup keyId = some createdAt ∧ now ≤ createdAt) :
    Covered me { s with replies := replies, notices := notices, db := db, log := log } now where
  durable := h.durable
  bound keyId last hlast := by
    rcases hfrom keyId last hlast with ⟨last', hle, hlast'⟩ | ⟨rfl, -⟩
    · exact le_trans hle (h.bound keyId last' hlast')
    · exact le_refl _
  young keyId last hlast createdAt hcreated := by
    rcases hfrom keyId last hlast with ⟨last', hle, hlast'⟩ | ⟨rfl, date, hdate, hnow⟩
    · exact le_trans hle (h.young keyId last' hlast' createdAt hcreated)
    · cases hdate.symm.trans hcreated
      exact Nat.add_le_add_right hnow _
  outlived call hcall env henv keyId hstale last hlast := by
    rcases hfrom keyId last hlast with ⟨last', hle, hlast'⟩ | ⟨-, date, hdate, hnow⟩
    · exact lt_of_le_of_lt hle (h.outlived call hcall env henv keyId hstale last' hlast')
    · obtain ⟨htime, -, hold⟩ := h.old call hcall env henv keyId hstale
      have hlt := hold date hdate
      omega
  old := h.old

variable [DecidableEq D] {digest : EncryptedEnvelope C → D}

theorem Covered.serve (h : Covered me s now) (pageLen : InboundMessage C → Nat → Nat)
    {message : ClientMessage C} (hprompt : Within 0 me s now message) (choice : Nat)
    (fails : Bool) :
    Covered me (s.serve S pageLen me digest message (RelayEnv.atTime now choice) fails) now := by
  refine h.relay fun keyId last hlast => ?_
  cases hx : handleMessage S pageLen me (RelayEnv.atTime now choice) s.db message with
  | reply reply =>
    rw [hx] at hlast
    exact .inl ⟨last, le_refl _, hlast⟩
  | transact t respond =>
    rw [hx] at hlast
    cases fails with
    | true => exact .inl ⟨last, le_refl _, hlast⟩
    | false =>
      have hrelayed : Relayed S pageLen s.db t := .message _ _ _ t respond hx
      refine ((t.effect digest s.db).nameable (handleMessage_at hx) hrelayed.namesPrekeys
        hlast).imp_right ?_
      rintro ⟨rfl, hunmarked, batch, hbatch, hmem⟩
      obtain ⟨uploadId, prekeys, rfl, hids⟩ := (handleMessage_serves hx).published hbatch
      obtain ⟨prekey, hprekey, rfl⟩ := List.mem_map.mp (hids ▸ hmem)
      exact ⟨rfl, (hprompt uploadId prekeys rfl prekey hprekey).resolve_left hunmarked⟩

theorem Covered.transact (h : Covered me s now) {t : Transaction C} (hothers : OfOthers me t)
    (hnames : t.NamesPrekeys) (hat : t.At now) : Covered me (s.transact me digest t now) now := by
  refine h.relay fun keyId last hlast => .inl ?_
  refine ((t.effect digest s.db).nameable hat hnames hlast).resolve_right ?_
  rintro ⟨-, -, batch, hbatch, -⟩
  exact hothers.not_published hbatch

theorem Covered.run {texts : List MessageId → Bytes} {pageLen : InboundMessage C → Nat → Nat}
    (run : Clocked S texts pageLen me digest (Link.Settled me) (fun _ op => ¬Registers op)
      (Within 0 me) s now) : Covered me s now := by
  induction run with
  | start hstart => exact .start hstart
  | tick run hle ih => exact ih.tick hle
  | perform run op hop hat ih => exact ih.perform texts hop hat
  | resend run ih => exact ⟨ih.durable, ih.bound, ih.young, ih.outlived, ih.old⟩
  | serve run message hmessage hprompt choice fails ih =>
    exact ih.serve pageLen hprompt choice fails
  | restart run m hload ih => exact ih.restart hload
  | transact run t hothers hnames hat ih => exact ih.transact hothers hnames hat

/-- **Private keys outlive the messages that name them.** In every run under one clock in
which each upload reaches the relay in the second in which its keys were made: no
replenishment finds a one-time prekey stale that a message in the queue names, unless the
message is older than thirty days. -/
theorem prekeys_outlive_messages {texts : List MessageId → Bytes}
    {pageLen : InboundMessage C → Nat → Nat}
    (run : Clocked S texts pageLen me digest (Link.Settled me) (fun _ op => ¬Registers op)
      (Within 0 me) s now)
    {row : QueueRow C} (hrow : row ∈ s.db.messageQueue) (hto : row.recipientId = me)
    {keyId : UInt32} (hnames : row.NamesPrekey keyId)
    (hqueued : isExpired GC_MAX_AGE_DAYS now row = false) :
    ∀ call ∈ s.calls, ∀ env, call.op.uploadEnv? = some env →
      isStale call.before env.cutoffNow keyId = false := by
  intro call hcall env henv
  by_contra hstale
  rw [Bool.not_eq_false] at hstale
  have hcovered := Covered.run run
  have hlt := hcovered.outlived call hcall env henv keyId hstale _ (.queued row hrow hto hnames)
  have htime := (hcovered.old call hcall env henv keyId hstale).1
  have hage : ¬row.createdAt < now - QUEUE_RETENTION_SECS := of_decide_eq_false hqueued
  omega

end Invariant

/-! ## An upload that waits -/

section Late

variable (wait : Nat)

def uploadedAt : Nat := monthLater + wait

def fetchedAt : Nat := uploadedAt wait + ONE_TIME_PREKEY_PUBLIC_RETENTION_SECS

def admittedAt : Nat := fetchedAt wait + ONE_TIME_PREKEY_RESERVATION_SECS

def deliveredAt : Nat := admittedAt wait + QUEUE_RETENTION_SECS

/-- The client replenishes its keys when it is told to, and takes the answers it gets. -/
def PrekeyOps (s : Link K Sec C D) : Op Sec C → Prop
  | .queuePrekeyReplenishment env => s.notices ≠ [] ∧ s.Unused env.uploadId
  | .confirmPrekeysUploaded uploadId accepted remaining env _ =>
    .preKeysUploaded uploadId accepted remaining ∈ s.replies ∧ s.Unused env.uploadId
  | _ => False

def BobClock (admits : BobLink → Op Key32 Ciphertext → Prop) (s : BobLink) (now : Nat) : Prop :=
  Clocked symbolicIdentity (fun _ => []) (fun _ _ => 0) Client.bob (fun _ => ())
    (Link.Settled Client.bob) admits (Within wait Client.bob) s now

def bobOne : List (UInt32 × OneTimePreKey Key32) := [(5, ⟨key32 5, key32 6⟩)]

theorem bobPublished_settled : (bobPublished bobOne).Settled Client.bob 100 where
  durable := (bobPublished_supplied bobOne (by decide) (by decide)).durable
  calls := rfl
  stored row hrow _ := by
    cases List.mem_singleton.mp (show row ∈ [_] from hrow)
    refine ⟨le_refl _, fun createdAt hcreated => ?_⟩
    cases hcreated
    exact le_refl _
  reserved row hrow := absurd hrow List.not_mem_nil
  queued row hrow := absurd hrow List.not_mem_nil

/-- The clock readings of an upload are the time of the step. -/
def isTimely (now : Nat) (env : UploadEnv Key32) : Bool :=
  decide (env.cutoffNow = now ∧ env.createdAt = now)

/-- The keys of an upload have waited no longer. -/
def isPrompt (now : Nat) (s : BobLink) : ClientMessage Ciphertext → Bool
  | .uploadPreKeys _ prekeys => prekeys.all fun prekey =>
    (s.manager.oneTimePrekeyCreatedAt.lookup prekey.keyId).any fun createdAt =>
      decide (now ≤ createdAt + wait)
  | _ => true

variable {wait}

theorem within_of_isPrompt {now : Nat} {s : BobLink} {message : ClientMessage Ciphertext}
    (h : isPrompt wait now s message = true) : Within wait Client.bob s now message := by
  rintro uploadId prekeys rfl prekey hprekey
  have hyoung := List.all_eq_true.mp h prekey hprekey
  obtain ⟨createdAt, hcreated, hle⟩ := (Option.any_eq_true _ _).mp hyoung
  exact .inr ⟨createdAt, hcreated, of_decide_eq_true hle⟩

theorem Move.carryOut_bobClock {admits : BobLink → Op Key32 Ciphertext → Prop}
    (hadmits : ∀ s op, PrekeyOps s op → admits s op) {s s' : BobLink} {now later : Nat}
    (move : Move) (run : BobClock wait admits s now) (hle : now ≤ later)
    (h : move.carryOut isTimely (isPrompt wait) later s = some s') :
    BobClock wait admits s' later := by
  have run' : BobClock wait admits s later := .tick run hle
  cases move with
  | perform op =>
    obtain ⟨env, henv, h⟩ := Option.bind_eq_some_iff.mp h
    split at h
    · next hallowed =>
      obtain ⟨hunused, htimely⟩ := Bool.and_eq_true_iff.mp hallowed
      cases h
      rcases prompted_eq_some henv with ⟨rfl, hnotices⟩ | ⟨_, _, _, _, rfl, hreply⟩
      · refine .perform run' _ (hadmits _ _ ⟨hnotices, Link.unused_of_all hunused⟩) ?_
        rintro _ ⟨⟩
        exact of_decide_eq_true htimely
      · refine .perform run' _ (hadmits _ _ ⟨hreply, Link.unused_of_all hunused⟩) ?_
        rintro _ ⟨⟩
        exact of_decide_eq_true htimely
    · cases h
  | serve =>
    obtain ⟨message, hmessage, h⟩ := Option.bind_eq_some_iff.mp h
    split at h
    · next hprompt =>
      cases h
      exact .serve run' message (List.mem_of_getLast? hmessage) (within_of_isPrompt hprompt) 0 false
    · cases h
  | fetch =>
    cases h
    exact .transact run' (.fetchForRequester ..) trivial trivial rfl
  | send keyId =>
    cases h
    exact .transact run' (.enqueue ..) trivial rfl ⟨rfl, rfl⟩

variable (wait) in
/-- Bob's batch is accepted some time after Bob made it. Alice fetches its first key and sends a
message that names it, both as late as they can, and Bob replenishes his keys. -/
def lateScript : List (Nat × Move) :=
  [(200, .fetch), (monthLater, .perform (.queuePrekeyReplenishment (bobUpload 0 monthLater))),
    (uploadedAt wait, .serve),
    (uploadedAt wait,
      .perform (.confirmPrekeysUploaded ⟨0⟩ true 100 (bobUpload 1 (uploadedAt wait)) false)),
    (fetchedAt wait, .fetch), (admittedAt wait, .send LEGACY_PREKEY_ID_FLOOR),
    (deliveredAt wait, .perform (.queuePrekeyReplenishment (bobUpload 1 (deliveredAt wait))))]

variable (wait) in
def lateMessage : QueueRow Ciphertext :=
  ⟨1, ⟨7⟩, Client.bob, Client.alice, firstFor LEGACY_PREKEY_ID_FLOOR, admittedAt wait⟩

/-- A replenishment of this time that finds the key. -/
def isReplenishment (now : Nat) (keyId : UInt32) (call : Call Term Key32 Ciphertext) : Bool :=
  match call.op with
  | .queuePrekeyReplenishment env =>
    decide (env.cutoffNow = now) && (call.before.storedOpks.lookup keyId).isSome
  | _ => false

theorem isReplenishment_eq_true {now : Nat} {keyId : UInt32} {call : Call Term Key32 Ciphertext}
    (h : isReplenishment now keyId call = true) :
    ∃ env, call.op = .queuePrekeyReplenishment env ∧ env.cutoffNow = now ∧
      keyId ∈ call.before.storedOpks := by
  unfold isReplenishment at h
  split at h
  · next env hop =>
    obtain ⟨hnow, hheld⟩ := Bool.and_eq_true_iff.mp h
    exact ⟨env, hop, of_decide_eq_true hnow, Finmap.lookup_isSome.mp hheld⟩
  · cases h

theorem lateMessage_fresh :
    isExpired GC_MAX_AGE_DAYS (deliveredAt wait) (lateMessage wait) = false :=
  decide_eq_false (Nat.not_lt.mpr (Nat.sub_le_of_le_add (le_refl (deliveredAt wait))))

variable (wait) in
/-- What the end of the script shows about the last replenishment. -/
theorem lateScript_end {admits : BobLink → Op Key32 Ciphertext → Prop}
    (hadmits : ∀ s op, PrekeyOps s op → admits s op)
    (shows : BobLink → Call Term Key32 Ciphertext → Bool)
    (h : (carryOut isTimely (isPrompt wait) (lateScript wait) (bobPublished bobOne, 100)).any
      (fun state => decide (state.2 = deliveredAt wait) &&
        decide (lateMessage wait ∈ state.1.db.messageQueue.rows) &&
        state.1.calls.any fun call =>
          isReplenishment (deliveredAt wait) LEGACY_PREKEY_ID_FLOOR call && shows state.1 call) =
        true) :
    ∃ s, BobClock wait admits s (deliveredAt wait) ∧ lateMessage wait ∈ s.db.messageQueue ∧
      ∃ call ∈ s.calls, (∃ env, call.op = .queuePrekeyReplenishment env ∧
        env.cutoffNow = deliveredAt wait ∧ LEGACY_PREKEY_ID_FLOOR ∈ call.before.storedOpks) ∧
        shows s call = true := by
  obtain ⟨⟨s, now⟩, hend, hshown⟩ := (Option.any_eq_true _ _).mp h
  obtain ⟨hwaits, hcalls⟩ := Bool.and_eq_true_iff.mp hshown
  obtain ⟨hnow, hrow⟩ := Bool.and_eq_true_iff.mp hwaits
  obtain ⟨call, hcall, hlast⟩ := List.any_eq_true.mp hcalls
  obtain ⟨hreplenishes, hshows⟩ := Bool.and_eq_true_iff.mp hlast
  obtain rfl : now = deliveredAt wait := of_decide_eq_true hnow
  have hrun : BobClock wait admits s (deliveredAt wait) := carryOut_keeps isTimely (isPrompt wait)
    (fun move run hle h => move.carryOut_bobClock hadmits run hle h) (lateScript wait)
    (.start bobPublished_settled) hend
  have hqueued : lateMessage wait ∈ s.db.messageQueue.rows := of_decide_eq_true hrow
  exact ⟨s, hrun, hqueued, call, hcall, isReplenishment_eq_true hreplenishes, hshows⟩

set_option maxRecDepth 100000 in
/-- The batch is accepted at once, and Bob still has the key when the message is thirty days
old. -/
theorem prekeys_outlive_messages_bob :
    ∃ s, BobClock 0 (fun _ op => ¬Registers op) s (deliveredAt 0) ∧
      lateMessage 0 ∈ s.db.messageQueue ∧ ∃ call ∈ s.calls, ∃ env,
        call.op = .queuePrekeyReplenishment env ∧ env.cutoffNow = deliveredAt 0 ∧
        LEGACY_PREKEY_ID_FLOOR ∈ call.before.storedOpks ∧
        isStale call.before env.cutoffNow LEGACY_PREKEY_ID_FLOOR = false := by
  have hadmits : ∀ (s : BobLink) op, PrekeyOps s op → ¬Registers op := by
    intro s op hop hregisters
    cases op <;> first | exact hop | exact hregisters
  obtain ⟨s, run, hrow, call, hcall, ⟨env, hop, hnow, hheld⟩, -⟩ :=
    lateScript_end 0 hadmits (fun _ _ => true) (by decide +kernel)
  exact ⟨s, run, hrow, call, hcall, env, hop, hnow, hheld,
    prekeys_outlive_messages run hrow rfl rfl lateMessage_fresh call hcall env (by rw [hop]; rfl)⟩

set_option maxRecDepth 100000 in
/-- A key of a batch that waited for one second is dropped while a message that names it is
in the queue, thirty days old. -/
theorem late_upload_outlived :
    ∃ (s : BobLink) (now : Nat) (row : QueueRow Ciphertext) (keyId : UInt32),
      Clocked symbolicIdentity (fun _ => []) (fun _ _ => 0) Client.bob (fun _ => ())
        (Link.Settled Client.bob) PrekeyOps (Within 1 Client.bob) s now ∧
      row ∈ s.db.messageQueue ∧ row.recipientId = Client.bob ∧ row.NamesPrekey keyId ∧
      isExpired GC_MAX_AGE_DAYS now row = false ∧
      ∃ call ∈ s.calls, ∃ env, call.op = .queuePrekeyReplenishment env ∧
        keyId ∈ call.before.storedOpks ∧ isStale call.before env.cutoffNow keyId = true ∧
        keyId ∉ s.manager.storedOpks := by
  obtain ⟨s, run, hrow, call, hcall, ⟨env, hop, hnow, hheld⟩, hshows⟩ :=
    lateScript_end 1 (fun _ _ h => h) (fun s call =>
      isStale call.before (deliveredAt 1) LEGACY_PREKEY_ID_FLOOR &&
        (s.manager.storedOpks.lookup LEGACY_PREKEY_ID_FLOOR).isNone) (by decide +kernel)
  obtain ⟨hstale, hgone⟩ := Bool.and_eq_true_iff.mp hshows
  exact ⟨s, deliveredAt 1, lateMessage 1, LEGACY_PREKEY_ID_FLOOR, run, hrow, rfl, rfl,
    lateMessage_fresh, call, hcall, env, hop, hheld, hnow ▸ hstale,
    Finmap.lookup_eq_none.mp (Option.isNone_iff_eq_none.mp hgone)⟩

end Late

end Cmp.System
