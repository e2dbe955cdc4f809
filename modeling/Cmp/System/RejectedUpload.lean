import Cmp.Relay.Lifetime
import Cmp.System.Rotation
import Cmp.System.Supply

/-! A run in which published keys lose their private half. A fetch leaves the relay with one key
of Bob, and its notice reaches him twice. His first batch nearly fills the relay. It rejects the
second, and Bob drops its keys; another copy of that request arrives a month later, when there is
room again. -/

namespace Cmp.System

open Cmp.Crypto Cmp.Protocol Cmp.Lib Cmp.Lib.Action Cmp.Client Cmp.Relay

/-! ## Bob's link -/

abbrev BobLink := Link Term Key32 Ciphertext Unit

/-- A run in which the requests that reach the relay are as `reaches` says. -/
def BobRun (reaches : BobLink → ClientMessage Ciphertext → Prop) (s : BobLink) : Prop :=
  Link.Run symbolicIdentity (fun _ => []) (fun _ _ => 0) Client.bob (fun _ => ())
    (Link.Supplied (fun _ => ()) Client.bob) UploadOps reaches s

def publicBatch (opks : List (UInt32 × OneTimePreKey Key32)) : Relay.Batch :=
  opks.map fun entry => (entry.1, entry.2.publicKey.toList)

theorem fst_publicBatch (opks : List (UInt32 × OneTimePreKey Key32)) :
    (publicBatch opks).map Prod.fst = opks.map Prod.fst := by
  unfold publicBatch
  rw [List.map_map]
  rfl

section Published

variable (opks : List (UInt32 × OneTimePreKey Key32))

def bobPublishes : Transaction Ciphertext :=
  .registerAtomic ⟨Client.bob, (key32 9).toList, 1, bobSpk.publicKey.toList,
    bobSpk.signature.toList, publicBatch opks⟩ fun _ => 100

/-- Bob after his registration, with one-time prekeys on both sides. -/
def bobPublished : BobLink where
  manager := (registrationKeys bobSpk opks 100 100 (newManager (key32 9))).saved
  calls := []
  requests := []
  replies := []
  notices := []
  db := (bobPublishes opks).after (fun _ => ()) Db.fresh
  log := [⟨Db.fresh, bobPublishes opks⟩]

theorem bobPublished_supplied (hnodup : (opks.map Prod.fst).Nodup)
    (hlength : opks.length ≤ MAX_PREKEYS_PER_UPLOAD) :
    (bobPublished opks).Supplied (fun _ => ()) Client.bob where
  durable := by
    have hnew : (newManager (key32 9) : Manager Term Key32 Ciphertext).Durable 0 :=
      Manager.Durable.start (show loadOrGenerate (key32 9) _ 0 0 0 false = _ from rfl)
    exact ⟨_, hnew.outcome (S := symbolicIdentity) (.registered bobSpk opks 100 100 false)⟩
  history := by
    refine .transact .fresh (bobPublishes opks) ⟨?_, ?_⟩
    · show ((publicBatch opks).map Prod.fst).Nodup
      rwa [fst_publicBatch]
    · show (publicBatch opks).length ≤ _
      rwa [publicBatch, List.length_map]
  held keyId hout := by
    have hfrom := ((bobPublishes opks).effect (fun _ => ()) Db.fresh).outstanding_from hout
    rcases hfrom with (⟨row, hrow, -⟩ | ⟨row, hrow, -⟩) | ⟨batch, hbatch, hmem⟩
    · exact absurd hrow List.not_mem_nil
    · exact absurd hrow List.not_mem_nil
    · rcases publishedBatch_eq_some hbatch with ⟨_, _, heq, -, rfl⟩ | ⟨_, _, _, heq⟩
      all_goals cases heq
      rw [fst_publicBatch] at hmem
      exact (HMap.mem_insertAll _ _ _).mpr (.inl hmem)
  idle _ hitem := absurd hitem List.not_mem_nil
  requests := rfl
  replies := rfl

end Published

/-! ## Runs that are carried out

A script is carried out step by step, with every condition of a run checked on the way. -/

section Checks

variable {K Sec C D : Type}

def isUnder (id : MessageId) : ClientMessage C → Bool
  | .rotateSignedPreKey rotationId _ _ _ => rotationId == id
  | .uploadPreKeys uploadId _ => uploadId == id
  | _ => false

theorem Link.unused_of_all {s : Link K Sec C D} {id : MessageId}
    (h : s.requests.all (fun message => !isUnder id message) = true) : s.Unused id := by
  intro message hmessage
  have hnot := List.all_eq_true.mp h message hmessage
  refine ⟨?_, ?_⟩
  · rintro keyId publicKey signature rfl
    simp [isUnder] at hnot
  · rintro prekeys rfl
    simp [isUnder] at hnot

def isAnswer (uploadId : MessageId) (accepted : Bool) (remaining : UInt32) :
    ServerMessage C → Bool
  | .preKeysUploaded id verdict left => id == uploadId && verdict == accepted && left == remaining
  | _ => false

theorem mem_of_isAnswer {uploadId : MessageId} {accepted : Bool} {remaining : UInt32}
    {replies : List (ServerMessage C)}
    (h : replies.any (isAnswer uploadId accepted remaining) = true) :
    .preKeysUploaded uploadId accepted remaining ∈ replies := by
  obtain ⟨reply, hreply, hanswer⟩ := List.any_eq_true.mp h
  cases reply with
  | preKeysUploaded id verdict left =>
    simp only [isAnswer, Bool.and_eq_true, beq_iff_eq] at hanswer
    obtain ⟨⟨rfl, rfl⟩, rfl⟩ := hanswer
    exact hreply
  | _ => cases hanswer

/-- The upload of an operation that a notice or an answer of the relay calls for. -/
def prompted (s : Link K Sec C D) : Op Sec C → Option (UploadEnv Sec)
  | .queuePrekeyReplenishment env => if s.notices.isEmpty then none else some env
  | .confirmPrekeysUploaded uploadId accepted remaining env _ =>
    if s.replies.any (isAnswer uploadId accepted remaining) then some env else none
  | _ => none

/-- The conditions that the operations on one-time prekeys share. -/
theorem prompted_eq_some {s : Link K Sec C D} {op : Op Sec C} {env : UploadEnv Sec}
    (h : prompted s op = some env) :
    op = .queuePrekeyReplenishment env ∧ s.notices ≠ [] ∨
    ∃ uploadId accepted remaining fails,
      op = .confirmPrekeysUploaded uploadId accepted remaining env fails ∧
        .preKeysUploaded uploadId accepted remaining ∈ s.replies := by
  cases op with
  | queuePrekeyReplenishment env' =>
    simp only [prompted] at h
    split at h
    · cases h
    · next hnotices =>
      cases h
      exact .inl ⟨rfl, fun hnil => hnotices (List.isEmpty_iff.mpr hnil)⟩
  | confirmPrekeysUploaded uploadId accepted remaining env' fails =>
    simp only [prompted] at h
    split at h
    · next hreply =>
      cases h
      exact .inr ⟨uploadId, accepted, remaining, fails, rfl, mem_of_isAnswer hreply⟩
    · cases h
  | _ => cases h

end Checks

/-- A first message of Alice that names a one-time prekey. -/
def firstFor (keyId : UInt32) : EncryptedEnvelope Ciphertext :=
  ⟨PROTOCOL_VERSION,
    .preKey (b64Encode (key32 1).toList) (b64Encode (key32 2).toList) 1 (some keyId)
      ⟨b64Encode (key32 3).toList, 0, 0⟩, ⟨some (.box (.shared 0) [] []), 0⟩⟩

/-- Bob carries out an operation, the relay handles his last request, or Alice fetches a key or
sends a message that names it. -/
inductive Move
  | perform (op : Op Key32 Ciphertext)
  | serve
  | fetch
  | send (keyId : UInt32)

/-- What Alice does at the relay. -/
def Move.transaction? (now : Nat) : Move → Option (Transaction Ciphertext)
  | .fetch => some (.fetchForRequester Client.alice Client.bob now FETCH_LIMITS 0)
  | .send keyId =>
    some (.enqueue (sendRequest Client.alice Client.bob ⟨7⟩ (firstFor keyId) now) now)
  | _ => none

section Scripts

variable (may : Nat → UploadEnv Key32 → Bool)
  (reaches : Nat → BobLink → ClientMessage Ciphertext → Bool)

/-- A move at a time, if it is allowed. -/
def Move.carryOut (now : Nat) (s : BobLink) : Move → Option BobLink
  | .perform op =>
    (prompted s op).bind fun env =>
      if s.requests.all (fun message => !isUnder env.uploadId message) && may now env then
        some (s.perform symbolicIdentity (fun _ => []) op)
      else none
  | .serve =>
    s.requests.getLast?.bind fun message =>
      if reaches now s message then
        some (s.serve symbolicIdentity (fun _ _ => 0) Client.bob (fun _ => ()) message
          (RelayEnv.atTime now 0) false)
      else none
  | move => (move.transaction? now).map fun t => s.transact Client.bob (fun _ => ()) t now

def carryOut : List (Nat × Move) → BobLink × Nat → Option (BobLink × Nat)
  | [], state => some state
  | (later, move) :: script, (s, now) =>
    if now ≤ later then
      (move.carryOut may reaches later s).bind fun s' => carryOut script (s', later)
    else none

/-- What every move keeps, a script keeps. -/
theorem carryOut_keeps {P : BobLink → Nat → Prop}
    (hmove : ∀ {s s' now later} (move : Move), P s now → now ≤ later →
      move.carryOut may reaches later s = some s' → P s' later)
    (script : List (Nat × Move)) : ∀ {s s' now now'}, P s now →
      carryOut may reaches script (s, now) = some (s', now') → P s' now' := by
  induction script with
  | nil =>
    intro s s' now now' hs h
    cases h
    exact hs
  | cons entry script ih =>
    intro s s' now now' hs h
    unfold carryOut at h
    split at h
    · next hle =>
      obtain ⟨between, hbetween, hrest⟩ := Option.bind_eq_some_iff.mp h
      exact ih (hmove entry.2 hs hle hbetween) hrest
    · cases h

end Scripts

/-! ## A relay that fills up -/

def monthLater : Nat := 100 + 31 * 24 * 60 * 60

def bobUpload (k now : Nat) : UploadEnv Key32 :=
  ⟨fun n => key32 n.toUInt8, now, now, ⟨k⟩, false⟩

/-- At this time no key is old enough to be dropped. -/
def isEarly (_ : Nat) (env : UploadEnv Key32) : Bool :=
  decide (env.cutoffNow ≤ ONE_TIME_PREKEY_PRIVATE_RETENTION_SECS)

theorem noneStale_of_isEarly {now : Nat} {env : UploadEnv Key32} (h : isEarly now env = true)
    (m : Manager Term Key32 Ciphertext) : NoneStale m env.cutoffNow := by
  intro keyId
  unfold isStale
  rw [Nat.sub_eq_zero_of_le (of_decide_eq_true h)]
  cases m.oneTimePrekeyCreatedAt.lookup keyId <;> rfl

def isRejection (uploadId : MessageId) : ServerMessage Ciphertext → Bool
  | .preKeysUploaded id accepted _ => id == uploadId && !accepted
  | _ => false

/-- This upload has not been rejected before. -/
def isFirst (_ : Nat) (s : BobLink) : ClientMessage Ciphertext → Bool
  | .uploadPreKeys uploadId _ => s.replies.all fun reply => !isRejection uploadId reply
  | _ => true

theorem notAgain_of_isFirst (now : Nat) (s : BobLink) (message : ClientMessage Ciphertext)
    (h : isFirst now s message = true) : NotAgain s message := by
  rintro uploadId prekeys rfl ⟨remaining, hreply⟩
  have hnot := List.all_eq_true.mp h _ hreply
  simp [isRejection] at hnot

section Uploads

variable {reaches : Nat → BobLink → ClientMessage Ciphertext → Bool}
  {Reaches : BobLink → ClientMessage Ciphertext → Prop}
  (hreaches : ∀ now s message, reaches now s message = true → Reaches s message)

include hreaches

theorem Move.carryOut_bobRun {s s' : BobLink} {now : Nat} (move : Move) (run : BobRun Reaches s)
    (h : move.carryOut isEarly reaches now s = some s') : BobRun Reaches s' := by
  cases move with
  | perform op =>
    obtain ⟨env, henv, h⟩ := Option.bind_eq_some_iff.mp h
    split at h
    · next hallowed =>
      obtain ⟨hunused, hearly⟩ := Bool.and_eq_true_iff.mp hallowed
      cases h
      refine .perform run op ?_
      rcases prompted_eq_some henv with ⟨rfl, hnotices⟩ | ⟨_, _, _, _, rfl, hreply⟩
      · exact ⟨hnotices, Link.unused_of_all hunused, noneStale_of_isEarly hearly _⟩
      · exact ⟨hreply, Link.unused_of_all hunused, noneStale_of_isEarly hearly _⟩
    · cases h
  | serve =>
    obtain ⟨message, hmessage, h⟩ := Option.bind_eq_some_iff.mp h
    split at h
    · next hreach =>
      cases h
      exact .serve run message (List.mem_of_getLast? hmessage) (hreaches now s message hreach) _
        false
    · cases h
  | fetch =>
    cases h
    exact .transact run (.fetchForRequester ..) trivial trivial now
  | send keyId =>
    cases h
    exact .transact run (.enqueue ..) trivial trivial now

theorem carryOut_bobRun {opks : List (UInt32 × OneTimePreKey Key32)}
    (hnodup : (opks.map Prod.fst).Nodup) (hlength : opks.length ≤ MAX_PREKEYS_PER_UPLOAD)
    {script : List (Nat × Move)} {s : BobLink} {now : Nat}
    (h : carryOut isEarly reaches script (bobPublished opks, 100) = some (s, now)) :
    BobRun Reaches s :=
  carryOut_keeps isEarly reaches (P := fun s _ => BobRun Reaches s)
    (fun move run _ h => move.carryOut_bobRun hreaches run h) script
    (.start (bobPublished_supplied _ hnodup hlength)) h

end Uploads

def bobTwo : List (UInt32 × OneTimePreKey Key32) :=
  [(5, ⟨key32 5, key32 6⟩), (6, ⟨key32 7, key32 8⟩)]

/-- Two batches of Bob, the second rejected. -/
def rejectedScript : List (Nat × Move) :=
  [(200, .fetch), (300, .perform (.queuePrekeyReplenishment (bobUpload 0 300))), (300, .serve),
    (300, .perform (.confirmPrekeysUploaded ⟨0⟩ true 101 (bobUpload 1 300) false)),
    (300, .perform (.queuePrekeyReplenishment (bobUpload 1 300))), (300, .serve),
    (300, .perform (.confirmPrekeysUploaded ⟨1⟩ false 101 (bobUpload 2 300) false))]

def isDecryption {Sec C : Type} : Op Sec C → Bool
  | .decryptMessageToText .. => true
  | _ => false

/-- The relay has taken the first batch and rejected the second, and stores a key of the first. -/
def isHalfTaken (s : BobLink) : Bool :=
  s.replies.any (isAnswer ⟨0⟩ true 101) && s.replies.any (isAnswer ⟨1⟩ false 101) &&
  s.db.prekeys.rows.any (fun row => decide (row.key = (Client.bob, LEGACY_PREKEY_ID_FLOOR))) &&
  s.calls.all fun call => !isDecryption call.op

/-- A key of Bob is stored that he does not hold, and he has opened no message. -/
def losesKey (s : BobLink) : Bool :=
  s.db.prekeys.rows.any (fun row => decide (row.userId = Client.bob) &&
    (s.manager.storedOpks.lookup row.keyId).isNone) &&
  s.calls.all fun call => !isDecryption call.op

theorem not_used_of_all {s : BobLink} (h : (s.calls.all fun call => !isDecryption call.op) = true)
    (keyId : UInt32) : ¬s.Used symbolicIdentity keyId := by
  rintro ⟨call, hcall, peerId, messageId, envelope, env, _, _, _, hop, -⟩
  have hnot := List.all_eq_true.mp h call hcall
  rw [hop] at hnot
  cases hnot

set_option maxRecDepth 100000 in
/-- A copy of the second request, a month later, publishes its keys. -/
theorem rejectedScript_end :
    (carryOut isEarly isFirst rejectedScript (bobPublished bobTwo, 100)).any (fun state =>
      isHalfTaken state.1 && (Move.serve.carryOut isEarly (fun _ _ _ => true) monthLater
        state.1).any losesKey) = true := by
  decide +kernel

/-- Bob holds a key of the batch that the relay has taken, though it has rejected another. -/
theorem outstanding_prekeys_kept_bob :
    ∃ s, BobRun NotAgain s ∧ .preKeysUploaded ⟨0⟩ true 101 ∈ s.replies ∧ s.Rejected ⟨1⟩ ∧
      Outstanding Client.bob s.db LEGACY_PREKEY_ID_FLOOR ∧
      LEGACY_PREKEY_ID_FLOOR ∈ s.manager.storedOpks := by
  obtain ⟨⟨s, now⟩, hend, hshown⟩ := (Option.any_eq_true _ _).mp rejectedScript_end
  have run := carryOut_bobRun notAgain_of_isFirst (by decide) (by decide) hend
  obtain ⟨htaken, hunused⟩ := Bool.and_eq_true_iff.mp (Bool.and_eq_true_iff.mp hshown).1
  obtain ⟨hanswers, hstored⟩ := Bool.and_eq_true_iff.mp htaken
  obtain ⟨haccepted, hrejected⟩ := Bool.and_eq_true_iff.mp hanswers
  obtain ⟨row, hrow, hkey⟩ := List.any_eq_true.mp hstored
  have hout : Outstanding Client.bob s.db LEGACY_PREKEY_ID_FLOOR :=
    .inl ⟨row, hrow, of_decide_eq_true hkey⟩
  exact ⟨s, run, mem_of_isAnswer haccepted, ⟨101, mem_of_isAnswer hrejected⟩, hout,
    outstanding_prekeys_kept run hout (not_used_of_all hunused _)⟩

/-- Bob's link can reach a state in which a stored key has lost its private half, and Bob
never used it. -/
theorem rejected_upload_published :
    ∃ s, BobRun (fun _ _ => True) s ∧ ∃ keyId, Outstanding Client.bob s.db keyId ∧
      ¬s.Used symbolicIdentity keyId ∧ keyId ∉ s.manager.storedOpks := by
  obtain ⟨⟨s, now⟩, hend, hshown⟩ := (Option.any_eq_true _ _).mp rejectedScript_end
  obtain ⟨s', hserved, hloses⟩ :=
    (Option.any_eq_true _ _).mp (Bool.and_eq_true_iff.mp hshown).2
  have run : BobRun (fun _ _ => True) s :=
    carryOut_bobRun (fun _ _ _ _ => trivial) (by decide) (by decide) hend
  have hrun := Move.serve.carryOut_bobRun (fun _ _ _ _ => trivial) run hserved
  obtain ⟨hlost, hunused⟩ := Bool.and_eq_true_iff.mp hloses
  obtain ⟨row, hrow, hkey⟩ := List.any_eq_true.mp hlost
  obtain ⟨hof, hnone⟩ := Bool.and_eq_true_iff.mp hkey
  exact ⟨s', hrun, row.keyId, .inl ⟨row, hrow, Prod.ext (of_decide_eq_true hof) rfl⟩,
    not_used_of_all hunused _,
    Finmap.lookup_eq_none.mp (Option.isNone_iff_eq_none.mp hnone)⟩

end Cmp.System
