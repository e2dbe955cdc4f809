import Cmp.Client.Identities
import Cmp.Client.Traffic

/-! The gate before the second envelope of a session. `encrypt_message` waits while a first
message to the recipient is unconfirmed, so that a rejected first message takes everything that
was encrypted under its session with it; `encrypt_read_receipt` has no such gate. The trace counts
the sessions with each peer and remembers under which one an item was encrypted. -/

namespace Cmp.Client

open Cmp.Crypto Cmp.Protocol Cmp.Lib Cmp.Lib.Action

variable {K Sec C : Type} {S : IdentitySuite K Sec C} {texts : List MessageId → Bytes}
  {m m' : Manager K Sec C} {op : Op Sec C} {sent : List (UserId × EncryptedEnvelope C)}
  {peerId recipientId : UserId}

/-! ## Items and sessions -/

def PendingOutbound.Carries (item : PendingOutbound C) (recipientId : UserId)
    (envelope : EncryptedEnvelope C) : Prop :=
  sealedTo item.toClientMessage = some (recipientId, envelope)

/-- The item carries the PreKey header of a session. -/
def PendingOutbound.IsFirst (item : PendingOutbound C) (recipientId : UserId) : Prop :=
  ∃ envelope, item.Carries recipientId envelope ∧ envelope.header.isPreKey = true

/-- The peer whose session is used, the recipient and the id of what is encrypted. -/
def Op.encrypts : Op Sec C → Option (UserId × UserId × MessageId)
  | .encryptMessage peerId recipientId messageId _ _ => some (peerId, recipientId, messageId)
  | .encryptReadReceipt peerId recipientId _ receiptId _ => some (peerId, recipientId, receiptId)
  | _ => none

/-- The peer an operation has made a session with. -/
def Op.makesSession (S : IdentitySuite K Sec C) (m : Manager K Sec C) (op : Op Sec C) :
    Option UserId :=
  if op.agrees S m then op.claim.map Prod.fst else none

/-- A manager with the number of each peer's session, and for an id the peer and the number of the
session it was encrypted under. -/
structure GateTrace (K Sec C : Type) where
  manager : Manager K Sec C
  sessionNo : UserId → Nat
  under : MessageId → UserId × Nat

def GateTrace.step (S : IdentitySuite K Sec C) (texts : List MessageId → Bytes)
    (t : GateTrace K Sec C) (op : Op Sec C) : GateTrace K Sec C where
  manager := finalState ((perform S texts op).run t.manager)
  sessionNo :=
    match op.makesSession S t.manager with
    | some peerId => Function.update t.sessionNo peerId (t.sessionNo peerId + 1)
    | none => t.sessionNo
  under :=
    match op.encrypts, value? ((perform S texts op).run t.manager) with
    | some (peerId, _, id), some _ => Function.update t.under id (peerId, t.sessionNo peerId)
    | _, _ => t.under

/-- Runs of one client from an empty data directory whose operations meet `guard`. -/
inductive GateRun (S : IdentitySuite K Sec C) (texts : List MessageId → Bytes)
    (guard : Manager K Sec C → Op Sec C → Prop) : GateTrace K Sec C → Prop
  | start (identity : Sec) (loadedAt cutoffNow pruneNow : Nat) (m : Manager K Sec C)
      (under : MessageId → UserId × Nat)
      (hload :
        loadOrGenerate identity (CryptoStore.empty K Sec C) loadedAt cutoffNow pruneNow false =
        .ok m) :
      GateRun S texts guard ⟨m, fun _ => 0, under⟩
  | op {t : GateTrace K Sec C} (run : GateRun S texts guard t) (op : Op Sec C)
      (hguard : guard t.manager op) : GateRun S texts guard (t.step S texts op)
  | restart {t : GateTrace K Sec C} (run : GateRun S texts guard t)
      (loadedAt cutoffNow pruneNow : Nat) (m : Manager K Sec C)
      (hload : loadOrGenerate t.manager.identity t.manager.store loadedAt cutoffNow pruneNow false =
        .ok m) :
      GateRun S texts guard { t with manager := m }

theorem GateRun.durable {guard : Manager K Sec C → Op Sec C → Prop} {t : GateTrace K Sec C}
    (run : GateRun S texts guard t) : ∃ prunedAt, t.manager.Durable prunedAt := by
  induction run with
  | start identity loadedAt cutoffNow pruneNow m under hload =>
    exact ⟨0, Manager.Durable.start hload⟩
  | op run op hguard ih =>
    obtain ⟨prunedAt, hm⟩ := ih
    exact ⟨_, Manager.Durable.outcome (perform_outcome texts hm.sound op) hm⟩
  | restart run loadedAt cutoffNow pruneNow m hload ih =>
    obtain ⟨prunedAt, hm⟩ := ih
    rw [hm.load] at hload
    cases hload
    exact ⟨_, hm.reloaded cutoffNow pruneNow⟩

/-- A message is encrypted for the peer whose session is used. A read receipt is encrypted only
when the session's PreKey header has been sent and its envelope has been confirmed. The message
that is rejected carries a PreKey header. -/
def Op.Orderly (m : Manager K Sec C) : Op Sec C → Prop
  | .encryptMessage peerId recipientId _ _ _ => peerId = recipientId
  | .encryptReadReceipt peerId recipientId _ _ _ =>
    peerId = recipientId ∧
      (∀ session, m.sessions.lookup peerId = some session → session.prekeyHeader = none) ∧
      ∀ item ∈ m.pendingOutbound, ¬ item.IsFirst recipientId
  | .rejectMessage messageId _ =>
    ∀ recipientId envelope, .message recipientId messageId envelope ∈ m.pendingOutbound →
      envelope.header.isPreKey = true
  | _ => True

/-! ## What operations do to items and headers -/

/-- A session with an unsent PreKey header had it before, or comes from a bundle. -/
theorem Outcome.unsent (h : Outcome S m op sent m') {session : PeerSession K Sec}
    (hs : m'.sessions.lookup peerId = some session) (hheader : session.prekeyHeader.isSome = true) :
    (∃ before, m.sessions.lookup peerId = some before ∧ before.prekeyHeader.isSome = true) ∨
      ∃ bundle ephemeral drawn now fails,
        op = .initSessionFromBundle peerId bundle ephemeral drawn now fails := by
  have hinsert : ∀ {other : UserId} {new : PeerSession K Sec},
      (m.sessions.insert other new).lookup peerId = some session →
        (peerId = other ∧ session = new) ∨ m.sessions.lookup peerId = some session := by
    intro other new hs
    rw [HMap.lookup_insert_eq] at hs
    split at hs
    · next heq => exact .inl ⟨heq, (Option.some.inj hs).symm⟩
    · exact .inr hs
  have herase : ∀ {other : UserId}, (m.sessions.erase other).lookup peerId = some session →
      m.sessions.lookup peerId = some session := by
    intro other hs
    rw [HMap.lookup_erase_eq] at hs
    split at hs
    · cases hs
    · exact hs
  cases h with
  | initiated other bundle ephemeral drawn now fails new =>
    rcases hinsert hs with ⟨rfl, -⟩ | hs
    · exact .inr ⟨_, _, _, _, _, rfl⟩
    · exact .inl ⟨session, hs, hheader⟩
  | expired | rejected => exact .inl ⟨session, herase hs, hheader⟩
  | encrypted _ other _ _ original =>
    rcases hinsert hs with ⟨-, rfl⟩ | hs
    · cases hheader
    · exact .inl ⟨session, hs, hheader⟩
  | decrypted other messageId envelope env plaintext new opkId hopens =>
    unfold Manager.marked Manager.opened at hs
    rw [takeOneTimePrekey_eq] at hs
    rcases hinsert hs with ⟨rfl, rfl⟩ | hs
    · cases hopens with
      | existing original _ _ _ _ _ _ hsession => exact .inl ⟨original, hsession, hheader⟩
      | first => cases hheader
    · exact .inl ⟨session, hs, hheader⟩
  | _ => exact .inl ⟨session, hs, hheader⟩

theorem Op.unsent_before (hsound : m.Sound) (hmakes : op.makesSession S m ≠ some peerId)
    {session : PeerSession K Sec}
    (hs : (finalState ((perform S texts op).run m)).sessions.lookup peerId = some session)
    (hheader : session.prekeyHeader.isSome = true) :
    ∃ before, m.sessions.lookup peerId = some before ∧ before.prekeyHeader.isSome = true := by
  rcases (perform_outcome texts hsound op).unsent hs hheader with
    hbefore | ⟨bundle, ephemeral, drawn, now, fails, rfl⟩
  · exact hbefore
  · rw [perform, finalState_map] at hs
    rcases initSessionFromBundle_cases S peerId bundle ephemeral drawn now fails m with
      ⟨e, hrun⟩ | ⟨new, -, hrun⟩
    · rw [hrun] at hs
      exact ⟨session, hs, hheader⟩
    · refine absurd ?_ hmakes
      rw [Op.makesSession, Op.agrees, hrun]
      rfl

variable {item : PendingOutbound C}

theorem isRotationOf_open {id : MessageId} (h : isRotationOf id item = true) :
    sealedTo item.toClientMessage = none := by
  cases item <;> first | rfl | cases h

theorem isUploadOf_open {id : MessageId} (h : isUploadOf id item = true) :
    sealedTo item.toClientMessage = none := by
  cases item <;> first | rfl | cases h

theorem Op.Makes.open (h : op.Makes item) (hop : op.encrypts = none) :
    sealedTo item.toClientMessage = none := by
  cases op with
  | encryptMessage | encryptReadReceipt => cases hop
  | queueAck messageIds ackId =>
    obtain rfl : item = .ack ackId messageIds := h
    rfl
  | queueReadReceiptAck receiptIds ackId =>
    obtain rfl : item = .readReceiptAck ackId receiptIds := h
    rfl
  | queueSignedPrekeyRotation | confirmSignedPrekeyRotated => exact isRotationOf_open h
  | queuePrekeyReplenishment | confirmPrekeysUploaded => exact isUploadOf_open h
  | _ => exact h.elim

variable {envelope : EncryptedEnvelope C}

/-- Only the two encryptions make items that carry an envelope. -/
theorem Op.carries_before (hsound : m.Sound) (hop : op.encrypts = none)
    (hitem : item ∈ (finalState ((perform S texts op).run m)).pendingOutbound)
    (hcarries : item.Carries recipientId envelope) :
    item ∈ m.pendingOutbound := by
  rcases (perform_traffic texts hsound op).items item hitem with hbefore | hmakes
  · exact hbefore
  · cases (hmakes.open hop).symm.trans hcarries

/-- A message that is encrypted has passed the gate. -/
theorem encryptMessage_gate {messageId : MessageId} {plaintext : Bytes} {fails : Bool}
    {message : ClientMessage C}
    (h : value? ((encryptMessage S peerId recipientId messageId plaintext fails).run m) =
      some message) : ∀ item ∈ m.pendingOutbound, item.awaitsAdmission recipientId = false := by
  simp only [encryptMessage, run_bind, run_get, run_ite] at h
  split at h
  · cases h
  · next hgate =>
    intro item hitem
    exact Bool.eq_false_iff.mpr fun hawaits =>
      hgate (List.any_eq_true.mpr ⟨item, hitem, hawaits⟩)

theorem wrap_isPreKey (session : PeerSession K Sec) (identityPublic : Key32)
    (message : RatchetMessage C) :
    (session.wrap S identityPublic message).header.isPreKey = session.prekeyHeader.isSome := by
  unfold PeerSession.wrap
  cases session.prekeyHeader <;> rfl

/-! ## The gate -/

/-- Items are numbered with a session their recipient has or had. Nothing was encrypted under a
session whose PreKey header is unsent; and where the header's envelope waits, it is a message, and
nothing else that waits was encrypted under the current session. -/
structure GateTrace.Gated (t : GateTrace K Sec C) : Prop where
  numbered : ∀ item ∈ t.manager.pendingOutbound, ∀ recipientId envelope,
    item.Carries recipientId envelope →
      ∃ n ≤ t.sessionNo recipientId, t.under item.correlationId = (recipientId, n)
  unsent : ∀ peerId session, t.manager.sessions.lookup peerId = some session →
    session.prekeyHeader.isSome = true → ∀ item ∈ t.manager.pendingOutbound,
      isSealed item = true → t.under item.correlationId ≠ (peerId, t.sessionNo peerId)
  first : ∀ item ∈ t.manager.pendingOutbound, ∀ peerId, item.IsFirst peerId →
    (∃ id envelope, item = .message peerId id envelope) ∧
      ∀ other ∈ t.manager.pendingOutbound, isSealed other = true →
        t.under other.correlationId = (peerId, t.sessionNo peerId) →
          other.correlationId = item.correlationId

section Gated

variable {t : GateTrace K Sec C}

theorem isSealed_of_carries (h : item.Carries recipientId envelope) : isSealed item = true := by
  unfold isSealed
  rw [h]
  rfl

theorem carries_of_isSealed (h : isSealed item = true) :
    ∃ recipientId envelope, item.Carries recipientId envelope := by
  obtain ⟨⟨recipientId, envelope⟩, hsealed⟩ := Option.isSome_iff_exists.mp h
  exact ⟨recipientId, envelope, hsealed⟩

/-- Fewer items, and sessions whose headers are unsent as before or whose number is new. -/
theorem GateTrace.Gated.fewer (h : t.Gated) {t' : GateTrace K Sec C}
    (hitems : ∀ item ∈ t'.manager.pendingOutbound, isSealed item = true →
      item ∈ t.manager.pendingOutbound)
    (hunder : t'.under = t.under) (hno : ∀ peerId, t.sessionNo peerId ≤ t'.sessionNo peerId)
    (hsessions : ∀ peerId session, t'.manager.sessions.lookup peerId = some session →
      session.prekeyHeader.isSome = true → t.sessionNo peerId < t'.sessionNo peerId ∨
        ∃ before, t.manager.sessions.lookup peerId = some before ∧
          before.prekeyHeader.isSome = true) : t'.Gated := by
  -- no item has the number of a session that is new
  have hnumber : ∀ item ∈ t'.manager.pendingOutbound, isSealed item = true → ∀ peerId,
      t'.under item.correlationId = (peerId, t'.sessionNo peerId) →
        t'.sessionNo peerId = t.sessionNo peerId := by
    intro item hitem hsealed peerId hunder'
    obtain ⟨recipientId, envelope, hcarries⟩ := carries_of_isSealed hsealed
    obtain ⟨n, hn, hnumbered⟩ :=
      h.numbered item (hitems item hitem hsealed) recipientId envelope hcarries
    rw [hunder, hnumbered, Prod.mk.injEq] at hunder'
    obtain ⟨rfl, rfl⟩ := hunder'
    exact Nat.le_antisymm hn (hno _)
  refine ⟨fun item hitem recipientId envelope hcarries => ?_, ?_, ?_⟩
  · obtain ⟨n, hn, hnumbered⟩ := h.numbered item
      (hitems item hitem (isSealed_of_carries hcarries)) recipientId envelope hcarries
    exact ⟨n, hn.trans (hno _), hunder ▸ hnumbered⟩
  · intro peerId session hs hheader item hitem hsealed hcurrent
    have hsame := hnumber item hitem hsealed peerId hcurrent
    rcases hsessions peerId session hs hheader with hnew | ⟨before, hbefore, hheader⟩
    · omega
    · rw [hunder, hsame] at hcurrent
      exact h.unsent peerId before hbefore hheader item (hitems item hitem hsealed) hsealed hcurrent
  · rintro item hitem peerId ⟨envelope, hcarries, hprekey⟩
    obtain ⟨hmessage, hothers⟩ := h.first item
      (hitems item hitem (isSealed_of_carries hcarries)) peerId ⟨envelope, hcarries, hprekey⟩
    refine ⟨hmessage, fun other hother hsealed hcurrent => ?_⟩
    have hsame := hnumber other hother hsealed peerId hcurrent
    rw [hunder, hsame] at hcurrent
    exact hothers other (hitems other hother hsealed) hsealed hcurrent

/-- An envelope of the session with `peerId` is filed, while no PreKey envelope to that peer
waits. -/
theorem GateTrace.Gated.filed (h : t.Gated) (hkept : t.manager.OutboxKept)
    {t' : GateTrace K Sec C} {original used : PeerSession K Sec} {item : PendingOutbound C}
    {envelope : EncryptedEnvelope C}
    (hitems : t'.manager.pendingOutbound = t.manager.pendingOutbound ++ [item])
    (hsessions : t'.manager.sessions = t.manager.sessions.insert peerId used)
    (hno : t'.sessionNo = t.sessionNo)
    (hunder : t'.under = Function.update t.under item.correlationId (peerId, t.sessionNo peerId))
    (hsession : t.manager.sessions.lookup peerId = some original)
    (hused : used.prekeyHeader = none) (hcarries : item.Carries peerId envelope)
    (hprekey : envelope.header.isPreKey = original.prekeyHeader.isSome)
    (hmessage : original.prekeyHeader.isSome = true →
      ∃ id envelope, item = .message peerId id envelope)
    (hnone : ∀ other ∈ t.manager.pendingOutbound, ¬ other.IsFirst peerId)
    (hnew : item.correlationId ∉ t.manager.store.outbox.map Prod.fst) : t'.Gated := by
  have hmem : ∀ other ∈ t'.manager.pendingOutbound,
      (other ∈ t.manager.pendingOutbound ∧
        t'.under other.correlationId = t.under other.correlationId) ∨
      (other = item ∧ t'.under other.correlationId = (peerId, t.sessionNo peerId)) := by
    intro other hother
    rw [hitems] at hother
    rw [hunder]
    rcases List.mem_append.mp hother with hother | hother
    · refine .inl ⟨hother, Function.update_of_ne (fun heq => hnew ?_) _ _⟩
      rw [← heq, ← hkept.map_key]
      exact List.mem_map_of_mem (hkept.perm.mem_iff.mpr hother)
    · cases List.mem_singleton.mp hother
      exact .inr ⟨rfl, Function.update_self _ _ _⟩
  refine ⟨fun other hother recipientId envelope' hcarries' => ?_, ?_, ?_⟩
  · rw [hno]
    rcases hmem other hother with ⟨hother, hsame⟩ | ⟨rfl, hitem⟩
    · rw [hsame]
      exact h.numbered other hother recipientId envelope' hcarries'
    · cases hcarries.symm.trans hcarries'
      exact ⟨_, le_rfl, hitem⟩
  · intro other session hs hheader item' hitem' hsealed
    rw [hsessions, HMap.lookup_insert_eq] at hs
    rw [hno]
    split at hs
    · -- the header has just been sent
      cases hs
      rw [hused] at hheader
      cases hheader
    · next hne =>
      rcases hmem item' hitem' with ⟨hitem', hsame⟩ | ⟨-, hitem⟩
      · rw [hsame]
        exact h.unsent other session hs hheader item' hitem' hsealed
      · rw [hitem]
        exact fun heq => hne (congrArg Prod.fst heq).symm
  · intro first hfirst other hisFirst
    rw [hno]
    rcases hmem first hfirst with ⟨hfirst, -⟩ | ⟨rfl, -⟩
    · obtain ⟨hmessage', hothers⟩ := h.first first hfirst other hisFirst
      refine ⟨hmessage', fun item' hitem' hsealed hcurrent => ?_⟩
      rcases hmem item' hitem' with ⟨hitem', hsame⟩ | ⟨rfl, hitem⟩
      · rw [hsame] at hcurrent
        exact hothers item' hitem' hsealed hcurrent
      · rw [hitem] at hcurrent
        cases congrArg Prod.fst hcurrent
        exact absurd hisFirst (hnone first hfirst)
    · obtain ⟨envelope', hcarries', hfirst'⟩ := hisFirst
      cases hcarries.symm.trans hcarries'
      rw [hprekey] at hfirst'
      refine ⟨hmessage hfirst', fun item' hitem' hsealed hcurrent => ?_⟩
      rcases hmem item' hitem' with ⟨hitem', hsame⟩ | ⟨rfl, -⟩
      · -- nothing was encrypted under a session with an unsent header
        rw [hsame] at hcurrent
        exact absurd hcurrent (h.unsent peerId original hsession hfirst' item' hitem' hsealed)
      · rfl

theorem Op.makesSession_of_encrypts {target : UserId × UserId × MessageId}
    (hop : op.encrypts = some target) : op.makesSession S m = none := by
  cases op <;> first | rfl | cases hop

/-- One of the two functions that encrypt, where no PreKey envelope to the peer waits when it
succeeds. -/
theorem GateTrace.Gated.encrypted (h : t.Gated) (hkept : t.manager.OutboxKept) {id : MessageId}
    (hop : op.encrypts = some (peerId, peerId, id))
    {action : ManagerM K Sec C (ClientMessage C)} {plaintext : Bytes}
    {item : EncryptedEnvelope C → PendingOutbound C}
    (hperform : perform S texts op = (fun message => [message]) <$> action)
    (hresult : EncryptResult S t.manager peerId plaintext item (action.run t.manager))
    (hid : ∀ envelope, (item envelope).correlationId = id)
    (hcarries : ∀ envelope, (item envelope).Carries peerId envelope)
    (hmessage : ∀ original, t.manager.sessions.lookup peerId = some original →
      original.prekeyHeader.isSome = true → ∀ envelope,
        item envelope = .message peerId id envelope)
    (hnone : ∀ message, value? (action.run t.manager) = some message →
      ∀ other ∈ t.manager.pendingOutbound, ¬ other.IsFirst peerId) :
    (t.step S texts op).Gated := by
  unfold GateTrace.step
  rw [Op.makesSession_of_encrypts hop, hop, hperform, finalState_map, value?_map]
  generalize hrun : action.run t.manager = result at hresult hnone
  cases hresult with
  | failed e => exact h
  | filed original message ratchet hsession hmade hnew =>
    rw [← hid (original.wrap S (S.verifyingKey t.manager.identity) message)]
    exact h.filed hkept rfl rfl rfl rfl hsession rfl (hcarries _) (wrap_isPreKey _ _ _)
      (fun hheader => ⟨_, _, hmessage original hsession hheader _⟩) (hnone _ rfl) hnew

theorem PendingOutbound.awaitsAdmission_message {id : MessageId}
    (h : envelope.header.isPreKey = true) :
    (PendingOutbound.message peerId id envelope).awaitsAdmission peerId = true := by
  simp [PendingOutbound.awaitsAdmission, h]

/-- No PreKey envelope passes the gate: the ones that wait are messages. -/
theorem GateTrace.Gated.not_first (h : t.Gated) (hitem : item ∈ t.manager.pendingOutbound)
    (hgate : item.awaitsAdmission peerId = false) :
    ¬ item.IsFirst peerId := by
  intro hfirst
  obtain ⟨⟨id, envelope, rfl⟩, -⟩ := h.first item hitem peerId hfirst
  obtain ⟨envelope', hcarries, hprekey⟩ := hfirst
  cases hcarries
  rw [PendingOutbound.awaitsAdmission_message hprekey] at hgate
  cases hgate

theorem GateTrace.Gated.step (h : t.Gated) {prunedAt : Nat} (hm : t.manager.Durable prunedAt)
    (horderly : op.Orderly t.manager) : (t.step S texts op).Gated := by
  cases hop : op.encrypts with
  | none =>
    refine h.fewer (fun item hitem hsealed => ?_) ?_ (fun peerId => ?_)
      fun peerId session hs hheader => ?_
    · obtain ⟨recipientId, envelope, hcarries⟩ := carries_of_isSealed hsealed
      exact Op.carries_before hm.sound hop hitem hcarries
    · simp only [GateTrace.step, hop]
    · unfold GateTrace.step
      cases op.makesSession S t.manager with
      | none => exact le_rfl
      | some other =>
        by_cases hother : peerId = other
        · subst hother
          simp
        · simp [Function.update_of_ne hother]
    · by_cases hmakes : op.makesSession S t.manager = some peerId
      · left
        simp only [GateTrace.step, hmakes, Function.update_self]
        exact Nat.lt_succ_self _
      · exact .inr (Op.unsent_before hm.sound hmakes hs hheader)
  | some target =>
    cases op with
    | encryptMessage peerId recipientId messageId plaintext fails =>
      obtain rfl : peerId = recipientId := horderly
      exact h.encrypted hm.outbox rfl rfl
        (encryptMessage_result S peerId peerId messageId plaintext fails t.manager)
        (fun _ => rfl) (fun _ => rfl) (fun _ _ _ _ => rfl)
        fun message hmessage other hother =>
          h.not_first hother (encryptMessage_gate hmessage other hother)
    | encryptReadReceipt peerId recipientId messageIds receiptId fails =>
      obtain ⟨rfl, hheader, hnone⟩ := horderly
      refine h.encrypted hm.outbox rfl rfl
        (encryptReadReceipt_result S texts peerId peerId messageIds receiptId fails t.manager)
        (fun _ => rfl) (fun _ => rfl) (fun original hsession hsome => ?_) fun _ _ => hnone
      rw [hheader original hsession] at hsome
      cases hsome
    | _ => cases hop

theorem GateRun.gated (run : GateRun S texts Op.Orderly t) : t.Gated := by
  induction run with
  | start identity loadedAt cutoffNow pruneNow m under hload =>
    cases hload
    refine ⟨fun item hitem => ?_, fun peerId session hs => ?_, fun item hitem => ?_⟩
    · cases hitem
    · cases hs
    · cases hitem
  | op run op hguard ih =>
    obtain ⟨prunedAt, hm⟩ := run.durable
    exact ih.step hm hguard
  | restart run loadedAt cutoffNow pruneNow m hload ih =>
    obtain ⟨prunedAt, hm⟩ := run.durable
    rw [hm.load] at hload
    cases hload
    refine ih.fewer (fun item hitem _ => hm.outbox.perm.mem_iff.mp hitem) rfl (fun _ => le_rfl)
      fun peerId session hs hheader => .inr ⟨session, hs, hheader⟩

/-- While the PreKey envelope of a session waits, nothing more is encrypted under the session. -/
theorem GateTrace.Gated.blocked (h : t.Gated) (hitem : item ∈ t.manager.pendingOutbound)
    (hfirst : item.IsFirst recipientId)
    (hunder : t.under item.correlationId = (peerId, t.sessionNo peerId))
    (horderly : op.Orderly t.manager) {target : UserId × MessageId}
    (hop : op.encrypts = some (peerId, target)) :
    value? ((perform S texts op).run t.manager) = none := by
  obtain ⟨envelope, hcarries, hprekey⟩ := hfirst
  obtain ⟨n, -, hnumbered⟩ := h.numbered item hitem recipientId envelope hcarries
  obtain rfl : peerId = recipientId := congrArg Prod.fst (hunder.symm.trans hnumbered)
  have hisFirst : item.IsFirst peerId := ⟨envelope, hcarries, hprekey⟩
  cases op with
  | encryptMessage other recipient messageId plaintext fails =>
    obtain rfl : other = recipient := horderly
    cases hop
    rw [perform, value?_map, Option.map_eq_none_iff]
    cases hvalue : value? ((encryptMessage S peerId peerId messageId plaintext fails).run
        t.manager) with
    | none => rfl
    | some message =>
      exact absurd hisFirst (h.not_first hitem (encryptMessage_gate hvalue item hitem))
  | encryptReadReceipt other recipient messageIds receiptId fails =>
    obtain ⟨rfl, -, hnone⟩ := horderly
    cases hop
    exact absurd hisFirst (hnone item hitem)
  | _ => cases hop

/-- A rejected first message leaves no item that was encrypted under its session. -/
theorem GateTrace.Gated.rejected (h : t.Gated) (hkept : t.manager.OutboxKept)
    {messageId : MessageId} {fails : Bool}
    (hrun : (rejectMessage messageId fails).run t.manager = .ok (some recipientId) m')
    (horderly : (Op.rejectMessage messageId fails : Op Sec C).Orderly t.manager) :
    m'.hasSession recipientId = false ∧ ∀ item ∈ m'.pendingOutbound, isSealed item = true →
      t.under item.correlationId ≠ (recipientId, t.sessionNo recipientId) := by
  rcases rejectMessage_cases messageId fails t.manager with
    ⟨e, hfail⟩ | hnone | ⟨index, recipient, envelope, hrejected, hok⟩
  · cases hrun.symm.trans hfail
  · cases hrun.symm.trans hnone
  · cases hrun.symm.trans hok
    have hmem := List.mem_of_getElem? hrejected
    have hfirst : PendingOutbound.IsFirst (.message recipientId messageId envelope) recipientId :=
      ⟨envelope, rfl, horderly recipientId envelope hmem⟩
    refine ⟨?_, fun item hitem hsealed hunder => ?_⟩
    · show ((t.manager.sessions.erase recipientId).lookup recipientId).isSome = false
      rw [Finmap.lookup_erase]
      rfl
    · have hitem' : item ∈ t.manager.pendingOutbound.eraseIdx index := hitem
      rw [eraseIdx_eq_filter PendingOutbound.correlationId hkept.memory_nodup hrejected,
        List.mem_filter, decide_eq_true_eq] at hitem'
      exact hitem'.2 ((h.first _ hmem recipientId hfirst).2 item hitem'.1 hsealed hunder)

/-- **A rejected first message takes its whole session with it.** While the envelope with a
session's PreKey header is unconfirmed in the outbox, no message and no receipt is encrypted under
that session; and when the message is rejected, no item encrypted under the removed session
remains. -/
theorem first_message_alone (run : GateRun S texts Op.Orderly t) :
    (∀ item ∈ t.manager.pendingOutbound, ∀ recipientId peerId, item.IsFirst recipientId →
      t.under item.correlationId = (peerId, t.sessionNo peerId) →
      ∀ (op : Op Sec C) (target : UserId × MessageId), op.Orderly t.manager →
        op.encrypts = some (peerId, target) →
        value? ((perform S texts op).run t.manager) = none) ∧
    ∀ (messageId : MessageId) (fails : Bool) (recipientId : UserId) (m' : Manager K Sec C),
      (rejectMessage messageId fails).run t.manager = .ok (some recipientId) m' →
      (Op.rejectMessage messageId fails : Op Sec C).Orderly t.manager →
      m'.hasSession recipientId = false ∧ ∀ item ∈ m'.pendingOutbound, isSealed item = true →
        t.under item.correlationId ≠ (recipientId, t.sessionNo recipientId) := by
  obtain ⟨prunedAt, hm⟩ := run.durable
  refine ⟨fun item hitem recipientId peerId hfirst hunder op target horderly hop => ?_, ?_⟩
  · exact run.gated.blocked hitem hfirst hunder horderly hop
  · intro messageId fails recipientId m' hrun horderly
    exact run.gated.rejected hm.outbox hrun horderly

end Gated

/-! ## A receipt behind the first message -/

/-- Alice has a session with Bob, and her first message waits for its confirmation. -/
def firstWaiting : GateTrace Term Key32 Ciphertext :=
  ((⟨newManager (key32 1), fun _ => 0, fun _ => (alice, 0)⟩ : GateTrace Term Key32 Ciphertext).step
    symbolicIdentity (fun _ => [])
    (.initSessionFromBundle bob
      (publishedBundle symbolicIdentity (key32 9)
        (SignedPreKey.generate symbolicIdentity 1 (key32 9) (key32 8)) none)
      (key32 2) (key32 3) 0 false)).step symbolicIdentity (fun _ => [])
    (.encryptMessage bob bob ⟨1⟩ [104] false)

theorem firstWaiting_run {guard : Manager Term Key32 Ciphertext → Op Key32 Ciphertext → Prop}
    (hguard : ∀ m op, op.Orderly m → guard m op) :
    GateRun symbolicIdentity (fun _ => []) guard firstWaiting := by
  refine .op (.op (.start (key32 1) 0 0 0 (newManager (key32 1)) _ rfl) _ ?_) _ ?_
  · exact hguard _ _ trivial
  · exact hguard _ _ rfl

/-- What waits, by id, with the session it was encrypted under. -/
def waitingUnder (t : GateTrace Term Key32 Ciphertext) (m : Manager Term Key32 Ciphertext) :
    List (MessageId × UserId × Nat) :=
  m.pendingOutbound.map fun item => (item.correlationId, t.under item.correlationId)

set_option maxRecDepth 4000 in
theorem first_message_alone_alice :
    waitingUnder firstWaiting firstWaiting.manager = [(⟨1⟩, bob, 1)] ∧
      firstWaiting.sessionNo bob = 1 ∧
      value? ((perform symbolicIdentity (fun _ => [])
        (.encryptMessage bob bob ⟨2⟩ [105] false)).run firstWaiting.manager) = none ∧
      ∃ m', (rejectMessage ⟨1⟩ false).run firstWaiting.manager = .ok (some bob) m' ∧
        m'.hasSession bob = false := by
  have halone := first_message_alone (firstWaiting_run fun _ _ horderly => horderly)
  refine ⟨rfl, rfl, ?_, _, rfl, (halone.2 ⟨1⟩ false bob _ rfl fun r envelope hmem => ?_).1⟩
  · exact halone.1 _ (List.mem_singleton.mpr rfl) bob bob ⟨_, rfl, rfl⟩ rfl
      (.encryptMessage bob bob ⟨2⟩ [105] false) _ rfl rfl
  · cases List.mem_singleton.mp hmem
    rfl

set_option maxRecDepth 4000 in
/-- A receipt is encrypted under the same session, and stays when the first message is rejected
and the session is gone. -/
theorem receipt_behind_first_message :
    ∃ t m', GateRun symbolicIdentity (fun _ => []) (fun _ _ => True) t ∧
      t = firstWaiting.step symbolicIdentity (fun _ => [])
        (.encryptReadReceipt bob bob [⟨9⟩] ⟨5⟩ false) ∧
      t.sessionNo bob = 1 ∧
      waitingUnder t t.manager = [(⟨1⟩, bob, 1), (⟨5⟩, bob, 1)] ∧
      (rejectMessage ⟨1⟩ false).run t.manager = .ok (some bob) m' ∧
      m'.hasSession bob = false ∧ waitingUnder t m' = [(⟨5⟩, bob, 1)] :=
  ⟨_, _, .op (firstWaiting_run fun _ _ _ => trivial) _ trivial, rfl, rfl, rfl, rfl, rfl, rfl⟩

end Cmp.Client
