import Cmp.Client.InboxRuns
import Cmp.Client.Markers
import Cmp.Client.Screen

/-! The identity key behind a session. A PreKey header names an identity key of its sender, but
only for a sender without a session does that key enter X3DH: with a session the envelope is
opened by the session, which was agreed on with the key of an earlier header or bundle. The trace
remembers which key that was, for every session and every message a session decrypted. -/

namespace Cmp.Client

open Cmp.Crypto Cmp.Protocol Cmp.Lib Cmp.Lib.Action

variable {K Sec C : Type} {S : IdentitySuite K Sec C} {texts : List MessageId → Bytes}
  {m m' : Manager K Sec C} {op : Op Sec C} {sent : List (UserId × EncryptedEnvelope C)}
  {peerId : UserId}

/-! ## Keys that enter X3DH -/

/-- The key in the text of an identity field. -/
def identityKeyOf (encoded : B64Text Bytes) : Option Key32 :=
  (b64DecodeFixed 32 encoded .badEnvelope).toOption

/-- The identity field an operation is given, and whose it is said to be. -/
def Op.claim : Op Sec C → Option (UserId × B64Text Bytes)
  | .initSessionFromBundle peerId bundle _ _ _ _ => some (peerId, bundle.identityKey)
  | .decryptMessageToText peerId _ envelope _ =>
    match envelope.header with
    | .preKey senderIdentityKey .. => some (peerId, senderIdentityKey)
    | .ratchet _ => none
  | _ => none

/-- Whether an operation has made a session, as `alice_initiate` or as `bob_respond`. -/
def Op.agrees (S : IdentitySuite K Sec C) (m : Manager K Sec C) : Op Sec C → Bool
  | .initSessionFromBundle peerId bundle ephemeral drawn now fails =>
    (value? ((Client.initSessionFromBundle S peerId bundle ephemeral drawn now fails).run m)).isSome
  | .decryptMessageToText peerId messageId envelope env =>
    !m.hasSession peerId &&
      (finalState ((Client.decryptMessageToText S peerId messageId envelope
        env).run m)).hasSession peerId
  | _ => false

/-- The message an operation has decrypted. -/
def Op.decrypts (S : IdentitySuite K Sec C) (m : Manager K Sec C) :
    Op Sec C → Option (UserId × MessageId)
  | .decryptMessageToText peerId messageId envelope env =>
    if (m.processedMessages.lookup (peerId, messageId)).isNone ∧
        ((finalState ((Client.decryptMessageToText S peerId messageId envelope
          env).run m)).processedMessages.lookup (peerId, messageId)).isSome then
      some (peerId, messageId)
    else none
  | _ => none

/-- A manager with the identity keys that entered the X3DH computations of its sessions, by peer,
and of the sessions that decrypted messages, by message. -/
structure IdentityTrace (K Sec C : Type) where
  manager : Manager K Sec C
  entered : UserId → Option Key32
  decryptedUnder : UserId × MessageId → Option Key32

namespace IdentityTrace

def enteredAfter (S : IdentitySuite K Sec C) (t : IdentityTrace K Sec C) (op : Op Sec C) :
    UserId → Option Key32 :=
  match op.claim with
  | some (peerId, encoded) =>
    if op.agrees S t.manager then Function.update t.entered peerId (identityKeyOf encoded)
    else t.entered
  | none => t.entered

def step (S : IdentitySuite K Sec C) (texts : List MessageId → Bytes) (t : IdentityTrace K Sec C)
    (op : Op Sec C) : IdentityTrace K Sec C where
  manager := finalState ((perform S texts op).run t.manager)
  entered := t.enteredAfter S op
  decryptedUnder :=
    match op.decrypts S t.manager with
    | some key => Function.update t.decryptedUnder key (t.enteredAfter S op key.1)
    | none => t.decryptedUnder

end IdentityTrace

/-- Runs of one client from an empty data directory. -/
inductive IdentityRun (S : IdentitySuite K Sec C) (texts : List MessageId → Bytes) :
    IdentityTrace K Sec C → Prop
  | start (identity : Sec) (loadedAt cutoffNow pruneNow : Nat) (m : Manager K Sec C)
      (hload :
        loadOrGenerate identity (CryptoStore.empty K Sec C) loadedAt cutoffNow pruneNow false =
        .ok m) :
      IdentityRun S texts ⟨m, fun _ => none, fun _ => none⟩
  | op {t : IdentityTrace K Sec C} (run : IdentityRun S texts t) (op : Op Sec C) :
      IdentityRun S texts (t.step S texts op)
  | restart {t : IdentityTrace K Sec C} (run : IdentityRun S texts t)
      (loadedAt cutoffNow pruneNow : Nat) (m : Manager K Sec C)
      (hload : loadOrGenerate t.manager.identity t.manager.store loadedAt cutoffNow pruneNow false =
        .ok m) :
      IdentityRun S texts { t with manager := m }

theorem IdentityRun.durable {t : IdentityTrace K Sec C} (run : IdentityRun S texts t) :
    ∃ prunedAt, t.manager.Durable prunedAt := by
  induction run with
  | start identity loadedAt cutoffNow pruneNow m hload => exact ⟨0, Manager.Durable.start hload⟩
  | op run op ih =>
    obtain ⟨prunedAt, hm⟩ := ih
    exact ⟨_, Manager.Durable.outcome (perform_outcome texts hm.sound op) hm⟩
  | restart run loadedAt cutoffNow pruneNow m hload ih =>
    obtain ⟨prunedAt, hm⟩ := ih
    rw [hm.load] at hload
    cases hload
    exact ⟨_, hm.reloaded cutoffNow pruneNow⟩

/-! ## Where sessions come from -/

/-- A peer with a session had one before, or the operation was given an identity field of it. -/
theorem Outcome.hasSession (h : Outcome S m op sent m') (hs : m'.hasSession peerId = true) :
    m.hasSession peerId = true ∨ ∃ encoded, op.claim = some (peerId, encoded) := by
  have hinsert : ∀ {other : UserId} {session : PeerSession K Sec},
      ((m.sessions.insert other session).lookup peerId).isSome = true →
        peerId = other ∨ m.hasSession peerId = true := by
    intro other session hs
    rw [HMap.lookup_insert_eq] at hs
    split at hs
    · next heq => exact .inl heq
    · exact .inr hs
  have herase : ∀ {other : UserId}, ((m.sessions.erase other).lookup peerId).isSome = true →
      m.hasSession peerId = true := by
    intro other hs
    rw [HMap.lookup_erase_eq] at hs
    split at hs
    · cases hs
    · exact hs
  cases h with
  | initiated other bundle =>
    rcases hinsert hs with rfl | hs
    · exact .inr ⟨_, rfl⟩
    · exact .inl hs
  | expired | rejected => exact .inl (herase hs)
  | encrypted _ other _ _ original _ _ _ hsession =>
    rcases hinsert hs with rfl | hs
    · exact .inl (by rw [Manager.hasSession, hsession]; rfl)
    · exact .inl hs
  | decrypted other messageId envelope env plaintext session opkId hopens =>
    unfold Manager.hasSession Manager.marked Manager.opened at hs
    rw [takeOneTimePrekey_eq] at hs
    rcases hinsert hs with rfl | hs
    · cases hopens with
      | existing original _ _ _ _ _ _ hsession =>
        exact .inl (by rw [Manager.hasSession, hsession]; rfl)
      | first identityKey _ _ _ _ _ _ _ _ hheader =>
        exact .inr ⟨identityKey, by simp only [Op.claim, hheader]⟩
    · exact .inl hs
  | _ => exact .inl hs

/-- How a call of `decrypt_message_to_text` can end for the message it was given: it has decrypted
the message and there is a session, or there is no marker that was not there. -/
theorem decrypts_cases (S : IdentitySuite K Sec C) (m : Manager K Sec C) (peerId : UserId)
    (messageId : MessageId) (envelope : EncryptedEnvelope C) (env : DecryptEnv Sec) :
    let op : Op Sec C := .decryptMessageToText peerId messageId envelope env
    let after := finalState ((decryptMessageToText S peerId messageId envelope env).run m)
    (op.decrypts S m = some (peerId, messageId) ∧ after.hasSession peerId = true) ∨
      (op.decrypts S m = none ∧
        (after.Marks (peerId, messageId) → m.Marks (peerId, messageId))) := by
  obtain ⟨answer, m', hrun, hresult⟩ :=
    decryptMessageToText_result S peerId messageId envelope env m
  simp only [Op.decrypts, hrun, finalState]
  -- unless it decrypted, it has at most taken markers away
  have hkept : (∀ row, m'.processedMessages.lookup (peerId, messageId) = some row →
        m.processedMessages.lookup (peerId, messageId) = some row) →
      (∀ row, m'.MarkedAs (peerId, messageId) row → m.MarkedAs (peerId, messageId) row) →
      (if (m.processedMessages.lookup (peerId, messageId)).isNone = true ∧
          (m'.processedMessages.lookup (peerId, messageId)).isSome = true
        then some (peerId, messageId) else none) = none ∧
      (m'.Marks (peerId, messageId) → m.Marks (peerId, messageId)) := by
    intro hmemory hmarks
    refine ⟨if_neg ?_, Exists.imp hmarks⟩
    rintro ⟨hnone, hsome⟩
    obtain ⟨row, hrow⟩ := Option.isSome_iff_exists.mp hsome
    cases (Option.isNone_iff_eq_none.mp hnone).symm.trans (hmemory row hrow)
  cases hresult with
  | failed | known processed hmarker => exact .inr (hkept (fun _ => id) fun _ => id)
  | pruned =>
    exact .inr (hkept (fun _ => Manager.MarkedAs.of_keepFrom) fun _ => Manager.MarkedAs.of_pruned)
  | unsaved =>
    exact .inr (hkept
      (fun _ h => Manager.MarkedAs.of_keepFrom (Manager.MarkedAs.of_keepFrom h))
      fun _ h => h.of_prunedInMemory.of_pruned)
  | decrypted plaintext session opkId hopens hnew hrow =>
    left
    have hmarked : (((m.opened peerId session opkId env).marked (peerId, messageId)
        (env.row plaintext)).processedMessages.lookup (peerId, messageId)).isSome = true := by
      rw [Manager.marked, Finmap.lookup_insert]
      rfl
    refine ⟨if_pos ⟨by rw [hnew]; rfl, hmarked⟩, ?_⟩
    unfold Manager.hasSession Manager.marked Manager.opened
    rw [takeOneTimePrekey_eq, Finmap.lookup_insert]
    rfl

theorem Op.hasSession_of_decrypts (texts : List MessageId → Bytes) {key : UserId × MessageId}
    (h : op.decrypts S m = some key) :
    (finalState ((perform S texts op).run m)).hasSession key.1 = true := by
  cases op with
  | decryptMessageToText peerId messageId envelope env =>
    rw [perform, finalState_map]
    rcases decrypts_cases S m peerId messageId envelope env with ⟨hsome, hsession⟩ | ⟨hnone, -⟩
    · cases h.symm.trans hsome
      exact hsession
    · cases h.symm.trans hnone
  | _ => cases h

/-- A message with a text to store has a marker. -/
theorem marked_of_pending {messageId : MessageId} {envelope : EncryptedEnvelope C}
    {env : DecryptEnv Sec} {text : String}
    (h : value? ((decryptMessageToText S peerId messageId envelope env).run m) =
      some (.pending text)) :
    ((finalState ((decryptMessageToText S peerId messageId envelope
      env).run m)).processedMessages.lookup (peerId, messageId)).isSome = true := by
  obtain ⟨answer, m', hrun, hresult⟩ :=
    decryptMessageToText_result S peerId messageId envelope env m
  rw [hrun] at h ⊢
  have hanswer : answer = .pending text := Option.some.inj h
  cases hresult with
  | known processed hmarker =>
    rw [finalState, hmarker]
    rfl
  | decrypted plaintext session opkId hopens hnew hrow =>
    rw [finalState, Manager.marked, Finmap.lookup_insert]
    rfl
  | _ => cases hanswer

/-- A session where there was none has been made with the identity field of the operation. -/
theorem Op.agrees_of_new {encoded : B64Text Bytes} (hclaim : op.claim = some (peerId, encoded))
    (hbefore : m.hasSession peerId = false)
    (hafter : (finalState ((perform S texts op).run m)).hasSession peerId = true) :
    op.agrees S m = true := by
  cases op with
  | initSessionFromBundle other bundle ephemeral drawn now fails =>
    cases hclaim
    rw [perform, finalState_map] at hafter
    rcases initSessionFromBundle_cases S peerId bundle ephemeral drawn now fails m with
      ⟨e, hrun⟩ | ⟨session, -, hrun⟩
    · rw [hrun] at hafter
      cases hbefore.symm.trans hafter
    · rw [Op.agrees, hrun]
      rfl
  | decryptMessageToText other messageId envelope env =>
    obtain rfl : other = peerId := by
      simp only [Op.claim] at hclaim
      split at hclaim <;> cases hclaim
      rfl
    rw [perform, finalState_map] at hafter
    rw [Op.agrees, hbefore, hafter]
    rfl
  | _ => cases hclaim

theorem identityKeyOf_of_decoded {encoded : B64Text Bytes} {error : ManagerError} {key : Key32}
    (h : b64DecodeFixed 32 encoded error = .ok key) : identityKeyOf encoded = some key := by
  unfold identityKeyOf
  unfold b64DecodeFixed at h ⊢
  split at h
  · cases h
  · split at h
    · next hlength =>
      cases h
      rw [dif_pos hlength]
      rfl
    · cases h

/-- A session is made with an identity field that holds a key. -/
theorem Op.decodes_of_agrees {encoded : B64Text Bytes} (hclaim : op.claim = some (peerId, encoded))
    (h : op.agrees S m = true) : (identityKeyOf encoded).isSome = true := by
  cases op with
  | initSessionFromBundle other bundle ephemeral drawn now fails =>
    cases hclaim
    rcases initSessionFromBundle_cases S peerId bundle ephemeral drawn now fails m with
      ⟨e, hrun⟩ | ⟨session, hsession, -⟩
    · rw [Op.agrees, hrun] at h
      cases h
    · obtain ⟨_, _, _, hbundle, -⟩ := sessionFromBundle_eq_ok hsession
      obtain ⟨key, hkey, -⟩ := (bind_eq_ok _ _ _).mp hbundle
      rw [identityKeyOf_of_decoded hkey]
      rfl
  | decryptMessageToText other messageId envelope env =>
    obtain ⟨hnone, hafter⟩ := Bool.and_eq_true_iff.mp h
    rw [Bool.not_eq_true'] at hnone
    obtain ⟨answer, m', hrun, hresult⟩ :=
      decryptMessageToText_result S other messageId envelope env m
    rw [hrun, finalState] at hafter
    cases hresult with
    | decrypted plaintext session opkId hopens =>
      cases hopens with
      | existing original _ _ _ _ _ _ hsession =>
        rw [Manager.hasSession, hsession] at hnone
        cases hnone
      | first identityKey _ _ _ _ fields _ _ _ hheader hfields =>
        simp only [Op.claim, hheader] at hclaim
        cases hclaim
        obtain ⟨_, -, hfields⟩ := (bind_eq_ok _ _ _).mp hfields
        obtain ⟨key, hkey, -⟩ := (bind_eq_ok _ _ _).mp hfields
        rw [identityKeyOf_of_decoded hkey]
        rfl
    | _ => cases hnone.symm.trans hafter
  | _ => cases hclaim

/-! ## The key behind a message -/

/-- There is a key behind every session, and behind every message with a marker. -/
structure IdentityTrace.Keyed (t : IdentityTrace K Sec C) : Prop where
  session : ∀ peerId, t.manager.hasSession peerId = true → (t.entered peerId).isSome = true
  marker : ∀ key, t.manager.Marks key → (t.decryptedUnder key).isSome = true

section Keyed

variable {t : IdentityTrace K Sec C}

theorem IdentityTrace.Keyed.entered (h : t.Keyed) (hsound : t.manager.Sound)
    (hafter : (t.step S texts op).manager.hasSession peerId = true) :
    (t.enteredAfter S op peerId).isSome = true := by
  have hfrom := (perform_outcome texts hsound op).hasSession hafter
  unfold IdentityTrace.enteredAfter
  cases hclaim : op.claim with
  | none =>
    rcases hfrom with hbefore | ⟨encoded, hsome⟩
    · exact h.session peerId hbefore
    · cases hclaim.symm.trans hsome
  | some claim =>
    obtain ⟨other, encoded⟩ := claim
    dsimp only
    by_cases hother : other = peerId
    · subst hother
      split
      · next hagrees =>
        rw [Function.update_self]
        exact Op.decodes_of_agrees hclaim hagrees
      · next hagrees =>
        cases hbefore : t.manager.hasSession other with
        | true => exact h.session other hbefore
        | false => exact absurd (Op.agrees_of_new hclaim hbefore hafter) hagrees
    · have hbefore : t.manager.hasSession peerId = true := by
        rcases hfrom with hbefore | ⟨encoded', hsome⟩
        · exact hbefore
        · cases hclaim.symm.trans hsome
          exact absurd rfl hother
      split
      · rw [Function.update_of_ne (Ne.symm hother)]
        exact h.session peerId hbefore
      · exact h.session peerId hbefore

theorem IdentityTrace.Keyed.step (h : t.Keyed) (hsound : t.manager.Sound) (op : Op Sec C) :
    (t.step S texts op).Keyed := by
  refine ⟨fun peerId hafter => h.entered hsound hafter, fun key hmarks => ?_⟩
  have hkept (hbefore : (t.decryptedUnder key).isSome = true) :
      ((t.step S texts op).decryptedUnder key).isSome = true := by
    unfold IdentityTrace.step
    cases hdecrypts : op.decrypts S t.manager with
    | none => exact hbefore
    | some other =>
      dsimp only
      by_cases heq : key = other
      · subst heq
        rw [Function.update_self]
        exact h.entered hsound (Op.hasSession_of_decrypts texts hdecrypts)
      · rw [Function.update_of_ne heq]
        exact hbefore
  rcases (perform_outcome texts hsound op).marks hmarks with hbefore | ⟨envelope, env, rfl⟩
  · exact hkept (h.marker key hbefore)
  · rcases decrypts_cases S t.manager key.1 key.2 envelope env with ⟨hsome, -⟩ | ⟨-, hmarked⟩
    · have hentered : (t.enteredAfter S _ key.1).isSome = true :=
        h.entered hsound (Op.hasSession_of_decrypts texts hsome)
      simp only [IdentityTrace.step, hsome, Function.update_self]
      exact hentered
    · refine hkept (h.marker key (hmarked ?_))
      rw [IdentityTrace.step, perform, finalState_map] at hmarks
      exact hmarks

theorem IdentityRun.keyed (run : IdentityRun S texts t) : t.Keyed := by
  induction run with
  | start identity loadedAt cutoffNow pruneNow m hload =>
    cases hload
    refine ⟨fun _ hs => (by cases hs), ?_⟩
    rintro key ⟨row, hrow | hrow⟩
    · cases Manager.MarkedAs.of_keepFrom hrow
    · cases Manager.MarkedAs.of_keepFrom hrow
  | op run op ih =>
    obtain ⟨prunedAt, hm⟩ := run.durable
    exact ih.step hm.sound op
  | restart run loadedAt cutoffNow pruneNow m hload ih =>
    obtain ⟨prunedAt, hm⟩ := run.durable
    rw [hm.load] at hload
    cases hload
    exact ⟨ih.session, fun key ⟨row, hrow⟩ => ih.marker key ⟨row, hrow.of_reloaded⟩⟩

/-- The key that is known for a message before it is read: the one behind it if it has a marker,
and else the one behind the session with its sender. -/
def IdentityTrace.known (t : IdentityTrace K Sec C) (key : UserId × MessageId) : Option Key32 :=
  if (t.manager.processedMessages.lookup key).isSome then t.decryptedUnder key
  else if t.manager.hasSession key.1 then t.entered key.1
  else none

/-- The key behind a message that is decrypted now. -/
theorem IdentityTrace.Keyed.decrypts (h : t.Keyed) {encoded : B64Text Bytes}
    {key : UserId × MessageId} (hclaim : op.claim = some (key.1, encoded))
    (hdecrypts : op.decrypts S t.manager = some key)
    (hnew : (t.manager.processedMessages.lookup key).isSome = false)
    (hknown : ∀ identity, t.known key = some identity → identityKeyOf encoded = some identity) :
    ∃ tracked, identityKeyOf encoded = some tracked ∧ t.enteredAfter S op key.1 = some tracked := by
  have hafter := Op.hasSession_of_decrypts (fun _ => []) hdecrypts
  unfold IdentityTrace.known at hknown
  rw [hnew] at hknown
  unfold IdentityTrace.enteredAfter
  simp only [hclaim]
  cases hbefore : t.manager.hasSession key.1 with
  | true =>
    obtain ⟨identity, hidentity⟩ := Option.isSome_iff_exists.mp (h.session key.1 hbefore)
    have hagrees : op.agrees S t.manager = false := by
      cases op with
      | decryptMessageToText peerId messageId envelope env =>
        obtain rfl : peerId = key.1 := by
          simp only [Op.claim] at hclaim
          split at hclaim <;> cases hclaim
          rfl
        rw [Op.agrees, hbefore]
        rfl
      | _ => cases hdecrypts
    rw [hagrees]
    exact ⟨identity, hknown identity (by rw [hbefore]; exact hidentity), hidentity⟩
  | false =>
    have hagrees := Op.agrees_of_new hclaim hbefore hafter
    obtain ⟨tracked, htracked⟩ :=
      Option.isSome_iff_exists.mp (Op.decodes_of_agrees hclaim hagrees)
    rw [hagrees, if_pos rfl, Function.update_self]
    exact ⟨tracked, htracked, htracked⟩

/-- **The tracked identity key is the authenticated one.** When the header of a PreKey envelope
names the key that is known for the message, if one is, the key that `process_inbound` tracks is
the one that entered the X3DH computation of the session that decrypted the envelope. -/
theorem tracked_identity_authenticated (run : IdentityRun S texts t) (inbound : InboundMessage C)
    (env : InboundEnv Sec)
    (hknown : ∀ key, t.known (inbound.senderId, inbound.messageId) = some key →
      ∀ claim ∈ claimedIdentity inbound, identityKeyOf claim.2 = some key) :
    ∀ claim ∈ inboundIdentity S t.manager inbound env, ∃ tracked,
      identityKeyOf claim.2 = some tracked ∧
      (t.step S texts (.decryptMessageToText inbound.senderId inbound.messageId inbound.envelope
        env.decrypt)).decryptedUnder (inbound.senderId, inbound.messageId) = some tracked := by
  intro claim hclaim
  have hcarried := inboundIdentity_subset S t.manager inbound env hclaim
  unfold inboundIdentity at hclaim
  split at hclaim
  case h_2 => cases hclaim
  next text encoded _ _ _ _ hpending hheader =>
  cases List.mem_singleton.mp hclaim
  have hmarked := marked_of_pending hpending
  have hopclaim : (Op.decryptMessageToText inbound.senderId inbound.messageId inbound.envelope
      env.decrypt : Op Sec C).claim = some (inbound.senderId, encoded) := by
    simp only [Op.claim, hheader]
  rcases decrypts_cases S t.manager inbound.senderId inbound.messageId inbound.envelope
      env.decrypt with ⟨hsome, -⟩ | ⟨hnone, -⟩
  · have hnew : (t.manager.processedMessages.lookup
        (inbound.senderId, inbound.messageId)).isSome = false := by
      simp only [Op.decrypts] at hsome
      split at hsome
      · next hboth => exact Option.isSome_eq_false_iff.mpr hboth.1
      · cases hsome
    obtain ⟨tracked, htracked, hentered⟩ := run.keyed.decrypts hopclaim hsome hnew
      fun key hkey => hknown key hkey _ hcarried
    refine ⟨tracked, htracked, ?_⟩
    simp only [IdentityTrace.step, hsome, Function.update_self]
    exact hentered
  · -- the message had a marker before
    have hold : (t.manager.processedMessages.lookup
        (inbound.senderId, inbound.messageId)).isSome = true := by
      simp only [Op.decrypts] at hnone
      split at hnone
      · cases hnone
      · next hnot =>
        refine Option.isSome_iff_ne_none.mpr fun hlookup => hnot ⟨?_, hmarked⟩
        rw [hlookup]
        rfl
    obtain ⟨row, hrow⟩ := Option.isSome_iff_exists.mp hold
    obtain ⟨tracked, htracked⟩ := Option.isSome_iff_exists.mp
      (run.keyed.marker (inbound.senderId, inbound.messageId) ⟨row, .inl hrow⟩)
    refine ⟨tracked, hknown tracked ?_ _ hcarried, ?_⟩
    · rw [IdentityTrace.known, if_pos hold, htracked]
    · simp only [IdentityTrace.step, hnone]
      exact htracked

end Keyed

/-! ## A peer with two keys -/

def readsAt : InboundEnv Key32 := ⟨⟨200, 200, 200, key32 7, false, false⟩, false, false⟩

/-- Bob has registered and decrypted Alice's first message. -/
def bobOpened : IdentityTrace Term Key32 Ciphertext :=
  let start : IdentityTrace Term Key32 Ciphertext :=
    ⟨newManager (key32 9), fun _ => none, fun _ => none⟩
  (start.step symbolicIdentity (fun _ => []) bobRegisters).step symbolicIdentity (fun _ => [])
    (.decryptMessageToText alice ⟨1⟩ firstEnvelope readsAt.decrypt)

set_option maxRecDepth 4000 in
theorem bobOpened_run : IdentityRun symbolicIdentity (fun _ => []) bobOpened :=
  .op (.op (.start (key32 9) 0 0 0 (newManager (key32 9)) rfl) bobRegisters) _

/-- Alice's next message, in a PreKey header with an identity key. -/
def nextEnvelope (identityKey : Key32) : EncryptedEnvelope Ciphertext :=
  match firstSent.manager.sessions.lookup bob with
  | none => firstEnvelope
  | some session =>
    let claiming : PeerSession Term Key32 :=
      { session with prekeyHeader := some ⟨key32 2, 1, none⟩ }
    match (encrypt symbolicIdentity.toSuite [105]
        (claiming.envelopeAad identityKey)).run session.ratchet with
    | .error _ _ => firstEnvelope
    | .ok message _ => claiming.wrap symbolicIdentity identityKey message

/-- Bob reads it. -/
def bobReadsNext (identityKey : Key32) : IdentityTrace Term Key32 Ciphertext :=
  bobOpened.step symbolicIdentity (fun _ => [])
    (.decryptMessageToText alice ⟨2⟩ (nextEnvelope identityKey) readsAt.decrypt)

set_option maxRecDepth 4000 in
/-- With Alice's own key the header names the key behind the session. -/
theorem tracked_identity_authenticated_alice :
    bobOpened.known (alice, ⟨2⟩) = some (key32 1) ∧
      inboundIdentity symbolicIdentity bobOpened.manager ⟨⟨2⟩, alice, nextEnvelope (key32 1)⟩
        readsAt = [(alice, b64Encode (key32 1).toList)] ∧
      (bobReadsNext (key32 1)).decryptedUnder (alice, ⟨2⟩) = some (key32 1) := by
  have hclaim : inboundIdentity symbolicIdentity bobOpened.manager
      ⟨⟨2⟩, alice, nextEnvelope (key32 1)⟩ readsAt = [(alice, b64Encode (key32 1).toList)] := rfl
  have hknown : bobOpened.known (alice, ⟨2⟩) = some (key32 1) := rfl
  refine ⟨hknown, hclaim, ?_⟩
  obtain ⟨tracked, hkey, hunder⟩ := tracked_identity_authenticated bobOpened_run
    ⟨⟨2⟩, alice, nextEnvelope (key32 1)⟩ readsAt (fun key hkey claim hmem => by
      cases hknown.symm.trans hkey
      cases List.mem_singleton.mp hmem
      rfl) _ (hclaim ▸ List.mem_singleton.mpr rfl)
  cases hkey
  exact hunder

set_option maxRecDepth 4000 in
/-- With another key, the session that X3DH made with Alice's key opens the message, and the other
key is tracked. -/
theorem tracked_identity_unauthenticated :
    IdentityRun symbolicIdentity (fun _ => []) bobOpened ∧
      inboundIdentity symbolicIdentity bobOpened.manager ⟨⟨2⟩, alice, nextEnvelope (key32 77)⟩
        readsAt = [(alice, b64Encode (key32 77).toList)] ∧
      (bobReadsNext (key32 77)).decryptedUnder (alice, ⟨2⟩) = some (key32 1) :=
  ⟨bobOpened_run, rfl, rfl⟩

end Cmp.Client
