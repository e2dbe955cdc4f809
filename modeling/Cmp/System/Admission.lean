import Cmp.Client.KeyUse
import Cmp.Client.Traffic
import Cmp.Relay.Acceptance
import Cmp.Relay.Handlers

/-! A client and the relay. What the client sends reaches the relay in order, but any of
it may be lost; replies may be lost or late; the client may crash; other clients use the
relay under ids of their own. -/

namespace Cmp.System

open Cmp.Crypto Cmp.Protocol Cmp.Lib Cmp.Lib.Action Cmp.Client Cmp.Relay

variable {K Sec C D : Type}

/-- `network` is what the client has sent and `handled` what the relay has taken from it;
`replies` are all answers to the client; `used` are the ids of its messages. -/
structure State (K Sec C D : Type) where
  app : App K Sec C
  network : List (ClientMessage C)
  handled : List (ClientMessage C)
  replies : List (ServerMessage C)
  db : Db C D
  log : List (Entry C D)
  used : List MessageId

/-- The replies of the relay are what `MessageSent` events come from, and a new message
has a new id. -/
def State.Admits (s : State K Sec C D) : Event Sec C → Prop
  | .messageSent messageId _ => .messageSent messageId ∈ s.replies
  | .enter _ _ _ env _ =>
    env.id ∉ s.used ∧ ∀ entry ∈ s.log, ∀ request createdAt,
      entry.transaction = .enqueue request createdAt → request.messageId ≠ env.id
  | _ => True

/-- The transactions of other clients, and of the relay itself. -/
def Foreign (me : UserId) (used : List MessageId) : Transaction C → Prop
  | .enqueue request _ => request.messageId ∉ used
  | .confirmAcceptances senderId _ => senderId ≠ me
  | _ => True

section Steps

variable [DecidableEq D] (S : IdentitySuite K Sec C) (texts : List MessageId → Bytes)
  (parses : String → Bool) (pageLen : InboundMessage C → Nat → Nat)
  (digest : EncryptedEnvelope C → D) (me : UserId)

/-- The client handles an event. -/
def State.handle (e : Event Sec C) (s : State K Sec C D) : State K Sec C D :=
  let app := finalState ((App.handle S texts parses e).run { s.app with outgoing := [] })
  { s with
    app := app
    network := s.network ++ app.outgoing
    used := s.used ++ e.composes.toList }

/-- The relay handles `message`, after which `rest` is on its way. -/
def State.serve (message : ClientMessage C) (rest : List (ClientMessage C)) (env : RelayEnv)
    (fails : Bool) (s : State K Sec C D) : State K Sec C D :=
  let handling := handleMessage S pageLen me env s.db message
  { s with
    network := rest
    handled := s.handled ++ [message]
    replies := s.replies ++ (handling.run digest fails s.db).1.toList
    db := (handling.run digest fails s.db).2
    log := s.log ++ handling.entries fails s.db }

def State.transact (t : Transaction C) (s : State K Sec C D) : State K Sec C D :=
  { s with db := t.after digest s.db, log := s.log ++ [⟨s.db, t⟩] }

/-- Runs of a client from an empty data directory with a fresh relay. -/
inductive Run : State K Sec C D → Prop
  | start (identity : Sec) (loadedAt cutoffNow pruneNow : Nat) (m : Manager K Sec C)
      (hload :
        loadOrGenerate identity (CryptoStore.empty K Sec C) loadedAt cutoffNow pruneNow false =
        .ok m) :
      Run ⟨App.new me m [], [], [], [], Db.fresh, [], []⟩
  | register {s : State K Sec C D} (run : Run s) (spk : SignedPreKey Sec)
      (opks : List (UInt32 × OneTimePreKey Sec)) (rotatedAt createdAt : Nat) (fails : Bool) :
      Run
        { s with
          app :=
            { s.app with
              crypto := finalState
                ((persistRegistrationKeys spk opks rotatedAt createdAt fails).run s.app.crypto) } }
  | event {s : State K Sec C D} (run : Run s) (e : Event Sec C) (hadmits : s.Admits e) :
      Run (s.handle S texts parses e)
  | restart {s : State K Sec C D} (run : Run s) (loadedAt cutoffNow pruneNow : Nat)
      (m : Manager K Sec C)
      (hload : loadOrGenerate s.app.crypto.identity s.app.crypto.store loadedAt cutoffNow pruneNow
        false = .ok m) :
      Run { s with app := App.new me m s.app.messages }
  | lose {s : State K Sec C D} (run : Run s) (rest : List (ClientMessage C))
      (hrest : rest.Sublist s.network) : Run { s with network := rest }
  | serve {s : State K Sec C D} (run : Run s) (message : ClientMessage C)
      (rest : List (ClientMessage C)) (hnetwork : s.network = message :: rest) (env : RelayEnv)
      (fails : Bool) : Run (s.serve S pageLen digest me message rest env fails)
  | transact {s : State K Sec C D} (run : Run s) (t : Transaction C)
      (hforeign : Foreign me s.used t) : Run (s.transact digest t)

end Steps

/-! ## Insertions -/

variable [DecidableEq D] {digest : EncryptedEnvelope C → D}

/-- The queue rows inserted under an id. -/
def insertions (digest : EncryptedEnvelope C → D) (log : List (Entry C D)) (id : MessageId) :
    List (QueueRow C) :=
  (log.filterMap (Entry.inserted digest)).filter fun row => row.messageId = id

theorem insertions_append (log : List (Entry C D)) (e : Entry C D) (id : MessageId) :
    insertions digest (log ++ [e]) id =
      insertions digest log id ++ ((e.inserted digest).toList.filter fun row =>
        row.messageId = id) := by
  unfold insertions
  rw [List.filterMap_append, List.filter_append]
  cases h : e.inserted digest <;> simp [h]

/-- What an entry that inserts a row has found and left in the ledger. -/
theorem inserted_cases {db db' : Db C D} {t : Transaction C} {answer : Option Answer}
    {row : QueueRow C} (hanswer : t.answer? digest db = answer)
    (heffect : Effect digest db t answer db')
    (hrow : Entry.inserted digest ⟨db, t⟩ = some row) :
    ∃ request createdAt, t = .enqueue request createdAt ∧ row.messageId = request.messageId ∧
      (∀ acceptance ∈ db.messageAcceptances, acceptance.messageId ≠ request.messageId) ∧
      ∃ acceptance ∈ db'.messageAcceptances, acceptance.messageId = request.messageId ∧
        acceptance.senderId = request.senderId := by
  unfold Entry.inserted Entry.answer? at hrow
  rw [hanswer] at hrow
  split at hrow
  · next request createdAt ht =>
    cases hrow
    change t = _ at ht
    subst ht
    cases heffect with
    | enqueued _ _ _ _ h =>
      cases h with
      | refused result hresult => cases hresult
      | inserted queue acceptances _ _ _ haccepted =>
        exact ⟨request, createdAt, rfl, rfl, Table.ne_of_insert haccepted, _,
          (Table.mem_insert haccepted).mpr (.inr rfl), rfl, rfl⟩
  · cases hrow

/-- Each id of the client has been inserted at most once, and then the ledger holds it or
the relay has handled its confirmation. -/
structure Counted (digest : EncryptedEnvelope C → D) (me : UserId) (used : List MessageId)
    (handled : List (ClientMessage C)) (db : Db C D) (log : List (Entry C D)) : Prop where
  once : ∀ id ∈ used, (insertions digest log id).length ≤ 1
  kept : ∀ id ∈ used, insertions digest log id ≠ [] →
    (∃ row ∈ db.messageAcceptances, row.messageId = id ∧ row.senderId = me) ∨
      ∃ message ∈ handled, confirmsId id message = true

section

variable {me : UserId} {used : List MessageId} {handled handled' : List (ClientMessage C)}
  {db db' : Db C D} {log : List (Entry C D)}

theorem Counted.step (h : Counted digest me used handled db log) (hhandled : handled ⊆ handled')
    {t : Transaction C} {answer : Option Answer} (hanswer : t.answer? digest db = answer)
    (heffect : Effect digest db t answer db')
    (henqueue : ∀ request createdAt, t = .enqueue request createdAt → request.messageId ∈ used →
      request.senderId = me ∧
        ∀ message ∈ handled, confirmsId request.messageId message = false)
    (hconfirm : ∀ messageIds, t = .confirmAcceptances me messageIds → ∀ id ∈ messageIds,
      ∃ message ∈ handled', confirmsId id message = true) :
    Counted digest me used handled' db' (log ++ [⟨db, t⟩]) := by
  -- an id stays accounted for: its ledger row goes only with the confirmation
  have hkept : ∀ id ∈ used, insertions digest log id ≠ [] →
      (∃ row ∈ db'.messageAcceptances, row.messageId = id ∧ row.senderId = me) ∨
        ∃ message ∈ handled', confirmsId id message = true := by
    intro id hid hne
    rcases h.kept id hid hne with ⟨row, hrow, rfl, hsender⟩ | ⟨message, hmessage, hconfirms⟩
    · rcases heffect.acceptance_kept hrow with hrow' | ⟨messageIds, ht, hmem⟩
      · exact .inl ⟨row, hrow', rfl, hsender⟩
      · rw [hsender] at ht
        exact .inr (hconfirm messageIds ht _ hmem)
    · exact .inr ⟨message, hhandled hmessage, hconfirms⟩
  have hnew : ∀ id ∈ used,
      insertions digest (log ++ [⟨db, t⟩]) id = insertions digest log id ∨
      insertions digest log id = [] ∧ (insertions digest (log ++ [⟨db, t⟩]) id).length ≤ 1 ∧
        ∃ row ∈ db'.messageAcceptances, row.messageId = id ∧ row.senderId = me := by
    intro id hid
    rw [insertions_append]
    cases hrow : Entry.inserted digest ⟨db, t⟩ with
    | none => exact .inl (List.append_nil _)
    | some row =>
      by_cases hrowId : row.messageId = id
      · right
        obtain ⟨request, createdAt, rfl, hreq, hfree, acceptance, ha, haId, haSender⟩ :=
          inserted_cases hanswer heffect hrow
        have hreqId : request.messageId = id := hreq.symm.trans hrowId
        obtain ⟨hsender, hunconfirmed⟩ := henqueue request createdAt rfl (hreqId ▸ hid)
        have hnone : insertions digest log id = [] := by
          by_contra hne
          rcases h.kept id hid hne with ⟨row', hrow', hid', -⟩ | ⟨message, hmessage, hconfirms⟩
          · exact hfree row' hrow' (hid'.trans hreqId.symm)
          · rw [← hreqId, hunconfirmed message hmessage] at hconfirms
            cases hconfirms
        refine ⟨hnone, ?_, acceptance, ha, haId.trans hreqId, haSender.trans hsender⟩
        rw [hnone, List.nil_append]
        exact List.length_filter_le _ _
      · left
        simp [hrowId]
  constructor
  · intro id hid
    rcases hnew id hid with heq | ⟨-, hle, -⟩
    · rw [heq]
      exact h.once id hid
    · exact hle
  · intro id hid hne
    rcases hnew id hid with heq | ⟨-, -, hrow⟩
    · rw [heq] at hne
      exact hkept id hid hne
    · exact .inl hrow

end

/-! ## Runs -/

structure Invariant (digest : EncryptedEnvelope C → D) (me : UserId) (s : State K Sec C D) :
    Prop where
  durable : ∃ prunedAt, s.app.crypto.Durable prunedAt
  inOrder : IdsInOrder s.used s.app.crypto (s.handled ++ s.network)
  replied : ∀ id, .messageSent id ∈ s.replies → id ∈ s.used
  counted : Counted digest me s.used s.handled s.db s.log

section

variable {S : IdentitySuite K Sec C} {texts : List MessageId → Bytes} {parses : String → Bool}
  {pageLen : InboundMessage C → Nat → Nat} {me : UserId} {s : State K Sec C D}

theorem Invariant.handle (h : Invariant digest me s) (e : Event Sec C) (hadmits : s.Admits e) :
    Invariant digest me (s.handle S texts parses e) := by
  have hused : s.used ⊆ s.used ++ e.composes.toList := List.subset_append_left ..
  have hmid : MidEvent (s.used ++ e.composes.toList) e s.app.crypto
      ((s.handled ++ s.network) ++ []) := by
    rw [List.append_nil]
    refine ⟨h.durable, h.inOrder.use hused, fun id hid => ⟨?_, fun message hmessage => ?_⟩⟩
    · rw [hid]
      exact List.mem_append_right _ (List.mem_singleton_self id)
    · cases e with
      | enter text now expireFails env historyFails =>
        cases hid
        by_contra hconfirms
        exact hadmits.1 (h.inOrder.confirms _ message hmessage (eq_true_of_ne_false hconfirms))
      | _ => cases hid
  have hconfirmed : ∀ id fails, e = .messageSent id fails → id ∈ s.used ++ e.composes.toList := by
    rintro id fails rfl
    exact hused (h.replied id hadmits)
  have hafter := hmid.moves hconfirmed (handle_moves S texts parses e { s.app with outgoing := [] })
  refine ⟨hafter.durable, ?_, fun id hid => hused (h.replied id hid), ?_⟩
  · have hinOrder := hafter.inOrder
    rw [List.append_assoc] at hinOrder
    exact hinOrder
  · -- a new id has not been inserted
    have hfresh : ∀ id ∈ s.used ++ e.composes.toList, id ∈ s.used ∨
        insertions digest s.log id = [] := by
      intro id hid
      rcases List.mem_append.mp hid with hid | hid
      · exact .inl hid
      cases e with
      | enter text now expireFails env historyFails =>
        right
        rw [List.mem_singleton.mp hid]
        refine List.filter_eq_nil_iff.mpr fun row hrow hrowId => ?_
        obtain ⟨entry, hentry, hinserted⟩ := List.mem_filterMap.mp hrow
        obtain ⟨request, createdAt, ht, hrequest, -⟩ :=
          inserted_cases rfl (entry.transaction.effect digest entry.before) hinserted
        exact hadmits.2 entry hentry request createdAt ht
          (hrequest.symm.trans (of_decide_eq_true hrowId))
      | _ => cases hid
    constructor
    · intro id hid
      rcases hfresh id hid with hid | hnone
      · exact h.counted.once id hid
      · exact hnone ▸ Nat.zero_le 1
    · intro id hid hne
      rcases hfresh id hid with hid | hnone
      · exact h.counted.kept id hid hne
      · exact absurd hnone hne

theorem Invariant.serve (h : Invariant digest me s) {message : ClientMessage C}
    {rest : List (ClientMessage C)} (hnetwork : s.network = message :: rest) (env : RelayEnv)
    (fails : Bool) : Invariant digest me (s.serve S pageLen digest me message rest env fails) := by
  have hinOrder := h.inOrder
  rw [hnetwork, ← List.singleton_append, ← List.append_assoc] at hinOrder
  have hmem : message ∈ s.handled ++ [message] ++ rest :=
    List.mem_append_left _ (List.mem_append_right _ (List.mem_singleton_self message))
  have hhandled : s.handled ⊆ s.handled ++ [message] := List.subset_append_left ..
  refine ⟨h.durable, hinOrder, fun id hid => ?_, ?_⟩
  · rcases List.mem_append.mp hid with hid | hid
    · exact h.replied id hid
    · obtain ⟨recipientId, envelope, rfl⟩ :=
        (handleMessage_answers (S := S)).run (Option.mem_toList.mp hid)
      exact hinOrder.sends id _ hmem (beq_self_eq_true id)
  · unfold State.serve
    cases hhandling : handleMessage S pageLen me env s.db message with
    | reply reply =>
      simp only [Handling.run, Handling.entries, List.append_nil]
      exact ⟨h.counted.once, fun id hid hne =>
        (h.counted.kept id hid hne).imp_right fun ⟨m, hm, hc⟩ => ⟨m, hhandled hm, hc⟩⟩
    | transact t respond =>
      cases fails with
      | true =>
        simp only [Handling.run, Handling.entries, if_true, List.append_nil]
        exact ⟨h.counted.once, fun id hid hne =>
          (h.counted.kept id hid hne).imp_right fun ⟨m, hm, hc⟩ => ⟨m, hhandled hm, hc⟩⟩
      | false =>
        simp only [Handling.run, Handling.entries, Bool.false_eq_true, if_false]
        have hserves := handleMessage_serves hhandling
        refine h.counted.step hhandled rfl (t.effect digest s.db) ?_ ?_
        · rintro request createdAt rfl -
          obtain ⟨recipientId, messageId, envelope, -, rfl, rfl⟩ := hserves
          refine ⟨rfl, fun message' hmessage' => ?_⟩
          -- a confirmation handled before would stand before this message
          by_contra hconfirms
          have horder := hinOrder.order messageId
          rw [List.append_assoc] at horder
          have hpair := (List.pairwise_append.mp horder).2.2 message' hmessage' _
            (List.mem_append_left _ (List.mem_singleton_self _)) (eq_true_of_ne_false hconfirms)
          exact Bool.false_ne_true (hpair.symm.trans (beq_self_eq_true messageId))
        · rintro messageIds rfl id hid
          obtain ⟨-, rfl⟩ := hserves
          exact ⟨_, List.mem_append_right _ (List.mem_singleton_self _),
            List.contains_iff_mem.mpr hid⟩

theorem Run.invariant (run : Run S texts parses pageLen digest me s) : Invariant digest me s := by
  induction run with
  | start identity loadedAt cutoffNow pruneNow m hload =>
    have hpending : m.pendingOutbound = [] := by cases hload; rfl
    exact ⟨⟨_, Manager.Durable.start hload⟩, IdsInOrder.start hpending,
      fun id hid => absurd hid List.not_mem_nil, fun id hid => absurd hid List.not_mem_nil,
      fun id hid => absurd hid List.not_mem_nil⟩
  | @register s run spk opks rotatedAt createdAt fails ih =>
    obtain ⟨prunedAt, hdurable⟩ := ih.durable
    rcases persistRegistrationKeys_cases spk opks rotatedAt createdAt fails s.app.crypto with
      ⟨err, hrun⟩ | hrun
    · rw [hrun]
      exact ih
    · have houtcome : Outcome S s.app.crypto _ [] _ :=
        .registered spk opks rotatedAt createdAt fails
      rw [hrun]
      exact ⟨⟨_, hdurable.outcome houtcome⟩, ih.inOrder.outbox fun id hid => .inl hid, ih.replied,
        ih.counted⟩
  | event run e hadmits ih => exact ih.handle e hadmits
  | restart run loadedAt cutoffNow pruneNow m hload ih =>
    obtain ⟨prunedAt, hdurable⟩ := ih.durable
    rw [hdurable.load] at hload
    cases hload
    refine ⟨⟨_, hdurable.reloaded cutoffNow pruneNow⟩, ih.inOrder.outbox fun id hid => .inl ?_,
      ih.replied, ih.counted⟩
    -- the rows of the store are the items in memory
    obtain ⟨item, hitem, hid⟩ := hid
    exact ⟨item, hdurable.outbox.perm.mem_iff.mp hitem, hid⟩
  | lose run rest hrest ih =>
    exact ⟨ih.durable, ih.inOrder.lose (hrest.append_left _), ih.replied, ih.counted⟩
  | serve run message rest hnetwork env fails ih => exact ih.serve hnetwork env fails
  | @transact s run t hforeign ih =>
    refine ⟨ih.durable, ih.inOrder, ih.replied,
      ih.counted.step (fun _ => id) rfl (t.effect digest s.db) ?_ ?_⟩
    · rintro request createdAt rfl hid
      exact absurd hid hforeign
    · rintro messageIds rfl
      exact absurd rfl hforeign

/-- **Admitted once.** In every run each id of a message of the client is inserted into
the queue at most once. -/
theorem message_inserted_once (run : Run S texts parses pageLen digest me s) {id : MessageId}
    (hid : id ∈ s.used) : (insertions digest s.log id).length ≤ 1 :=
  run.invariant.counted.once id hid

end

/-! ## A message that is sent twice -/

def sampleDigest (envelope : EncryptedEnvelope Ciphertext) : Nat := envelope.ciphertext.length

abbrev SampleState := State Term Key32 Ciphertext Nat

abbrev SampleRun (s : SampleState) : Prop :=
  Run symbolicIdentity (fun _ => []) (fun _ => true) (fun _ _ => 0) sampleDigest Client.alice s

def handles (s : SampleState) (e : Event Key32 Ciphertext) : SampleState :=
  s.handle symbolicIdentity (fun _ => []) (fun _ => true) e

theorem handles_run {s : SampleState} (run : SampleRun s) {e : Event Key32 Ciphertext}
    (hadmits : s.Admits e) : SampleRun (handles s e) :=
  run.event e hadmits

/-- The relay handles what is first on its way. -/
def serves (s : SampleState) : SampleState :=
  match s.network with
  | message :: rest =>
    s.serve symbolicIdentity (fun _ _ => 0) sampleDigest Client.alice message rest
      ⟨100, 100, 100, fun _ => 100, 100, 0⟩ false
  | [] => s

theorem serves_run {s : SampleState} (run : SampleRun s) : SampleRun (serves s) := by
  unfold serves
  split
  · next message rest hnetwork => exact run.serve message rest hnetwork _ false
  · exact run

def bobBundle : PreKeyBundle :=
  publishedBundle symbolicIdentity (key32 9)
    (SignedPreKey.generate symbolicIdentity 1 (key32 9) (key32 8)) none

/-- Alice, with Bob registered at the relay. -/
def aliceStarts : SampleState :=
  State.transact sampleDigest (.registerAtomic ⟨Client.bob, [], 1, [], [], []⟩ fun _ => 50)
    ⟨App.new Client.alice (newManager (key32 1)) [], [], [], [], Db.fresh, [], []⟩

def authenticates : Event Key32 Ciphertext := .authenticated ⟨0, key32 30, ⟨30⟩, false⟩ []

def hasSession : SampleState :=
  handles (handles (handles aliceStarts (.openConversation Client.bob ⟨⟨20⟩, false⟩))
    (.preKeyBundleResponse Client.bob bobBundle (key32 12) (key32 13) 300 false)) authenticates

/-- Alice writes; the relay takes the message, but its answer does not arrive; she sends
the message again and the relay answers again. -/
def sentAgain : SampleState :=
  serves (handles (serves (handles hasSession (.enter "h" 300 false ⟨⟨1⟩, false⟩ false)))
    authenticates)

/-- The answer arrives, and the relay takes the confirmation. -/
def confirmed : SampleState := serves (handles sentAgain (.messageSent ⟨1⟩ false))

theorem hasSession_run : SampleRun hasSession := by
  have hstart : SampleRun aliceStarts :=
    .transact (.start (key32 1) 0 0 0 (newManager (key32 1)) rfl) _ trivial
  exact handles_run (handles_run (handles_run hstart (by trivial)) (by trivial)) (by trivial)

set_option maxRecDepth 8000 in
theorem confirmed_run : SampleRun confirmed := by
  have hnew : hasSession.Admits (.enter "h" 300 false ⟨⟨1⟩, false⟩ false) := by
    refine ⟨List.not_mem_nil, fun entry hentry request createdAt ht => ?_⟩
    have hlog : hasSession.log =
        [⟨Db.fresh, .registerAtomic ⟨Client.bob, [], 1, [], [], []⟩ fun _ => 50⟩] := rfl
    rw [hlog] at hentry
    cases List.mem_singleton.mp hentry
    cases ht
  have hanswered : ∃ rest, sentAgain.replies = .messageSent ⟨1⟩ :: rest := ⟨_, rfl⟩
  refine serves_run (handles_run (serves_run (handles_run
    (serves_run (handles_run hasSession_run hnew)) (by trivial))) ?_)
  obtain ⟨rest, hreplies⟩ := hanswered
  show ServerMessage.messageSent ⟨1⟩ ∈ sentAgain.replies
  rw [hreplies]
  exact List.mem_cons_self

set_option maxRecDepth 8000 in
theorem message_inserted_once_confirmed :
    insertions sampleDigest confirmed.log ⟨1⟩ ≠ [] ∧
      (insertions sampleDigest confirmed.log ⟨1⟩).length ≤ 1 := by
  refine ⟨fun h => ?_, message_inserted_once confirmed_run ?_⟩
  · have hlength : (insertions sampleDigest confirmed.log ⟨1⟩).length = 1 := rfl
    rw [h] at hlength
    cases hlength
  · have hused : confirmed.used = [⟨1⟩] := rfl
    rw [hused]
    exact List.mem_singleton_self _

end Cmp.System
