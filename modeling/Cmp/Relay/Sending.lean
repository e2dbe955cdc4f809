import Cmp.Relay.Server

/-! What the process puts on the channels of its connections. Sending changes nothing else,
so every other part of the state is read off at once. -/

namespace Cmp.Relay

open Cmp.Crypto Cmp.Protocol Cmp.Lib

variable {C D κ : Type}

theorem Channel.trySend_sent (message : Outbound C) (channel : Channel C) :
    ((channel.trySend message).1 = true ∧
      (channel.trySend message).2.sent = channel.sent ++ [message]) ∨
    ((channel.trySend message).1 = false ∧ (channel.trySend message).2 = channel) := by
  unfold Channel.trySend
  split
  · exact .inl ⟨rfl, rfl⟩
  · exact .inr ⟨rfl, rfl⟩

theorem Channel.trySend_new (message : Outbound C) (channel : Channel C) :
    ∃ new, (channel.trySend message).2.sent = channel.sent ++ new ∧ ∀ m ∈ new, m = message := by
  rcases channel.trySend_sent message with ⟨-, h⟩ | ⟨-, h⟩
  · exact ⟨[message], h, fun m hm => List.mem_singleton.mp hm⟩
  · refine ⟨[], ?_, fun m hm => absurd hm List.not_mem_nil⟩
    rw [h, List.append_nil]

theorem Channel.send_sent (message : Outbound C) (channel : Channel C) :
    ∃ new, (channel.send message).sent = channel.sent ++ new ∧ ∀ m ∈ new, m = message := by
  unfold Channel.send
  split
  · exact ⟨[message], rfl, fun m hm => List.mem_singleton.mp hm⟩
  · exact ⟨[], (List.append_nil _).symm, fun m hm => absurd hm List.not_mem_nil⟩

/-- The channels have grown by messages that satisfy `P`. -/
def Server.Puts (P : κ → Outbound C → Prop) (s s' : Server κ C D) : Prop :=
  ∀ conn, ∃ new, (s'.sockets conn).channel.sent = (s.sockets conn).channel.sent ++ new ∧
    ∀ message ∈ new, P conn message

namespace Server.Puts

variable {P : κ → Outbound C → Prop} {s t u : Server κ C D}

theorem of_sent (h : ∀ conn, (t.sockets conn).channel.sent = (s.sockets conn).channel.sent) :
    Puts P s t :=
  fun conn => ⟨[], (h conn).trans (List.append_nil _).symm, fun _ h => absurd h List.not_mem_nil⟩

theorem mono {Q : κ → Outbound C → Prop} (h : Puts P s t)
    (hPQ : ∀ conn message, P conn message → Q conn message) : Puts Q s t := by
  intro conn
  obtain ⟨new, hnew, hP⟩ := h conn
  exact ⟨new, hnew, fun message hmessage => hPQ conn message (hP message hmessage)⟩

theorem trans (h : Puts P s t) (h' : Puts P t u) : Puts P s u := by
  intro conn
  obtain ⟨new, hnew, hP⟩ := h conn
  obtain ⟨new', hnew', hP'⟩ := h' conn
  refine ⟨new ++ new', by rw [hnew', hnew, List.append_assoc], fun message hmessage => ?_⟩
  exact (List.mem_append.mp hmessage).elim (hP message) (hP' message)

variable [DecidableEq κ]

theorem setSocket {conn : κ} {socket : Socket C} {new : List (Outbound C)}
    (hsent : socket.channel.sent = (s.sockets conn).channel.sent ++ new)
    (hnew : ∀ message ∈ new, P conn message) : Puts P s (s.setSocket conn socket) := by
  intro other
  rw [sockets_setSocket]
  split
  · next h =>
    subst h
    exact ⟨new, hsent, hnew⟩
  · exact ⟨[], (List.append_nil _).symm, fun _ h => absurd h List.not_mem_nil⟩

/-- Nothing is put on the channel of a socket that is set. -/
theorem setSocket_sent {conn : κ} {socket : Socket C}
    (hsent : socket.channel.sent = (s.sockets conn).channel.sent) :
    Puts P s (s.setSocket conn socket) :=
  setSocket (hsent.trans (List.append_nil _).symm) fun _ h => absurd h List.not_mem_nil

/-- A message is tried on the channel of a socket. -/
theorem trySend {conn : κ} {socket : Socket C} {message : Outbound C}
    (hchannel : socket.channel = ((s.sockets conn).channel.trySend message).2)
    (hP : P conn message) : Puts P s (s.setSocket conn socket) := by
  obtain ⟨new, hnew, hmem⟩ := Channel.trySend_new message (s.sockets conn).channel
  refine setSocket (hchannel ▸ hnew) fun m hm => ?_
  rw [hmem m hm]
  exact hP

end Server.Puts

/-- Only the channels have changed, by messages that satisfy `P`. -/
structure Server.Sends (P : κ → Outbound C → Prop) (s s' : Server κ C D) : Prop where
  db : s'.db = s.db
  online : s'.online = s.online
  nextConnId : s'.nextConnId = s.nextConnId
  displaced : s'.displaced = s.displaced
  session : ∀ conn, s'.session conn = s.session conn
  cancelled : ∀ conn, (s'.sockets conn).cancelled = (s.sockets conn).cancelled
  phase : ∀ conn, (s'.sockets conn).phase = (s.sockets conn).phase
  sent : ∀ conn, ∃ new, (s'.sockets conn).channel.sent = (s.sockets conn).channel.sent ++ new ∧
    ∀ message ∈ new, P conn message

namespace Server.Sends

variable {P : κ → Outbound C → Prop} {s t u : Server κ C D}

theorem refl : Sends P s s :=
  ⟨rfl, rfl, rfl, rfl, fun _ => rfl, fun _ => rfl, fun _ => rfl, Puts.of_sent fun _ => rfl⟩

theorem mono {Q : κ → Outbound C → Prop} (h : Sends P s t)
    (hPQ : ∀ conn message, P conn message → Q conn message) : Sends Q s t :=
  { h with sent := Puts.mono h.sent hPQ }

theorem trans (h : Sends P s t) (h' : Sends P t u) : Sends P s u where
  db := h'.db.trans h.db
  online := h'.online.trans h.online
  nextConnId := h'.nextConnId.trans h.nextConnId
  displaced := h'.displaced.trans h.displaced
  session conn := (h'.session conn).trans (h.session conn)
  cancelled conn := (h'.cancelled conn).trans (h.cancelled conn)
  phase conn := (h'.phase conn).trans (h.phase conn)
  sent := Puts.trans h.sent h'.sent

variable [DecidableEq κ]

theorem setChannel {conn : κ} {channel : Channel C} {new : List (Outbound C)}
    (hsent : channel.sent = (s.sockets conn).channel.sent ++ new)
    (hnew : ∀ message ∈ new, P conn message) : Sends P s (s.setChannel conn channel) :=
  ⟨rfl, rfl, rfl, rfl, setSocket_keeps (·.session) rfl, setSocket_keeps (·.cancelled) rfl,
    setSocket_keeps (·.phase) rfl, Puts.setSocket hsent hnew⟩

end Server.Sends

namespace Server

variable {P : κ → Outbound C → Prop}

/-- A fold of sends, at the registry it starts with. -/
theorem foldl_sends_online {α : Type} {f : Server κ C D → α → Server κ C D}
    {online : UserId → Option (ConnEntry κ)} (list : List α)
    (hf : ∀ s, ∀ a ∈ list, s.online = online → Sends P s (f s a)) :
    ∀ s, s.online = online → Sends P s (list.foldl f s) := by
  induction list with
  | nil => exact fun s _ => .refl
  | cons a list ih =>
    intro s hs
    have hfirst := hf s a List.mem_cons_self hs
    refine hfirst.trans (ih (fun s b hb => hf s b (List.mem_cons_of_mem _ hb)) _ ?_)
    rw [hfirst.online, hs]

theorem foldl_sends {α : Type} {f : Server κ C D → α → Server κ C D}
    (hf : ∀ (s : Server κ C D) a, Sends P s (f s a)) (list : List α) (s : Server κ C D) :
    Sends P s (list.foldl f s) :=
  foldl_sends_online list (fun s a _ _ => hf s a) s rfl

variable [DecidableEq κ]

/-- A message is sent to the registered connection of its user, or not at all. -/
theorem sendTo_sends {userId : UserId} {message : Outbound C} {s : Server κ C D}
    (hP : ∀ entry, s.online userId = some entry → P entry.conn message) :
    Sends P s (s.sendTo userId message).2 := by
  unfold sendTo
  split
  · exact .refl
  · next entry hentry =>
    obtain ⟨new, hnew, hmem⟩ := Channel.trySend_new message (s.sockets entry.conn).channel
    refine .setChannel hnew fun m hm => ?_
    rw [hmem m hm]
    exact hP entry hentry

/-- What `pushes` may put on the channel of a user. -/
def Pushed (userId : UserId) (env : SessionEnv) (answer : Option Answer)
    (message : ClientMessage C) : Outbound C → Prop
  | .incomingMessage inbound =>
    ∃ recipientId result, message = .sendMessage recipientId inbound.messageId inbound.envelope ∧
      inbound.senderId = userId ∧ inbound.timestamp = env.timestamp ∧
      answer = some (.enqueued result) ∧ result.isAccepted = true
  | .queuedMessages _ => False
  | _ => True

/-- A `ReadReceiptSent` is pushed for what the database has reported, to the connection of the
sender that it names. -/
def Reported (s : Server κ C D) (answer : Option Answer) (conn : κ) (pushed : Outbound C) : Prop :=
  ∀ id, pushed = .reply (.readReceiptSent id) →
    ∃ receipts senderId entry, answer = some (.acknowledged receipts) ∧
      (id, senderId) ∈ receipts ∧ s.online senderId = some entry ∧ entry.conn = conn

theorem pushes_sends (userId : UserId) (env : SessionEnv) (answer : Option Answer)
    (s : Server κ C D) (message : ClientMessage C) :
    Sends (fun conn pushed => Pushed userId env answer message pushed ∧
      s.Reported answer conn pushed) s (s.pushes userId env answer message) := by
  unfold pushes
  split
  · next recipientId messageId envelope =>
    split
    · next result =>
      split
      · next haccepted =>
        have hfirst : Sends (fun conn pushed => Pushed userId env (some (.enqueued result))
            (.sendMessage recipientId messageId envelope) pushed ∧
              s.Reported (some (.enqueued result)) conn pushed) s (s.sendTo recipientId
              (.incomingMessage ⟨⟨messageId, userId, envelope⟩, env.timestamp⟩)).2 :=
          sendTo_sends fun _ _ =>
            ⟨⟨recipientId, result, rfl, rfl, rfl, rfl, haccepted⟩, fun _ => nofun⟩
        dsimp only
        split
        · exact hfirst.trans (sendTo_sends fun _ _ => ⟨trivial, fun _ => nofun⟩)
        · exact hfirst
      · exact .refl
    · exact .refl
  · split
    · exact sendTo_sends fun _ _ => ⟨trivial, fun _ => nofun⟩
    · exact .refl
  · dsimp only
    split
    · exact sendTo_sends fun _ _ => ⟨trivial, fun _ => nofun⟩
    · exact sendTo_sends fun _ _ => ⟨trivial, fun _ => nofun⟩
    · exact .refl
  · split
    · next receipts =>
      refine foldl_sends_online receipts (fun s' receipt hreceipt honline => ?_) s rfl
      refine sendTo_sends fun entry hentry => ⟨trivial, fun id hid => ?_⟩
      cases hid
      exact ⟨receipts, receipt.2, entry, rfl, hreceipt, honline ▸ hentry, rfl⟩
    · exact .refl
  · exact .refl

end Server

end Cmp.Relay
