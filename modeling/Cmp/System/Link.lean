import Cmp.Client.Refinement
import Cmp.Relay.Publication

/-! One client's manager and the relay, over a network that loses, repeats and reorders:
whatever one side has ever sent may reach the other any number of times, or never. -/

namespace Cmp.System

open Cmp.Crypto Cmp.Protocol Cmp.Lib Cmp.Lib.Action Cmp.Client Cmp.Relay

variable {K Sec C D : Type}

/-- An operation of the manager with the state it found. -/
structure Call (K Sec C : Type) where
  before : Manager K Sec C
  op : Op Sec C

/-- `requests` is all that the client has sent and `replies` all that it has been answered;
`notices` are the counts that the relay has pushed as `PreKeyLow`. -/
structure Link (K Sec C D : Type) where
  manager : Manager K Sec C
  calls : List (Call K Sec C)
  requests : List (ClientMessage C)
  replies : List (ServerMessage C)
  notices : List UInt32
  db : Db C D
  log : List (Entry C D)

/-- The transactions that others cause: all but the ones that publish keys of `me`. -/
def OfOthers (me : UserId) : Transaction C → Prop
  | .registerAtomic registration _ => registration.userId ≠ me
  | .uploadPrekeys userId .. => userId ≠ me
  | .rotateSignedPrekey userId .. => userId ≠ me
  | _ => True

theorem OfOthers.not_published {me : UserId} {t : Transaction C} (h : OfOthers me t)
    {answer : Option Answer} {batch : Relay.Batch} :
    publishedBatch t answer ≠ some (me, batch) := by
  intro hbatch
  rcases publishedBatch_eq_some hbatch with ⟨registration, createdAt, rfl, huser, -⟩ |
    ⟨_, _, _, rfl⟩
  · exact h huser
  · exact h rfl

/-- The row under which the relay keeps a signed prekey. -/
def spkRow (me : UserId) (spk : SignedPreKey Sec) : SignedPrekeyRow :=
  ⟨me, spk.keyId, spk.publicKey.toList, spk.signature.toList⟩

/-- What `me` is told once a transaction is done. -/
def lowNotice (me : UserId) (unixepoch : Nat) (answer : Option Answer) (db : Db C D) :
    Transaction C → Option UInt32
  | .fetchForRequester _ targetId _ _ _ =>
    if targetId = me then fetchNotice targetId unixepoch answer db else none
  | _ => none

/-- An id that no rotation or upload has been sent under. -/
def Link.Unused (s : Link K Sec C D) (id : MessageId) : Prop :=
  ∀ message ∈ s.requests,
    (∀ keyId publicKey signature, message ≠ .rotateSignedPreKey id keyId publicKey signature) ∧
      ∀ prekeys, message ≠ .uploadPreKeys id prekeys

section Steps

variable (S : IdentitySuite K Sec C) (texts : List MessageId → Bytes)
  (pageLen : InboundMessage C → Nat → Nat) (me : UserId)

/-- The manager carries out an operation, and what it returns is sent. -/
def Link.perform (op : Op Sec C) (s : Link K Sec C D) : Link K Sec C D :=
  let result := (Client.perform S texts op).run s.manager
  { s with
    manager := finalState result
    calls := s.calls ++ [⟨s.manager, op⟩]
    requests := s.requests ++ (value? result).getD [] }

theorem Link.perform_map {α : Type} {op : Op Sec C} {x : ManagerM K Sec C α}
    {f : α → List (ClientMessage C)} (hx : Client.perform S texts op = f <$> x)
    (s : Link K Sec C D) :
    s.perform S texts op =
      { s with
        manager := finalState (x.run s.manager)
        calls := s.calls ++ [⟨s.manager, op⟩]
        requests := s.requests ++ ((value? (x.run s.manager)).map f).getD [] } := by
  unfold Link.perform
  dsimp only
  rw [hx, finalState_map, value?_map]

/-- The outbox is sent again. -/
def Link.resend (s : Link K Sec C D) : Link K Sec C D :=
  { s with requests := s.requests ++ s.manager.pendingMessages }

variable [DecidableEq D] (digest : EncryptedEnvelope C → D)

def Link.serve (message : ClientMessage C) (env : RelayEnv) (fails : Bool) (s : Link K Sec C D) :
    Link K Sec C D :=
  let handling := handleMessage S pageLen me env s.db message
  { s with
    replies := s.replies ++ (handling.run digest fails s.db).1.toList
    db := (handling.run digest fails s.db).2
    log := s.log ++ handling.entries fails s.db }

def Link.transact (t : Transaction C) (unixepoch : Nat) (s : Link K Sec C D) : Link K Sec C D :=
  { s with
    notices := s.notices ++
      (lowNotice me unixepoch (t.answer? digest s.db) (t.after digest s.db) t).toList
    db := t.after digest s.db
    log := s.log ++ [⟨s.db, t⟩] }

/-- Runs from a state that satisfies `start`, with the operations that `admits` lets the
client carry out and the requests that `reaches` lets through. -/
inductive Link.Run (start : Link K Sec C D → Prop) (admits : Link K Sec C D → Op Sec C → Prop)
    (reaches : Link K Sec C D → ClientMessage C → Prop) : Link K Sec C D → Prop
  | start {s : Link K Sec C D} (hstart : start s) : Run start admits reaches s
  | perform {s : Link K Sec C D} (run : Run start admits reaches s) (op : Op Sec C)
      (hadmits : admits s op) : Run start admits reaches (s.perform S texts op)
  | resend {s : Link K Sec C D} (run : Run start admits reaches s) :
      Run start admits reaches s.resend
  | serve {s : Link K Sec C D} (run : Run start admits reaches s) (message : ClientMessage C)
      (hmessage : message ∈ s.requests) (hreaches : reaches s message) (env : RelayEnv)
      (fails : Bool) : Run start admits reaches (s.serve S pageLen me digest message env fails)
  | restart {s : Link K Sec C D} (run : Run start admits reaches s)
      (loadedAt cutoffNow pruneNow : Nat) (m : Manager K Sec C)
      (hload : loadOrGenerate s.manager.identity s.manager.store loadedAt cutoffNow pruneNow false =
        .ok m) : Run start admits reaches { s with manager := m }
  | transact {s : Link K Sec C D} (run : Run start admits reaches s) (t : Transaction C)
      (hothers : OfOthers me t) (hdecoded : t.Decoded) (unixepoch : Nat) :
      Run start admits reaches (s.transact me digest t unixepoch)

end Steps

end Cmp.System
