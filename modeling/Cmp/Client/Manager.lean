import Cmp.Client.Store
import Cmp.Protocol.Aad
import Cmp.Lib.Action
import Mathlib.Data.Finset.Max

/-! The state of `CryptoManager`, its snapshot for the core row, and loading it
back. A method on `&mut self` is an `EStateM` action: on an error the state is what
the method left. Clock readings, drawn secrets, new ids and which store calls the
system refuses are arguments. The test-only switch `fail_persistence` is a refused
store call. -/

namespace Cmp.Client

open Cmp.Crypto Cmp.Protocol Cmp.Lib

def LEGACY_PREKEY_ID_FLOOR : UInt32 := 0x80000000

@[ext]
structure Manager (K Sec C : Type) where
  identity : Sec
  sessions : HMap UserId (PeerSession K Sec)
  pendingInits : Finset UserId
  storedSpk : Option (SignedPreKey Sec)
  previousSpks : List (SignedPreKey Sec)
  signedPrekeyRotatedAt : Nat
  nextSignedPrekeyId : UInt32
  storedOpks : HMap UInt32 (OneTimePreKey Sec)
  nextOneTimePrekeyId : UInt32
  oneTimePrekeyCreatedAt : HMap UInt32 Nat
  pendingOutbound : List (PendingOutbound C)
  processedMessages : ProcessedMap
  store : CryptoStore K Sec C

variable {K Sec C : Type}

abbrev ManagerM (K Sec C : Type) := EStateM ManagerError (Manager K Sec C)

namespace Manager

def coreState (m : Manager K Sec C) : CoreState K Sec where
  signedPrekey := m.storedSpk
  previousSignedPrekeys := m.previousSpks
  signedPrekeyRotatedAt := m.signedPrekeyRotatedAt
  nextSignedPrekeyId := some m.nextSignedPrekeyId
  oneTimePrekeys := m.storedOpks
  sessions := m.sessions
  nextOneTimePrekeyId := some m.nextOneTimePrekeyId
  oneTimePrekeyCreatedAt := m.oneTimePrekeyCreatedAt

def isPending (m : Manager K Sec C) (peerId : UserId) : Bool := peerId ∈ m.pendingInits

def hasSession (m : Manager K Sec C) (peerId : UserId) : Bool := (m.sessions.lookup peerId).isSome

/-- `pending_messages`. -/
def pendingMessages (m : Manager K Sec C) : List (ClientMessage C) :=
  m.pendingOutbound.map PendingOutbound.toClientMessage

end Manager

/-! ## Store calls -/

/-- What a store call makes of the store; `fails` when the system refuses it. -/
def storeResult (fails : Bool) (next : Option (CryptoStore K Sec C)) :
    Except Failure (CryptoStore K Sec C) :=
  if fails then .error .unavailable
  else
    match next with
    | some st => .ok st
    | none => .error .constraint

/-- A store call with the current core state, and on its failure the method's own
rollback and error. -/
def commitOr (fails : Bool)
    (call : CoreState K Sec → CryptoStore K Sec C → Option (CryptoStore K Sec C))
    (rollback : Manager K Sec C → Manager K Sec C) (wrap : Failure → ManagerError) :
    ManagerM K Sec C Unit := do
  let m ← get
  match storeResult fails (call m.coreState m.store) with
  | .ok st => set { m with store := st }
  | .error e =>
    set (rollback m)
    throw (wrap e)

/-! ## Loading -/

/-- `validate_pending_protocol_versions`. -/
def validatePendingProtocolVersions (pending : List (PendingOutbound C)) :
    Except ManagerError Unit :=
  let unsupported := pending.findSome? fun item =>
    item.envelope?.bind fun envelope =>
      if envelope.version ≠ PROTOCOL_VERSION then some envelope.version else none
  match unsupported with
  | some version =>
    .error (.other (.text ("pending ciphertext uses protocol version " ++ toString version ++
      "; reset or drain it before using protocol version " ++ toString PROTOCOL_VERSION)))
  | none => .ok ()

/-- `stored_opks.keys().max().map_or(0, saturating_add(1))`. -/
def derivedNextId (opks : HMap UInt32 (OneTimePreKey Sec)) : UInt32 :=
  (opks.keys.max.map saturatingSucc).unbotD 0

/-- `load_or_generate` on the identity of the key file and the tables of the store,
with three clock readings. -/
def loadOrGenerate (identity : Sec) (store : CryptoStore K Sec C)
    (loadedAt cutoffNow pruneNow : Nat)
    (pruneFails : Bool) : Except ManagerError (Manager K Sec C) := do
  let persisted := store.core.getD (CoreState.empty K Sec)
  let pendingOutbound := store.outbox.map Prod.snd
  validatePendingProtocolVersions pendingOutbound
  let derivedNextSignedPrekeyId :=
    persisted.signedPrekey.elim 0 fun prekey => saturatingSucc prekey.keyId
  let storedOpks := persisted.oneTimePrekeys
  let retained :=
    HMap.filter (fun keyId _ => (storedOpks.lookup keyId).isSome) persisted.oneTimePrekeyCreatedAt
  let nextOneTimePrekeyId :=
    max (max (persisted.nextOneTimePrekeyId.getD 0) (derivedNextId storedOpks))
      LEGACY_PREKEY_ID_FLOOR
  match storeResult pruneFails (store.prune (cutoffNow - RETENTION_SECS)) with
  | .error e => throw (.other e)
  | .ok pruned =>
    pure
      { identity := identity
        sessions := persisted.sessions
        pendingInits := ∅
        storedSpk := persisted.signedPrekey
        previousSpks := persisted.previousSignedPrekeys
        signedPrekeyRotatedAt := persisted.signedPrekeyRotatedAt
        nextSignedPrekeyId :=
          max (persisted.nextSignedPrekeyId.getD 0) derivedNextSignedPrekeyId
        storedOpks := storedOpks
        nextOneTimePrekeyId := nextOneTimePrekeyId
        oneTimePrekeyCreatedAt := retained ∪ HMap.constOn loadedAt storedOpks
        pendingOutbound := pendingOutbound
        processedMessages := pruneProcessed store.processed pruneNow
        store := pruned }

end Cmp.Client
