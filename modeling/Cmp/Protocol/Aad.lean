import Cmp.Protocol.Types

/-! `protocol::aad`: the associated-data context of an envelope, and what the bytes that are
authenticated determine. The context has no length of its own: the ratchet header behind it has
a fixed one, and the header type before the keys tells the two kinds of context apart. -/

namespace Cmp.Protocol.Aad

open Cmp.Crypto

/-- `CMP_ENVELOPE_AAD` in ASCII. -/
def DOMAIN : Bytes :=
  [0x43, 0x4D, 0x50, 0x5F, 0x45, 0x4E, 0x56, 0x45, 0x4C, 0x4F, 0x50, 0x45, 0x5F, 0x41, 0x41, 0x44]

def PREKEY_HEADER : UInt8 := 1
def RATCHET_HEADER : UInt8 := 2

/-- `aad::prefix`. -/
def start (version : UInt32) (headerType : UInt8) : Bytes :=
  DOMAIN ++ toBeBytes version ++ [headerType]

/-- Context for an established-session ratchet envelope. -/
def ratchet (version : UInt32) : Bytes := start version RATCHET_HEADER

/-- Context for an X3DH first-message envelope. -/
def prekey (version : UInt32) (senderIdentityKey senderEphemeralKey : Key32)
    (recipientSignedPrekeyId : UInt32) (recipientOneTimePrekeyId : Option UInt32) : Bytes :=
  start version PREKEY_HEADER ++ senderIdentityKey.toList ++ senderEphemeralKey.toList ++
    toBeBytes recipientSignedPrekeyId ++
    match recipientOneTimePrekeyId with
    | some keyId => 1 :: toBeBytes keyId
    | none => 0 :: toBeBytes 0

/-! ## The context is determined by its bytes -/

/-- What a context is made from. -/
inductive Context
  | ratchet (version : UInt32)
  | prekey (version : UInt32) (senderIdentityKey senderEphemeralKey : Key32)
      (recipientSignedPrekeyId : UInt32) (recipientOneTimePrekeyId : Option UInt32)
  deriving DecidableEq

def Context.bytes : Context → Bytes
  | .ratchet version => Aad.ratchet version
  | .prekey version senderIdentityKey senderEphemeralKey recipientSignedPrekeyId
      recipientOneTimePrekeyId =>
    Aad.prekey version senderIdentityKey senderEphemeralKey recipientSignedPrekeyId
      recipientOneTimePrekeyId

/-- Version and header type stand in the first 21 bytes of every context. -/
theorem start_append_inj {version version' : UInt32} {headerType headerType' : UInt8}
    {rest rest' : Bytes}
    (h : start version headerType ++ rest = start version' headerType' ++ rest') :
    version = version' ∧ headerType = headerType' ∧ rest = rest' := by
  obtain ⟨hstart, hrest⟩ := List.append_inj h rfl
  obtain ⟨hversioned, htype⟩ := List.append_inj' hstart rfl
  obtain ⟨-, hversion⟩ := List.append_inj hversioned rfl
  exact ⟨toBeBytes_inj hversion, List.singleton_inj.mp htype, hrest⟩

/-- The byte before the optional id tells `None` from every `Some`. -/
theorem optionalId_inj {id id' : Option UInt32}
    (h : (match id with
      | some keyId => 1 :: toBeBytes keyId
      | none => 0 :: toBeBytes 0) =
      match id' with
      | some keyId => (1 : UInt8) :: toBeBytes keyId
      | none => 0 :: toBeBytes 0) : id = id' := by
  cases id with
  | none =>
    cases id' with
    | none => rfl
    | some keyId' => cases (List.cons.inj h).1
  | some keyId =>
    cases id' with
    | none => cases (List.cons.inj h).1
    | some keyId' => exact congrArg some (toBeBytes_inj (List.cons.inj h).2)

theorem Context.bytes_inj {context context' : Context} (h : context.bytes = context'.bytes) :
    context = context' := by
  cases context with
  | ratchet version =>
    have hstart : start version RATCHET_HEADER ++ [] = context'.bytes :=
      (List.append_nil _).trans h
    cases context' with
    | ratchet version' =>
      obtain ⟨rfl, -⟩ := start_append_inj (hstart.trans (List.append_nil _).symm)
      rfl
    | prekey version' identity' ephemeral' signedId' oneTimeId' =>
      unfold bytes Aad.prekey at hstart
      simp only [List.append_assoc] at hstart
      obtain ⟨-, htype, -⟩ := start_append_inj hstart
      cases htype
  | prekey version identity ephemeral signedId oneTimeId =>
    unfold bytes Aad.prekey at h
    cases context' with
    | ratchet version' =>
      have hstart := h.trans (List.append_nil _).symm
      simp only [List.append_assoc] at hstart
      obtain ⟨-, htype, -⟩ := start_append_inj hstart
      cases htype
    | prekey version' identity' ephemeral' signedId' oneTimeId' =>
      simp only [List.append_assoc] at h
      obtain ⟨rfl, -, hfields⟩ := start_append_inj h
      obtain ⟨hidentity, hfields⟩ := List.append_inj hfields (by
        rw [identity.toList_length, identity'.toList_length])
      obtain ⟨hephemeral, hfields⟩ := List.append_inj hfields (by
        rw [ephemeral.toList_length, ephemeral'.toList_length])
      obtain ⟨hsigned, honeTime⟩ := List.append_inj hfields rfl
      rw [List.Vector.toList_injective hidentity, List.Vector.toList_injective hephemeral,
        toBeBytes_inj hsigned, optionalId_inj honeTime]

/-- **The associated data is injective over the whole format**: the same bytes have the same
kind of envelope with the same fields, and the same ratchet header. -/
theorem associated_data_injective (context context' : Context) (header header' : RatchetHeader)
    (h : authenticatedData context.bytes header = authenticatedData context'.bytes header') :
    context = context' ∧ header = header' := by
  obtain ⟨hbytes, hheader⟩ := authenticatedData_inj h
  exact ⟨Context.bytes_inj hbytes, hheader⟩

/-- A context with the one-time prekey of id 0, and the one without a one-time prekey whose
filler is that id. -/
def zeroId (oneTimeId : Option UInt32) : Context :=
  .prekey 2 (.replicate 32 1) (.replicate 32 2) 3 oneTimeId

theorem associated_data_injective_zero :
    zeroId none = .prekey 2 (.replicate 32 1) (.replicate 32 2) 3 none ∧
    ∀ header, authenticatedData (zeroId none).bytes header ≠
      authenticatedData (zeroId (some 0)).bytes header := by
  refine ⟨(associated_data_injective _ _ ⟨.replicate 32 4, 5, 6⟩ _ rfl).1, fun header h => ?_⟩
  cases (associated_data_injective _ _ header header h).1

end Cmp.Protocol.Aad
