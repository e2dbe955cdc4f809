import Cmp.Client.OutboxBound
import Cmp.Client.Traffic
import Cmp.Lib.Text
import Cmp.Relay.Pages

/-! What the client encrypts, as the relay receives it. `handle_enter` and
`encrypt_read_receipt` check a length before they encrypt; `validate_envelope`, the page of
queued messages and the WebSocket check what comes out after encryption, base64 and JSON. -/

namespace Cmp.System

open Cmp.Crypto Cmp.Protocol Cmp.Lib Cmp.Lib.Action Cmp.Client Cmp.Relay

variable {K Sec C : Type}

/-! ## JSON -/

/-- The texts of the base64 fields of an envelope. -/
structure B64Texts (C : Type) where
  key : B64Text Bytes → String
  ciphertext : B64Text C → String

def isBase64Char (c : Char) : Bool := c.isAlphanum || c == '+' || c == '/' || c == '='

/-- A field that decodes is a text of its length over the base64 alphabet. -/
def PaddedBase64 {α : Type} (text : B64Text α → String) : Prop :=
  ∀ field, field.decoded.isSome → (text field).utf8ByteSize = field.length ∧
    ∀ c ∈ (text field).toList, isBase64Char c = true

/-- The fields of `RatchetHeader`. -/
def ratchetFields (B : B64Texts C) (header : ProtoRatchetHeader) : List (String × String) := [
  ("ratchet_key", jsonString (B.key header.ratchetKey)),
  ("previous_chain_length", decimal header.previousChainLength.toNat),
  ("message_number", decimal header.messageNumber.toNat)]

def optionalIdJson : Option UInt32 → String
  | some id => decimal id.toNat
  | none => "null"

/-- The JSON of a `MessageHeader`, whose variant is its field `type`. -/
def headerJson (B : B64Texts C) : MessageHeader → String
  | .preKey senderIdentityKey senderEphemeralKey recipientSignedPrekeyId recipientOneTimePrekeyId
      ratchet =>
    jsonObject [
      ("type", jsonString "PreKey"),
      ("sender_identity_key", jsonString (B.key senderIdentityKey)),
      ("sender_ephemeral_key", jsonString (B.key senderEphemeralKey)),
      ("recipient_signed_prekey_id", decimal recipientSignedPrekeyId.toNat),
      ("recipient_one_time_prekey_id", optionalIdJson recipientOneTimePrekeyId),
      ("ratchet", jsonObject (ratchetFields B ratchet))]
  | .ratchet header => jsonObject (("type", jsonString "Ratchet") :: ratchetFields B header)

/-- The JSON of an `EncryptedEnvelope`. -/
def envelopeJson (B : B64Texts C) (envelope : EncryptedEnvelope C) : String :=
  jsonObject [
    ("version", decimal envelope.version.toNat),
    ("header", headerJson B envelope.header),
    ("ciphertext", jsonString (B.ciphertext envelope.ciphertext))]

/-- The frames of the two requests that carry an envelope. -/
def sealedFrame (W : Wire C) (type idField : String) (recipientId : UserId) (id : MessageId)
    (envelope : EncryptedEnvelope C) : String :=
  jsonObject [
    ("type", jsonString type),
    ("recipient_id", jsonString recipientId.text),
    (idField, jsonString (W.uuidText id)),
    ("envelope", W.envelopeJson envelope)]

def sendMessageJson (W : Wire C) : UserId → MessageId → EncryptedEnvelope C → String :=
  sealedFrame W "SendMessage" "message_id"

def sendReadReceiptJson (W : Wire C) : UserId → MessageId → EncryptedEnvelope C → String :=
  sealedFrame W "SendReadReceipt" "receipt_id"

/-- What `serde_json`, `base64` and `uuid` write. -/
structure Compact (W : Wire C) (B : B64Texts C) : Prop where
  keys : PaddedBase64 B.key
  ciphertexts : PaddedBase64 B.ciphertext
  envelopes : ∀ envelope, W.envelopeJson envelope = envelopeJson B envelope
  ids : ∀ id, (W.uuidText id).utf8ByteSize = 36

/-! ## Sizes -/

theorem utf8ByteSize_jsonString_le (text : String) :
    (jsonString text).utf8ByteSize ≤ 2 * text.utf8ByteSize + 2 := by
  have hquote : ("\"" : String).utf8ByteSize = 1 := rfl
  have hescaped := utf8Len_flatMap_le (k := 2)
    (f := fun c => if c = '"' ∨ c = '\\' then ['\\', c] else [c]) (fun c => by
      have hc := c.utf8Size_pos
      have hslash : ('\\' : Char).utf8Size = 1 := rfl
      split <;> simp only [String.utf8Len_cons, String.utf8Len_nil, hslash] <;> omega) text.toList
  unfold jsonString
  simp only [String.utf8ByteSize_append, String.utf8ByteSize_ofList, hquote]
  have htext : String.utf8Len text.toList = text.utf8ByteSize := by
    rw [← String.utf8ByteSize_ofList, String.ofList_toList]
  omega

/-- Nothing is escaped in base64. -/
theorem utf8ByteSize_jsonString_base64 {text : String}
    (h : ∀ c ∈ text.toList, isBase64Char c = true) :
    (jsonString text).utf8ByteSize = text.utf8ByteSize + 2 := by
  have hplain : text.toList.flatMap (fun c => if c = '"' ∨ c = '\\' then ['\\', c] else [c]) =
      text.toList := by
    conv_rhs => rw [← List.flatMap_singleton' text.toList]
    refine List.flatMap_congr fun c hc => if_neg ?_
    rintro (rfl | rfl)
    · exact absurd (h _ hc) (by decide)
    · exact absurd (h _ hc) (by decide)
  unfold jsonString
  rw [hplain, String.ofList_toList, String.utf8ByteSize_append, String.utf8ByteSize_append]
  have hquote : ("\"" : String).utf8ByteSize = 1 := rfl
  omega

theorem utf8ByteSize_userId (user : UserId) : user.text.utf8ByteSize ≤ 128 := by
  have hvalid := user.valid
  unfold checkUserId at hvalid
  split at hvalid
  · cases hvalid
  · split at hvalid
    · cases hvalid
    · next hsize => exact Nat.le_of_not_lt hsize

theorem utf8ByteSize_decimal_u32 (n : UInt32) : (decimal n.toNat).utf8ByteSize ≤ 10 :=
  utf8ByteSize_toDigits_le (by decide) (n.toNat_lt.trans (by decide))

theorem utf8ByteSize_decimal_u64 (n : UInt64) : (decimal n.toNat).utf8ByteSize ≤ 20 :=
  utf8ByteSize_toDigits_le (by decide) (n.toNat_lt.trans (by decide))

theorem utf8ByteSize_optionalIdJson (id : Option UInt32) :
    (optionalIdJson id).utf8ByteSize ≤ 10 := by
  cases id with
  | none => exact (by decide : ("null" : String).utf8ByteSize ≤ 10)
  | some id => exact utf8ByteSize_decimal_u32 id

theorem fieldBytes_ratchetFields {B : B64Texts C} {header : ProtoRatchetHeader}
    (hkey : (jsonString (B.key header.ratchetKey)).utf8ByteSize = 46) :
    ((ratchetFields B header).map fieldBytes).sum ≤ 124 := by
  have hparts : ((ratchetFields B header).map fieldBytes).sum =
      11 + (jsonString (B.key header.ratchetKey)).utf8ByteSize + 4 +
        (21 + (decimal header.previousChainLength.toNat).utf8ByteSize + 4 +
          (14 + (decimal header.messageNumber.toNat).utf8ByteSize + 4 + 0)) := rfl
  have hlength := utf8ByteSize_decimal_u32 header.previousChainLength
  have hnumber := utf8ByteSize_decimal_u32 header.messageNumber
  omega

/-! ## Envelopes -/

def headerKeys : MessageHeader → List (B64Text Bytes)
  | .preKey senderIdentityKey senderEphemeralKey _ _ ratchet =>
    [senderIdentityKey, senderEphemeralKey, ratchet.ratchetKey]
  | .ratchet header => [header.ratchetKey]

/-- An envelope of the client, whose ciphertext is a base64 text of `size` bytes. -/
structure Wrapped (size : Nat) (envelope : EncryptedEnvelope C) : Prop where
  version : envelope.version = PROTOCOL_VERSION
  keys : ∀ field ∈ headerKeys envelope.header, ∃ key : Key32, field = b64Encode key.toList
  ciphertext : ∃ ciphertext, envelope.ciphertext = ⟨some ciphertext, size⟩

theorem wrapped_wrap {S : IdentitySuite K Sec C} (hS : S.toSuite.TagLength)
    (session : PeerSession K Sec) (identityPublic : Key32) {plaintext aad : Bytes}
    {s t : SessionState K Sec} {message : RatchetMessage C}
    (h : (encrypt S.toSuite plaintext aad).run s = .ok message t) :
    Wrapped (reserved plaintext.length) (session.wrap S identityPublic message) where
  version := rfl
  keys := by
    unfold PeerSession.wrap
    cases session.prekeyHeader with
    | none =>
      intro field hfield
      rw [List.mem_singleton.mp hfield]
      exact ⟨_, rfl⟩
    | some x3dhData =>
      intro field hfield
      rcases List.mem_cons.mp hfield with rfl | hfield
      · exact ⟨_, rfl⟩
      rcases List.mem_cons.mp hfield with rfl | hfield
      · exact ⟨_, rfl⟩
      rw [List.mem_singleton.mp hfield]
      exact ⟨_, rfl⟩
  ciphertext := ⟨message.ciphertext, by
    unfold PeerSession.wrap
    rw [ciphertextLen_of_encrypt hS h, b64Len_tagged]⟩

theorem validateB64Len_key (key : Key32) : validateB64Len 32 (b64Encode key.toList) = .ok () :=
  if_neg (not_not.mpr key.toList_length)

namespace Wrapped

variable {size : Nat} {envelope : EncryptedEnvelope C} {W : Wire C} {B : B64Texts C}

/-- The check of the client is the check of the relay. -/
theorem valid (h : Wrapped size envelope) (hsize : size ≤ MAX_CIPHERTEXT_BYTES) :
    validateEnvelope envelope = .ok () := by
  obtain ⟨hversion, hkeys, ciphertext, hciphertext⟩ := h
  have hkey : ∀ field ∈ headerKeys envelope.header, validateB64Len 32 field = .ok () := by
    intro field hfield
    obtain ⟨key, rfl⟩ := hkeys field hfield
    exact validateB64Len_key key
  unfold validateEnvelope
  rw [if_neg (not_not.mpr hversion), hciphertext, if_neg (Nat.not_lt.mpr hsize),
    if_neg (by simp)]
  cases hheader : envelope.header with
  | preKey senderIdentityKey senderEphemeralKey signedPrekeyId oneTimePrekeyId ratchet =>
    rw [hheader] at hkey
    dsimp only
    rw [hkey senderIdentityKey (by simp [headerKeys]), hkey senderEphemeralKey
      (by simp [headerKeys]), hkey ratchet.ratchetKey (by simp [headerKeys])]
    rfl
  | ratchet header =>
    rw [hheader] at hkey
    exact hkey header.ratchetKey (by simp [headerKeys])

/-- A key takes 44 characters and two quotes. -/
theorem key_size (h : Wrapped size envelope) (hB : PaddedBase64 B.key) {field : B64Text Bytes}
    (hfield : field ∈ headerKeys envelope.header) :
    (jsonString (B.key field)).utf8ByteSize = 46 := by
  obtain ⟨key, rfl⟩ := h.keys field hfield
  obtain ⟨hlength, halphabet⟩ := hB (b64Encode key.toList) rfl
  rw [utf8ByteSize_jsonString_base64 halphabet, hlength]
  show b64Len key.toList.length + 2 = 46
  rw [key.toList_length]
  rfl

theorem header_size (h : Wrapped size envelope) (hB : PaddedBase64 B.key) :
    (headerJson B envelope.header).utf8ByteSize ≤ 400 := by
  have hkey : ∀ field ∈ headerKeys envelope.header,
      (jsonString (B.key field)).utf8ByteSize = 46 := fun field => h.key_size hB
  cases hheader : envelope.header with
  | preKey senderIdentityKey senderEphemeralKey signedPrekeyId oneTimePrekeyId ratchet =>
    rw [hheader] at hkey
    have hparts : (headerJson B (.preKey senderIdentityKey senderEphemeralKey signedPrekeyId
        oneTimePrekeyId ratchet)).utf8ByteSize =
        (4 + 8 + 4 + (19 + (jsonString (B.key senderIdentityKey)).utf8ByteSize + 4 +
          (20 + (jsonString (B.key senderEphemeralKey)).utf8ByteSize + 4 +
          (26 + (decimal signedPrekeyId.toNat).utf8ByteSize + 4 +
          (28 + (optionalIdJson oneTimePrekeyId).utf8ByteSize + 4 +
          (7 + (jsonObject (ratchetFields B ratchet)).utf8ByteSize + 4 + 0)))))) + 1 :=
      utf8ByteSize_jsonObject _ _
    have hobject : (jsonObject (ratchetFields B ratchet)).utf8ByteSize =
        ((ratchetFields B ratchet).map fieldBytes).sum + 1 := utf8ByteSize_jsonObject _ _
    have hidentity := hkey senderIdentityKey (by simp [headerKeys])
    have hephemeral := hkey senderEphemeralKey (by simp [headerKeys])
    have hratchet := fieldBytes_ratchetFields (hkey ratchet.ratchetKey (by simp [headerKeys]))
    have hsigned := utf8ByteSize_decimal_u32 signedPrekeyId
    have honeTime := utf8ByteSize_optionalIdJson oneTimePrekeyId
    omega
  | ratchet header =>
    rw [hheader] at hkey
    have hparts : (headerJson B (.ratchet header)).utf8ByteSize =
        4 + 9 + 4 + ((ratchetFields B header).map fieldBytes).sum + 1 :=
      utf8ByteSize_jsonObject _ _
    have hratchet := fieldBytes_ratchetFields (hkey header.ratchetKey (by simp [headerKeys]))
    omega

theorem envelope_size (h : Wrapped size envelope) (hW : Compact W B) :
    (W.envelopeJson envelope).utf8ByteSize ≤ size + 500 := by
  have hparts : (W.envelopeJson envelope).utf8ByteSize =
      (7 + (decimal envelope.version.toNat).utf8ByteSize + 4 +
        (6 + (headerJson B envelope.header).utf8ByteSize + 4 +
        (10 + (jsonString (B.ciphertext envelope.ciphertext)).utf8ByteSize + 4 + 0))) + 1 := by
    rw [hW.envelopes]
    exact utf8ByteSize_jsonObject _ _
  have hciphertext : (jsonString (B.ciphertext envelope.ciphertext)).utf8ByteSize = size + 2 := by
    obtain ⟨ciphertext, hciphertext⟩ := h.ciphertext
    rw [hciphertext]
    obtain ⟨hlength, halphabet⟩ := hW.ciphertexts ⟨some ciphertext, size⟩ rfl
    rw [utf8ByteSize_jsonString_base64 halphabet, hlength]
  have hversion := utf8ByteSize_decimal_u32 envelope.version
  have hheader := h.header_size hW.keys
  omega

/-- Any sender and any time fit in the 16 KiB beside the ciphertext. -/
theorem page_size (h : Wrapped size envelope) (hW : Compact W B)
    (hsize : size ≤ MAX_CIPHERTEXT_BYTES) (messageId : MessageId) (senderId : UserId)
    (timestamp : UInt64) :
    pageLen W ⟨messageId, senderId, envelope⟩ timestamp.toNat ≤ MAX_QUEUED_PAGE_BYTES := by
  have hitem : itemBytes W ⟨⟨messageId, senderId, envelope⟩, timestamp.toNat⟩ =
      (10 + (jsonString (W.uuidText messageId)).utf8ByteSize + 4 +
        (9 + (jsonString senderId.text).utf8ByteSize + 4 +
        (8 + (W.envelopeJson envelope).utf8ByteSize + 4 +
        (9 + (decimal timestamp.toNat).utf8ByteSize + 4 + 0)))) + 1 :=
    utf8ByteSize_jsonObject _ _
  have hpage : emptyPageBytes W = 39 := rfl
  have hid := hW.ids messageId
  have huuid := utf8ByteSize_jsonString_le (W.uuidText messageId)
  have hescaped := utf8ByteSize_jsonString_le senderId.text
  have hsender := utf8ByteSize_userId senderId
  have hjson := h.envelope_size hW
  have htime := utf8ByteSize_decimal_u64 timestamp
  unfold pageLen
  rw [utf8ByteSize_pageJson_singleton]
  unfold MAX_QUEUED_PAGE_BYTES
  omega

theorem frame_size (h : Wrapped size envelope) (hW : Compact W B)
    (hsize : size ≤ MAX_CIPHERTEXT_BYTES) (type idField : String)
    (hnames : type.utf8ByteSize + idField.utf8ByteSize ≤ 1024) (recipientId : UserId)
    (id : MessageId) :
    (sealedFrame W type idField recipientId id envelope).utf8ByteSize ≤ MAX_QUEUED_PAGE_BYTES := by
  have hparts : (sealedFrame W type idField recipientId id envelope).utf8ByteSize =
      (4 + (jsonString type).utf8ByteSize + 4 +
        (12 + (jsonString recipientId.text).utf8ByteSize + 4 +
        (idField.utf8ByteSize + (jsonString (W.uuidText id)).utf8ByteSize + 4 +
        (8 + (W.envelopeJson envelope).utf8ByteSize + 4 + 0)))) + 1 :=
    utf8ByteSize_jsonObject _ _
  have htype := utf8ByteSize_jsonString_le type
  have hid := hW.ids id
  have huuid := utf8ByteSize_jsonString_le (W.uuidText id)
  have hescaped := utf8ByteSize_jsonString_le recipientId.text
  have hrecipient := utf8ByteSize_userId recipientId
  have hjson := h.envelope_size hW
  unfold MAX_QUEUED_PAGE_BYTES
  omega

end Wrapped

/-! ## What the relay admits -/

/-- A message or receipt that passes the checks of the relay, whoever sends it and when. -/
def Admissible (W : Wire C) : ClientMessage C → Prop
  | .sendMessage recipientId messageId envelope =>
    validateEnvelope envelope = .ok () ∧
    (∀ senderId (timestamp : UInt64),
      pageLen W ⟨messageId, senderId, envelope⟩ timestamp.toNat ≤ MAX_QUEUED_PAGE_BYTES) ∧
    (sendMessageJson W recipientId messageId envelope).utf8ByteSize ≤ MAX_QUEUED_PAGE_BYTES
  | .sendReadReceipt recipientId receiptId envelope =>
    validateEnvelope envelope = .ok () ∧
    (sendReadReceiptJson W recipientId receiptId envelope).utf8ByteSize ≤ MAX_QUEUED_PAGE_BYTES
  | _ => True

section

variable {S : IdentitySuite K Sec C} {texts : List MessageId → Bytes} {W : Wire C} {B : B64Texts C}
  {size : Nat} {envelope : EncryptedEnvelope C}

theorem Wrapped.message_admissible (h : Wrapped size envelope) (hW : Compact W B)
    (hsize : size ≤ MAX_CIPHERTEXT_BYTES) (recipientId : UserId) (messageId : MessageId) :
    Admissible W (.sendMessage recipientId messageId envelope) :=
  ⟨h.valid hsize, h.page_size hW hsize messageId,
    h.frame_size hW hsize _ _ (by decide) recipientId messageId⟩

theorem Wrapped.receipt_admissible (h : Wrapped size envelope) (hW : Compact W B)
    (hsize : size ≤ MAX_CIPHERTEXT_BYTES) (recipientId : UserId) (receiptId : MessageId) :
    Admissible W (.sendReadReceipt recipientId receiptId envelope) :=
  ⟨h.valid hsize, h.frame_size hW hsize _ _ (by decide) recipientId receiptId⟩

variable {message : ClientMessage C}

/-- The envelope of a call that encrypts. -/
theorem wrapped_of_encryptResult (hS : S.toSuite.TagLength) {m m' : Manager K Sec C}
    {peerId : UserId} {plaintext : Bytes} {item : EncryptedEnvelope C → PendingOutbound C}
    (h : EncryptResult S m peerId plaintext item (.ok message m')) :
    ∃ envelope, Wrapped (reserved plaintext.length) envelope ∧
      message = (item envelope).toClientMessage ∧
      m'.pendingOutbound = m.pendingOutbound ++ [item envelope] := by
  cases h with
  | filed original ratchetMessage ratchet hsession hmade hnew =>
    exact ⟨_, wrapped_wrap hS original _ hmade, rfl, rfl⟩

theorem receipt_length {m m' : Manager K Sec C} {peerId recipientId : UserId}
    {messageIds : List MessageId} {receiptId : MessageId} {fails : Bool} {message : ClientMessage C}
    (h : (encryptReadReceipt S texts peerId recipientId messageIds receiptId fails).run m =
      .ok message m') :
    reserved (receiptPlaintext texts messageIds).length ≤ MAX_CIPHERTEXT_BYTES := by
  unfold encryptReadReceipt at h
  dsimp only at h
  split at h
  · cases h
  · next hlength => exact Nat.le_of_not_lt hlength

/-! ## The composer -/

/-- The operations of `handle_enter`. -/
def Enters : Op Sec C → Prop
  | .expireStalePrekeySession .. => True
  | .addPending _ => True
  | .encryptMessage _ _ _ plaintext _ => reserved plaintext.length ≤ MAX_CIPHERTEXT_BYTES
  | _ => False

theorem perform_enters (hS : S.toSuite.TagLength) (hW : Compact W B) {op : Op Sec C}
    (hop : Enters op) (m : Manager K Sec C) :
    Traffic m (fun item => Admissible W item.toClientMessage) id ((perform S texts op).run m) := by
  cases op with
  | expireStalePrekeySession peerId now fails =>
    refine .map (.silent fun item hitem => ?_)
    rcases expireStalePrekeySession_cases peerId now fails m with ⟨e, h⟩ | h | ⟨session, -, -, h⟩
    all_goals rw [h] at hitem; exact hitem
  | addPending peerId => exact .map (.silent fun _ h => h)
  | encryptMessage peerId recipientId messageId plaintext fails =>
    refine .map ?_
    have hresult := encryptMessage_result S peerId recipientId messageId plaintext fails m
    generalize (encryptMessage S peerId recipientId messageId plaintext fails).run m = result
      at hresult
    cases hresult with
    | failed err => exact .error _ err fun _ => .inl
    | filed original message ratchet hsession hmade hnew =>
      exact .filed ((wrapped_wrap hS original _ hmade).message_admissible hW hop recipientId
        messageId) rfl
  | _ => exact absurd hop id

/-- The messages of the outbox and those that were handed to the network task. -/
def offered (p : Manager K Sec C × List (ClientMessage C)) : List (ClientMessage C) :=
  p.2 ++ p.1.pendingMessages

/-- The outbox after an operation of `handle_enter`. -/
theorem perform_pendingMessages (hS : S.toSuite.TagLength) (hW : Compact W B) {op : Op Sec C}
    (hop : Enters op) {m : Manager K Sec C}
    (h : message ∈ (finalState ((perform S texts op).run m)).pendingMessages) :
    message ∈ m.pendingMessages ∨ Admissible W message := by
  obtain ⟨item, hitem, rfl⟩ := List.mem_map.mp h
  rcases (perform_enters hS hW hop m).items item hitem with hitem | hitem
  · exact .inl (List.mem_map_of_mem hitem)
  · exact .inr hitem

theorem move_offered (hS : S.toSuite.TagLength) (hW : Compact W B)
    {p q : Manager K Sec C × List (ClientMessage C)}
    (hmove : Move S texts (fun _ op => Enters op) p q) (hmessage : message ∈ offered q) :
    message ∈ offered p ∨ Admissible W message := by
  cases hmove with
  | call op hop =>
    rcases List.mem_append.mp hmessage with hsent | hpending
    · exact .inl (List.mem_append_left _ hsent)
    · exact (perform_pendingMessages hS hW hop hpending).imp_left (List.mem_append_right _)
  | @returned m m' out messages op hop hrun =>
    have hfiled : message ∈ m'.pendingMessages →
        message ∈ offered (m, out) ∨ Admissible W message := fun hpending => by
      have hstate : (finalState ((perform S texts op).run m)).pendingMessages =
          m'.pendingMessages := by rw [hrun]; rfl
      exact (perform_pendingMessages hS hW hop (hstate ▸ hpending)).imp_left
        (List.mem_append_right _)
    rcases List.mem_append.mp hmessage with hsent | hpending
    · rcases List.mem_append.mp hsent with hsent | hreturned
      · exact .inl (List.mem_append_left _ hsent)
      · exact hfiled ((perform_enters hS hW hop m).returned _ _ hrun message hreturned)
    · exact hfiled hpending
  | told op hop message' htells hrun =>
    cases op with
    | confirmMessageSent messageId fails | confirmReadReceiptSent receiptId fails =>
      exact absurd hop id
    | _ => cases htells
  | resent message' hpending' =>
    rcases List.mem_append.mp hmessage with hsent | hpending
    · rcases List.mem_append.mp hsent with hsent | hsent
      · exact .inl (List.mem_append_left _ hsent)
      · rw [List.mem_singleton.mp hsent]
        exact .inl (List.mem_append_right _ hpending')
    · exact .inl (List.mem_append_right _ hpending)
  | asked target =>
    rcases List.mem_append.mp hmessage with hsent | hpending
    · rcases List.mem_append.mp hsent with hsent | hsent
      · exact .inl (List.mem_append_left _ hsent)
      · rw [List.mem_singleton.mp hsent]
        exact .inr trivial
    · exact .inl (List.mem_append_right _ hpending)

theorem moves_offered (hS : S.toSuite.TagLength) (hW : Compact W B)
    {p q : Manager K Sec C × List (ClientMessage C)}
    (hmoves : Moves S texts (fun _ op => Enters op) p q) :
    ∀ message ∈ offered q, message ∈ offered p ∨ Admissible W message := by
  induction hmoves with
  | refl => exact fun _ => .inl
  | tail _ hmove ih =>
    intro message hmessage
    rcases move_offered hS hW hmove hmessage with hbefore | hadmitted
    · exact ih message hbefore
    · exact .inr hadmitted

theorem length_toUTF8 (text : String) : text.toUTF8.data.toList.length = text.utf8ByteSize :=
  String.size_toByteArray

end

/-- **What the client encrypts the relay admits.** A text that passes the check of
`handle_enter` becomes a `SendMessage` that passes every check of the relay; so does every read
receipt. `handle_enter` adds nothing else to the outbox and to what is sent. -/
theorem encrypted_admitted (S : IdentitySuite K Sec C) (hS : S.toSuite.TagLength) (W : Wire C)
    (B : B64Texts C) (hW : Compact W B) :
    (∀ (m m' : Manager K Sec C) (peerId recipientId : UserId) (messageId : MessageId)
        (text : String) (fails : Bool) (message : ClientMessage C),
      (text.utf8ByteSize + 18) / 3 * 4 ≤ MAX_CIPHERTEXT_BYTES →
      (encryptMessage S peerId recipientId messageId text.toUTF8.data.toList fails).run m =
        .ok message m' →
      ∃ envelope, message = .sendMessage recipientId messageId envelope ∧
        validateEnvelope envelope = .ok () ∧
        (∀ senderId (timestamp : UInt64),
          pageLen W ⟨messageId, senderId, envelope⟩ timestamp.toNat ≤ MAX_QUEUED_PAGE_BYTES) ∧
        (sendMessageJson W recipientId messageId envelope).utf8ByteSize ≤
          MAX_QUEUED_PAGE_BYTES) ∧
    (∀ (app : App K Sec C) (text : String) (now : Nat) (expireFails : Bool) (env : IdEnv)
        (historyFails : Bool),
      ∀ message ∈
        offered
          (finalState ((App.handleEnter S text now expireFails env historyFails).run app)).port,
        message ∈ offered app.port ∨ Admissible W message) ∧
    ∀ (texts : List MessageId → Bytes) (m m' : Manager K Sec C) (peerId recipientId : UserId)
        (messageIds : List MessageId) (receiptId : MessageId) (fails : Bool)
        (message : ClientMessage C),
      (encryptReadReceipt S texts peerId recipientId messageIds receiptId fails).run m =
        .ok message m' →
      ∃ envelope, message = .sendReadReceipt recipientId receiptId envelope ∧
        validateEnvelope envelope = .ok () ∧
        (sendReadReceiptJson W recipientId receiptId envelope).utf8ByteSize ≤
          MAX_QUEUED_PAGE_BYTES := by
  refine ⟨?_, ?_, ?_⟩
  · intro m m' peerId recipientId messageId text fails message hlength hrun
    have hresult := encryptMessage_result S peerId recipientId messageId
      text.toUTF8.data.toList fails m
    rw [hrun] at hresult
    obtain ⟨envelope, hwrapped, rfl, -⟩ := wrapped_of_encryptResult hS hresult
    rw [length_toUTF8] at hwrapped
    exact ⟨envelope, rfl, hwrapped.message_admissible hW hlength recipientId messageId⟩
  · intro app text now expireFails env historyFails
    have hmoves : MovesFrom S (fun _ => []) (fun _ op => Enters op) app
        (App.handleEnter S text now expireFails env historyFails) :=
      handleEnter_moves text now expireFails env historyFails (fun _ _ => trivial)
        (fun _ _ _ => trivial) fun _ _ hlength => by
          show reserved text.toUTF8.data.toList.length ≤ MAX_CIPHERTEXT_BYTES
          rw [length_toUTF8]
          exact hlength
    exact moves_offered hS hW hmoves
  · intro texts m m' peerId recipientId messageIds receiptId fails message hrun
    have hlength : reserved (receiptPlaintext texts messageIds).length ≤ MAX_CIPHERTEXT_BYTES :=
      receipt_length hrun
    have hresult :=
      encryptReadReceipt_result S texts peerId recipientId messageIds receiptId fails m
    rw [hrun] at hresult
    obtain ⟨envelope, hwrapped, rfl, -⟩ := wrapped_of_encryptResult hS hresult
    exact ⟨envelope, rfl, hwrapped.receipt_admissible hW hlength recipientId receiptId⟩

/-! ## Alice's first message -/

/-- Base64 texts of their lengths. -/
def blankTexts : B64Texts Ciphertext where
  key field := String.ofList (List.replicate field.length 'A')
  ciphertext field := String.ofList (List.replicate field.length 'A')

def blankWire : Wire Ciphertext where
  envelopeJson := envelopeJson blankTexts
  parseEnvelope _ := none
  uuidText _ := "00000000-0000-0000-0000-000000000000"
  parseUuid _ := none
  datetime _ := "1970-01-01 00:01:40"

theorem blank_padded {α : Type} :
    PaddedBase64 (fun field : B64Text α => String.ofList (List.replicate field.length 'A')) := by
  intro field _
  refine ⟨?_, fun c hc => ?_⟩
  · rw [String.utf8ByteSize_ofList, utf8Len_of_ascii, List.length_replicate]
    intro c hc
    rw [List.eq_of_mem_replicate hc]
    decide
  · rw [String.toList_ofList] at hc
    rw [List.eq_of_mem_replicate hc]
    decide

theorem blank_compact : Compact blankWire blankTexts :=
  ⟨blank_padded, blank_padded, fun _ => rfl, fun _ => rfl⟩

set_option maxRecDepth 4000 in
theorem encrypted_admitted_first :
    ∃ envelope m',
      (encryptMessage symbolicIdentity Client.bob Client.bob ⟨1⟩ "hi".toUTF8.data.toList false).run
        initiatedAlice = .ok (.sendMessage Client.bob ⟨1⟩ envelope) m' ∧
      envelope.header.isPreKey = true ∧ validateEnvelope envelope = .ok () ∧
      pageLen blankWire ⟨⟨1⟩, Client.alice, envelope⟩ 1700000000 ≤ MAX_QUEUED_PAGE_BYTES := by
  obtain ⟨envelope, m', hrun, hfirst⟩ : ∃ envelope m',
      (encryptMessage symbolicIdentity Client.bob Client.bob ⟨1⟩ "hi".toUTF8.data.toList false).run
        initiatedAlice = .ok (.sendMessage Client.bob ⟨1⟩ envelope) m' ∧
      envelope.header.isPreKey = true := ⟨_, _, rfl, rfl⟩
  obtain ⟨envelope', hsame, hvalid, hpage, -⟩ :=
    (encrypted_admitted symbolicIdentity symbolic_tagLength blankWire blankTexts blank_compact).1
      initiatedAlice m' Client.bob Client.bob ⟨1⟩ "hi" false _ (by decide) hrun
  cases hsame
  exact ⟨envelope, m', hrun, hfirst, hvalid, hpage Client.alice 1700000000⟩

end Cmp.System
