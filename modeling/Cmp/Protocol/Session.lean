import Cmp.Lib.BigEndian
import Cmp.Protocol.ServerMessage

/-! The messages of a connection before and after its login, and the bytes that a
login signs. -/

namespace Cmp.Protocol

open Cmp.Crypto Cmp.Lib

/-- `ClientMessage` with the kinds that belong to the connection and not to its user. -/
inductive SessionMessage (C : Type)
  | register (userId : UserId) (bundle : PreKeyBundle) (oneTimePrekeys : List PublicOneTimePreKey)
  | authChallenge (userId : UserId)
  | authResponse (signature : B64Text Bytes)
  | typing (recipientId : UserId)
  | request (message : ClientMessage C)

/-- The bytes `nonce || timestamp || server_id` that both sides build. -/
def signedData (nonceBytes : Bytes) (timestamp : UInt64) (serverId : String) : Bytes :=
  nonceBytes ++ beBytes 8 timestamp.toNat ++ serverId.toUTF8.data.toList

theorem length_signedData (nonceBytes : Bytes) (timestamp : UInt64) (serverId : String) :
    (signedData nonceBytes timestamp serverId).length =
      nonceBytes.length + 8 + serverId.utf8ByteSize := by
  have hsize : serverId.toUTF8.data.toList.length = serverId.utf8ByteSize :=
    String.size_toByteArray
  simp only [signedData, List.length_append, length_beBytes, hsize]

/-- Where the nonces have one length, the signed bytes determine the challenge. -/
theorem signedData_inj {nonce nonce' : Bytes} {timestamp timestamp' : UInt64}
    {serverId serverId' : String} (hlen : nonce.length = nonce'.length)
    (h : signedData nonce timestamp serverId = signedData nonce' timestamp' serverId') :
    nonce = nonce' ∧ timestamp = timestamp' ∧ serverId = serverId' := by
  unfold signedData at h
  obtain ⟨hfront, hid⟩ := List.append_inj h (by
    simp only [List.length_append, length_beBytes, hlen])
  obtain ⟨hnonce, htime⟩ := List.append_inj hfront hlen
  refine ⟨hnonce, ?_, ?_⟩
  · exact UInt64.toNat_inj.mp (beBytes_inj timestamp.toNat_lt timestamp'.toNat_lt htime)
  · exact String.toByteArray_inj.mp (ByteArray.ext (Array.toList_inj.mp hid))

end Cmp.Protocol
