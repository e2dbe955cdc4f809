import Cmp.Protocol.Types

/-! The replies of the relay, with the constants of `protocol::consts` that only the
relay reads. What it pushes to other connections is left out. -/

namespace Cmp.Protocol

open Cmp.Crypto

variable {C : Type}

inductive ServerMessage (C : Type)
  | challenge (nonce : B64Text Bytes) (timestamp : UInt64) (serverId : String)
  | authSuccess
  | authFailure (reason : String)
  | preKeyBundleResponse (userId : UserId) (bundle : PreKeyBundle)
  | messageSent (messageId : MessageId)
  | messageRejected (messageId : MessageId) (reason : String)
  | ackSuccess (ackId : MessageId) (messageIds : List MessageId)
  | readReceiptSent (receiptId : MessageId)
  | success
  | preKeysUploaded (uploadId : MessageId) (accepted : Bool) (remaining : UInt32)
  | signedPreKeyRotated (rotationId : MessageId) (accepted previouslyAccepted : Bool)
      (currentKeyId : UInt32)
  | error (code : Nat) (message : String)

def authFailure (reason : String) : ServerMessage C := .authFailure reason

def error400 (message : String) : ServerMessage C := .error 400 message

def error404 (message : String) : ServerMessage C := .error 404 message

def error429 (message : String) : ServerMessage C := .error 429 message

def error500Generic : ServerMessage C := .error 500 "internal server error"

def MAX_PREKEYS_PER_UPLOAD : Nat := 200
def MAX_PREKEYS_PER_USER : Nat := 200
def MAX_ACK_BATCH : Nat := 1000
def MAX_QUEUED_PAGE_BYTES : Nat := MAX_CIPHERTEXT_BYTES + 16 * 1024
def MAX_QUEUE_PER_USER : Nat := 10000

end Cmp.Protocol
