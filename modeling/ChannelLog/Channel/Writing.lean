import ChannelLog.Channel.Kind
import ChannelLog.Crypto.Envelope
import ChannelLog.Identity
import ChannelLog.Transaction

/-!
# Writing into channels

The contents of the transactions of a channel. Encrypting draws keys and nonces at random; they are
arguments here.
-/

namespace ChannelLog

inductive EncryptionError where
  | noRecipients
  | invalidRecipientKey (key : String)
deriving DecidableEq

def EncryptionError.message : EncryptionError → String
  | noRecipients => "An encrypted channel needs at least one recipient"
  | invalidRecipientKey key => "Invalid recipient public key: " ++ key

/-- What has to be drawn at random for a new channel: its key, a nonce for the payload, and for
each recipient, by number, what an envelope needs. -/
structure ChannelDraw where
  key : ChannelKey
  nonce : Nonce
  envelopes : Nat → Envelope.Draw

namespace Content

/-- A later transaction of an encrypted channel: the sealed canonical text of the payload and its
fingerprint. -/
def encrypted (payload : Json) (key : ChannelKey) (nonce : Nonce) : Content where
  encryptedData := some
    (Hex.encode (Sealed.encrypt key nonce (Bytes.utf8 payload.canonicalText)))
  hash := some payload.fingerprint

/-- Wraps a channel key for each recipient, the first of which has the number `number`, and enters
it under the recipient's address. -/
def wrapFor (key : ChannelKey) (envelopes : Nat → Envelope.Draw) (number : Nat)
    (wrapped : Dict String) : List Recipient → Except EncryptionError (Dict String)
  | [] => .ok wrapped
  | recipient :: rest =>
    match PublicKey.ofHex recipient.key with
    | .error _ => .error (.invalidRecipientKey recipient.key)
    | .ok publicKey =>
      let envelope := Envelope.close publicKey (envelopes number) key.bytes
      wrapFor key envelopes (number + 1) (wrapped.insert publicKey.address (Hex.encode envelope))
        rest

/-- The first transaction of an encrypted channel for the recipients given, and the key of the
channel. -/
def firstEncryptedWithKey (payload : Json) (recipients : List Recipient) (draw : ChannelDraw) :
    Except EncryptionError (Content × ChannelKey) :=
  if recipients.isEmpty then .error .noRecipients
  else do
    let keys ← wrapFor draw.key draw.envelopes 0 ∅ recipients
    let content := { encrypted payload draw.key draw.nonce with
      encryptionMethod := some channelEncryptionMethod
      keys := some keys }
    return (content, draw.key)

/-- The first transaction alone: a ledger forgets the key, and gets it back from the envelopes. -/
def firstEncrypted (payload : Json) (recipients : List Recipient) (draw : ChannelDraw) :
    Except EncryptionError Content :=
  (firstEncryptedWithKey payload recipients draw).map (·.1)

end Content

end ChannelLog
