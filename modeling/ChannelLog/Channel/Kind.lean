import ChannelLog.Crypto.Sealed
import ChannelLog.Json.Record

/-!
# Kinds of channels

A channel is clear or encrypted, which its first valid transaction decides; until then its kind is
unknown.
-/

namespace ChannelLog

open Json.Source (choice?)

/-- The kind of a channel by name. -/
inductive ChannelType where
  | unknown
  | clear
  | encrypted
deriving DecidableEq, Repr

namespace ChannelType

def name : ChannelType → String
  | unknown => "unknown"
  | clear => "clear"
  | encrypted => "encrypted"

def choices : List (String × ChannelType) :=
  [(unknown.name, unknown), (clear.name, clear), (encrypted.name, encrypted)]

def ofSource? : Json.Source → Option ChannelType := choice? choices

end ChannelType

/-- The key under which the payloads of a channel are sealed. -/
abbrev ChannelKey := SymmetricKey

inductive ChannelKeyMethod where
  | aes256Gcm
deriving DecidableEq, Repr

namespace ChannelKeyMethod

def name : ChannelKeyMethod → String
  | aes256Gcm => "aes256-gcm"

def ofSource? : Json.Source → Option ChannelKeyMethod := choice? [(aes256Gcm.name, aes256Gcm)]

end ChannelKeyMethod

/-- The only encryption method of channels: the payloads sealed under the channel's key, the key in
an envelope for each recipient. -/
def channelEncryptionMethod : String := "ecies-aes256-gcm"

/-- The key of an encrypted channel and the method that its first transaction names. -/
structure Encryption where
  key : ChannelKey
  method : String
deriving DecidableEq

/-- The kind of a channel with everything that goes with it. -/
inductive ChannelKind where
  | unknown
  | clear
  | encrypted (encryption : Encryption)
deriving DecidableEq

namespace ChannelKind

def type : ChannelKind → ChannelType
  | unknown => .unknown
  | clear => .clear
  | encrypted _ => .encrypted

def key? : ChannelKind → Option ChannelKey
  | encrypted e => some e.key
  | _ => none

def method? : ChannelKind → Option String
  | encrypted e => some e.method
  | _ => none

/-- The kind of a channel whose first transaction brings the encryption given, if any. -/
def ofOrigin : Option Encryption → ChannelKind
  | none => clear
  | some e => encrypted e

end ChannelKind

end ChannelLog
