import ChannelLog.Json.Record
import ChannelLog.Text.LowerCase

/-!
# Identities and recipients

An identity names who may decrypt something, by an address in small letters. A recipient is someone
to encrypt for, given by a public key.
-/

namespace ChannelLog

open Json.Source (required? text? choice?)

inductive IdentityType where
  | ethereumAddress
deriving DecidableEq, Repr

namespace IdentityType

def name : IdentityType → String
  | ethereumAddress => "ethereumAddress"

def ofSource? : Json.Source → Option IdentityType := choice? [(ethereumAddress.name, ethereumAddress)]

end IdentityType

structure Identity where
  type : IdentityType
  value : String
deriving DecidableEq, Repr

namespace Identity

/-- The identity of an address, whatever the case of its letters. -/
def ofAddress (address : String) : Identity := ⟨.ethereumAddress, Text.lowerCase address⟩

/-- What identities are compared by. -/
def key (i : Identity) : String := Text.lowerCase i.value

def ofSource? (s : Json.Source) : Option Identity := do
  match ← s.fields? ["type", "value"] with
  | [type, value] => return ⟨← required? IdentityType.ofSource? type, ← required? text? value⟩
  | _ => none

def toJson (i : Identity) : Json :=
  .object [("type", .string i.type.name), ("value", .string i.value)]

end Identity

inductive EncryptionMethod where
  | ecies
deriving DecidableEq, Repr

namespace EncryptionMethod

def name : EncryptionMethod → String
  | ecies => "ecies"

def ofSource? : Json.Source → Option EncryptionMethod := choice? [(ecies.name, ecies)]

end EncryptionMethod

/-- Someone to encrypt for: `key` is a public key in hexadecimal text. -/
structure Recipient where
  method : EncryptionMethod
  key : String
deriving DecidableEq, Repr

namespace Recipient

def ofSource? (s : Json.Source) : Option Recipient := do
  match ← s.fields? ["method", "key"] with
  | [method, key] => return ⟨← required? EncryptionMethod.ofSource? method, ← required? text? key⟩
  | _ => none

def toJson (r : Recipient) : Json :=
  .object [("method", .string r.method.name), ("key", .string r.key)]

end Recipient

end ChannelLog
