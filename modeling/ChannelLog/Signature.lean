import ChannelLog.Json.Record

/-!
# Signatures of transactions

A signature as a transaction carries it: the method and a text that nobody has checked yet.
-/

namespace ChannelLog

open Json.Source (required? text? choice?)

inductive SignatureMethod where
  | ecdsa
deriving DecidableEq, Repr

namespace SignatureMethod

def name : SignatureMethod → String
  | ecdsa => "ecdsa"

def ofSource? : Json.Source → Option SignatureMethod := choice? [(ecdsa.name, ecdsa)]

def toJson (m : SignatureMethod) : Json := .string m.name

end SignatureMethod

/-- A signature as it was written. -/
structure Signature where
  method : SignatureMethod
  value : String
deriving DecidableEq, Repr

namespace Signature

def ofSource? (s : Json.Source) : Option Signature := do
  match ← s.fields? ["method", "value"] with
  | [method, value] => return ⟨← required? SignatureMethod.ofSource? method, ← required? text? value⟩
  | _ => none

def toJson (s : Signature) : Json :=
  .object [("method", s.method.toJson), ("value", .string s.value)]

end Signature

/-- What a caller gives to have a transaction signed. -/
structure SignatureParameters where
  method : SignatureMethod
  privateKey : String
deriving DecidableEq

namespace SignatureParameters

def ofSource? (s : Json.Source) : Option SignatureParameters := do
  match ← s.fields? ["method", "privateKey"] with
  | [method, key] => return ⟨← required? SignatureMethod.ofSource? method, ← required? text? key⟩
  | _ => none

def toJson (p : SignatureParameters) : Json :=
  .object [("method", p.method.toJson), ("privateKey", .string p.privateKey)]

/-- How the parameters show in messages: without the key. -/
def redacted (p : SignatureParameters) : String :=
  let method := match p.method with
    | .ecdsa => "Ecdsa"
  "SignatureParameters \x7b method: " ++ method ++ ", private_key: \"<redacted>\" \x7d"

end SignatureParameters

end ChannelLog
