import ChannelLog.Crypto.RecoverableSignature
import ChannelLog.Json.Fingerprint
import ChannelLog.Signature

/-!
# Transactions

A transaction is a content with a signature over it. A clear content has its payload in `data`; an
encrypted one has it in `encryptedData`, with the payload's fingerprint in `hash`, and the first
one of a channel also says in `keys` and `encryptionMethod` how the channel's key was wrapped. No
combination of fields is ruled out here.
-/

namespace ChannelLog

open Json.Source (required? optional? unique? text? dict? value? memberValues?)

/-! ## Contents -/

/-- What is signed. -/
structure Content where
  data : Option Json := none
  encryptedData : Option String := none
  encryptionMethod : Option String := none
  keys : Option (Dict String) := none
  hash : Option String := none
deriving DecidableEq

namespace Content

def clear (payload : Json) : Content := { data := some payload }

def isEncrypted (c : Content) : Bool := c.encryptedData.isSome

def fields (c : Content) : List (String × Option Json) := [
  ("data", c.data), ("encryptedData", c.encryptedData.map .string),
  ("encryptionMethod", c.encryptionMethod.map .string), ("keys", c.keys.map (Json.ofDict .string)),
  ("hash", c.hash.map .string)]

def toJson (c : Content) : Json := .ofFields c.fields

/-- Reads a content in which arrays and objects may be nested `depth` deep. A payload `null` reads
as no payload. -/
def ofSource? (depth : Nat) (s : Json.Source) : Option Content := do
  match ← s.fields? ["data", "encryptedData", "encryptionMethod", "keys", "hash"] with
  | [data, encryptedData, encryptionMethod, keys, hash] => return {
      data := ← optional? (value? depth) data
      encryptedData := ← optional? text? encryptedData
      encryptionMethod := ← optional? text? encryptionMethod
      keys := ← optional? (dict? text?) keys
      hash := ← optional? text? hash }
  | _ => none

def ofText? (s : String) : Option Content := do
  ofSource? (Json.depthLimit - 1) (← Json.Source.ofText? s)

/-- The hash that is signed. -/
def signingHash (c : Content) : Bytes := c.toJson.digest

end Content

/-! ## Transactions -/

structure Transaction where
  content : Content
  signature : Signature
deriving DecidableEq

namespace Transaction

def toJson (t : Transaction) : Json :=
  .ofFields (t.content.fields ++ [("signature", some t.signature.toJson)])

/-- Reads a transaction in which arrays and objects may be nested `depth` deep. It has to be an
object, and all its members but the signature must denote values, also those that are passed
over. -/
def ofSource? (depth : Nat) : Json.Source → Option Transaction
  | .object members => do
    let others := members.filter (·.1 ≠ some "signature")
    let _ ← memberValues? depth others
    let signature ← required? Signature.ofSource? (← unique? members "signature")
    return ⟨← Content.ofSource? depth (.object others), signature⟩
  | _ => none

def text (t : Transaction) : String := t.toJson.text

def ofText? (s : String) : Option Transaction := do
  ofSource? (Json.depthLimit - 1) (← Json.Source.ofText? s)

/-- The fingerprint of the whole transaction, a topic of every block that holds it. -/
def contentHash (t : Transaction) : String := t.toJson.fingerprint

end Transaction

/-! ## Signing -/

inductive SigningError where
  | invalidPrivateKey
  | failed (cause : CryptoError)
deriving DecidableEq

def SigningError.message : SigningError → String
  | invalidPrivateKey => "Invalid private key"
  | failed cause => "Signing failed: " ++ cause.message

namespace Transaction

/-- The content with a signature, if it could be made. -/
def ofSignature (content : Content) (method : SignatureMethod) :
    Except CryptoError RecoverableSignature → Except SigningError Transaction
  | .error cause => .error (.failed cause)
  | .ok sig => .ok ⟨content, method, sig.toHex⟩

/-- Signs a content. -/
def create (content : Content) (signer : SignatureParameters) : Except SigningError Transaction :=
  match PrivateKey.ofHex signer.privateKey with
  | .error _ => .error .invalidPrivateKey
  | .ok key =>
    ofSignature content signer.method (RecoverableSignature.sign key content.signingHash)

/-- The address that signed the content. -/
def signer (t : Transaction) : Except CryptoError String := do
  (← RecoverableSignature.ofHex t.signature.value).recoverAddress t.content.signingHash

end Transaction

/-- A transaction with the time at which its block was appended. -/
structure Confirmed where
  transaction : Transaction
  timestamp : UInt64
deriving DecidableEq

end ChannelLog
