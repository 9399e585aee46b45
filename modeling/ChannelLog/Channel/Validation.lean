import ChannelLog.Channel.Parsing

/-!
# Validating transactions

A parsed transaction is valid if its signature leads to a signer and its payload is what it is said
to be.
-/

namespace ChannelLog

inductive ValidationError where
  | invalidSignature (cause : CryptoError)
  /-- The plaintext is no JSON text; how it fails to be is not told. -/
  | invalidPayload
  | hashMismatch
deriving DecidableEq

def ValidationError.message : ValidationError → String
  | invalidSignature cause => "Signature error: " ++ cause.message
  | invalidPayload => "Impossible to JSON parse the decrypted transaction data (<json>)"
  | hashMismatch => "The given hash does not match the hash of the decrypted data"

/-- The payload of a valid transaction, its fingerprint, and who signed. -/
structure Validated where
  data : Json
  hash : String
  signer : String
deriving DecidableEq

namespace ParsedBody

/-- The payload. The fingerprint that an encrypted one is said to have may differ from its own in
the case of letters. -/
def payload : ParsedBody → Except ValidationError Json
  | clear data => .ok data
  | encrypted plaintext declaredHash =>
    match (Bytes.text? plaintext).bind Json.ofText? with
    | none => .error .invalidPayload
    | some data =>
      if Text.sameUpToAsciiCase data.fingerprint declaredHash then .ok data
      else .error .hashMismatch

end ParsedBody

def Parsed.validate (p : Parsed) : Except ValidationError Validated := do
  let signer ← p.transaction.signer.mapError .invalidSignature
  let data ← p.body.payload
  return ⟨data, data.fingerprint, signer⟩

end ChannelLog
