import ChannelLog.Channel.Kind
import ChannelLog.KeyHolder
import ChannelLog.Transaction

/-!
# Parsing transactions

What a transaction says in a channel of which the kind, and perhaps the key, is known. A clear
transaction has `data` and nothing else. An encrypted one has `encryptedData` and `hash`; if the
channel's key is known it must not bring one, otherwise it has to, wrapped for a recipient whose
private key is at hand. Of the recipients only the first one held, in ascending order of addresses,
is looked at.
-/

namespace ChannelLog

/-! ## Errors -/

inductive UnwrapError where
  | hex (cause : Hex.HexError)
  | decryption (cause : DecryptionError)
  | keyLength (cause : CryptoError)
  | noRecipient
deriving DecidableEq

def UnwrapError.message : UnwrapError → String
  | hex cause => cause.message
  | decryption cause => cause.message
  | keyLength cause => cause.message
  | noRecipient => "no registered identity among the recipients"

inductive UnsealError where
  | hex (cause : Hex.HexError)
  | crypto (cause : CryptoError)
deriving DecidableEq

def UnsealError.message : UnsealError → String
  | hex cause => cause.message
  | crypto cause => cause.message

inductive ParseError where
  | clearInEncryptedChannel
  | clearWithEncryptionProperties
  | encryptedInClearChannel
  | missingHash
  | missingChannelKeyProperties
  | channelKeyPropertiesAlreadyGiven
  | unsupportedEncryptionMethod (method : String)
  | noDecryptionProvider
  | channelKeyDecryption (cause : UnwrapError)
  | dataDecryption (cause : UnsealError)
  | missingData
deriving DecidableEq

def ParseError.message : ParseError → String
  | clearInEncryptedChannel => "Clear transactions are not allowed in encrypted channel"
  | clearWithEncryptionProperties =>
    "No other property than data is allowed in clear transaction"
  | encryptedInClearChannel => "Encrypted transactions are not allowed in clear channel"
  | missingHash => "the property \"hash\" is missing for the encrypted transaction"
  | missingChannelKeyProperties =>
    "the properties \"encryptionMethod\" and \"keys\" are needed to compute the channel key"
  | channelKeyPropertiesAlreadyGiven =>
    "the properties \"encryptionMethod\" and \"keys\" have been already given for this channel"
  | unsupportedEncryptionMethod method => "Encryption method not supported: " ++ method
  | noDecryptionProvider => "No decryption provider given"
  | channelKeyDecryption cause =>
    "Impossible to decrypt the channel key from this transaction (" ++ cause.message ++ ")"
  | dataDecryption cause =>
    "Impossible to decrypt the transaction data (" ++ cause.message ++ ")"
  | missingData => "Transaction must have a property \"data\" or \"encryptedData\""

/-! ## Channel keys -/

variable {κ : Type} [KeyHolder κ]

/-- Opens the envelope, in hexadecimal text, for an identity whose private key is held. -/
def KeyHolder.unwrap (holder : κ) (identity : Identity) (wrapped : String) :
    Except UnwrapError ChannelKey := do
  let envelope ← (Hex.decode (Hex.dropMarks wrapped)).mapError .hex
  let bytes ← (decrypt holder identity envelope).mapError .decryption
  (SymmetricKey.ofBytes bytes).mapError .keyLength

/-- The key that is wrapped for the first of the recipients held. -/
def KeyHolder.unwrapFirst (holder : κ) : List (String × String) → Except UnwrapError ChannelKey
  | [] => .error .noRecipient
  | (address, wrapped) :: rest =>
    let identity := Identity.ofAddress address
    if holds holder identity then unwrap holder identity wrapped else unwrapFirst holder rest

def decryptChannelKey (holder : Option κ) (keys : Dict String) :
    Except ParseError ChannelKey :=
  match holder with
  | none => .error .noDecryptionProvider
  | some holder => (KeyHolder.unwrapFirst holder keys.entries).mapError .channelKeyDecryption

/-! ## Transactions -/

/-- The payload of a parsed transaction. -/
inductive ParsedBody where
  | clear (data : Json)
  /-- Decrypted, but not yet read, and with the fingerprint that it is said to have. -/
  | encrypted (plaintext : Bytes) (declaredHash : String)
deriving DecidableEq

/-- A transaction parsed, with the encryption that it brings into its channel, if it does. -/
structure Parsed where
  transaction : Transaction
  body : ParsedBody
  brought : Option Encryption
deriving DecidableEq

/-- The encryption that a transaction without known channel key has to bring. -/
def bringEncryption (holder : Option κ) (content : Content) :
    Except ParseError Encryption :=
  match content.keys, content.encryptionMethod with
  | some keys, some method =>
    if method = channelEncryptionMethod then
      (decryptChannelKey holder keys).map fun key => ⟨key, method⟩
    else .error (.unsupportedEncryptionMethod method)
  | _, _ => .error .missingChannelKeyProperties

def openSealed (key : ChannelKey) (encryptedData : String) : Except ParseError Bytes := do
  let bytes ← (Hex.decode (Hex.dropMarks encryptedData)).mapError (.dataDecryption ∘ .hex)
  (Sealed.decrypt key bytes).mapError (.dataDecryption ∘ .crypto)

def parseEncrypted (holder : Option κ) (key : Option ChannelKey) (t : Transaction)
    (encryptedData declaredHash : String) : Except ParseError Parsed :=
  match key with
  | some key =>
    if t.content.keys.isSome || t.content.encryptionMethod.isSome then
      .error .channelKeyPropertiesAlreadyGiven
    else do
      let plaintext ← openSealed key encryptedData
      return ⟨t, .encrypted plaintext declaredHash, none⟩
  | none => do
    let encryption ← bringEncryption holder t.content
    let plaintext ← openSealed encryption.key encryptedData
    return ⟨t, .encrypted plaintext declaredHash, some encryption⟩

/-- Parses a transaction in a channel of type `type` whose key is `key`, if it is known. -/
def parse (holder : Option κ) (type : ChannelType) (key : Option ChannelKey)
    (t : Transaction) : Except ParseError Parsed :=
  let c := t.content
  match c.data with
  | some data =>
    if type = .encrypted then .error .clearInEncryptedChannel
    else if c.encryptedData.isSome || c.encryptionMethod.isSome || c.keys.isSome
        || c.hash.isSome then
      .error .clearWithEncryptionProperties
    else .ok ⟨t, .clear data, none⟩
  | none =>
    match c.encryptedData with
    | none => .error .missingData
    | some encryptedData =>
      if type = .clear then .error .encryptedInClearChannel
      else match c.hash with
        | none => .error .missingHash
        | some declaredHash => parseEncrypted holder key t encryptedData declaredHash

end ChannelLog
