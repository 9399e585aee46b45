import ChannelLog.Bytes.Hex

/-!
# What goes wrong with keys, signatures and ciphertexts
-/

namespace ChannelLog

/-- Why a cryptographic operation refused its input. -/
inductive CryptoError where
  /-- The tag does not fit: another key, or bytes that were changed. -/
  | decryptionFailed
  /-- A symmetric key has 32 bytes. -/
  | invalidKeyLength (actual : Nat)
  | ciphertextTooShort (least actual : Nat)
  | invalidHex (cause : Hex.HexError)
  | invalidSignatureFormat
  | invalidRecoveryId (id : UInt8)
  | recoveryFailed
  | invalidPublicKey
  | invalidPrivateKey
  | signingFailed
deriving DecidableEq, Repr

namespace CryptoError

def message : CryptoError → String
  | decryptionFailed => "Decryption failed: aead::Error"
  | invalidKeyLength actual => "Invalid key length: expected 32, got " ++ toString actual
  | ciphertextTooShort least actual =>
    "Ciphertext too short: expected at least " ++ toString least ++ " bytes, got "
      ++ toString actual
  | invalidHex cause => "Invalid hex encoding: " ++ cause.message
  | invalidSignatureFormat => "Invalid signature format"
  | invalidRecoveryId id => "Invalid recovery id: " ++ toString id.toNat
  | recoveryFailed => "Public key recovery failed"
  | invalidPublicKey => "Invalid public key"
  | invalidPrivateKey => "Invalid private key"
  | signingFailed => "Signing failed: signature error"

end CryptoError

end ChannelLog
