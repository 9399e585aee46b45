import ChannelLog.Crypto.Key
import ChannelLog.Crypto.Sealed
import ChannelLog.Crypto.Sha256

/-!
# Envelopes

Bytes encrypted for the holder of a private key. A fresh key pair is drawn for each envelope; the
point that both sides can compute, hashed together with the fresh public key, gives the symmetric
key under which the content is sealed. An envelope is the fresh public key in compressed form,
followed by the sealed content.
-/

namespace ChannelLog.Envelope

/-- What has to be drawn at random for one envelope. -/
structure Draw where
  fresh : PrivateKey
  nonce : Nonce

/-- The symmetric key for the fresh public key, as written, and the shared point. -/
def sharedKey (header : Bytes) (shared : PublicKey) : SymmetricKey :=
  ⟨Sha256.hash (header ++ Bytes.ofNat 32 shared.x.val), Sha256.length_hash _⟩

/-- Encrypts `content` for the holder of `recipient`. -/
def close (recipient : PublicKey) (draw : Draw) (content : Bytes) : Bytes :=
  let header := draw.fresh.publicKey.compressed
  header ++ Sealed.encrypt (sharedKey header (draw.fresh.multiply recipient)) draw.nonce content

def disclose (key : PrivateKey) (bs : Bytes) : Except CryptoError Bytes :=
  if bs.length < 33 then .error (.ciphertextTooShort 33 bs.length)
  else
    let header := bs.take 33
    match PublicKey.ofBytes? header with
    | none => .error .invalidPublicKey
    | some fresh => Sealed.decrypt (sharedKey header (key.multiply fresh)) (bs.drop 33)

end ChannelLog.Envelope
