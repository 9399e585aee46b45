import ChannelLog.Crypto.Envelope
import ChannelLog.KeyHolder

/-!
# Keyrings

The private keys of a node, by address in small letters. Identities are compared without regard to
the case of their letters.
-/

namespace ChannelLog

structure Keyring where
  keys : Dict PrivateKey

namespace Keyring

def empty : Keyring := ⟨∅⟩

/-- Takes a private key in hexadecimal text, and gives the identity that it answers for. -/
def add (k : Keyring) (privateKey : String) : Except DecryptionError (Identity × Keyring) :=
  match PrivateKey.ofHex privateKey with
  | .error _ => .error .invalidPrivateKey
  | .ok key =>
    let identity := Identity.ofAddress key.address
    .ok (identity, ⟨k.keys.insert identity.value key⟩)

/-- The keyring that takes these private keys one after the other. -/
def ofKeys (privateKeys : List String) : Except DecryptionError Keyring :=
  privateKeys.foldlM (fun k key => (k.add key).map Prod.snd) empty

def key? (k : Keyring) (identity : Identity) : Option PrivateKey := k.keys.get? identity.key

def holds (k : Keyring) (identity : Identity) : Bool := (k.key? identity).isSome

def remove (k : Keyring) (identity : Identity) : Keyring := ⟨k.keys.erase identity.key⟩

def identities (k : Keyring) : List Identity := k.keys.keys.map Identity.ofAddress

def decrypt (k : Keyring) (identity : Identity) (envelope : Bytes) :
    Except DecryptionError Bytes :=
  match k.key? identity with
  | none => .error (.identityNotRegistered identity.value)
  | some key => match Envelope.disclose key envelope with
    | .error cause => .error (.crypto cause.message)
    | .ok content => .ok content

instance : KeyHolder Keyring := ⟨holds, decrypt⟩

@[simp]
theorem keyHolder_holds (k : Keyring) (identity : Identity) :
    KeyHolder.holds k identity = k.holds identity := rfl

end Keyring

end ChannelLog
