import ChannelLog.Bytes
import ChannelLog.Identity

/-!
# Key holders

What parsing needs of whoever has the private keys of a node, be it a keyring or something that
never gives the keys away.
-/

namespace ChannelLog

/-- Why a key holder could not decrypt or take a key. -/
inductive DecryptionError where
  | identityNotRegistered (identity : String)
  | invalidPrivateKey
  | crypto (reason : String)
deriving DecidableEq

def DecryptionError.message : DecryptionError → String
  | identityNotRegistered identity => "Identity not registered: " ++ identity
  | invalidPrivateKey => "Invalid private key"
  | crypto reason => "Decryption failed: " ++ reason

/-- Who can open envelopes with private keys, and says for which identities. -/
class KeyHolder (κ : Type) where
  /-- Whether the private key of an identity is there. -/
  holds : κ → Identity → Bool
  /-- Opens an envelope with the private key of an identity. -/
  decrypt : κ → Identity → (envelope : Bytes) → Except DecryptionError Bytes

end ChannelLog
