import ChannelLog.Bytes.Hex
import ChannelLog.Crypto.Keccak
import ChannelLog.Json.Writer

/-!
# Hashes of JSON values

Values are hashed by their canonical text, so that the order of members does not matter.
-/

namespace ChannelLog.Json

/-- The Keccak-256 hash of the canonical text. -/
def digest (v : Json) : Bytes := Keccak.hash (Bytes.utf8 v.canonicalText)

/-- The digest in hexadecimal text behind the mark. Fingerprints identify payloads, transactions
and channels. -/
def fingerprint (v : Json) : String := Hex.encodeMarked v.digest

end ChannelLog.Json
