import ChannelLog.Crypto.Curve
import ChannelLog.Crypto.Error
import ChannelLog.Crypto.Keccak

/-!
# Key pairs

A private key is a nonzero multiplier of the curve's base point, its public key the multiple. An
address is what is left of the hash of a public key.
-/

namespace ChannelLog

/-! ## Public keys -/

/-- A point of the curve other than infinity, by its coordinates. -/
structure PublicKey where
  (x y : Curve.Field)
deriving DecidableEq

namespace PublicKey

def toPoint (k : PublicKey) : Curve.Point := .affine k.x k.y

def ofPoint? : Curve.Point → Option PublicKey
  | .infinity => none
  | .affine x y => some ⟨x, y⟩

/-- The compressed form: a tag for the parity of `y`, and `x`. -/
def compressed (k : PublicKey) : Bytes :=
  (if Curve.isOdd k.y then 3 else 2) :: Bytes.ofNat 32 k.x.val

def coordinate? (bs : Bytes) : Option Curve.Field :=
  let n := Bytes.toNat bs
  if h : n < Curve.prime then some ⟨n, h⟩ else none

/-- Reads the forms with the tags 2 and 3 (`x` and the parity of `y`), 4 (both coordinates) and 5
(`x` alone, for the point with even `y`). -/
def ofBytes? : Bytes → Option PublicKey
  | [] => none
  | form :: body =>
    if form = 4 then do
      guard (body.length = 64)
      let x ← coordinate? (body.take 32)
      let y ← coordinate? (body.drop 32)
      guard (Curve.contains x y)
      return ⟨x, y⟩
    else do
      guard (form = 2 ∨ form = 3 ∨ form = 5)
      guard (body.length = 32)
      let x ← coordinate? body
      let (x, y) ← Curve.lift? x (form = 3)
      return ⟨x, y⟩

def ofHex (s : String) : Except CryptoError PublicKey :=
  match Hex.decodeMarked s with
  | .error _ => .error .invalidPublicKey
  | .ok bs => match ofBytes? bs with
    | none => .error .invalidPublicKey
    | some k => .ok k

/-- The compressed form in hexadecimal text without mark. -/
def toHex (k : PublicKey) : String := Hex.encode k.compressed

/-- The address: the last twenty bytes of the hash of both coordinates. -/
def address (k : PublicKey) : String :=
  let coordinates := Bytes.ofNat 32 k.x.val ++ Bytes.ofNat 32 k.y.val
  Hex.encodeMarked ((Keccak.hash coordinates).drop 12)

end PublicKey

/-! ## Private keys -/

/-- A multiplier between one and the order of the curve. -/
structure PrivateKey where
  scalar : Nat
  pos : 0 < scalar
  lt_order : scalar < Curve.order
deriving DecidableEq

namespace PrivateKey

/-- Reads a big-endian number of 32 bytes, of which up to eight in front may be left out. -/
def ofBytes (bs : Bytes) : Except CryptoError PrivateKey :=
  if 24 ≤ bs.length ∧ bs.length ≤ 32 then
    let n := Bytes.toNat bs
    if h : 0 < n ∧ n < Curve.order then .ok ⟨n, h.1, h.2⟩ else .error .invalidPrivateKey
  else .error .invalidPrivateKey

def ofHex (s : String) : Except CryptoError PrivateKey :=
  match Hex.decodeMarked s with
  | .error _ => .error .invalidPrivateKey
  | .ok bs => ofBytes bs

def toScalar (k : PrivateKey) : Curve.Scalar := ⟨k.scalar, k.lt_order⟩

/-- The multiple of `p`, as a public key. The order is prime and the scalar no multiple of it, so
infinity arises from infinity alone. -/
def multiply (k : PrivateKey) (p : PublicKey) : PublicKey :=
  match Curve.multiple k.toScalar p.toPoint with
  | .infinity => p
  | .affine x y => ⟨x, y⟩

def publicKey (k : PrivateKey) : PublicKey :=
  match Curve.multiple k.toScalar Curve.generator with
  | .infinity => ⟨0, 0⟩
  | .affine x y => ⟨x, y⟩

def address (k : PrivateKey) : String := k.publicKey.address

end PrivateKey

end ChannelLog
