import ChannelLog.Crypto.Key
import ChannelLog.Crypto.Sha256

/-!
# ECDSA over secp256k1

A signature is two numbers. A recovery id beside it says which point the first of them comes from, so
that the signer's public key follows from the signature and the signed hash. The secret multiplier is
derived from key and hash by HMAC-SHA-256 (the deterministic scheme of RFC 6979), and of the two
values of `s` that fit the smaller is used and accepted.
-/

namespace ChannelLog

/-- The two numbers of a signature. -/
structure EcdsaSignature where
  r : Curve.Scalar
  s : Curve.Scalar
  r_ne_zero : r ≠ 0
  s_ne_zero : s ≠ 0
deriving DecidableEq

/-- Which of the points that fit `r` is meant: whether its ordinate is odd, and whether its abscissa
was reduced modulo the order. -/
structure RecoveryId where
  odd : Bool
  reduced : Bool
deriving DecidableEq

namespace RecoveryId

def toByte (id : RecoveryId) : UInt8 :=
  (if id.odd then 1 else 0) + (if id.reduced then 2 else 0)

def ofByte? (b : UInt8) : Option RecoveryId :=
  if b < 4 then some ⟨b % 2 = 1, 2 ≤ b⟩ else none

end RecoveryId

namespace EcdsaSignature

/-! ## The secret multiplier -/

/-- The generator's inner key and value. -/
structure Generator where
  (key value : Bytes)

namespace Generator

/-- Mixes `input` into the generator. -/
def update (g : Generator) (input : Bytes) : Generator :=
  let key := Sha256.keyed g.key (g.value ++ input)
  ⟨key, Sha256.keyed key g.value⟩

def start (secret hash : Bytes) : Generator :=
  let g : Generator := ⟨List.replicate 32 0, List.replicate 32 1⟩
  (g.update (0 :: (secret ++ hash))).update (1 :: (secret ++ hash))

/-- The first of `attempts` outputs that is a nonzero scalar. -/
def scalar? : (attempts : Nat) → Generator → Option Nat
  | 0, _ => none
  | attempts + 1, g =>
    let value := Sha256.keyed g.key g.value
    let n := Bytes.toNat value
    if 0 < n ∧ n < Curve.order then some n
    else scalar? attempts ((⟨g.key, value⟩ : Generator).update [0])

end Generator

/-- The multiplier for a key and a hash. An output misses the range once in `2 ^ 128` times. -/
def multiplier? (key : PrivateKey) (hash : Bytes) : Option Nat :=
  (Generator.start (Bytes.ofNat 32 key.scalar) hash).scalar? 8

/-! ## Signing -/

/-- The hash as a number modulo the order. -/
def hashScalar (hash : Bytes) : Curve.Scalar := Fin.ofNat Curve.order (Bytes.toNat hash)

/-- Whether `s` is the larger of the two values that fit. -/
def isHigh (s : Curve.Scalar) : Bool := Curve.order / 2 < s.val

/-- The smaller of the two values that fit. -/
def low (s : Curve.Scalar) : Curve.Scalar := if isHigh s then -s else s

theorem neg_ne_zero {s : Curve.Scalar} (h : s ≠ 0) : -s ≠ 0 := by
  intro hneg
  have hpos : 0 < s.val := Nat.pos_of_ne_zero fun hs => h (Fin.ext hs)
  have hval : (Curve.order - s.val) % Curve.order = 0 := congrArg Fin.val hneg
  rw [Nat.mod_eq_of_lt (Nat.sub_lt (by decide) hpos)] at hval
  exact Nat.sub_ne_zero_of_lt s.isLt hval

theorem low_ne_zero {s : Curve.Scalar} (h : s ≠ 0) : low s ≠ 0 := by
  unfold low
  split
  · exact neg_ne_zero h
  · exact h

/-- The signature with the secret multiplier `k` and the secret point. -/
def ofPoint? (key : PrivateKey) (hash : Bytes) (k : Curve.Scalar) :
    Curve.Point → Option (EcdsaSignature × RecoveryId)
  | .infinity => none
  | .affine x y =>
    let r : Curve.Scalar := Fin.ofNat Curve.order x.val
    let s := Curve.inverse k * (hashScalar hash + r * key.toScalar)
    if h : r ≠ 0 ∧ s ≠ 0 then
      some (⟨r, low s, h.1, low_ne_zero h.2⟩,
        ⟨Curve.isOdd y != isHigh s, Curve.order ≤ x.val⟩)
    else none

/-- The signature with the secret multiplier given, if there is one. -/
def ofMultiplier? (key : PrivateKey) (hash : Bytes) :
    Option Nat → Option (EcdsaSignature × RecoveryId)
  | none => none
  | some k =>
    let k : Curve.Scalar := Fin.ofNat Curve.order k
    ofPoint? key hash k (Curve.multiple k Curve.generator)

def sign? (key : PrivateKey) (hash : Bytes) : Option (EcdsaSignature × RecoveryId) :=
  ofMultiplier? key hash (multiplier? key hash)

/-! ## Recovery -/

/-- The abscissa of the point that is meant. -/
def abscissa? (r : Curve.Scalar) (id : RecoveryId) : Option Curve.Field :=
  let n := r.val + if id.reduced then Curve.order else 0
  if h : n < Curve.prime then some ⟨n, h⟩ else none

def recover? (sig : EcdsaSignature) (hash : Bytes) (id : RecoveryId) : Option PublicKey := do
  guard (!isHigh sig.s)
  let x ← abscissa? sig.r id
  let (x, y) ← Curve.lift? x id.odd
  let i := Curve.inverse sig.r
  PublicKey.ofPoint? <|
    Curve.combination (-(i * hashScalar hash)) Curve.generator (i * sig.s) (.affine x y)

end EcdsaSignature

end ChannelLog
