import ChannelLog.Crypto.Ecdsa

/-!
# Signatures that name their signer

A signature and its recovery id as they are written: the two numbers, and the id with 27 added. A
reader accepts the id without 27 added as well.
-/

namespace ChannelLog

/-- The two numbers of a signature and the recovery id, as they are written: nothing is known of
them but their width. -/
structure RecoverableSignature where
  r : BitVec 256
  s : BitVec 256
  v : UInt8
deriving DecidableEq

namespace RecoverableSignature

/-! ## Text -/

def toBytes (sig : RecoverableSignature) : Bytes :=
  Bytes.ofNat 32 sig.r.toNat ++ Bytes.ofNat 32 sig.s.toNat ++ [sig.v]

/-- Sixty-five bytes: `r`, `s`, `v`. -/
def ofBytes? (bs : Bytes) : Option RecoverableSignature :=
  if bs.length = 65 then
    some ⟨BitVec.ofNat 256 (Bytes.toNat (bs.take 32)),
      BitVec.ofNat 256 (Bytes.toNat ((bs.drop 32).take 32)), bs.getD 64 0⟩
  else none

/-- The bytes in hexadecimal text behind the mark. -/
def toHex (sig : RecoverableSignature) : String := Hex.encodeMarked sig.toBytes

/-- Reads a signature from hexadecimal text. -/
def ofHex (text : String) : Except CryptoError RecoverableSignature :=
  match Hex.decodeMarked text with
  | .error cause => .error (.invalidHex cause)
  | .ok bs => match ofBytes? bs with
    | none => .error .invalidSignatureFormat
    | some sig => .ok sig

/-! ## Signing -/

/-- Writes a signature and its recovery id. -/
def ofEcdsa (sig : EcdsaSignature) (id : RecoveryId) : RecoverableSignature :=
  ⟨BitVec.ofNat 256 sig.r.val, BitVec.ofNat 256 sig.s.val, id.toByte + 27⟩

def ofSigned : Option (EcdsaSignature × RecoveryId) → Except CryptoError RecoverableSignature
  | none => .error .signingFailed
  | some (sig, id) => .ok (ofEcdsa sig id)

def sign (key : PrivateKey) (hash : Bytes) : Except CryptoError RecoverableSignature :=
  ofSigned (EcdsaSignature.sign? key hash)

/-! ## Recovery -/

/-- The recovery id that `v` stands for, with or without 27 added. -/
def recoveryId (v : UInt8) : Except CryptoError RecoveryId :=
  let id? : Option UInt8 :=
    if v = 0 ∨ v = 27 then some 0
    else if v = 1 ∨ v = 28 then some 1
    else none
  match id?.bind RecoveryId.ofByte? with
  | none => .error (.invalidRecoveryId v)
  | some id => .ok id

def scalar? (n : BitVec 256) : Option { a : Curve.Scalar // a ≠ 0 } :=
  if h : 0 < n.toNat ∧ n.toNat < Curve.order then
    some ⟨⟨n.toNat, h.2⟩, fun ha => Nat.ne_of_gt h.1 (congrArg Fin.val ha)⟩
  else none

/-- The two numbers as scalars. -/
def ecdsa? (sig : RecoverableSignature) : Option EcdsaSignature := do
  let r ← scalar? sig.r
  let s ← scalar? sig.s
  return ⟨r, s, r.2, s.2⟩

def recover (sig : RecoverableSignature) (hash : Bytes) : Except CryptoError PublicKey := do
  let id ← recoveryId sig.v
  match sig.ecdsa? with
  | none => throw .invalidSignatureFormat
  | some numbers => match numbers.recover? hash id with
    | none => throw .recoveryFailed
    | some key => return key

/-- The address of the key that signed `hash`. -/
def recoverAddress (sig : RecoverableSignature) (hash : Bytes) : Except CryptoError String := do
  return (← sig.recover hash).address

end RecoverableSignature

end ChannelLog
