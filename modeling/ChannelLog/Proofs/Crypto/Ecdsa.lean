import ChannelLog.Crypto.Ecdsa
import ChannelLog.Proofs.Crypto.Sha256

/-!
# Signing with hashes computed on numbers

* `RecoveryId.ofByte?_toByte`: a recovery id is read from its byte as it was written.
* `EcdsaSignature.multiplier?_eq`, `EcdsaSignature.sign?_eq`: **the multiplier, and so the signature,
  is the one found with hashes that are computed on numbers.** What takes time in signing is the
  generator of the secret multiplier, which hashes two dozen blocks.
-/

namespace ChannelLog

theorem RecoveryId.ofByte?_toByte (id : RecoveryId) : ofByte? id.toByte = some id := by
  obtain ⟨odd, reduced⟩ := id
  cases odd <;> cases reduced <;> rfl

namespace EcdsaSignature

namespace Generator

def updateNumbers (g : Generator) (input : Bytes) : Generator :=
  let key := Sha256.keyedNumbers g.key (g.value ++ input)
  ⟨key, Sha256.keyedNumbers key g.value⟩

def startNumbers (secret hash : Bytes) : Generator :=
  let g : Generator := ⟨List.replicate 32 0, List.replicate 32 1⟩
  (g.updateNumbers (0 :: (secret ++ hash))).updateNumbers (1 :: (secret ++ hash))

def scalarNumbers? : (attempts : Nat) → Generator → Option Nat
  | 0, _ => none
  | attempts + 1, g =>
    let value := Sha256.keyedNumbers g.key g.value
    let n := Bytes.toNat value
    if 0 < n ∧ n < Curve.order then some n
    else scalarNumbers? attempts ((⟨g.key, value⟩ : Generator).updateNumbers [0])

theorem update_eq (g : Generator) (input : Bytes) : g.update input = g.updateNumbers input := by
  simp only [update, updateNumbers, Sha256.keyed_eq]

theorem start_eq (secret hash : Bytes) : start secret hash = startNumbers secret hash := by
  simp only [start, startNumbers, update_eq]

theorem scalar?_eq (attempts : Nat) (g : Generator) :
    g.scalar? attempts = g.scalarNumbers? attempts := by
  induction attempts generalizing g with
  | zero => rfl
  | succ attempts ih => simp only [scalar?, scalarNumbers?, Sha256.keyed_eq, update_eq, ih]

end Generator

def multiplierNumbers? (key : PrivateKey) (hash : Bytes) : Option Nat :=
  (Generator.startNumbers (Bytes.ofNat 32 key.scalar) hash).scalarNumbers? 8

theorem multiplier?_eq (key : PrivateKey) (hash : Bytes) :
    multiplier? key hash = multiplierNumbers? key hash := by
  rw [multiplier?, multiplierNumbers?, Generator.start_eq, Generator.scalar?_eq]

/-- **A signature is made with the multiplier that is found on numbers.** -/
theorem sign?_eq (key : PrivateKey) (hash : Bytes) :
    sign? key hash = ofMultiplier? key hash (multiplierNumbers? key hash) := by
  rw [sign?, multiplier?_eq]

end EcdsaSignature

end ChannelLog
