import ChannelLog.Crypto.RecoverableSignature
import ChannelLog.Proofs.Bytes.Hex
import ChannelLog.Proofs.Crypto.Ecdsa

/-!
# Signatures as they are written

* `ofHex_toHex`: a signature is read from its text as it was written.
* `ecdsa?_ofEcdsa`, `recoveryId_raised`, `recoveryId_toByte`: so are its numbers and, with 27 added or
  without, a recovery id of zero or one.
* `recover_ofEcdsa`, `recover_lowered`: **who is recovered from a signature is recovered from what is
  written of it.**
-/

namespace ChannelLog.RecoverableSignature

/-! ## Text -/

theorem ofNat_toNat_ofNat (n : BitVec 256) :
    BitVec.ofNat 256 (Bytes.toNat (Bytes.ofNat 32 n.toNat)) = n := by
  have hpow : Nat.pow 256 32 = 2 ^ 256 := by decide
  rw [Bytes.toNat_ofNat, hpow, Nat.mod_eq_of_lt n.isLt, BitVec.ofNat_toNat, BitVec.setWidth_eq]

theorem length_toBytes (sig : RecoverableSignature) : sig.toBytes.length = 65 := by
  simp only [toBytes, List.length_append, Bytes.length_ofNat, List.length_singleton]

theorem ofBytes?_toBytes (sig : RecoverableSignature) : ofBytes? sig.toBytes = some sig := by
  have hr : sig.toBytes.take 32 = Bytes.ofNat 32 sig.r.toNat := by
    rw [toBytes, List.append_assoc]
    exact List.take_left' (Bytes.length_ofNat 32 _)
  have hrest : sig.toBytes.drop 32 = Bytes.ofNat 32 sig.s.toNat ++ [sig.v] := by
    rw [toBytes, List.append_assoc]
    exact List.drop_left' (Bytes.length_ofNat 32 _)
  have hs : (sig.toBytes.drop 32).take 32 = Bytes.ofNat 32 sig.s.toNat := by
    rw [hrest]
    exact List.take_left' (Bytes.length_ofNat 32 _)
  have hv : sig.toBytes.getD 64 0 = sig.v := by
    rw [List.getD_eq_getElem?_getD, toBytes, List.getElem?_append_right (by simp)]
    simp
  rw [ofBytes?, if_pos sig.length_toBytes, hr, hs, hv, ofNat_toNat_ofNat, ofNat_toNat_ofNat]

/-- **A signature is read from its text as it was written.** -/
theorem ofHex_toHex (sig : RecoverableSignature) : ofHex sig.toHex = .ok sig := by
  simp only [ofHex, toHex, Hex.decodeMarked_encodeMarked, ofBytes?_toBytes]

/-! ## Numbers and recovery id -/

theorem scalar?_val {a : Curve.Scalar} (h : a ≠ 0) :
    scalar? (BitVec.ofNat 256 a.val) = some ⟨a, h⟩ := by
  have hval : (BitVec.ofNat 256 a.val).toNat = a.val := by
    rw [BitVec.toNat_ofNat, Nat.mod_eq_of_lt (Nat.lt_trans a.isLt (by decide))]
  have hpos : 0 < a.val := Nat.pos_of_ne_zero fun ha => h (Fin.ext ha)
  simp only [scalar?, hval, hpos, a.isLt, and_self, dite_true]

theorem ecdsa?_ofEcdsa (sig : EcdsaSignature) (id : RecoveryId) :
    (ofEcdsa sig id).ecdsa? = some sig := by
  rw [ecdsa?, ofEcdsa, scalar?_val sig.r_ne_zero, scalar?_val sig.s_ne_zero]
  rfl

section

variable {id : RecoveryId} (hid : id.toByte = 0 ∨ id.toByte = 1)

include hid

theorem recoveryId_toByte : recoveryId id.toByte = .ok id := by
  have hread := id.ofByte?_toByte
  rcases hid with h | h <;> rw [h] at hread ⊢ <;> simp [recoveryId, hread]

theorem recoveryId_raised : recoveryId (id.toByte + 27) = .ok id := by
  have hread := id.ofByte?_toByte
  rcases hid with h | h <;> rw [h] at hread ⊢ <;> simp [recoveryId, hread]

end

/-! ## Who signed -/

/-- The signature with its recovery id written without 27 added. -/
def lowered (sig : RecoverableSignature) : RecoverableSignature := { sig with v := sig.v - 27 }

theorem v_lowered (sig : EcdsaSignature) (id : RecoveryId) :
    (ofEcdsa sig id).lowered.v = id.toByte :=
  UInt8.add_sub_cancel _ _

theorem recover_eq {written : RecoverableSignature} {sig : EcdsaSignature} {id : RecoveryId}
    (hsig : written.ecdsa? = some sig) (hid : recoveryId written.v = .ok id) {hash : Bytes}
    {key : PublicKey} (h : sig.recover? hash id = some key) : written.recover hash = .ok key := by
  simp only [recover, hid, hsig, h, bind, Except.bind, pure, Except.pure]

section

variable {sig : EcdsaSignature} {id : RecoveryId} (hid : id.toByte = 0 ∨ id.toByte = 1)
  {hash : Bytes} {key : PublicKey} (h : sig.recover? hash id = some key)

include hid h

theorem recover_ofEcdsa : (ofEcdsa sig id).recover hash = .ok key :=
  recover_eq (ecdsa?_ofEcdsa sig id) (recoveryId_raised hid) h

theorem recover_lowered : (ofEcdsa sig id).lowered.recover hash = .ok key := by
  have hsig : (ofEcdsa sig id).lowered.ecdsa? = some sig := ecdsa?_ofEcdsa sig id
  have hv : recoveryId (ofEcdsa sig id).lowered.v = .ok id := by
    rw [v_lowered]
    exact recoveryId_toByte hid
  exact recover_eq hsig hv h

end

/-! ## Hashes computed on numbers -/

theorem sign_eq (key : PrivateKey) (hash : Bytes) : sign key hash = ofSigned
    (EcdsaSignature.ofMultiplier? key hash (EcdsaSignature.multiplierNumbers? key hash)) := by
  rw [sign, EcdsaSignature.sign?_eq]

end ChannelLog.RecoverableSignature
