/-!
# Byte strings

A byte string is a list of bytes. This file holds what the hash functions, the ciphers and the
files share: UTF-8, big-endian and little-endian numbers of a fixed width, blocks of a fixed size,
and the bytewise exclusive or.

Main statements: `length_ofNat` (a number of width `w` takes `w` bytes), `toNat_ofNat` (and reads
back), `text?_utf8` (text reads back from its UTF-8), `xor_xor_cancel` (masking twice with the same
mask gives the bytes back).
-/

namespace ChannelLog

abbrev Bytes := List UInt8

namespace Bytes

/-! ## Text -/

def utf8 (s : String) : Bytes := s.toUTF8.data.toList

/-- The text whose UTF-8 form is `bs`, if there is one. -/
def text? (bs : Bytes) : Option String := String.fromUTF8? ⟨bs.toArray⟩

theorem text?_utf8 (s : String) : text? (utf8 s) = some s := by
  have h : (⟨s.toUTF8.data.toList.toArray⟩ : ByteArray) = s.toByteArray := by
    rw [Array.toArray_toList]; rfl
  unfold text? utf8 String.fromUTF8?
  rw [h, dif_pos s.isValidUTF8]
  rfl

/-! ## Numbers -/

/-- The number that `bs` writes, most significant byte first. -/
def toNat (bs : Bytes) : Nat := bs.foldl (fun n b => n * 256 + b.toNat) 0

/-- The low `width` bytes of `n`, most significant byte first. -/
def ofNat : (width : Nat) → (n : Nat) → Bytes
  | 0, _ => []
  | width + 1, n => ofNat width (n / 256) ++ [UInt8.ofNat n]

/-- The low `width` bytes of `n`, least significant byte first. -/
def ofNatLE (width n : Nat) : Bytes := (ofNat width n).reverse

/-- The number that `bs` writes, least significant byte first. -/
def toNatLE (bs : Bytes) : Nat := toNat bs.reverse

@[simp] theorem length_ofNat (width n : Nat) : (ofNat width n).length = width := by
  induction width generalizing n with
  | zero => rfl
  | succ width ih => simp [ofNat, ih]

theorem toNat_append_singleton (bs : Bytes) (b : UInt8) :
    toNat (bs ++ [b]) = toNat bs * 256 + b.toNat := by
  simp [toNat]

theorem toNat_ofNat (width n : Nat) : toNat (ofNat width n) = n % Nat.pow 256 width := by
  induction width generalizing n with
  | zero => simp [ofNat, toNat, Nat.mod_one]
  | succ width ih =>
    have split : n % (Nat.pow 256 width * 256) = n % 256 + 256 * (n / 256 % Nat.pow 256 width) := by
      rw [Nat.mul_comm, Nat.mod_mul]
    show _ = n % (Nat.pow 256 width * 256)
    rw [ofNat, toNat_append_singleton, ih, UInt8.toNat_ofNat', split]
    omega

/-! ## Blocks -/

/-- `bs` cut into blocks of `size` bytes; the last block may be shorter. -/
def blocks (size : Nat) (bs : Bytes) : List Bytes :=
  (List.range ((bs.length + size - 1) / size)).map fun i => (bs.drop (i * size)).take size

/-! ## Masks -/

/-- Bytewise exclusive or, as long as the shorter of the two. -/
def xor (bs mask : Bytes) : Bytes := List.zipWith (· ^^^ ·) bs mask

theorem length_xor (bs mask : Bytes) : (xor bs mask).length = min bs.length mask.length := by
  simp [xor]

theorem xor_xor_cancel {bs mask : Bytes} (h : bs.length ≤ mask.length) :
    xor (xor bs mask) mask = bs := by
  induction bs generalizing mask with
  | nil => rfl
  | cons b bs ih =>
    cases mask with
    | nil => simp at h
    | cons m mask =>
      show (b ^^^ m ^^^ m) :: xor (xor bs mask) mask = b :: bs
      rw [ih (by simpa using h), UInt8.xor_assoc, UInt8.xor_self, UInt8.xor_zero]

end Bytes

end ChannelLog
