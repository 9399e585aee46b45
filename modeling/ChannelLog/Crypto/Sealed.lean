import ChannelLog.Crypto.Aes
import ChannelLog.Crypto.Error

/-!
# Sealed bytes

Authenticated encryption with AES-256 in Galois/counter mode. Sealed bytes are the nonce, the
masked plaintext and the tag, one after the other.

Main statement: `decrypt_encrypt`, what was sealed under a key opens under that key.
-/

namespace ChannelLog

structure SymmetricKey where
  bytes : Bytes
  length_eq : bytes.length = 32
deriving DecidableEq

namespace SymmetricKey

def ofBytes (bs : Bytes) : Except CryptoError SymmetricKey :=
  if h : bs.length = 32 then .ok ⟨bs, h⟩ else .error (.invalidKeyLength bs.length)

/-- How a channel's key shows in messages: by its method alone. -/
def redacted (_ : SymmetricKey) : String :=
  "ChannelKey \x7b method: Aes256Gcm, key: \"<redacted>\" \x7d"

end SymmetricKey

/-- Twelve bytes that are used only once under a key. -/
structure Nonce where
  bytes : Bytes
  length_eq : bytes.length = 12
deriving DecidableEq

namespace Sealed

/-! ## The tag -/

/-- The product of two elements of the field of `2 ^ 128`, whose coefficients stand with the
constant one first. -/
def product (a b : BitVec 128) : BitVec 128 :=
  let step (acc : BitVec 128 × BitVec 128) (i : Nat) : BitVec 128 × BitVec 128 :=
    let (sum, shifted) := acc
    (if a.getMsbD i then sum ^^^ shifted else sum,
      if shifted.getLsbD 0 then shifted >>> 1 ^^^ 0xe1000000000000000000000000000000#128
      else shifted >>> 1)
  ((List.range 128).foldl step (0, b)).1

/-- Sixteen bytes as a field element; missing bytes at the end count as zero. -/
def element (block : Bytes) : BitVec 128 :=
  BitVec.ofNat 128 (Bytes.toNat (block ++ List.replicate (16 - block.length) 0))

/-- The hash of the ciphertext and its length under the subkey `h`. -/
def ghash (h : BitVec 128) (ciphertext : Bytes) : BitVec 128 :=
  let blocks := (Bytes.blocks 16 ciphertext).map element
  (blocks ++ [BitVec.ofNat 128 (8 * ciphertext.length)]).foldl (fun y x => product (y ^^^ x) h) 0

/-! ## Sealing and opening -/

def counter (nonce : Nonce) (i : Nat) : Bytes := nonce.bytes ++ Bytes.ofNat 4 i

/-- `length` bytes or a few more of the mask of a nonce. -/
def mask (keys : List Aes.Block) (nonce : Nonce) (length : Nat) : Bytes :=
  (List.range ((length + 15) / 16)).flatMap fun i => Aes.encrypt keys (counter nonce (i + 2))

def tag (keys : List Aes.Block) (nonce : Nonce) (ciphertext : Bytes) : Bytes :=
  let h := element (Aes.encrypt keys (List.replicate 16 0))
  Bytes.xor (Bytes.ofNat 16 (ghash h ciphertext).toNat) (Aes.encrypt keys (counter nonce 1))

/-- Seals `plaintext` under `key`. -/
def encrypt (key : SymmetricKey) (nonce : Nonce) (plaintext : Bytes) : Bytes :=
  let keys := Aes.roundKeys key.bytes
  let ciphertext := Bytes.xor plaintext (mask keys nonce plaintext.length)
  nonce.bytes ++ ciphertext ++ tag keys nonce ciphertext

/-- Opens sealed bytes: their nonce must be there and their tag must fit. -/
def decrypt (key : SymmetricKey) (bs : Bytes) : Except CryptoError Bytes :=
  if h : 12 ≤ bs.length then
    let keys := Aes.roundKeys key.bytes
    let nonce : Nonce := ⟨bs.take 12, by simp [h]⟩
    let body := bs.drop 12
    let ciphertext := body.take (body.length - 16)
    if body.drop (body.length - 16) = tag keys nonce ciphertext then
      .ok (Bytes.xor ciphertext (mask keys nonce ciphertext.length))
    else .error .decryptionFailed
  else .error (.ciphertextTooShort 12 bs.length)

/-! ## Opening inverts sealing -/

theorem length_aes (keys : List Aes.Block) {block : Bytes} (h : block.length = 16) :
    (Aes.encrypt keys block).length = 16 := by
  cases keys with
  | nil => exact h
  | cons first rest => exact Aes.Block.length_toBytes _

theorem length_counter (nonce : Nonce) (i : Nat) : (counter nonce i).length = 16 := by
  simp [counter, nonce.length_eq]

theorem le_length_mask (keys : List Aes.Block) (nonce : Nonce) (length : Nat) :
    length ≤ (mask keys nonce length).length := by
  have h (i : Nat) : (Aes.encrypt keys (counter nonce (i + 2))).length = 16 :=
    length_aes keys (length_counter nonce _)
  simp only [mask, List.length_flatMap, h, List.map_const', List.length_range,
    List.sum_replicate_nat]
  omega

theorem length_tag (keys : List Aes.Block) (nonce : Nonce) (ciphertext : Bytes) :
    (tag keys nonce ciphertext).length = 16 := by
  simp [tag, Bytes.length_xor, length_aes keys (length_counter nonce 1)]

theorem decrypt_encrypt (key : SymmetricKey) (nonce : Nonce) (plaintext : Bytes) :
    decrypt key (encrypt key nonce plaintext) = .ok plaintext := by
  obtain ⟨n, hn⟩ := nonce
  let keys := Aes.roundKeys key.bytes
  let c := Bytes.xor plaintext (mask keys ⟨n, hn⟩ plaintext.length)
  have hc : c.length = plaintext.length := by
    simp [c, Bytes.length_xor, le_length_mask]
  have ht := length_tag keys ⟨n, hn⟩ c
  have hs : encrypt key ⟨n, hn⟩ plaintext = n ++ (c ++ tag keys ⟨n, hn⟩ c) := by
    simp [encrypt, c, keys]
  have h12 : 12 ≤ (n ++ (c ++ tag keys ⟨n, hn⟩ c)).length := by simp [hn]
  rw [hs, decrypt, dif_pos h12]
  have htake : (n ++ (c ++ tag keys ⟨n, hn⟩ c)).take 12 = n := by
    rw [← hn]; simp
  have hdrop : (n ++ (c ++ tag keys ⟨n, hn⟩ c)).drop 12 = c ++ tag keys ⟨n, hn⟩ c := by
    rw [← hn]; simp
  simp only [htake, hdrop]
  have hlen : (c ++ tag keys ⟨n, hn⟩ c).length - 16 = c.length := by simp [ht]
  rw [hlen, List.take_left' rfl, List.drop_left' rfl, if_pos rfl, hc]
  exact congrArg _ (Bytes.xor_xor_cancel (le_length_mask _ _ _))

end Sealed

end ChannelLog
