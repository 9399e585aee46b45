import ChannelLog.Bytes

/-!
# SHA-256 and its keyed form

The hash function SHA-256, and HMAC over it.
-/

namespace ChannelLog.Sha256

def rotateRight (w n : UInt32) : UInt32 := w >>> n ||| w <<< (32 - n)

/-! ## Compression -/

structure State where
  (a b c d e f g h : UInt32)

namespace State

def initial : State where
  a := 0x6a09e667
  b := 0xbb67ae85
  c := 0x3c6ef372
  d := 0xa54ff53a
  e := 0x510e527f
  f := 0x9b05688c
  g := 0x1f83d9ab
  h := 0x5be0cd19

def add (s t : State) : State :=
  ⟨s.a + t.a, s.b + t.b, s.c + t.c, s.d + t.d, s.e + t.e, s.f + t.f, s.g + t.g, s.h + t.h⟩

def round (s : State) (word : UInt32) : State :=
  let sum1 := rotateRight s.e 6 ^^^ rotateRight s.e 11 ^^^ rotateRight s.e 25
  let choice := (s.e &&& s.f) ^^^ (~~~ s.e &&& s.g)
  let t1 := s.h + sum1 + choice + word
  let sum0 := rotateRight s.a 2 ^^^ rotateRight s.a 13 ^^^ rotateRight s.a 22
  let majority := (s.a &&& s.b) ^^^ (s.a &&& s.c) ^^^ (s.b &&& s.c)
  ⟨t1 + (sum0 + majority), s.a, s.b, s.c, s.d + t1, s.e, s.f, s.g⟩

end State

/-- The first 32 bits of the fractional parts of the cube roots of the first 64 primes. -/
def roundConstants : List UInt32 := [
  0x428a2f98, 0x71374491, 0xb5c0fbcf, 0xe9b5dba5, 0x3956c25b, 0x59f111f1, 0x923f82a4, 0xab1c5ed5,
  0xd807aa98, 0x12835b01, 0x243185be, 0x550c7dc3, 0x72be5d74, 0x80deb1fe, 0x9bdc06a7, 0xc19bf174,
  0xe49b69c1, 0xefbe4786, 0x0fc19dc6, 0x240ca1cc, 0x2de92c6f, 0x4a7484aa, 0x5cb0a9dc, 0x76f988da,
  0x983e5152, 0xa831c66d, 0xb00327c8, 0xbf597fc7, 0xc6e00bf3, 0xd5a79147, 0x06ca6351, 0x14292967,
  0x27b70a85, 0x2e1b2138, 0x4d2c6dfc, 0x53380d13, 0x650a7354, 0x766a0abb, 0x81c2c92e, 0x92722c85,
  0xa2bfe8a1, 0xa81a664b, 0xc24b8b70, 0xc76c51a3, 0xd192e819, 0xd6990624, 0xf40e3585, 0x106aa070,
  0x19a4c116, 0x1e376c08, 0x2748774c, 0x34b0bcb5, 0x391c0cb3, 0x4ed8aa4a, 0x5b9cca4f, 0x682e6ff3,
  0x748f82ee, 0x78a5636f, 0x84c87814, 0x8cc70208, 0x90befffa, 0xa4506ceb, 0xbef9a3f7, 0xc67178f2]

/-- `count` words of the message schedule, from the sixteen words of `window` on. -/
def schedule : (count : Nat) → (window : List UInt32) → List UInt32
  | 0, _ => []
  | count + 1, window =>
    let early := window.getD 1 0
    let late := window.getD 14 0
    let sigma0 := rotateRight early 7 ^^^ rotateRight early 18 ^^^ early >>> 3
    let sigma1 := rotateRight late 17 ^^^ rotateRight late 19 ^^^ late >>> 10
    let next := window.headD 0 + sigma0 + window.getD 9 0 + sigma1
    window.headD 0 :: schedule count (window.tail ++ [next])

/-- Takes in one block of 64 bytes. -/
def compress (s : State) (block : Bytes) : State :=
  let words := (Bytes.blocks 4 block).map fun w => UInt32.ofNat (Bytes.toNat w)
  s.add ((List.zipWith (· + ·) roundConstants (schedule 64 words)).foldl State.round s)

/-! ## The hash -/

/-- The message, a one bit, zeros and the length in bits, a whole number of blocks. -/
def pad (message : Bytes) : Bytes :=
  message ++ [0x80] ++ List.replicate ((119 - message.length % 64) % 64) 0
    ++ Bytes.ofNat 8 (8 * message.length)

/-- The SHA-256 hash, 32 bytes. -/
def hash (message : Bytes) : Bytes :=
  let s := (Bytes.blocks 64 (pad message)).foldl compress .initial
  [s.a, s.b, s.c, s.d, s.e, s.f, s.g, s.h].flatMap fun word => Bytes.ofNat 4 word.toNat

theorem length_hash (message : Bytes) : (hash message).length = 32 := by
  simp [hash]

/-- HMAC-SHA-256 under a key of at most 64 bytes. -/
def keyed (key message : Bytes) : Bytes :=
  let padded := key ++ List.replicate (64 - key.length) 0
  hash (padded.map (· ^^^ 0x5c) ++ hash (padded.map (· ^^^ 0x36) ++ message))

end ChannelLog.Sha256
