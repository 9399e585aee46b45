import ChannelLog.Bytes

/-!
# Keccak-256

The sponge over the permutation Keccak-f[1600] with a rate of 136 bytes and the padding `1 0* 1`,
squeezed for 32 bytes.
-/

namespace ChannelLog.Keccak

def rotateLeft (w n : UInt64) : UInt64 := w <<< n ||| w >>> (64 - n)

/-! ## Rows -/

/-- Five lanes, by column. -/
structure Row where
  (a b c d e : UInt64)

namespace Row

def zero : Row := ⟨0, 0, 0, 0, 0⟩

def xor (r s : Row) : Row := ⟨r.a ^^^ s.a, r.b ^^^ s.b, r.c ^^^ s.c, r.d ^^^ s.d, r.e ^^^ s.e⟩

/-- For each column what its two neighbours put into it, the one after turned by one bit. -/
def spread (r : Row) : Row where
  a := r.e ^^^ rotateLeft r.b 1
  b := r.a ^^^ rotateLeft r.c 1
  c := r.b ^^^ rotateLeft r.d 1
  d := r.c ^^^ rotateLeft r.e 1
  e := r.d ^^^ rotateLeft r.a 1

/-- χ on one row: each lane takes in the next two. -/
def chi (r : Row) : Row where
  a := r.a ^^^ (~~~ r.b &&& r.c)
  b := r.b ^^^ (~~~ r.c &&& r.d)
  c := r.c ^^^ (~~~ r.d &&& r.e)
  d := r.d ^^^ (~~~ r.e &&& r.a)
  e := r.e ^^^ (~~~ r.a &&& r.b)

end Row

/-! ## The permutation -/

structure State where
  (r0 r1 r2 r3 r4 : Row)

namespace State

def zero : State := ⟨.zero, .zero, .zero, .zero, .zero⟩

def map (f : Row → Row) (s : State) : State := ⟨f s.r0, f s.r1, f s.r2, f s.r3, f s.r4⟩

def xor (s t : State) : State :=
  ⟨s.r0.xor t.r0, s.r1.xor t.r1, s.r2.xor t.r2, s.r3.xor t.r3, s.r4.xor t.r4⟩

/-- θ: the parities of the columns go into their neighbours. -/
def theta (s : State) : State :=
  let parity := (((s.r0.xor s.r1).xor s.r2).xor s.r3).xor s.r4
  s.map parity.spread.xor

/-- ρ and π: each lane is turned by an amount of its own and moved. -/
def rhoPi (s : State) : State where
  r0 := ⟨s.r0.a, rotateLeft s.r1.b 44, rotateLeft s.r2.c 43, rotateLeft s.r3.d 21,
    rotateLeft s.r4.e 14⟩
  r1 := ⟨rotateLeft s.r0.d 28, rotateLeft s.r1.e 20, rotateLeft s.r2.a 3, rotateLeft s.r3.b 45,
    rotateLeft s.r4.c 61⟩
  r2 := ⟨rotateLeft s.r0.b 1, rotateLeft s.r1.c 6, rotateLeft s.r2.d 25, rotateLeft s.r3.e 8,
    rotateLeft s.r4.a 18⟩
  r3 := ⟨rotateLeft s.r0.e 27, rotateLeft s.r1.a 36, rotateLeft s.r2.b 10, rotateLeft s.r3.c 15,
    rotateLeft s.r4.d 56⟩
  r4 := ⟨rotateLeft s.r0.c 62, rotateLeft s.r1.d 55, rotateLeft s.r2.e 39, rotateLeft s.r3.a 41,
    rotateLeft s.r4.b 2⟩

/-- ι: the round's constant goes into the first lane. -/
def iota (constant : UInt64) (s : State) : State :=
  { s with r0 := { s.r0 with a := s.r0.a ^^^ constant } }

/-- The constants of the 24 rounds. -/
def roundConstants : List UInt64 := [
  0x0000000000000001, 0x0000000000008082, 0x800000000000808A, 0x8000000080008000,
  0x000000000000808B, 0x0000000080000001, 0x8000000080008081, 0x8000000000008009,
  0x000000000000008A, 0x0000000000000088, 0x0000000080008009, 0x000000008000000A,
  0x000000008000808B, 0x800000000000008B, 0x8000000000008089, 0x8000000000008003,
  0x8000000000008002, 0x8000000000000080, 0x000000000000800A, 0x800000008000000A,
  0x8000000080008081, 0x8000000000008080, 0x0000000080000001, 0x8000000080008008]

def round (s : State) (constant : UInt64) : State :=
  iota constant ((rhoPi (theta s)).map Row.chi)

/-- Keccak-f[1600]. -/
def permute (s : State) : State := roundConstants.foldl round s

/-- The state whose first lanes are `words`, row by row, and whose other lanes are zero. -/
def ofWords (words : List UInt64) : State :=
  let row (i : Nat) : Row :=
    ⟨words.getD i 0, words.getD (i + 1) 0, words.getD (i + 2) 0, words.getD (i + 3) 0,
      words.getD (i + 4) 0⟩
  ⟨row 0, row 5, row 10, row 15, row 20⟩

end State

/-! ## The sponge -/

/-- Bytes taken in between two permutations. -/
def rate : Nat := 136

/-- The message padded to a whole number of blocks. -/
def pad (message : Bytes) : Bytes :=
  match rate - 1 - message.length % rate with
  | 0 => message ++ [0x81]
  | n + 1 => message ++ [0x01] ++ List.replicate n 0 ++ [0x80]

/-- Takes in one block. -/
def absorb (s : State) (block : Bytes) : State :=
  let words := (Bytes.blocks 8 block).map fun w => UInt64.ofNat (Bytes.toNatLE w)
  (s.xor (.ofWords words)).permute

/-- The Keccak-256 hash, 32 bytes. -/
def hash (message : Bytes) : Bytes :=
  let s := (Bytes.blocks rate (pad message)).foldl absorb .zero
  [s.r0.a, s.r0.b, s.r0.c, s.r0.d].flatMap fun lane => Bytes.ofNatLE 8 lane.toNat

theorem length_hash (message : Bytes) : (hash message).length = 32 := by
  simp [hash, Bytes.ofNatLE]

end ChannelLog.Keccak
