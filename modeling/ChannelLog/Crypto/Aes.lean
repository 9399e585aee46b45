import ChannelLog.Bytes

/-!
# AES-256

The block cipher with keys of 32 bytes, in the encrypting direction only, which is the one that
counter mode uses.
-/

namespace ChannelLog.Aes

/-! ## Bytes -/

/-- The substitution table, one row for each high half of a byte. -/
def substitution : List Nat := [
  0x637c777bf26b6fc53001672bfed7ab76, 0xca82c97dfa5947f0add4a2af9ca472c0,
  0xb7fd9326363ff7cc34a5e5f171d83115, 0x04c723c31896059a071280e2eb27b275,
  0x09832c1a1b6e5aa0523bd6b329e32f84, 0x53d100ed20fcb15b6acbbe394a4c58cf,
  0xd0efaafb434d338545f9027f503c9fa8, 0x51a3408f929d38f5bcb6da2110fff3d2,
  0xcd0c13ec5f974417c4a77e3d645d1973, 0x60814fdc222a908846eeb814de5e0bdb,
  0xe0323a0a4906245cc2d3ac629195e479, 0xe7c8376d8dd54ea96c56f4ea657aae08,
  0xba78252e1ca6b4c6e8dd741f4bbd8b8a, 0x703eb5664803f60e613557b986c11d9e,
  0xe1f8981169d98e949b1e87e9ce5528df, 0x8ca1890dbfe6426841992d0fb054bb16]

def substitute (b : UInt8) : UInt8 :=
  UInt8.ofNat (substitution.getD (b.toNat / 16) 0 >>> (8 * (15 - b.toNat % 16)))

/-- Multiplication by `x` in the field of 256 elements. -/
def double (b : UInt8) : UInt8 := b <<< 1 ^^^ (if b < 0x80 then 0 else 0x1b)

/-! ## Columns -/

/-- Four bytes, by row. -/
structure Column where
  (a b c d : UInt8)

namespace Column

def xor (u v : Column) : Column := ⟨u.a ^^^ v.a, u.b ^^^ v.b, u.c ^^^ v.c, u.d ^^^ v.d⟩

def substitute (u : Column) : Column :=
  ⟨Aes.substitute u.a, Aes.substitute u.b, Aes.substitute u.c, Aes.substitute u.d⟩

/-- The column moved up by one row. -/
def rotate (u : Column) : Column := ⟨u.b, u.c, u.d, u.a⟩

/-- The product with `3x³ + x² + x + 2`. -/
def mix (u : Column) : Column where
  a := double u.a ^^^ (double u.b ^^^ u.b) ^^^ u.c ^^^ u.d
  b := u.a ^^^ double u.b ^^^ (double u.c ^^^ u.c) ^^^ u.d
  c := u.a ^^^ u.b ^^^ double u.c ^^^ (double u.d ^^^ u.d)
  d := (double u.a ^^^ u.a) ^^^ u.b ^^^ u.c ^^^ double u.d

/-- The column at byte `i` of `bs`. -/
def ofBytes (bs : Bytes) (i : Nat) : Column :=
  ⟨bs.getD i 0, bs.getD (i + 1) 0, bs.getD (i + 2) 0, bs.getD (i + 3) 0⟩

def toBytes (u : Column) : Bytes := [u.a, u.b, u.c, u.d]

end Column

/-! ## Blocks -/

structure Block where
  (c0 c1 c2 c3 : Column)

namespace Block

def map (f : Column → Column) (s : Block) : Block := ⟨f s.c0, f s.c1, f s.c2, f s.c3⟩

def xor (s t : Block) : Block := ⟨s.c0.xor t.c0, s.c1.xor t.c1, s.c2.xor t.c2, s.c3.xor t.c3⟩

/-- Each row moved to the left by its number. -/
def shiftRows (s : Block) : Block where
  c0 := ⟨s.c0.a, s.c1.b, s.c2.c, s.c3.d⟩
  c1 := ⟨s.c1.a, s.c2.b, s.c3.c, s.c0.d⟩
  c2 := ⟨s.c2.a, s.c3.b, s.c0.c, s.c1.d⟩
  c3 := ⟨s.c3.a, s.c0.b, s.c1.c, s.c2.d⟩

def ofBytes (bs : Bytes) : Block := ⟨.ofBytes bs 0, .ofBytes bs 4, .ofBytes bs 8, .ofBytes bs 12⟩

def toBytes (s : Block) : Bytes :=
  s.c0.toBytes ++ s.c1.toBytes ++ s.c2.toBytes ++ s.c3.toBytes

theorem length_toBytes (s : Block) : s.toBytes.length = 16 := rfl

end Block

/-! ## The key schedule -/

/-- `count` columns of the schedule from number `i` on, of which `window` holds the first eight. -/
def expand : (count i : Nat) → (window : List Column) → List Column
  | 0, _, _ => []
  | count + 1, i, window =>
    let first := window.headD ⟨0, 0, 0, 0⟩
    let last := window.getLastD ⟨0, 0, 0, 0⟩
    let next :=
      if i % 8 = 0 then
        let turned := last.rotate.substitute
        first.xor { turned with a := turned.a ^^^ 1 <<< UInt8.ofNat (i / 8) }
      else if i % 8 = 4 then first.xor last.substitute
      else first.xor last
    first :: expand count (i + 1) (window.tail ++ [next])

/-- Columns taken four at a time. -/
def toBlocks : List Column → List Block
  | c0 :: c1 :: c2 :: c3 :: rest => ⟨c0, c1, c2, c3⟩ :: toBlocks rest
  | _ => []

/-- The fifteen round keys of a key of 32 bytes. -/
def roundKeys (key : Bytes) : List Block :=
  toBlocks (expand 60 0 ((List.range 8).map fun i => .ofBytes key (4 * i)))

/-! ## The cipher -/

/-- The rounds after the first key: all but the last mix the columns. -/
def rounds (s : Block) : List Block → Block
  | [] => s
  | [last] => ((s.map .substitute).shiftRows).xor last
  | key :: keys => rounds ((((s.map .substitute).shiftRows).map .mix).xor key) keys

def encrypt (keys : List Block) (block : Bytes) : Bytes :=
  match keys with
  | [] => block
  | first :: rest => (rounds ((Block.ofBytes block).xor first) rest).toBytes

end ChannelLog.Aes
