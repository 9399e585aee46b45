import ChannelLog.Crypto.Keccak

/-!
# Keccak-256 on numbers

As with SHA-256, what the permutation does to words of 64 bits is followed on numbers, with which
proofs compute fast.

* `numbers_permute`: the permutation on numbers.
* `hash_eq`: **the hash is the one computed on numbers.**
-/

namespace ChannelLog.Keccak

/-! ## Words -/

def turn (w n : Nat) : Nat := w <<< n % 18446744073709551616 ||| w >>> (64 - n)

def complement (w : Nat) : Nat := 18446744073709551615 - w

theorem toNat_complement (w : UInt64) : (~~~ w).toNat = complement w.toNat := by
  simp [complement]

theorem toNat_turn (w : UInt64) {n : UInt64} (hpos : 0 < n.toNat) (hlt : n.toNat < 64) :
    (rotateLeft w n).toNat = turn w.toNat n.toNat := by
  have hle : n ≤ 64 := UInt64.le_iff_toNat_le.2 (Nat.le_of_lt hlt)
  have hrest : ((64 : UInt64) - n).toNat = 64 - n.toNat := UInt64.toNat_sub_of_le _ _ hle
  rw [rotateLeft, turn, UInt64.toNat_or, UInt64.toNat_shiftRight, UInt64.toNat_shiftLeft, hrest,
    Nat.mod_eq_of_lt hlt, Nat.mod_eq_of_lt (show 64 - n.toNat < 64 by omega)]

/-! ## Rows -/

/-- A row in numbers. -/
structure Numbers where
  (a b c d e : Nat)

def Row.numbers (r : Row) : Numbers := ⟨r.a.toNat, r.b.toNat, r.c.toNat, r.d.toNat, r.e.toNat⟩

namespace Numbers

def xor (r s : Numbers) : Numbers :=
  ⟨r.a ^^^ s.a, r.b ^^^ s.b, r.c ^^^ s.c, r.d ^^^ s.d, r.e ^^^ s.e⟩

def spread (r : Numbers) : Numbers :=
  ⟨r.e ^^^ turn r.b 1, r.a ^^^ turn r.c 1, r.b ^^^ turn r.d 1, r.c ^^^ turn r.e 1,
    r.d ^^^ turn r.a 1⟩

def chi (r : Numbers) : Numbers :=
  ⟨r.a ^^^ (complement r.b &&& r.c), r.b ^^^ (complement r.c &&& r.d),
    r.c ^^^ (complement r.d &&& r.e), r.d ^^^ (complement r.e &&& r.a),
    r.e ^^^ (complement r.a &&& r.b)⟩

end Numbers

theorem numbers_xor (r s : Row) : (r.xor s).numbers = r.numbers.xor s.numbers := by
  simp only [Row.xor, Row.numbers, Numbers.xor, UInt64.toNat_xor]

theorem numbers_spread (r : Row) : r.spread.numbers = r.numbers.spread := by
  have hturn (w : UInt64) : (rotateLeft w 1).toNat = turn w.toNat 1 :=
    toNat_turn w (by decide) (by decide)
  simp only [Row.spread, Row.numbers, Numbers.spread, UInt64.toNat_xor, hturn]

theorem numbers_chi (r : Row) : r.chi.numbers = r.numbers.chi := by
  simp only [Row.chi, Row.numbers, Numbers.chi, UInt64.toNat_xor, UInt64.toNat_and,
    toNat_complement]

/-! ## The permutation -/

/-- A state in numbers. -/
structure Lanes where
  (r0 r1 r2 r3 r4 : Numbers)

def State.lanes (s : State) : Lanes :=
  ⟨s.r0.numbers, s.r1.numbers, s.r2.numbers, s.r3.numbers, s.r4.numbers⟩

namespace Lanes

def map (f : Numbers → Numbers) (s : Lanes) : Lanes := ⟨f s.r0, f s.r1, f s.r2, f s.r3, f s.r4⟩

def xor (s t : Lanes) : Lanes :=
  ⟨s.r0.xor t.r0, s.r1.xor t.r1, s.r2.xor t.r2, s.r3.xor t.r3, s.r4.xor t.r4⟩

def theta (s : Lanes) : Lanes :=
  let parity := (((s.r0.xor s.r1).xor s.r2).xor s.r3).xor s.r4
  s.map parity.spread.xor

def rhoPi (s : Lanes) : Lanes where
  r0 := ⟨s.r0.a, turn s.r1.b 44, turn s.r2.c 43, turn s.r3.d 21, turn s.r4.e 14⟩
  r1 := ⟨turn s.r0.d 28, turn s.r1.e 20, turn s.r2.a 3, turn s.r3.b 45, turn s.r4.c 61⟩
  r2 := ⟨turn s.r0.b 1, turn s.r1.c 6, turn s.r2.d 25, turn s.r3.e 8, turn s.r4.a 18⟩
  r3 := ⟨turn s.r0.e 27, turn s.r1.a 36, turn s.r2.b 10, turn s.r3.c 15, turn s.r4.d 56⟩
  r4 := ⟨turn s.r0.c 62, turn s.r1.d 55, turn s.r2.e 39, turn s.r3.a 41, turn s.r4.b 2⟩

def iota (constant : Nat) (s : Lanes) : Lanes :=
  { s with r0 := { s.r0 with a := s.r0.a ^^^ constant } }

def round (s : Lanes) (constant : Nat) : Lanes := iota constant ((rhoPi (theta s)).map Numbers.chi)

def permute (s : Lanes) : Lanes := (State.roundConstants.map UInt64.toNat).foldl round s

/-- The state whose first lanes are `words`, as `State.ofWords`. -/
def ofWords (words : List Nat) : Lanes :=
  let row (i : Nat) : Numbers :=
    ⟨words.getD i 0, words.getD (i + 1) 0, words.getD (i + 2) 0, words.getD (i + 3) 0,
      words.getD (i + 4) 0⟩
  ⟨row 0, row 5, row 10, row 15, row 20⟩

end Lanes

theorem lanes_map {f : Row → Row} {g : Numbers → Numbers} (h : ∀ r, (f r).numbers = g r.numbers)
    (s : State) : (s.map f).lanes = s.lanes.map g := by
  simp only [State.map, State.lanes, Lanes.map, h]

theorem lanes_xor (s t : State) : (s.xor t).lanes = s.lanes.xor t.lanes := by
  simp only [State.xor, State.lanes, Lanes.xor, numbers_xor]

theorem lanes_theta (s : State) : s.theta.lanes = s.lanes.theta := by
  rw [State.theta, Lanes.theta, lanes_map fun r => numbers_xor _ r]
  simp only [State.lanes, numbers_spread, numbers_xor]

theorem lanes_rhoPi (s : State) : s.rhoPi.lanes = s.lanes.rhoPi := by
  have hturn (w n : UInt64) (hpos : 0 < n.toNat) (hlt : n.toNat < 64) := toNat_turn w hpos hlt
  simp only [State.rhoPi, State.lanes, Row.numbers, Lanes.rhoPi,
    hturn _ 44 (by decide) (by decide), hturn _ 43 (by decide) (by decide),
    hturn _ 21 (by decide) (by decide), hturn _ 14 (by decide) (by decide),
    hturn _ 28 (by decide) (by decide), hturn _ 20 (by decide) (by decide),
    hturn _ 3 (by decide) (by decide), hturn _ 45 (by decide) (by decide),
    hturn _ 61 (by decide) (by decide), hturn _ 1 (by decide) (by decide),
    hturn _ 6 (by decide) (by decide), hturn _ 25 (by decide) (by decide),
    hturn _ 8 (by decide) (by decide), hturn _ 18 (by decide) (by decide),
    hturn _ 27 (by decide) (by decide), hturn _ 36 (by decide) (by decide),
    hturn _ 10 (by decide) (by decide), hturn _ 15 (by decide) (by decide),
    hturn _ 56 (by decide) (by decide), hturn _ 62 (by decide) (by decide),
    hturn _ 55 (by decide) (by decide), hturn _ 39 (by decide) (by decide),
    hturn _ 41 (by decide) (by decide), hturn _ 2 (by decide) (by decide), UInt64.reduceToNat]

theorem lanes_round (s : State) (constant : UInt64) :
    (s.round constant).lanes = s.lanes.round constant.toNat := by
  have hiota (t : State) : (State.iota constant t).lanes = t.lanes.iota constant.toNat := by
    simp only [State.iota, State.lanes, Row.numbers, Lanes.iota, UInt64.toNat_xor]
  rw [State.round, Lanes.round, hiota, lanes_map numbers_chi, lanes_rhoPi, lanes_theta]

/-- **The permutation on numbers.** -/
theorem lanes_permute (s : State) : s.permute.lanes = s.lanes.permute := by
  have hfold (constants : List UInt64) (s : State) : (constants.foldl State.round s).lanes
      = (constants.map UInt64.toNat).foldl Lanes.round s.lanes := by
    induction constants generalizing s with
    | nil => rfl
    | cons constant constants ih =>
      rw [List.foldl_cons, ih, lanes_round, List.map_cons, List.foldl_cons]
  exact hfold _ s

theorem lanes_ofWords (words : List UInt64) :
    (State.ofWords words).lanes = .ofWords (words.map UInt64.toNat) := by
  have hget (i : Nat) : (words.getD i 0).toNat = (words.map UInt64.toNat).getD i 0 := by
    rw [List.getD_eq_getElem?_getD, List.getD_eq_getElem?_getD, List.getElem?_map]
    cases words[i]? <;> rfl
  simp only [State.ofWords, State.lanes, Row.numbers, Lanes.ofWords, hget]

/-! ## The sponge -/

def Lanes.absorb (s : Lanes) (block : Bytes) : Lanes :=
  let words := (Bytes.blocks 8 block).map fun w => Bytes.toNatLE w % 18446744073709551616
  (s.xor (.ofWords words)).permute

theorem lanes_absorb (s : State) (block : Bytes) :
    (Keccak.absorb s block).lanes = s.lanes.absorb block := by
  rw [Keccak.absorb, Lanes.absorb, lanes_permute, lanes_xor, lanes_ofWords, List.map_map]
  rfl

/-- The hash, computed on numbers. -/
def hashNumbers (message : Bytes) : Bytes :=
  let s := (Bytes.blocks rate (pad message)).foldl Lanes.absorb State.zero.lanes
  [s.r0.a, s.r0.b, s.r0.c, s.r0.d].flatMap (Bytes.ofNatLE 8)

/-- **The hash is the one computed on numbers.** -/
theorem hash_eq (message : Bytes) : hash message = hashNumbers message := by
  have hfold (blocks : List Bytes) (s : State) :
      (blocks.foldl Keccak.absorb s).lanes = blocks.foldl Lanes.absorb s.lanes := by
    induction blocks generalizing s with
    | nil => rfl
    | cons block blocks ih => rw [List.foldl_cons, ih, lanes_absorb, List.foldl_cons]
  rw [hashNumbers, ← hfold]
  rfl

end ChannelLog.Keccak
