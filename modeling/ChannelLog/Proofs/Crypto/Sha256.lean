import ChannelLog.Crypto.Sha256

/-!
# SHA-256 on numbers

Signatures are computed while proofs are checked, and there words of 32 bits are slow while numbers
are not. What the hash does to words is followed on numbers, step by step.

* `hash_eq`, `keyed_eq`: **the hash and its keyed form are those computed on numbers.**
-/

namespace ChannelLog.Sha256

/-! ## Words -/

def plus (m n : Nat) : Nat := (m + n) % 4294967296

def turn (w n : Nat) : Nat := w >>> n ||| w <<< (32 - n) % 4294967296

theorem toNat_plus (v w : UInt32) : (v + w).toNat = plus v.toNat w.toNat := UInt32.toNat_add v w

theorem toNat_complement (w : UInt32) : (~~~ w).toNat = 4294967295 - w.toNat := by
  simp

theorem toNat_turn (w : UInt32) {n : UInt32} (hpos : 0 < n.toNat) (hlt : n.toNat < 32) :
    (rotateRight w n).toNat = turn w.toNat n.toNat := by
  have hle : n ≤ 32 := UInt32.le_iff_toNat_le.2 (Nat.le_of_lt hlt)
  have hrest : ((32 : UInt32) - n).toNat = 32 - n.toNat := UInt32.toNat_sub_of_le _ _ hle
  rw [rotateRight, turn, UInt32.toNat_or, UInt32.toNat_shiftRight, UInt32.toNat_shiftLeft, hrest,
    Nat.mod_eq_of_lt hlt, Nat.mod_eq_of_lt (show 32 - n.toNat < 32 by omega)]

/-! ## Rounds -/

/-- The chaining value in numbers. -/
structure Numbers where
  (a b c d e f g h : Nat)

def State.numbers (s : State) : Numbers :=
  ⟨s.a.toNat, s.b.toNat, s.c.toNat, s.d.toNat, s.e.toNat, s.f.toNat, s.g.toNat, s.h.toNat⟩

namespace Numbers

def add (s t : Numbers) : Numbers :=
  ⟨plus s.a t.a, plus s.b t.b, plus s.c t.c, plus s.d t.d, plus s.e t.e, plus s.f t.f,
    plus s.g t.g, plus s.h t.h⟩

def round (s : Numbers) (word : Nat) : Numbers :=
  let sum1 := turn s.e 6 ^^^ turn s.e 11 ^^^ turn s.e 25
  let choice := (s.e &&& s.f) ^^^ ((4294967295 - s.e) &&& s.g)
  let t1 := plus (plus (plus s.h sum1) choice) word
  let sum0 := turn s.a 2 ^^^ turn s.a 13 ^^^ turn s.a 22
  let majority := (s.a &&& s.b) ^^^ (s.a &&& s.c) ^^^ (s.b &&& s.c)
  ⟨plus t1 (plus sum0 majority), s.a, s.b, s.c, plus s.d t1, s.e, s.f, s.g⟩

end Numbers

theorem numbers_add (s t : State) : (s.add t).numbers = s.numbers.add t.numbers := by
  simp only [State.add, State.numbers, Numbers.add, toNat_plus]

theorem numbers_round (s : State) (word : UInt32) :
    (s.round word).numbers = s.numbers.round word.toNat := by
  have hturn (w n : UInt32) (hpos : 0 < n.toNat) (hlt : n.toNat < 32) := toNat_turn w hpos hlt
  simp only [State.round, State.numbers, Numbers.round, toNat_plus, UInt32.toNat_xor,
    UInt32.toNat_and, toNat_complement, hturn _ 6 (by decide) (by decide),
    hturn _ 11 (by decide) (by decide), hturn _ 25 (by decide) (by decide),
    hturn _ 2 (by decide) (by decide), hturn _ 13 (by decide) (by decide),
    hturn _ 22 (by decide) (by decide), UInt32.reduceToNat]

theorem numbers_foldl (words : List UInt32) (s : State) :
    (words.foldl State.round s).numbers = (words.map UInt32.toNat).foldl Numbers.round s.numbers := by
  induction words generalizing s with
  | nil => rfl
  | cons word words ih => rw [List.foldl_cons, ih, numbers_round, List.map_cons, List.foldl_cons]

/-! ## The schedule -/

/-- Sixteen words of the schedule. -/
structure Window where
  (w0 w1 w2 w3 w4 w5 w6 w7 w8 w9 w10 w11 w12 w13 w14 w15 : Nat)

namespace Window

def next (w : Window) : Window :=
  let sigma0 := turn w.w1 7 ^^^ turn w.w1 18 ^^^ w.w1 >>> 3
  let sigma1 := turn w.w14 17 ^^^ turn w.w14 19 ^^^ w.w14 >>> 10
  ⟨w.w1, w.w2, w.w3, w.w4, w.w5, w.w6, w.w7, w.w8, w.w9, w.w10, w.w11, w.w12, w.w13, w.w14, w.w15,
    plus (plus (plus w.w0 sigma0) w.w9) sigma1⟩

def schedule : (count : Nat) → (w : Window) → List Nat
  | 0, _ => []
  | count + 1, w => w.w0 :: schedule count w.next

/-- The sixteen words of a block. -/
def ofBlock (block : Bytes) : Window :=
  let word (i : Nat) := Bytes.toNat ((block.drop (i * 4)).take 4) % 4294967296
  ⟨word 0, word 1, word 2, word 3, word 4, word 5, word 6, word 7, word 8, word 9, word 10,
    word 11, word 12, word 13, word 14, word 15⟩

end Window

theorem numbers_schedule (count : Nat)
    (u0 u1 u2 u3 u4 u5 u6 u7 u8 u9 u10 u11 u12 u13 u14 u15 : UInt32) :
    (schedule count [u0, u1, u2, u3, u4, u5, u6, u7, u8, u9, u10, u11, u12, u13, u14, u15]).map
        UInt32.toNat
      = Window.schedule count ⟨u0.toNat, u1.toNat, u2.toNat, u3.toNat, u4.toNat, u5.toNat, u6.toNat,
          u7.toNat, u8.toNat, u9.toNat, u10.toNat, u11.toNat, u12.toNat, u13.toNat, u14.toNat,
          u15.toNat⟩ := by
  have hturn (w n : UInt32) (hpos : 0 < n.toNat) (hlt : n.toNat < 32) := toNat_turn w hpos hlt
  have hshift (w n : UInt32) (hlt : n.toNat < 32) : (w >>> n).toNat = w.toNat >>> n.toNat := by
    rw [UInt32.toNat_shiftRight, Nat.mod_eq_of_lt hlt]
  induction count generalizing u0 u1 u2 u3 u4 u5 u6 u7 u8 u9 u10 u11 u12 u13 u14 u15 with
  | zero => rfl
  | succ count ih =>
    rw [schedule, List.map_cons, Window.schedule]
    refine congrArg (u0.toNat :: ·) ((ih u1 u2 u3 u4 u5 u6 u7 u8 u9 u10 u11 u12 u13 u14 u15 _).trans ?_)
    refine congrArg (Window.schedule count) ?_
    simp only [Window.next, List.getD_cons_zero, List.getD_cons_succ, List.headD_cons, toNat_plus,
      UInt32.toNat_xor, hturn _ 7 (by decide) (by decide), hturn _ 18 (by decide) (by decide),
      hturn _ 17 (by decide) (by decide), hturn _ 19 (by decide) (by decide),
      hshift _ 3 (by decide), hshift _ 10 (by decide), UInt32.reduceToNat]

/-! ## Blocks -/

def Numbers.compress (s : Numbers) (block : Bytes) : Numbers :=
  s.add ((List.zipWith plus (roundConstants.map UInt32.toNat)
    ((Window.ofBlock block).schedule 64)).foldl round s)

theorem numbers_compress (s : State) {block : Bytes} (h : block.length = 64) :
    (compress s block).numbers = s.numbers.compress block := by
  have hwords : (Bytes.blocks 4 block).map (fun w => UInt32.ofNat (Bytes.toNat w))
      = (List.range 16).map fun i => UInt32.ofNat (Bytes.toNat ((block.drop (i * 4)).take 4)) := by
    rw [Bytes.blocks, h, List.map_map]
    rfl
  have hschedule : (schedule 64 ((Bytes.blocks 4 block).map
      fun w => UInt32.ofNat (Bytes.toNat w))).map UInt32.toNat
        = (Window.ofBlock block).schedule 64 := by
    rw [hwords]
    exact numbers_schedule 64 _ _ _ _ _ _ _ _ _ _ _ _ _ _ _ _
  have hzip (cs ws : List UInt32) : (List.zipWith (· + ·) cs ws).map UInt32.toNat
      = List.zipWith plus (cs.map UInt32.toNat) (ws.map UInt32.toNat) := by
    rw [List.map_zipWith, List.zipWith_map]
    simp only [toNat_plus]
  rw [compress, numbers_add, numbers_foldl, hzip, hschedule]
  rfl

/-! ## The hash -/

theorem length_of_mem_blocks {size : Nat} {bs block : Bytes} (hsize : 0 < size)
    (h : bs.length % size = 0) (hblock : block ∈ Bytes.blocks size bs) : block.length = size := by
  obtain ⟨i, hi, rfl⟩ := List.mem_map.1 hblock
  have hcount : (bs.length + size - 1) / size = bs.length / size := by
    obtain ⟨n, hn⟩ := Nat.dvd_of_mod_eq_zero h
    rw [hn, Nat.mul_div_cancel_left _ hsize, show size * n + size - 1 = size - 1 + size * n by omega,
      Nat.add_mul_div_left _ _ hsize, Nat.div_eq_of_lt (by omega), Nat.zero_add]
  rw [List.mem_range, hcount] at hi
  have hle : (i + 1) * size ≤ bs.length := (Nat.le_div_iff_mul_le hsize).1 hi
  rw [Nat.add_mul, Nat.one_mul] at hle
  rw [List.length_take, List.length_drop]
  omega

theorem length_pad (message : Bytes) : (pad message).length % 64 = 0 := by
  simp only [pad, List.length_append, List.length_singleton, List.length_replicate,
    Bytes.length_ofNat]
  omega

/-- The hash, computed on numbers. -/
def hashNumbers (message : Bytes) : Bytes :=
  let s := (Bytes.blocks 64 (pad message)).foldl Numbers.compress State.initial.numbers
  [s.a, s.b, s.c, s.d, s.e, s.f, s.g, s.h].flatMap (Bytes.ofNat 4)

theorem numbers_foldl_compress {blocks : List Bytes} (h : ∀ block ∈ blocks, block.length = 64)
    (s : State) :
    (blocks.foldl compress s).numbers = blocks.foldl Numbers.compress s.numbers := by
  induction blocks generalizing s with
  | nil => rfl
  | cons block blocks ih =>
    rw [List.foldl_cons, ih fun b hb => h b (List.mem_cons_of_mem _ hb),
      numbers_compress s (h block List.mem_cons_self), List.foldl_cons]

/-- **The hash is the one computed on numbers.** -/
theorem hash_eq (message : Bytes) : hash message = hashNumbers message := by
  have hblocks : ∀ block ∈ Bytes.blocks 64 (pad message), block.length = 64 := fun _ hblock =>
    length_of_mem_blocks (by decide) (length_pad message) hblock
  rw [hashNumbers, ← numbers_foldl_compress hblocks]
  rfl

/-- The keyed hash, computed on numbers. -/
def keyedNumbers (key message : Bytes) : Bytes :=
  let padded := key ++ List.replicate (64 - key.length) 0
  hashNumbers (padded.map (· ^^^ 0x5c) ++ hashNumbers (padded.map (· ^^^ 0x36) ++ message))

/-- **The keyed hash is the one computed on numbers.** -/
theorem keyed_eq (key message : Bytes) : keyed key message = keyedNumbers key message := by
  rw [keyed, keyedNumbers, hash_eq, hash_eq]

end ChannelLog.Sha256
