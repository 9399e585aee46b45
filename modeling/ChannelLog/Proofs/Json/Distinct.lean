import ChannelLog.Proofs.Json.ReadBack

/-!
# Different values have different texts

* `Number.literal_injective`: no two numbers are written alike. Of two floating-point numbers with
  one literal the shortest decimals would be equal, and no decimal stands for two magnitudes.
* `Json.text_injective`: **no two values have one text.**
-/

namespace ChannelLog

/-! ## Numbers -/

/-- What a literal says without its sign. -/
def Literal.size (l : Literal) : ℚ :=
  value (l.whole ++ l.fraction) * 10 ^ (l.power - l.fraction.length)

namespace Number

theorem size_spread (d : Decimal) :
    (spread (Text.digits d.digits) ((Text.digits d.digits).length + d.exponent)).size
      = Magnitude.decimalValue d := by
  obtain ⟨-, zeros, hvalue, hpower, -⟩ := spread_parts d.digits d.exponent
  have hten : (10 : ℚ) ≠ 0 := by norm_num
  rw [Literal.size, hvalue, hpower, Magnitude.decimalValue, zpow_sub₀ hten, zpow_natCast,
    Nat.cast_mul, Nat.cast_pow]
  field_simp
  norm_cast

theorem isWhole_magnitudeLiteral (m : Magnitude) : (magnitudeLiteral m).isWhole = false := by
  unfold magnitudeLiteral
  split
  · rfl
  · exact (spread_parts _ _).1

theorem size_magnitudeLiteral {m : Magnitude} (h : 0 < m.val) :
    (magnitudeLiteral m).size = Magnitude.decimalValue m.shortest := by
  rw [magnitudeLiteral, if_neg (Nat.ne_of_gt h)]
  exact size_spread m.shortest

theorem size_magnitudeLiteral_pos {m : Magnitude} (h : 0 < m.val) :
    0 < (magnitudeLiteral m).size := by
  rw [size_magnitudeLiteral h, Magnitude.decimalValue]
  have hdigits := Magnitude.digits_shortest_pos h
  positivity

theorem magnitudeLiteral_injective {m m' : Magnitude}
    (h : (magnitudeLiteral m).size = (magnitudeLiteral m').size) : m = m' := by
  have hzero : ∀ m : Magnitude, m.val = 0 → (magnitudeLiteral m).size = 0 := by
    intro m hm
    rw [magnitudeLiteral, if_pos hm]
    have hvalue : Literal.value (['0'] ++ ['0']) = 0 := by decide
    rw [Literal.size, hvalue, Nat.cast_zero, zero_mul]
  rcases Nat.eq_zero_or_pos m.val with hm | hm <;> rcases Nat.eq_zero_or_pos m'.val with hm' | hm'
  · exact Fin.ext (hm.trans hm'.symm)
  · rw [hzero m hm] at h
    exact absurd h (size_magnitudeLiteral_pos hm').ne
  · rw [hzero m' hm'] at h
    exact absurd h (size_magnitudeLiteral_pos hm).ne'
  · rw [size_magnitudeLiteral hm, size_magnitudeLiteral hm'] at h
    exact Fin.ext (Magnitude.eq_of_standsFor (Magnitude.standsFor_shortest m)
      (Magnitude.standsFor_shortest m') h)

/-- **No two numbers are written alike.** -/
theorem literal_injective {m n : Number} (h : m.literal = n.literal) : m = n := by
  cases m with
  | integer i =>
    cases n with
    | integer j =>
      have hdigits : Text.digits i.natAbs = Text.digits j.natAbs := congrArg Literal.whole h
      have hsign : decide (i < 0) = decide (j < 0) := congrArg Literal.negative h
      have habs : i.natAbs = j.natAbs := by
        rw [← value_digits i.natAbs, hdigits, value_digits]
      rw [decide_eq_decide] at hsign
      congr 1
      omega
    | float y =>
      have hwhole : true = (magnitudeLiteral y.magnitude).isWhole := congrArg Literal.isWhole h
      rw [isWhole_magnitudeLiteral] at hwhole
      exact nomatch hwhole
  | float x =>
    cases n with
    | integer j =>
      have hwhole : (magnitudeLiteral x.magnitude).isWhole = true := congrArg Literal.isWhole h
      rw [isWhole_magnitudeLiteral] at hwhole
      exact nomatch hwhole
    | float y =>
      obtain ⟨negative, magnitude⟩ := x
      obtain ⟨negative', magnitude'⟩ := y
      obtain rfl : negative = negative' := congrArg Literal.negative h
      have hsize : (literal (.float ⟨negative, magnitude⟩)).size
          = (literal (.float ⟨negative, magnitude'⟩)).size := congrArg Literal.size h
      obtain rfl : magnitude = magnitude' := magnitudeLiteral_injective hsize
      rfl

end Number

/-! ## Values -/

namespace Json

mutual

theorem source_injective {v w : Json} (h : v.source = w.source) : v = w := by
  match v, w with
  | .null, .null => rfl
  | .bool b, .bool c => exact congrArg _ (Source.bool.inj h)
  | .number m, .number n => rw [Number.literal_injective (Source.number.inj h)]
  | .string s, .string t => rw [Option.some.inj (Source.string.inj h)]
  | .array xs, .array ys => rw [itemSources_injective (Source.array.inj h)]
  | .object xs, .object ys => rw [memberSources_injective (Source.object.inj h)]

theorem itemSources_injective {xs ys : List Json} (h : itemSources xs = itemSources ys) :
    xs = ys := by
  match xs, ys with
  | [], [] => rfl
  | x :: xs, y :: ys =>
    obtain ⟨hhead, htail⟩ := List.cons.inj h
    rw [source_injective hhead, itemSources_injective htail]

theorem memberSources_injective {xs ys : List (String × Json)}
    (h : memberSources xs = memberSources ys) : xs = ys := by
  match xs, ys with
  | [], [] => rfl
  | (key, x) :: xs, (key', y) :: ys =>
    obtain ⟨hhead, htail⟩ := List.cons.inj h
    obtain ⟨hkey, hvalue⟩ := Prod.mk.inj hhead
    rw [Option.some.inj hkey, source_injective hvalue, memberSources_injective htail]

end

/-- **No two values have one text.** -/
theorem text_injective {v w : Json} (h : v.text = w.text) : v = w := by
  have hsource : some v.source = some w.source := by
    rw [← Source.ofText?_text, ← Source.ofText?_text, h]
  exact source_injective (Option.some.inj hsource)

end Json

end ChannelLog
