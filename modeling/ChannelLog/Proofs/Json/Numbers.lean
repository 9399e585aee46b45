import Mathlib
import ChannelLog.Proofs.Double.Shortest
import ChannelLog.Proofs.Json.Literal

/-!
# Written numbers denote numbers

* `Number.wellFormed_literal`: the literal of every number is well formed, so it is scanned as it
  was written (`Json.scanNumber_text`).
* `Number.number?_integer`: a whole number of 64 bits reads back as itself.
* `Number.isSome_number?`: every number reads back as some number. A floating-point one may come
  back changed, since reading rounds up to four times, but it never leaves the finite range: below
  the three largest magnitudes the roundings together add less than the distance to the limit, and
  these three are computed.
-/

namespace ChannelLog

/-! ## Digits -/

namespace Literal

theorem value_append (ds es : List Char) (init : Nat) :
    Nat.ofDigitChars 10 (ds ++ es) init = Nat.ofDigitChars 10 es (Nat.ofDigitChars 10 ds init) :=
  Nat.ofDigitChars_append init

theorem le_ofDigitChars (ds : List Char) (init : Nat) : init ≤ Nat.ofDigitChars 10 ds init := by
  induction ds generalizing init with
  | nil => simp
  | cons d ds ih =>
    rw [Nat.ofDigitChars_cons]
    have := ih (10 * init + (d.toNat - '0'.toNat))
    omega

theorem gather_eq {ds : List Char} {significand : Nat}
    (h : Nat.ofDigitChars 10 ds significand < UInt64.size) :
    gather significand ds = (Nat.ofDigitChars 10 ds significand, 0) := by
  induction ds generalizing significand with
  | nil => simp [gather]
  | cons d ds ih =>
    have hnext : significand * 10 + value [d] = 10 * significand + (d.toNat - '0'.toNat) := by
      simp [value, Nat.ofDigitChars_cons, Nat.mul_comm]
    rw [Nat.ofDigitChars_cons] at h ⊢
    have hlt := Nat.lt_of_le_of_lt (le_ofDigitChars ds _) h
    simp only [gather, hnext, hlt, if_true]
    exact ih h

theorem number?_eq_float? {l : Literal} (hw : l.isWhole = false)
    (h : value (l.whole ++ l.fraction) < UInt64.size) :
    l.number? = float? l.negative (value (l.whole ++ l.fraction)) (l.power - l.fraction.length) := by
  unfold value at h ⊢
  rw [value_append] at h ⊢
  have h₁ := gather_eq (Nat.lt_of_le_of_lt (le_ofDigitChars _ _) h)
  simp only [number?, h₁, hw, gather_eq h]
  simp [Int.add_comm, Int.sub_eq_add_neg]

end Literal

namespace Number

theorem value_digits (n : Nat) : Literal.value (Text.digits n) = n :=
  Nat.ofDigitChars_ten_toDigits

/-! ## Whole numbers -/

theorem wellFormed_integer (i : Int) : (literal (.integer i)).WellFormed := by
  refine ⟨fun c hc => Text.isDigit_of_mem_digits hc, ?_, fun c hc => by simp [literal] at hc,
    fun e he => by simp [literal] at he⟩
  rcases Nat.eq_zero_or_pos i.natAbs with h | h
  · left
    show Text.digits i.natAbs = ['0']
    rw [h]
    rfl
  · exact .inr (digits_head h)

/-- The whole numbers that values hold: of 64 bits, without sign or negative. -/
def IsWord (i : Int) : Prop := -(UInt64.size / 2 : Nat) ≤ i ∧ i < UInt64.size

/-- **A whole number of 64 bits reads back as itself.** -/
theorem number?_integer {i : Int} (h : IsWord i) :
    (literal (.integer i)).number? = some (.integer i) := by
  obtain ⟨hlow, hhigh⟩ := h
  have hsize : UInt64.size / 2 < UInt64.size := by decide
  have hlt : Nat.ofDigitChars 10 (Text.digits i.natAbs) 0 < UInt64.size := by
    have := value_digits i.natAbs
    unfold Literal.value at this
    rw [this]
    omega
  have hval : Nat.ofDigitChars 10 (Text.digits i.natAbs) 0 = i.natAbs := value_digits i.natAbs
  simp only [Literal.number?, literal, Literal.gather_eq hlt, Literal.isWhole, hval]
  rcases lt_or_ge i 0 with hi | hi
  · have hcond : 0 < i.natAbs ∧ i.natAbs ≤ UInt64.size / 2 := by omega
    simp [hi, hcond, abs_of_neg hi]
  · have hpos : (i.natAbs : Int) = i := by omega
    have hnot : ¬ i < 0 := by omega
    simp [hnot, hpos]

/-! ## Floating-point numbers -/

theorem wellFormed_magnitudeLiteral (m : Magnitude) : (magnitudeLiteral m).WellFormed := by
  unfold magnitudeLiteral
  split
  · refine ⟨fun c hc => ?_, .inl rfl, fun c hc => ?_, fun e he => by simp at he⟩
    · rw [List.mem_singleton.1 hc]
      decide
    · rw [List.mem_singleton.1 hc]
      decide
  · next h => exact wellFormed_spread (Magnitude.digits_shortest_pos (by omega)) _

/-- **The literal of a number is well formed.** -/
theorem wellFormed_literal (n : Number) : n.literal.WellFormed := by
  cases n with
  | integer i => exact wellFormed_integer i
  | float x =>
    obtain ⟨h₁, h₂, h₃, h₄⟩ := wellFormed_magnitudeLiteral x.magnitude
    exact ⟨h₁, h₂, h₃, h₄⟩

/-- A decimal that was spread around its point is written with its own digits, unless zeros were added
up to the point and one behind it. -/
theorem spread_parts (n : Nat) (e : Int) :
    let l := spread (Text.digits n) ((Text.digits n).length + e)
    l.isWhole = false ∧ ∃ zeros : Nat, Literal.value (l.whole ++ l.fraction) = n * 10 ^ zeros ∧
      l.power - l.fraction.length = e - zeros ∧
      (zeros = 0 ∨ 0 ≤ e ∧ (Text.digits n).length + e.toNat ≤ 16 ∧ zeros = e.toNat + 1) := by
  have hval := value_digits n
  have hlen : 0 < (Text.digits n).length := List.length_pos_iff.2 (digits_ne_nil n)
  generalize Text.digits n = ds at hval hlen ⊢
  simp only [spread]
  split
  · next h =>
    have hzeros : (((ds.length : Int) + e) - ds.length).toNat = e.toNat := by omega
    have hv : Literal.value (ds ++ List.replicate e.toNat '0' ++ ['0']) = n * 10 ^ (e.toNat + 1) := by
      have h0 : ['0'] = List.replicate 1 '0' := rfl
      unfold Literal.value at hval ⊢
      rw [h0, Literal.value_append, Literal.value_append, hval, Nat.ofDigitChars_replicate_zero,
        Nat.ofDigitChars_replicate_zero]
      ring
    rw [hzeros]
    refine ⟨by simp [Literal.isWhole], e.toNat + 1, hv, ?_, .inr ⟨by omega, by omega, rfl⟩⟩
    simp only [Literal.power, List.length_singleton]
    omega
  split
  · next h₁ h₂ =>
    have hne : ds.drop ((ds.length : Int) + e).toNat ≠ [] := by
      rw [ne_eq, List.drop_eq_nil_iff]
      omega
    refine ⟨by simp [Literal.isWhole]; omega, 0, ?_, ?_, .inl rfl⟩
    · rw [List.take_append_drop, hval, Nat.pow_zero, Nat.mul_one]
    · simp only [Literal.power, List.length_drop]
      omega
  split
  · next h₁ h₂ h₃ =>
    have hv : Literal.value (['0'] ++ (List.replicate (-((ds.length : Int) + e)).toNat '0' ++ ds))
        = n := by
      have h0 : ['0'] = List.replicate 1 '0' := rfl
      unfold Literal.value at hval ⊢
      rw [h0, Literal.value_append, Literal.value_append, Nat.ofDigitChars_replicate_zero,
        Nat.ofDigitChars_replicate_zero, Nat.mul_zero, hval]
    refine ⟨by simp [Literal.isWhole]; intro _ h; simp [h] at hlen, 0, ?_, ?_, .inl rfl⟩
    · rw [hv, Nat.pow_zero, Nat.mul_one]
    · simp only [Literal.power, List.length_append, List.length_replicate]
      omega
  · next h₁ h₂ h₃ =>
    have hpower : (if decide ((ds.length : Int) + e - 1 < 0) = true
        then -(Literal.value (Text.digits ((ds.length : Int) + e - 1).natAbs) : Int)
        else Literal.value (Text.digits ((ds.length : Int) + e - 1).natAbs))
          = (ds.length : Int) + e - 1 := by
      rw [value_digits]
      by_cases h : (ds.length : Int) + e - 1 < 0
      · rw [if_pos (decide_eq_true h)]
        omega
      · rw [if_neg (by simpa using h)]
        omega
    refine ⟨by simp [Literal.isWhole], 0, ?_, ?_, .inl rfl⟩
    · rw [List.take_append_drop, hval, Nat.pow_zero, Nat.mul_one]
    · simp only [Literal.power, List.length_drop, hpower]
      omega

/-- The digits of a decimal that was spread around its point read as the decimal itself, unless a
zero was added behind the point; then the exponent is negative. -/
theorem number?_spread {n : Nat} (hle : n ≤ 40 * Magnitude.perBinade) (e : Int)
    (negative : Bool) : ∃ significand exponent,
      Literal.number? { spread (Text.digits n) ((Text.digits n).length + e) with negative }
        = Literal.float? negative significand exponent ∧
      significand ≤ 40 * Magnitude.perBinade ∧
      (exponent < 0 ∨ significand = n ∧ exponent = e) := by
  have hsize : 40 * Magnitude.perBinade < UInt64.size := by decide
  obtain ⟨hwhole, zeros, hvalue, hpower, hzeros⟩ := spread_parts n e
  have hb : n * 10 ^ zeros ≤ 40 * Magnitude.perBinade := by
    rcases hzeros with rfl | ⟨-, hz, rfl⟩
    · rwa [Nat.pow_zero, Nat.mul_one]
    · have hn : n < 10 ^ (Text.digits n).length :=
        (Nat.length_toDigits_le_iff (by decide) (List.length_pos_iff.2 (digits_ne_nil n))).1
          (Nat.le_refl _)
      calc n * 10 ^ (e.toNat + 1) ≤ 10 ^ (Text.digits n).length * 10 ^ (e.toNat + 1) :=
            Nat.mul_le_mul_right _ hn.le
        _ = 10 ^ ((Text.digits n).length + e.toNat + 1) := by rw [← Nat.pow_add, Nat.add_assoc]
        _ ≤ 10 ^ 17 := Nat.pow_le_pow_right (by decide) (by omega)
        _ ≤ 40 * Magnitude.perBinade := by decide
  refine ⟨n * 10 ^ zeros, e - zeros, ?_, hb, ?_⟩
  · generalize spread (Text.digits n) ((Text.digits n).length + e) = l at hwhole hvalue hpower ⊢
    have hread := Literal.number?_eq_float? (l := { l with negative }) hwhole
      (Nat.lt_of_le_of_lt (hvalue.le.trans hb) hsize)
    rw [hread, ← hvalue, ← hpower]
    rfl
  · rcases hzeros with rfl | ⟨he, -, rfl⟩
    · exact .inr ⟨by rw [Nat.pow_zero, Nat.mul_one], by omega⟩
    · exact .inl (by omega)

end Number

/-! ## Scaling stays finite -/

namespace Magnitude

@[irreducible] def lastGap : Nat := 2 ^ lastBinade

theorem lastGap_eq : lastGap = 2 ^ lastBinade := by
  unfold lastGap
  rfl

theorem lastGap_pos : 0 < lastGap := by
  rw [lastGap_eq]
  exact Nat.two_pow_pos _

/-- Twice the units of the largest magnitude and half of its gap. -/
def limit : Nat := lastGap * (4 * perBinade - 1)

theorem isSome_nearest?_of_lt {num den : Nat} (h : 2 * (num * one) < den * limit) :
    (nearest? num den).isSome :=
  isSome_nearest? (by rwa [Nat.mul_assoc, ← lastGap_eq])

/-- Units that no significand of less than eighteen digits reaches twice. -/
def significandUnits : Nat := 40 * perBinade * one

theorem significandUnits_lt_limit : 2 * (2 * (2 * significandUnits + 1) + 1) < limit := by
  decide +kernel

/-- The largest power of ten of an exponent, as a product of smaller ones. -/
theorem tens_lt_limit : 2 * (10 ^ 154 * 10 ^ 154 * one) < limit := by
  decide +kernel

theorem mul_one_le_significandUnits {n : Nat} (h : n ≤ 40 * perBinade) :
    n * one ≤ significandUnits :=
  Nat.mul_le_mul_right one h

theorem isSome_ofNat? {n : Nat} (h : n ≤ 40 * perBinade) : (ofNat? n).isSome := by
  apply isSome_nearest?_of_lt
  have := significandUnits_lt_limit
  have := mul_one_le_significandUnits h
  omega

theorem units_ofNat?_le {n : Nat} {m : Magnitude} (h : n ≤ 40 * perBinade)
    (hm : ofNat? n = some m) : m.units ≤ 2 * significandUnits + 1 := by
  have := units_nearest?_le_twice Nat.one_pos hm
  have := mul_one_le_significandUnits h
  omega

theorem tenTo_le {k a b : Nat} (h : k ≤ a + b) : Nat.pow 10 k ≤ 10 ^ a * 10 ^ b :=
  calc 10 ^ k ≤ 10 ^ (a + b) := Nat.pow_le_pow_right (by decide) h
    _ = 10 ^ a * 10 ^ b := Nat.pow_add ..

theorem isSome_tenTo? {k : Nat} (h : k ≤ 308) : (tenTo? k).isSome := by
  apply isSome_nearest?_of_lt
  have hpow : Nat.pow 10 k ≤ 10 ^ 154 * 10 ^ 154 := tenTo_le h
  have := Nat.mul_le_mul_right one hpow
  have := tens_lt_limit
  omega

theorem one_le_units_tenTo? {k : Nat} {t : Magnitude} (h : tenTo? k = some t) : one ≤ t.units :=
  one_le_units_nearest? Nat.one_pos h (Nat.pow_pos (by decide))

theorem isSome_mul? {a b : Magnitude} (h : 2 * (a.units * b.units * one) < one * one * limit) :
    (a.mul? b).isSome :=
  isSome_nearest?_of_lt h

theorem isSome_div? {a b : Magnitude} (ha : 2 * a.units < limit) (hb : one ≤ b.units) :
    (a.div? b).isSome := by
  apply isSome_nearest?_of_lt
  calc 2 * (a.units * one) = one * (2 * a.units) := by ring
    _ < one * limit := Nat.mul_lt_mul_of_pos_left ha one_pos
    _ ≤ b.units * limit := Nat.mul_le_mul_right _ hb

theorem units_div?_le {a b c : Magnitude} (hb : one ≤ b.units) (h : a.div? b = some c) :
    c.units ≤ 2 * a.units + 1 := by
  have hpos : 0 < b.units := Nat.lt_of_lt_of_le one_pos hb
  have hle := units_nearest?_le_twice hpos h
  refine Nat.le_of_mul_le_mul_left (c := b.units) ?_ hpos
  calc b.units * c.units ≤ 2 * (a.units * one) + b.units := hle
    _ ≤ 2 * (a.units * b.units) + b.units := by
        have := Nat.mul_le_mul_left a.units hb
        omega
    _ = b.units * (2 * a.units + 1) := by ring

/-- Two factors that were rounded up by a `2 p`-th at most, of a product below `(4 p - 5) * last / 2`,
have a product below `(4 p - 1) * last / 2`. -/
theorem rounded_mul_lt {p unit last a b n t : Nat} (hp : 2 ≤ p) (hunit : 0 < unit)
    (hlast : 0 < last) (ha : 2 * p * a ≤ (2 * p + 1) * (n * unit))
    (hb : 2 * p * b ≤ (2 * p + 1) * (t * unit)) (hnt : 2 * (unit * t * n) ≤ (4 * p - 5) * last) :
    2 * (a * b * unit) < unit * unit * (last * (4 * p - 1)) := by
  have hgap : (2 * p + 1) * (2 * p + 1) * (4 * p - 5) < 2 * p * (2 * p) * (4 * p - 1) := by
    obtain ⟨q, rfl⟩ := Nat.exists_eq_add_of_le hp
    have h₁ : 4 * (2 + q) - 5 = 4 * q + 3 := by omega
    have h₂ : 4 * (2 + q) - 1 = 4 * q + 7 := by omega
    rw [h₁, h₂]
    ring_nf
    omega
  refine Nat.lt_of_mul_lt_mul_left (a := 2 * p * (2 * p)) ?_
  calc 2 * p * (2 * p) * (2 * (a * b * unit)) = 2 * unit * (2 * p * a * (2 * p * b)) := by ring
    _ ≤ 2 * unit * ((2 * p + 1) * (n * unit) * ((2 * p + 1) * (t * unit))) :=
        Nat.mul_le_mul_left _ (Nat.mul_le_mul ha hb)
    _ = (2 * p + 1) * (2 * p + 1) * (unit * unit) * (2 * (unit * t * n)) := by ring
    _ ≤ (2 * p + 1) * (2 * p + 1) * (unit * unit) * ((4 * p - 5) * last) :=
        Nat.mul_le_mul_left _ hnt
    _ = unit * unit * last * ((2 * p + 1) * (2 * p + 1) * (4 * p - 5)) := by ring
    _ < unit * unit * last * (2 * p * (2 * p) * (4 * p - 1)) :=
        Nat.mul_lt_mul_of_pos_left hgap (Nat.mul_pos (Nat.mul_pos hunit hunit) hlast)
    _ = 2 * p * (2 * p) * (unit * unit * (last * (4 * p - 1))) := by ring

theorem perBinade_le_one : perBinade ≤ one := by decide

theorem units_ofNat?_close {n : Nat} {m : Magnitude} (hn : 0 < n) (h : ofNat? n = some m) :
    2 * perBinade * m.units ≤ (2 * perBinade + 1) * (n * one) := by
  have hle := units_nearest?_le Nat.one_pos h (by
    rw [Nat.one_mul]
    exact Nat.le_trans perBinade_le_one (Nat.le_mul_of_pos_left _ hn))
  rwa [Nat.one_mul] at hle

/-- All magnitudes but the largest two lie below the limit with room for the rounding. -/
theorem midpoint_le {i : Nat} (h : i + 2 < magnitudes) :
    unitsOf i + unitsOf (i + 1) ≤ (4 * perBinade - 5) * lastGap := by
  have hp : 3 ≤ perBinade := by decide
  have hi : i ≤ (lastBinade + 1) * perBinade + (perBinade - 3) := by
    rw [magnitudes_eq, Nat.add_mul] at h
    rw [Nat.add_mul]
    omega
  have hu := unitsOf_strictMono.monotone hi
  have hu' := unitsOf_strictMono.monotone (Nat.succ_le_succ hi)
  have hs : (lastBinade + 1) * perBinade + (perBinade - 3) + 1
      = (lastBinade + 1) * perBinade + (perBinade - 2) := by omega
  rw [unitsOf_binade (by omega), ← lastGap_eq] at hu
  rw [Nat.succ_eq_add_one, Nat.succ_eq_add_one, hs, unitsOf_binade (by omega), ← lastGap_eq] at hu'
  calc unitsOf i + unitsOf (i + 1)
      ≤ (perBinade + (perBinade - 3)) * lastGap + (perBinade + (perBinade - 2)) * lastGap :=
        Nat.add_le_add hu hu'
    _ = (4 * perBinade - 5) * lastGap := by
        rw [← Nat.add_mul]
        congr 1

end Magnitude

namespace Literal

open Magnitude

theorem exists_div?_tenTo? {a : Magnitude} {k : Nat} (hk : k ≤ 308) (ha : 2 * a.units < limit) :
    ∃ c, (tenTo? k).bind a.div? = some c ∧ c.units ≤ 2 * a.units + 1 := by
  obtain ⟨t, ht⟩ := Option.isSome_iff_exists.1 (isSome_tenTo? hk)
  have hone := one_le_units_tenTo? ht
  obtain ⟨c, hc⟩ := Option.isSome_iff_exists.1 (isSome_div? ha hone)
  exact ⟨c, Option.bind_eq_some_iff.2 ⟨t, ht, hc⟩, units_div?_le hone hc⟩

theorem isSome_scale?_neg {n : Nat} (hn : n ≤ 40 * perBinade) {m : Magnitude}
    (hm : ofNat? n = some m) {e : Int} (he : e < 0) : (scale? m e).isSome := by
  have hlimit := significandUnits_lt_limit
  have hle := units_ofNat?_le hn hm
  obtain ⟨k, rfl⟩ := Int.eq_negSucc_of_lt_zero he
  rw [Option.isSome_iff_exists]
  simp only [scale?]
  by_cases h0 : m.val = 0
  · exact ⟨m, if_pos h0⟩
  by_cases h₁ : k + 1 ≤ 308
  · obtain ⟨c, hc, -⟩ := exists_div?_tenTo? h₁ (a := m) (by omega)
    exact ⟨c, by rw [if_neg h0, if_pos h₁]; exact hc⟩
  by_cases h₂ : k + 1 ≤ 616
  · obtain ⟨c, hc, hc'⟩ := exists_div?_tenTo? (Nat.le_refl 308) (a := m) (by omega)
    obtain ⟨d, hd, -⟩ := exists_div?_tenTo? (k := k + 1 - 308) (by omega) (a := c) (by omega)
    exact ⟨d, by
      rw [if_neg h0, if_neg h₁, if_pos h₂]
      exact Option.bind_eq_some_iff.2 ⟨c, hc, hd⟩⟩
  · exact ⟨_, by rw [if_neg h0, if_neg h₁, if_neg h₂]⟩

theorem isSome_scale?_shortest {m : Magnitude} (hpos : 0 < m.val) (h : m.val + 2 < magnitudes)
    {k : Nat} (hk : m.shortest.exponent = k) {a : Magnitude}
    (ha : ofNat? m.shortest.digits = some a) : (scale? a k).isSome := by
  have hle : k ≤ 308 := by
    have := exponent_shortest_le m
    omega
  obtain ⟨t, ht⟩ := Option.isSome_iff_exists.1 (isSome_tenTo? hle)
  have hmid := shortest_le_midpoint m
  have hnum : gridNum m.shortest.exponent = one * Nat.pow 10 k := by rw [hk]; rfl
  have hden : gridDen m.shortest.exponent = 1 := by rw [hk]; simp [gridDen]
  rw [hnum, hden, Nat.mul_one] at hmid
  have hmid' := Nat.le_trans hmid (midpoint_le h)
  have hn := units_ofNat?_close (digits_shortest_pos hpos) ha
  have ht' := units_ofNat?_close (Nat.pow_pos (by decide)) ht
  have hlt := rounded_mul_lt (p := perBinade) (by decide) Magnitude.one_pos lastGap_pos hn ht' hmid'
  rw [← limit] at hlt
  obtain ⟨c, hc⟩ := Option.isSome_iff_exists.1 (isSome_mul? hlt)
  rw [Option.isSome_iff_exists]
  by_cases h0 : a.val = 0
  · exact ⟨a, if_pos h0⟩
  · exact ⟨c, by
      have hscale : scale? a k = (tenTo? k).bind a.mul? := by
        simp only [scale?]
        rw [if_neg h0]
        exact if_pos hle
      rw [hscale]
      exact Option.bind_eq_some_iff.2 ⟨t, ht, hc⟩⟩

theorem isSome_float? {significand : Nat} {e : Int} (negative : Bool)
    (hs : significand ≤ 40 * perBinade)
    (h : ∀ a, ofNat? significand = some a → (scale? a e).isSome) :
    (float? negative significand e).isSome := by
  obtain ⟨a, ha⟩ := Option.isSome_iff_exists.1 (isSome_ofNat? hs)
  obtain ⟨m, hm⟩ := Option.isSome_iff_exists.1 (h a ha)
  refine Option.isSome_iff_exists.2 ⟨.float ⟨negative, m⟩, ?_⟩
  exact Option.bind_eq_some_iff.2 ⟨a, ha, Option.bind_eq_some_iff.2 ⟨m, hm, rfl⟩⟩

end Literal

namespace Number

open Literal

theorem isSome_number?_magnitude (m : Magnitude) (negative : Bool) :
    (Literal.number? { magnitudeLiteral m with negative }).isSome := by
  have hN : 2 < magnitudes := by decide
  by_cases htop : m.val + 2 < magnitudes
  · by_cases h0 : m.val = 0
    · rw [magnitudeLiteral, if_pos h0]
      cases negative <;> decide +kernel
    rw [magnitudeLiteral, if_neg h0]
    have hdigits := Magnitude.digits_shortest_le m
    obtain ⟨significand, e, heq, hs, he⟩ := number?_spread hdigits m.shortest.exponent negative
    rw [heq]
    refine isSome_float? negative hs fun a ha => ?_
    rcases lt_or_ge e 0 with hneg | hpos
    · exact isSome_scale?_neg hs ha hneg
    · obtain ⟨rfl, rfl⟩ := he.resolve_left (by omega)
      obtain ⟨k, hk⟩ := Int.eq_ofNat_of_zero_le hpos
      rw [hk]
      exact isSome_scale?_shortest (by omega) htop hk ha
  · -- too close to the limit for the bound
    have hlt := m.isLt
    obtain h | h : m = ⟨magnitudes - 1, by decide⟩ ∨ m = ⟨magnitudes - 2, by decide⟩ := by
      rw [Fin.ext_iff, Fin.ext_iff]
      simp only
      omega
    all_goals
      rw [h]
      cases negative <;> decide +kernel

/-- The numbers that values hold: floating-point ones, and whole ones of 64 bits. -/
def InRange : Number → Prop
  | integer i => IsWord i
  | float _ => True

/-- **The literal of every number is that of a number.** -/
theorem isSome_number? {n : Number} (h : n.InRange) : n.literal.number?.isSome := by
  cases n with
  | integer i => rw [number?_integer h, Option.isSome_some]
  | float x => exact isSome_number?_magnitude x.magnitude x.negative

end Number

end ChannelLog
