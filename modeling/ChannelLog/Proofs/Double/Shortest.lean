import Mathlib
import ChannelLog.Double.Shortest
import ChannelLog.Proofs.Double.Rounding

/-!
# Shortest decimals

The search for the shortest decimal of a magnitude ends on a grid at most ten times finer than the
gap to the next magnitude (`isSome_onGrid?`), so the decimal has less than eighteen digits
(`digits_shortest_le`) and lies no higher than half way to the next magnitude
(`shortest_le_midpoint`). No decimal stands for two magnitudes (`eq_of_standsFor`).
-/

namespace ChannelLog.Magnitude

/-! ## Grids -/

/-- The unit of a grid over that of the magnitudes, as a fraction `gridNum / gridDen`. -/
def gridNum (exponent : Int) : Nat := one * 10 ^ exponent.toNat

def gridDen (exponent : Int) : Nat := 10 ^ (-exponent).toNat

theorem gridNum_pos (k : Int) : 0 < gridNum k :=
  Nat.mul_pos one_pos (Nat.pow_pos (by decide))

theorem gridDen_pos (k : Int) : 0 < gridDen k := Nat.pow_pos (by decide)

theorem grid_succ (k : Int) :
    gridNum (k + 1) * gridDen k = 10 * (gridNum k * gridDen (k + 1)) := by
  unfold gridNum gridDen
  rcases lt_or_ge k 0 with h | h
  · have h₁ : (k + 1).toNat = 0 := by omega
    have h₂ : k.toNat = 0 := by omega
    have h₃ : (-k).toNat = (-(k + 1)).toNat + 1 := by omega
    rw [h₁, h₂, h₃, Nat.pow_succ]
    ring
  · have h₁ : (k + 1).toNat = k.toNat + 1 := by omega
    have h₂ : (-k).toNat = 0 := by omega
    have h₃ : (-(k + 1)).toNat = 0 := by omega
    rw [h₁, h₂, h₃, Nat.pow_succ]
    ring

theorem standsFor_of_lt {i digits : Nat} {k : Int}
    (hlow : (unitsOf (i - 1) + unitsOf i) * gridDen k < 2 * (gridNum k * digits))
    (hhigh : 2 * (gridNum k * digits) < (unitsOf i + unitsOf (i + 1)) * gridDen k) :
    standsFor ⟨digits, k⟩ i = true := by
  have hv : digits * Nat.pow 10 k.toNat * (2 * one) = 2 * (gridNum k * digits) := by
    show digits * 10 ^ k.toNat * (2 * one) = 2 * (one * 10 ^ k.toNat * digits)
    ring
  have hs : Nat.pow 10 (-k).toNat = gridDen k := rfl
  simp only [standsFor, hv, hs]
  split
  · simp [hlow.le, hhigh.le]
  · simp [hlow, hhigh]

theorem bounds_of_standsFor {i : Nat} {d : Decimal} (h : standsFor d i = true) :
    (unitsOf (i - 1) + unitsOf i) * gridDen d.exponent ≤ 2 * (gridNum d.exponent * d.digits) ∧
      2 * (gridNum d.exponent * d.digits)
        ≤ (unitsOf i + unitsOf (i + 1)) * gridDen d.exponent := by
  have hv : d.digits * Nat.pow 10 d.exponent.toNat * (2 * one)
      = 2 * (gridNum d.exponent * d.digits) := by
    show d.digits * 10 ^ d.exponent.toNat * (2 * one) = 2 * (one * 10 ^ d.exponent.toNat * d.digits)
    ring
  have hs : Nat.pow 10 (-d.exponent).toNat = gridDen d.exponent := rfl
  simp only [standsFor, hv, hs] at h
  split at h
  · simpa using h
  · simp only [Bool.and_eq_true, decide_eq_true_eq] at h
    exact ⟨h.1.le, h.2.le⟩

/-- **A grid finer than half the gap has a decimal for the magnitude.** -/
theorem isSome_onGrid? {i : Nat} {k : Int} (h : 2 * gridNum k < gap i * gridDen k) :
    (onGrid? i k).isSome := by
  have habove : standsFor ⟨unitsOf i * gridDen k / gridNum k + 1, k⟩ i = true := by
    have hlt := Nat.lt_mul_div_succ (unitsOf i * gridDen k) (gridNum_pos k)
    have hle := Nat.mul_div_le (unitsOf i * gridDen k) (gridNum k)
    have hmono := Nat.mul_le_mul_right (gridDen k)
      (unitsOf_strictMono.monotone (Nat.sub_le i 1))
    apply standsFor_of_lt
    · rw [Nat.add_mul]
      omega
    · rw [unitsOf_succ, Nat.add_mul, Nat.add_mul, Nat.mul_add, Nat.mul_one]
      omega
  have hgrid : standsFor
      ⟨unitsOf i * Nat.pow 10 (-k).toNat / (one * Nat.pow 10 k.toNat) + 1, k⟩ i = true := habove
  simp only [onGrid?, hgrid]
  cases standsFor ⟨unitsOf i * Nat.pow 10 (-k).toNat / (one * Nat.pow 10 k.toNat), k⟩ i <;> rfl

theorem onGrid?_eq_some {i : Nat} {k : Int} {d : Decimal} (h : onGrid? i k = some d) :
    d.exponent = k ∧ standsFor d i = true ∧
      d.digits ≤ unitsOf i * gridDen k / gridNum k + 1 := by
  simp only [onGrid?] at h
  split at h
  · next h₁ h₂ =>
    obtain rfl := Option.some.inj h
    split
    · exact ⟨rfl, h₁, Nat.le_succ _⟩
    · exact ⟨rfl, h₂, Nat.le_refl _⟩
  · next h₁ _ =>
    obtain rfl := Option.some.inj h
    exact ⟨rfl, h₁, Nat.le_succ _⟩
  · next _ h₂ =>
    obtain rfl := Option.some.inj h
    exact ⟨rfl, h₂, Nat.le_refl _⟩
  · simp at h

/-! ## The search -/

/-- A search over grids of which one has a decimal finds the coarsest of these. -/
theorem search_spec (i : Nat) : ∀ (tries : Nat) (start : Int),
    (∃ k, k ≤ start ∧ start < k + tries ∧ (onGrid? i k).isSome) →
    ∃ k, k ≤ start ∧ onGrid? i k = some (search i tries start) ∧
      (k = start ∨ onGrid? i (k + 1) = none)
  | 0, start, ⟨k, h₁, h₂, _⟩ => by omega
  | tries + 1, start, ⟨k, h₁, h₂, hk⟩ => by
    cases hs : onGrid? i start with
    | some d => exact ⟨start, Int.le_refl _, by simp [search, hs], .inl rfl⟩
    | none =>
      have hne : k ≠ start := fun e => by simp [e, hs] at hk
      obtain ⟨k', h₁', hd, hor⟩ := search_spec i tries (start - 1)
        ⟨k, by omega, by push_cast at h₂; omega, hk⟩
      refine ⟨k', by omega, by simp [search, hs, hd], .inr ?_⟩
      rcases hor with rfl | hn
      · rw [Int.sub_add_cancel]
        exact hs
      · exact hn

theorem extreme_grids : 2 * gridNum (-324) < gridDen (-324) ∧
    unitsOf magnitudes * gridDen 308 ≤ gridNum 308 * (40 * perBinade) := by
  decide +kernel

theorem isSome_onGrid?_least (i : Nat) : (onGrid? i (-324)).isSome := by
  apply isSome_onGrid?
  have h := extreme_grids.1
  calc 2 * gridNum (-324) < 1 * gridDen (-324) := by omega
    _ ≤ gap i * gridDen (-324) := Nat.mul_le_mul_right _ (gap_pos i)

theorem exists_shortest (m : Magnitude) : ∃ k ≤ 308, onGrid? m.val k = some m.shortest ∧
    (k = 308 ∨ onGrid? m.val (k + 1) = none) :=
  search_spec _ _ _ ⟨-324, by decide, by decide, isSome_onGrid?_least m.val⟩

theorem standsFor_shortest (m : Magnitude) : standsFor m.shortest m.val = true := by
  obtain ⟨k, -, hd, -⟩ := exists_shortest m
  exact (onGrid?_eq_some hd).2.1

theorem exponent_shortest_le (m : Magnitude) : m.shortest.exponent ≤ 308 := by
  obtain ⟨k, hk, hd, -⟩ := exists_shortest m
  rw [(onGrid?_eq_some hd).1]
  exact hk

theorem digits_shortest_pos {m : Magnitude} (h : 0 < m.val) : 0 < m.shortest.digits := by
  obtain ⟨hlow, -⟩ := bounds_of_standsFor (standsFor_shortest m)
  have hu : 0 < unitsOf m.val := by
    have := unitsOf_strictMono h
    omega
  have : 0 < (unitsOf (m.val - 1) + unitsOf m.val) * gridDen m.shortest.exponent :=
    Nat.mul_pos (by omega) (gridDen_pos _)
  apply Nat.pos_of_ne_zero
  intro h0
  rw [h0, Nat.mul_zero, Nat.mul_zero] at hlow
  omega

/-- **The shortest decimal has less than eighteen digits.** -/
theorem digits_shortest_le (m : Magnitude) : m.shortest.digits ≤ 40 * perBinade := by
  obtain ⟨k, -, hd, hor⟩ := exists_shortest m
  have hle := (onGrid?_eq_some hd).2.2
  suffices hlt : unitsOf m.val * gridDen k < gridNum k * (40 * perBinade) by
    have := Nat.div_lt_of_lt_mul hlt
    omega
  rcases hor with rfl | hnone
  · have hm : unitsOf m.val < unitsOf magnitudes := unitsOf_strictMono m.isLt
    calc unitsOf m.val * gridDen 308 < unitsOf magnitudes * gridDen 308 :=
          Nat.mul_lt_mul_of_pos_right hm (gridDen_pos _)
      _ ≤ _ := extreme_grids.2
  · -- the grid ten times coarser has no decimal, so it is no finer than half the gap
    have hcoarse : gap m.val * gridDen (k + 1) ≤ 2 * gridNum (k + 1) := by
      by_contra hc
      have := isSome_onGrid? (i := m.val) (k := k + 1) (by omega)
      simp [hnone] at this
    have hu := unitsOf_lt_gap m.val
    have hpos := gridDen_pos (k + 1)
    refine Nat.lt_of_mul_lt_mul_left (a := gridDen (k + 1)) ?_
    calc gridDen (k + 1) * (unitsOf m.val * gridDen k)
        < gridDen (k + 1) * (2 * perBinade * gap m.val * gridDen k) := by
          exact Nat.mul_lt_mul_of_pos_left
            (Nat.mul_lt_mul_of_pos_right hu (gridDen_pos k)) hpos
      _ = 2 * perBinade * gridDen k * (gap m.val * gridDen (k + 1)) := by ring
      _ ≤ 2 * perBinade * gridDen k * (2 * gridNum (k + 1)) := Nat.mul_le_mul_left _ hcoarse
      _ = 4 * perBinade * (gridNum (k + 1) * gridDen k) := by ring
      _ = 4 * perBinade * (10 * (gridNum k * gridDen (k + 1))) := by rw [grid_succ]
      _ = gridDen (k + 1) * (gridNum k * (40 * perBinade)) := by ring

/-- **The shortest decimal lies no higher than half way to the next magnitude.** -/
theorem shortest_le_midpoint (m : Magnitude) :
    2 * (gridNum m.shortest.exponent * m.shortest.digits)
      ≤ (unitsOf m.val + unitsOf (m.val + 1)) * gridDen m.shortest.exponent :=
  (bounds_of_standsFor (standsFor_shortest m)).2

/-! ## No decimal stands for two magnitudes -/

def decimalValue (d : Decimal) : ℚ := d.digits * 10 ^ d.exponent

/-- The midpoint between the magnitude number `i` and the one below. -/
def midpoint (i : Nat) : ℚ := ((unitsOf (i - 1) + unitsOf i : ℕ) : ℚ) / ((2 * one : ℕ) : ℚ)

theorem decimalValue_eq (d : Decimal) : decimalValue d
    = ((d.digits * 10 ^ d.exponent.toNat : ℕ) : ℚ) / ((10 ^ (-d.exponent).toNat : ℕ) : ℚ) := by
  obtain ⟨digits, exponent⟩ := d
  rcases Int.le_total 0 exponent with h | h
  · obtain ⟨n, rfl⟩ := Int.eq_ofNat_of_zero_le h
    simp [decimalValue]
  · obtain ⟨n, rfl⟩ := Int.exists_eq_neg_ofNat h
    simp [decimalValue, div_eq_mul_inv]

theorem midpoint_le_iff {d : Decimal} {i : Nat} : midpoint i ≤ decimalValue d ↔
    (unitsOf (i - 1) + unitsOf i) * 10 ^ (-d.exponent).toNat
      ≤ d.digits * 10 ^ d.exponent.toNat * (2 * one) := by
  have hone : (0 : ℚ) < ((2 * one : ℕ) : ℚ) := Nat.cast_pos.2 (Nat.mul_pos (by decide) one_pos)
  have hten : (0 : ℚ) < ((10 ^ (-d.exponent).toNat : ℕ) : ℚ) :=
    Nat.cast_pos.2 (Nat.pow_pos (by decide))
  rw [midpoint, decimalValue_eq, div_le_div_iff₀ hone hten, ← Nat.cast_mul, ← Nat.cast_mul,
    Nat.cast_le]

theorem le_midpoint_iff {d : Decimal} {i : Nat} : decimalValue d ≤ midpoint i ↔
    d.digits * 10 ^ d.exponent.toNat * (2 * one)
      ≤ (unitsOf (i - 1) + unitsOf i) * 10 ^ (-d.exponent).toNat := by
  have hone : (0 : ℚ) < ((2 * one : ℕ) : ℚ) := Nat.cast_pos.2 (Nat.mul_pos (by decide) one_pos)
  have hten : (0 : ℚ) < ((10 ^ (-d.exponent).toNat : ℕ) : ℚ) :=
    Nat.cast_pos.2 (Nat.pow_pos (by decide))
  rw [midpoint, decimalValue_eq, div_le_div_iff₀ hten hone, ← Nat.cast_mul, ← Nat.cast_mul,
    Nat.cast_le]

theorem midpoint_lt {i j : Nat} (h : i < j) : midpoint i < midpoint j := by
  have hone : (0 : ℚ) < ((2 * one : ℕ) : ℚ) := Nat.cast_pos.2 (Nat.mul_pos (by decide) one_pos)
  have hbelow := unitsOf_strictMono.monotone (show i - 1 ≤ j - 1 by omega)
  have habove := unitsOf_strictMono h
  rw [midpoint, midpoint, div_lt_div_iff_of_pos_right hone, Nat.cast_lt]
  omega

/-- A decimal that stands for a magnitude lies between the midpoints, and on one of them only if the
number of the magnitude is even. -/
theorem between_of_standsFor {d : Decimal} {i : Nat} (h : standsFor d i = true) :
    midpoint i ≤ decimalValue d ∧ decimalValue d ≤ midpoint (i + 1) ∧
      (i % 2 = 1 → midpoint i < decimalValue d ∧ decimalValue d < midpoint (i + 1)) := by
  have hlow : midpoint i ≤ decimalValue d ↔ _ := midpoint_le_iff
  have hlow' : decimalValue d ≤ midpoint i ↔ _ := le_midpoint_iff
  have hhigh : decimalValue d ≤ midpoint (i + 1) ↔ _ := le_midpoint_iff
  have hhigh' : midpoint (i + 1) ≤ decimalValue d ↔ _ := midpoint_le_iff
  rw [← not_le, ← not_le, hlow, hlow', hhigh, hhigh', Nat.add_sub_cancel]
  simp only [standsFor] at h
  split at h
  · next heven =>
    simp only [Bool.and_eq_true, decide_eq_true_eq] at h
    exact ⟨h.1, h.2, fun hodd => by omega⟩
  · simp only [Bool.and_eq_true, decide_eq_true_eq] at h
    exact ⟨h.1.le, h.2.le, fun _ => ⟨Nat.not_le.2 h.1, Nat.not_le.2 h.2⟩⟩

theorem decimalValue_lt {d d' : Decimal} {i j : Nat} (hi : standsFor d i = true)
    (hj : standsFor d' j = true) (hlt : i < j) : decimalValue d < decimalValue d' := by
  obtain ⟨-, hhigh, hodd⟩ := between_of_standsFor hi
  obtain ⟨hlow, -, hodd'⟩ := between_of_standsFor hj
  rcases Nat.lt_or_ge (i + 1) j with hgap | hnext
  · exact lt_of_le_of_lt hhigh (lt_of_lt_of_le (midpoint_lt hgap) hlow)
  · -- of two neighbours one is odd, and its midpoints are not taken
    obtain rfl : j = i + 1 := by omega
    rcases Nat.mod_two_eq_zero_or_one i with heven | hone
    · exact lt_of_le_of_lt hhigh (hodd' (by omega)).1
    · exact lt_of_lt_of_le (hodd hone).2 hlow

/-- **No decimal stands for two magnitudes.** -/
theorem eq_of_standsFor {d d' : Decimal} {i j : Nat} (hi : standsFor d i = true)
    (hj : standsFor d' j = true) (h : decimalValue d = decimalValue d') : i = j := by
  rcases Nat.lt_trichotomy i j with hlt | heq | hlt
  · exact absurd h (decimalValue_lt hi hj hlt).ne
  · exact heq
  · exact absurd h (decimalValue_lt hj hi hlt).ne'

end ChannelLog.Magnitude
