import Mathlib
import ChannelLog.Double

/-!
# Bounds on rounded magnitudes

Magnitudes are numbered in ascending order of their units (`unitsOf_strictMono`); neighbours lie
`gap` apart, which is less than a `2 ^ 53`-th of either when the magnitude is normal
(`unitsOf_lt_gap`). Rounding a quotient `num / den` to a magnitude

* works below the largest magnitude and half a gap (`isSome_nearest?`),
* goes up by a `2 ^ 53`-th at most, unless the quotient is subnormal (`units_nearest?_le`), and
  never by more than the quotient and a unit (`units_nearest?_le_twice`),
* does not go below one when the quotient does not (`one_le_units_nearest?`).
-/

namespace ChannelLog.Magnitude

/-! ## Units -/

theorem one_shiftLeft (n : Nat) : 1 <<< n = 2 ^ n := Nat.one_shiftLeft n

theorem perBinade_eq : perBinade = 2 ^ 52 := one_shiftLeft 52

theorem exists_one_eq : ∃ k, one = 2 ^ k ∧ 52 < k := ⟨1074, one_shiftLeft _, by decide⟩

def lastBinade : Nat := 2045

theorem magnitudes_eq : magnitudes = (lastBinade + 2) * perBinade := by decide

theorem perBinade_pos : 0 < perBinade := by decide

theorem one_pos : 0 < one := by
  obtain ⟨k, hk, -⟩ := exists_one_eq
  rw [hk]
  exact Nat.two_pow_pos k

theorem unitsOf_small {i : Nat} (h : i < perBinade) : unitsOf i = i := by
  unfold unitsOf
  rw [Nat.div_eq_of_lt h]

theorem unitsOf_of_div {i b : Nat} (h : i / perBinade = b + 1) :
    unitsOf i = (perBinade + i % perBinade) * 2 ^ b := by
  unfold unitsOf
  rw [h]
  exact Nat.shiftLeft_eq _ _

theorem unitsOf_binade {b f : Nat} (h : f < perBinade) :
    unitsOf ((b + 1) * perBinade + f) = (perBinade + f) * 2 ^ b := by
  have hdiv : ((b + 1) * perBinade + f) / perBinade = b + 1 := by
    rw [Nat.add_comm, Nat.add_mul_div_right _ _ perBinade_pos, Nat.div_eq_of_lt h, Nat.zero_add]
  have hmod : ((b + 1) * perBinade + f) % perBinade = f := by
    rw [Nat.add_comm, Nat.add_mul_mod_self_right, Nat.mod_eq_of_lt h]
  rw [unitsOf_of_div hdiv, hmod]

/-- The distance from the magnitude number `i` to the next. -/
def gap (i : Nat) : Nat := 2 ^ (i / perBinade - 1)

theorem gap_pos (i : Nat) : 0 < gap i := Nat.two_pow_pos _

theorem gap_small {i : Nat} (h : i < perBinade) : gap i = 1 := by
  simp [gap, Nat.div_eq_of_lt h]

theorem gap_binade {b f : Nat} (h : f < perBinade) : gap ((b + 1) * perBinade + f) = 2 ^ b := by
  unfold gap
  rw [Nat.add_comm, Nat.add_mul_div_right _ _ perBinade_pos, Nat.div_eq_of_lt h, Nat.zero_add,
    Nat.add_sub_cancel]

theorem small_or_binade (i : Nat) :
    i < perBinade ∨ ∃ b f, f < perBinade ∧ i = (b + 1) * perBinade + f := by
  rcases Nat.lt_or_ge i perBinade with h | h
  · exact .inl h
  · refine .inr ⟨i / perBinade - 1, i % perBinade, Nat.mod_lt _ perBinade_pos, ?_⟩
    have : 1 ≤ i / perBinade := (Nat.one_le_div_iff perBinade_pos).2 h
    rw [Nat.sub_add_cancel this, Nat.mul_comm, Nat.div_add_mod]

theorem unitsOf_succ (i : Nat) : unitsOf (i + 1) = unitsOf i + gap i := by
  rcases small_or_binade i with h | ⟨b, f, h, rfl⟩
  · rw [unitsOf_small h, gap_small h]
    rcases Nat.lt_or_ge (i + 1) perBinade with h' | h'
    · exact unitsOf_small h'
    · have hi : i + 1 = (0 + 1) * perBinade + 0 := by omega
      rw [hi, unitsOf_binade perBinade_pos]
      omega
  · rw [unitsOf_binade h, gap_binade h]
    rcases Nat.lt_or_ge (f + 1) perBinade with h' | h'
    · rw [Nat.add_assoc, unitsOf_binade h', ← Nat.add_assoc, Nat.add_mul, Nat.one_mul]
    · obtain rfl : f = perBinade - 1 := by omega
      have hi : (b + 1) * perBinade + (perBinade - 1) + 1 = (b + 1 + 1) * perBinade + 0 := by
        have := perBinade_pos
        rw [Nat.add_mul (b + 1) 1]
        omega
      rw [hi, unitsOf_binade perBinade_pos, Nat.pow_succ]
      have hp : perBinade + (perBinade - 1) + 1 = 2 * perBinade := by
        have := perBinade_pos
        omega
      calc (perBinade + 0) * (2 ^ b * 2) = (perBinade + (perBinade - 1) + 1) * 2 ^ b := by
            rw [hp]
            ring
        _ = (perBinade + (perBinade - 1)) * 2 ^ b + 2 ^ b := by ring

theorem unitsOf_strictMono : StrictMono unitsOf :=
  strictMono_nat_of_lt_succ fun i => by
    have := gap_pos i
    rw [unitsOf_succ]
    omega

theorem unitsOf_lt_gap (i : Nat) : unitsOf i < 2 * perBinade * gap i := by
  rcases small_or_binade i with h | ⟨b, f, h, rfl⟩
  · rw [unitsOf_small h, gap_small h]
    omega
  · rw [unitsOf_binade h, gap_binade h]
    exact Nat.mul_lt_mul_of_pos_right (by omega) (Nat.two_pow_pos b)

theorem unitsOf_add {spare rd : Nat} (hle : rd ≤ 2 * perBinade)
    (hge : spare = 0 ∨ perBinade ≤ rd) :
    unitsOf (spare * perBinade + rd) = rd * 2 ^ spare := by
  rcases Nat.lt_or_ge rd perBinade with h | h
  · obtain rfl : spare = 0 := by omega
    rw [Nat.zero_mul, Nat.zero_add, unitsOf_small h, Nat.pow_zero, Nat.mul_one]
  rcases Nat.lt_or_ge rd (2 * perBinade) with h' | h'
  · have hi : spare * perBinade + rd = (spare + 1) * perBinade + (rd - perBinade) := by
      rw [Nat.add_mul]
      omega
    rw [hi, unitsOf_binade (by omega), Nat.add_sub_cancel' h]
  · obtain rfl : rd = 2 * perBinade := by omega
    have hi : spare * perBinade + 2 * perBinade = (spare + 1 + 1) * perBinade + 0 := by ring
    rw [hi, unitsOf_binade perBinade_pos]
    ring

/-! ## Rounding -/

theorem roundDiv_le (num den : Nat) : 2 * (den * roundDiv num den) ≤ 2 * num + den := by
  have h := Nat.div_add_mod num den
  simp only [roundDiv]
  split
  · rw [Nat.mul_add]
    omega
  · omega

theorem le_roundDiv {num den n : Nat} (hd : 0 < den) (h : den * n ≤ num) :
    n ≤ roundDiv num den := by
  have hq : n ≤ num / den := (Nat.le_div_iff_mul_le hd).2 (by rwa [Nat.mul_comm])
  simp only [roundDiv]
  split <;> omega

theorem roundDiv_lt {num den n : Nat} (h : 2 * num + den < 2 * (den * n)) :
    roundDiv num den < n := by
  by_contra hc
  have hle : den * n ≤ den * roundDiv num den := Nat.mul_le_mul_left _ (Nat.le_of_not_lt hc)
  have := roundDiv_le num den
  omega

/-- The significand `rd` and the power of two `spare` of a quotient: its significand has 53 bits,
or fewer without a power. -/
structure Rounding (num den spare rd : Nat) : Prop where
  lt : num * one < den * 2 ^ spare * (2 * perBinade)
  ge : spare = 0 ∨ den * 2 ^ spare * perBinade ≤ num * one
  rd_eq : rd = roundDiv (num * one) (den * 2 ^ spare)

theorem nearest?_eq (num : Nat) {den : Nat} (hd : 0 < den) :
    ∃ spare rd, Rounding num den spare rd ∧
      nearest? num den = if h : spare * perBinade + rd < magnitudes then
        some ⟨spare * perBinade + rd, h⟩ else none := by
  refine ⟨(num * one / den).log2 - 52, _, ⟨?_, ?_, rfl⟩, ?_⟩
  · have hlt : num * one / den < 2 ^ ((num * one / den).log2 - 52) * (2 * perBinade) := by
      refine Nat.lt_of_lt_of_le Nat.lt_log2_self ?_
      rw [perBinade_eq, ← Nat.pow_succ', ← Nat.pow_add]
      exact Nat.pow_le_pow_right (by decide) (by omega)
    have := (Nat.div_lt_iff_lt_mul hd).1 hlt
    calc num * one < 2 ^ ((num * one / den).log2 - 52) * (2 * perBinade) * den := this
      _ = _ := by ring
  · rcases Nat.lt_or_ge 52 (num * one / den).log2 with h | h
    · right
      have hne : num * one / den ≠ 0 := fun h0 => by rw [h0] at h; simp at h
      have hle := Nat.log2_self_le hne
      have hp : 2 ^ ((num * one / den).log2 - 52) * perBinade = 2 ^ (num * one / den).log2 := by
        rw [perBinade_eq, ← Nat.pow_add, Nat.sub_add_cancel h.le]
      rw [← hp] at hle
      calc den * 2 ^ ((num * one / den).log2 - 52) * perBinade
          = den * (2 ^ ((num * one / den).log2 - 52) * perBinade) := by ring
        _ ≤ den * (num * one / den) := Nat.mul_le_mul_left _ hle
        _ ≤ num * one := Nat.mul_div_le _ _
    · left
      omega
  · simp only [nearest?, Nat.shiftLeft_eq]

namespace Rounding

variable {num den spare rd : Nat} (h : Rounding num den spare rd) (hd : 0 < den)

include h in
theorem units_le : 2 * (den * (rd * 2 ^ spare)) ≤ 2 * (num * one) + den * 2 ^ spare := by
  have := roundDiv_le (num * one) (den * 2 ^ spare)
  rw [← h.rd_eq] at this
  calc 2 * (den * (rd * 2 ^ spare)) = 2 * (den * 2 ^ spare * rd) := by ring
    _ ≤ _ := this

include h hd

theorem rd_le : rd ≤ 2 * perBinade := by
  have hpos : 0 < den * 2 ^ spare := Nat.mul_pos hd (Nat.two_pow_pos _)
  rw [h.rd_eq]
  by_contra hc
  have hle := roundDiv_le (num * one) (den * 2 ^ spare)
  have hmul : den * 2 ^ spare * (2 * perBinade + 1)
      ≤ den * 2 ^ spare * roundDiv (num * one) (den * 2 ^ spare) :=
    Nat.mul_le_mul_left _ (by omega)
  have := h.lt
  rw [Nat.mul_add] at hmul
  omega

theorem spare_zero_or : spare = 0 ∨ perBinade ≤ rd := by
  rcases h.ge with h0 | hge
  · exact .inl h0
  · right
    rw [h.rd_eq]
    exact le_roundDiv (Nat.mul_pos hd (Nat.two_pow_pos _)) hge

theorem units : unitsOf (spare * perBinade + rd) = rd * 2 ^ spare :=
  unitsOf_add (h.rd_le hd) (h.spare_zero_or hd)

end Rounding

/-- **Below the largest magnitude and half of its gap** a quotient has a nearest magnitude. -/
theorem isSome_nearest? {num den : Nat}
    (h : 2 * (num * one) < den * 2 ^ lastBinade * (4 * perBinade - 1)) :
    (nearest? num den).isSome := by
  have hd : 0 < den := Nat.pos_of_ne_zero fun h0 => by simp [h0] at h
  obtain ⟨spare, rd, hr, he⟩ := nearest?_eq num hd
  have hrd := hr.rd_le hd
  have hP := perBinade_pos
  suffices hlt : spare * perBinade + rd < magnitudes by
    rw [he, dif_pos hlt]
    rfl
  rw [magnitudes_eq]
  generalize lastBinade = last at h ⊢
  have hD : den * 2 ^ last * (4 * perBinade - 1)
      = 4 * (den * 2 ^ last * perBinade) - den * 2 ^ last := by
    rw [Nat.mul_sub, Nat.mul_one]
    congr 1
    ring
  rw [hD] at h
  rw [Nat.add_mul]
  -- only in the last binade may rounding up leave the finite magnitudes
  rcases Nat.lt_trichotomy spare last with hs | rfl | hs
  · have : (spare + 1) * perBinade ≤ last * perBinade := Nat.mul_le_mul_right _ hs
    rw [Nat.add_mul] at this
    omega
  · have hlt : rd < 2 * perBinade := by
      rw [hr.rd_eq]
      apply roundDiv_lt
      have : den * 2 ^ spare * (2 * perBinade) = 2 * (den * 2 ^ spare * perBinade) := by ring
      omega
    omega
  · rcases hr.ge with h0 | hge
    · omega
    · have hp : 2 ^ last * 2 ≤ 2 ^ spare := by
        rw [← Nat.pow_succ]
        exact Nat.pow_le_pow_right (by decide) hs
      have : 2 * (den * 2 ^ last * perBinade) ≤ den * 2 ^ spare * perBinade := by
        calc 2 * (den * 2 ^ last * perBinade) = den * (2 ^ last * 2) * perBinade := by ring
          _ ≤ _ := Nat.mul_le_mul_right _ (Nat.mul_le_mul_left _ hp)
      omega

variable {num den : Nat} {m : Magnitude}

theorem of_nearest? (hd : 0 < den) (h : nearest? num den = some m) :
    ∃ spare rd, Rounding num den spare rd ∧ m.units = rd * 2 ^ spare := by
  obtain ⟨spare, rd, hr, he⟩ := nearest?_eq num hd
  rw [he] at h
  split at h
  · obtain rfl := Option.some.inj h
    exact ⟨spare, rd, hr, hr.units hd⟩
  · simp at h

/-- A quotient of normal size grows by a `2 ^ 53`-th at most. -/
theorem units_nearest?_le (hd : 0 < den) (h : nearest? num den = some m)
    (hn : den * perBinade ≤ num * one) :
    2 * perBinade * (den * m.units) ≤ (2 * perBinade + 1) * (num * one) := by
  obtain ⟨spare, rd, hr, hu⟩ := of_nearest? hd h
  have hle := hr.units_le
  have hD : perBinade * (den * 2 ^ spare) ≤ num * one := by
    rcases hr.ge with rfl | hge
    · calc perBinade * (den * 2 ^ 0) = den * perBinade := by ring
        _ ≤ _ := hn
    · calc perBinade * (den * 2 ^ spare) = den * 2 ^ spare * perBinade := by ring
        _ ≤ _ := hge
  rw [hu]
  have := Nat.mul_le_mul_left perBinade hle
  rw [Nat.mul_add] at this
  calc 2 * perBinade * (den * (rd * 2 ^ spare))
      = perBinade * (2 * (den * (rd * 2 ^ spare))) := by ring
    _ ≤ perBinade * (2 * (num * one)) + perBinade * (den * 2 ^ spare) := this
    _ ≤ perBinade * (2 * (num * one)) + num * one := Nat.add_le_add_left hD _
    _ = _ := by ring

/-- No quotient grows by more than itself and one unit. -/
theorem units_nearest?_le_twice (hd : 0 < den) (h : nearest? num den = some m) :
    den * m.units ≤ 2 * (num * one) + den := by
  obtain ⟨spare, rd, hr, hu⟩ := of_nearest? hd h
  have hle := hr.units_le
  rw [hu]
  rcases hr.ge with rfl | hge
  · rw [Nat.pow_zero, Nat.mul_one] at hle ⊢
    omega
  · have : den * 2 ^ spare ≤ den * 2 ^ spare * perBinade :=
      Nat.le_mul_of_pos_right _ perBinade_pos
    omega

theorem one_le_units_nearest? (hd : 0 < den) (h : nearest? num den = some m)
    (hn : den ≤ num) : one ≤ m.units := by
  obtain ⟨spare, rd, hr, hu⟩ := of_nearest? hd h
  obtain ⟨k, hk, h52⟩ := exists_one_eq
  rw [hu, hk]
  have hlt : den * 2 ^ k < den * 2 ^ (spare + 53) := by
    calc den * 2 ^ k ≤ num * 2 ^ k := Nat.mul_le_mul_right _ hn
      _ < den * 2 ^ spare * (2 * perBinade) := hk ▸ hr.lt
      _ = den * 2 ^ (spare + 53) := by rw [perBinade_eq, Nat.pow_add]; ring
  have hlt' := (Nat.pow_lt_pow_iff_right (by decide)).1 (Nat.lt_of_mul_lt_mul_left hlt)
  rcases hr.spare_zero_or hd with h0 | hP
  · omega
  · calc 2 ^ k ≤ 2 ^ (52 + spare) := Nat.pow_le_pow_right (by decide) (by omega)
      _ = perBinade * 2 ^ spare := by rw [perBinade_eq, Nat.pow_add]
      _ ≤ rd * 2 ^ spare := Nat.mul_le_mul_right _ hP

end ChannelLog.Magnitude
