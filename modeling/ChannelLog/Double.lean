/-!
# Finite binary floating-point numbers

Numbers of the format binary64 without infinities and NaN: a sign and a magnitude. Magnitudes are
numbered in ascending order, zero first; this number is also the bit pattern of the magnitude. All
values are exact: a magnitude is a whole number of units of `2 ^ (-1074)`, and every operation
rounds the exact result once, to the nearest magnitude and of two equally near ones to the even.
-/

namespace ChannelLog

/-- How many finite magnitudes there are. -/
def magnitudes : Nat := 0x7ff0000000000000

/-- A finite magnitude by its number in ascending order. -/
abbrev Magnitude := Fin magnitudes

namespace Magnitude

/-- Units of `2 ^ (-1074)` in one. -/
def one : Nat := 1 <<< 1074

/-- How many magnitudes a binade has. -/
def perBinade : Nat := 1 <<< 52

/-- The units in the magnitude number `i`: the low 52 bits are the fraction, the others say in
which binade it lies. The formula goes on beyond the finite magnitudes. -/
def unitsOf (i : Nat) : Nat :=
  match i / perBinade with
  | 0 => i
  | binade + 1 => (perBinade + i % perBinade) <<< binade

def units (m : Magnitude) : Nat := unitsOf m.val

/-- The quotient rounded to the nearest whole number, a half to the even one. -/
def roundDiv (num den : Nat) : Nat :=
  let q := num / den
  let r := num % den
  if den < 2 * r ∨ (den = 2 * r ∧ q % 2 = 1) then q + 1 else q

/-- The magnitude nearest to `num / den`; none if that is beyond the finite ones. -/
def nearest? (num den : Nat) : Option Magnitude :=
  let spare := (num * one / den).log2 - 52
  let i := spare * perBinade + roundDiv (num * one) (den <<< spare)
  if h : i < magnitudes then some ⟨i, h⟩ else none

def ofNat? (n : Nat) : Option Magnitude := nearest? n 1

def mul? (a b : Magnitude) : Option Magnitude := nearest? (a.units * b.units) (one * one)

def div? (a b : Magnitude) : Option Magnitude := nearest? a.units b.units

def tenTo? (k : Nat) : Option Magnitude := ofNat? (Nat.pow 10 k)

end Magnitude

/-- A finite number; zero has both signs. -/
structure Double where
  negative : Bool
  magnitude : Magnitude
deriving DecidableEq

end ChannelLog
