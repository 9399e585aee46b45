import ChannelLog.Double

/-!
# The shortest decimal that reads back

A decimal stands for the magnitude nearest to it. Of the decimals that stand for a given magnitude
the shortest are those with the largest power of ten as their unit, and of these the one nearest to
the magnitude is chosen, the even one if two are equally near.
-/

namespace ChannelLog

/-- The number `digits * 10 ^ exponent`. -/
structure Decimal where
  digits : Nat
  exponent : Int
deriving DecidableEq

namespace Magnitude

/-- Whether `digits * 10 ^ exponent` stands for the magnitude number `i`: it lies between the
midpoints to the two neighbours, which themselves go to the even number. -/
def standsFor (d : Decimal) (i : Nat) : Bool :=
  let value := d.digits * Nat.pow 10 d.exponent.toNat * (2 * one)
  let scale := Nat.pow 10 (-d.exponent).toNat
  let low := (unitsOf (i - 1) + unitsOf i) * scale
  let high := (unitsOf i + unitsOf (i + 1)) * scale
  if i % 2 = 0 then low ≤ value && value ≤ high else low < value && value < high

/-- The better of the two multiples of `10 ^ exponent` next to the magnitude number `i`, if one
stands for it. -/
def onGrid? (i : Nat) (exponent : Int) : Option Decimal :=
  let num := unitsOf i * Nat.pow 10 (-exponent).toNat
  let den := one * Nat.pow 10 exponent.toNat
  let below : Decimal := ⟨num / den, exponent⟩
  let above : Decimal := ⟨num / den + 1, exponent⟩
  match standsFor below i, standsFor above i with
  | true, true => some (if roundDiv num den = num / den then below else above)
  | true, false => some below
  | false, true => some above
  | false, false => none

/-- Tries the grids from `10 ^ exponent` down. -/
def search (i : Nat) : (tries : Nat) → (exponent : Int) → Decimal
  | 0, exponent => ⟨0, exponent⟩
  | tries + 1, exponent => match onGrid? i exponent with
    | some d => d
    | none => search i tries (exponent - 1)

/-- The shortest decimal for a magnitude other than zero. All have a grid between `10 ^ 308` and
`10 ^ (-324)`, the unit of the least one. -/
def shortest (m : Magnitude) : Decimal := search m.val 633 308

end Magnitude

end ChannelLog
