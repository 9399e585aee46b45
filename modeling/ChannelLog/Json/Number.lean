import ChannelLog.Double.Shortest
import ChannelLog.Json
import ChannelLog.Text.Natural

/-!
# Numbers in JSON text

Reading: a whole number that fits 64 bits stays whole, unsigned or, if negative, signed. Everything
else becomes floating-point, by a quick rule that rounds more than once: the digits are gathered
into a significand of 64 bits, leaving out those that do not fit, the significand is rounded, and
then multiplied or divided by a rounded power of ten.

Writing: whole numbers by their digits; floating-point numbers by the digits of their shortest
decimal, positional as long as the point lies within sixteen digits to the left or five zeros to
the right.
-/

namespace ChannelLog

/-- A number as it is written: `fraction` is empty without a point, and the exponent comes with
whether it is negative. -/
structure Literal where
  negative : Bool
  whole : List Char
  fraction : List Char
  exponent : Option (Bool × List Char)
deriving DecidableEq

/-! ## Reading -/

namespace Literal

def value (digits : List Char) : Nat := Nat.ofDigitChars 10 digits 0

def power (l : Literal) : Int :=
  match l.exponent with
  | none => 0
  | some (negative, digits) => if negative then -(value digits : Int) else value digits

/-- Appends digits to a significand as long as it fits 64 bits, and counts those left over. -/
def gather (significand : Nat) : List Char → Nat × Nat
  | [] => (significand, 0)
  | d :: ds =>
    let next := significand * 10 + value [d]
    if next < UInt64.size then gather next ds else (significand, ds.length + 1)

/-- `m * 10 ^ e` in few rounded operations. Powers of ten go up to `10 ^ 308`; a negative exponent
below that takes two divisions, of which the second gives zero from `10 ^ (-616)` on. -/
def scale? (m : Magnitude) (e : Int) : Option Magnitude :=
  let over? (m : Magnitude) (k : Nat) : Option Magnitude := do m.div? (← Magnitude.tenTo? k)
  if m.val = 0 then some m
  else match e with
    | .ofNat k => if k ≤ 308 then do m.mul? (← Magnitude.tenTo? k) else none
    | .negSucc k =>
      if k + 1 ≤ 308 then over? m (k + 1)
      else if k + 1 ≤ 616 then do over? (← over? m 308) (k + 1 - 308)
      else some ⟨0, by decide⟩

/-- The floating-point number `± significand * 10 ^ e`; none if it is too large. -/
def float? (negative : Bool) (significand : Nat) (e : Int) : Option Number := do
  let m ← scale? (← Magnitude.ofNat? significand) e
  return .float ⟨negative, m⟩

def isWhole (l : Literal) : Bool := l.fraction.isEmpty && l.exponent.isNone

/-- The number that is written; none if it is too large. -/
def number? (l : Literal) : Option Number :=
  let (significand, dropped) := gather 0 l.whole
  if l.isWhole && dropped == 0 then
    if !l.negative then some (.integer significand)
    else if 0 < significand ∧ significand ≤ UInt64.size / 2 then some (.integer (-significand))
    else float? true significand 0
  else
    let (significand, left) := gather significand l.fraction
    let places : Int := l.fraction.length - left
    float? l.negative significand (dropped - places + l.power)

end Literal

/-! ## Writing -/

namespace Number

/-- Digits with the point after the first `point` of them, for a point within or next to the
digits; otherwise in scientific notation. -/
def layout (digits : List Char) (point : Int) : List Char :=
  let count : Int := digits.length
  let zeros (n : Int) : List Char := List.replicate n.toNat '0'
  if count ≤ point ∧ point ≤ 16 then digits ++ zeros (point - count) ++ ['.', '0']
  else if 0 < point ∧ point ≤ 16 then digits.take point.toNat ++ '.' :: digits.drop point.toNat
  else if -5 < point ∧ point ≤ 0 then '0' :: '.' :: zeros (-point) ++ digits
  else
    let exponent := point - 1
    let sign := if exponent < 0 then '-' else '+'
    let fraction := if digits.length ≤ 1 then [] else '.' :: digits.drop 1
    digits.take 1 ++ fraction ++ 'e' :: sign :: Text.digits exponent.natAbs

def magnitudeText (m : Magnitude) : List Char :=
  if m.val = 0 then ['0', '.', '0']
  else
    let d := m.shortest
    let digits := Text.digits d.digits
    layout digits (digits.length + d.exponent)

def text : Number → List Char
  | integer i => if i < 0 then '-' :: Text.digits i.natAbs else Text.digits i.natAbs
  | float x => if x.negative then '-' :: magnitudeText x.magnitude else magnitudeText x.magnitude

end Number

end ChannelLog
