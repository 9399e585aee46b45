import ChannelLog.Bytes
import ChannelLog.Text.Quoted

/-!
# Hexadecimal text

Bytes are written as two small hexadecimal digits each. Reading takes digits of either case,
checks first that their number is even, and blames the first byte of the text that is no digit. A
text may carry the mark `0x` in front.
-/

namespace ChannelLog.Hex

inductive HexError where
  | oddLength
  /-- The byte at `position` of the UTF-8 form is no digit. -/
  | badDigit (byte : UInt8) (position : Nat)
deriving DecidableEq, Repr

/-- A bad byte is shown as the character with that code. -/
def HexError.message : HexError → String
  | oddLength => "Odd number of digits"
  | badDigit byte position =>
    "Invalid character " ++ Text.quotedSingle (Char.ofNat byte.toNat) ++ " at position "
      ++ toString position

/-! ## Writing -/

def byteDigits (b : UInt8) : List Char :=
  [Nat.digitChar (b.toNat / 16), Nat.digitChar (b.toNat % 16)]

/-- The digits of `bs`. -/
def encode (bs : Bytes) : String := String.ofList (bs.flatMap byteDigits)

/-- The digits of `bs` behind the mark. -/
def encodeMarked (bs : Bytes) : String := "0x" ++ encode bs

/-! ## Reading -/

/-- The value of the digit with ASCII code `b`. -/
def digit? (b : UInt8) : Option UInt8 :=
  if 0x30 ≤ b ∧ b ≤ 0x39 then some (b - 0x30)
  else if 0x61 ≤ b ∧ b ≤ 0x66 then some (b - 0x61 + 10)
  else if 0x41 ≤ b ∧ b ≤ 0x46 then some (b - 0x41 + 10)
  else none

/-- The value of the digit at `position`. -/
def digitAt (position : Nat) (b : UInt8) : Except HexError UInt8 :=
  match digit? b with
  | some d => .ok d
  | none => .error (.badDigit b position)

/-- Reads the digits `bs`, the first of which is at `position`, in pairs. -/
def decodePairs (position : Nat) : Bytes → Except HexError Bytes
  | high :: low :: rest => do
    let h ← digitAt position high
    let l ← digitAt (position + 1) low
    let bytes ← decodePairs (position + 2) rest
    return (h * 16 + l) :: bytes
  | [_] => .error .oddLength
  | [] => .ok []

def decode (s : String) : Except HexError Bytes :=
  let digits := Bytes.utf8 s
  if digits.length % 2 = 1 then .error .oddLength else decodePairs 0 digits

/-! ## Marks -/

/-- The text without a mark in front. -/
def dropMark (s : String) : String :=
  match s.toList with
  | '0' :: 'x' :: rest => String.ofList rest
  | _ => s

def afterMarks : List Char → List Char
  | '0' :: 'x' :: rest => afterMarks rest
  | cs => cs

/-- The text without any number of marks in front. -/
def dropMarks (s : String) : String := String.ofList (afterMarks s.toList)

/-- The bytes of a text that may carry a mark. -/
def decodeMarked (s : String) : Except HexError Bytes := decode (dropMark s)

end ChannelLog.Hex
