import ChannelLog.Text.HiddenRanges
import ChannelLog.Text.Range

/-!
# Quoted text

How messages quote a text that someone else wrote: between quotation marks, with everything that
would not show on a screen written as an escape, so that the quotation is one line of visible
characters.
-/

namespace ChannelLog.Text

def hexDigits (n : Nat) : List Char := Nat.toDigits 16 n

/-- A character that a reader would not see for what it is. -/
def isHidden (c : Char) : Bool :=
  c.toNat < 0x20 || c.toNat == 0x7f || inRanges hiddenBasic c || inRanges hiddenSupplementary c

/-- One character between marks `mark`: marks, backslashes and hidden characters are escaped. -/
def quotedChar (mark c : Char) : List Char :=
  if c == mark || c == '\\' then ['\\', c]
  else match c with
    | '\x00' => ['\\', '0']
    | '\t' => ['\\', 't']
    | '\n' => ['\\', 'n']
    | '\r' => ['\\', 'r']
    | _ => if isHidden c then ['\\', 'u', '\x7b'] ++ hexDigits c.toNat ++ ['\x7d'] else [c]

/-- A text between double marks. -/
def quoted (s : String) : String :=
  String.ofList ('"' :: s.toList.flatMap (quotedChar '"') ++ ['"'])

/-- A character between single marks. -/
def quotedSingle (c : Char) : String :=
  String.ofList ('\'' :: quotedChar '\'' c ++ ['\''])

end ChannelLog.Text
