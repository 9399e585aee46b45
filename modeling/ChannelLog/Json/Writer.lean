import ChannelLog.Json.Number

/-!
# Writing JSON

The compact form of a value: no blanks, members in the order in which they stand, quotes,
backslashes and control characters escaped, everything else as it is.
-/

namespace ChannelLog.Json

def escape (c : Char) : List Char :=
  match c with
  | '"' => ['\\', '"']
  | '\\' => ['\\', '\\']
  | '\x08' => ['\\', 'b']
  | '\x0c' => ['\\', 'f']
  | '\n' => ['\\', 'n']
  | '\r' => ['\\', 'r']
  | '\t' => ['\\', 't']
  | _ =>
    if c.toNat < 0x20 then
      ['\\', 'u', '0', '0', Nat.digitChar (c.toNat / 16), Nat.digitChar (c.toNat % 16)]
    else [c]

def writeString (s : String) : List Char := '"' :: s.toList.flatMap escape ++ ['"']

mutual

/-- The compact form of a value. -/
def write : Json → List Char
  | null => ['n', 'u', 'l', 'l']
  | bool true => ['t', 'r', 'u', 'e']
  | bool false => ['f', 'a', 'l', 's', 'e']
  | number n => n.text
  | string s => writeString s
  | array [] => ['[', ']']
  | array (v :: items) => '[' :: write v ++ writeItems items ++ [']']
  | object [] => ['\x7b', '\x7d']
  | object ((key, v) :: members) =>
    '\x7b' :: writeString key ++ ':' :: write v ++ writeMembers members ++ ['\x7d']

def writeItems : List Json → List Char
  | [] => []
  | v :: items => ',' :: write v ++ writeItems items

def writeMembers : List (String × Json) → List Char
  | [] => []
  | (key, v) :: members => ',' :: writeString key ++ ':' :: write v ++ writeMembers members

end

def text (v : Json) : String := String.ofList (write v)

/-- The compact form with all members in ascending order of keys. -/
def canonicalText (v : Json) : String := v.canonical.text

end ChannelLog.Json
