import ChannelLog.Text.CaseRanges
import ChannelLog.Text.Range

/-!
# Small letters

The small form of a text, over all of Unicode. Every character has a small form of its own, of one
character but for `İ`; a capital sigma alone looks around: it takes its final form `ς` at the end
of a word, that is after a cased letter and with none following, characters ignorable for case
aside.
-/

namespace ChannelLog.Text

def isCased (c : Char) : Bool := inRanges casedRanges c

def isCaseIgnorable (c : Char) : Bool := inRanges caseIgnorableRanges c

def CaseRun.covers (r : CaseRun) (c : Char) : Bool :=
  r.first ≤ c.toNat && c.toNat ≤ r.last && (c.toNat - r.first) % r.step == 0

/-- The small form of a character by itself. -/
def smallChar (c : Char) : List Char :=
  if c = 'İ' then ['i', '\u0307']
  else match capitalRuns.find? (·.covers c) with
    | some r => [Char.ofNat (c.toNat + r.shift).toNat]
    | none => [c]

/-- Whether the first character of `cs` that is not ignorable is a cased letter. -/
def meetsCased (cs : List Char) : Bool :=
  match cs.dropWhile isCaseIgnorable with
  | [] => false
  | c :: _ => isCased c

/-- The small form of `rest` after the characters `before`, nearest first. -/
def smallFrom (before : List Char) : (rest : List Char) → List Char
  | [] => []
  | c :: rest =>
    let small :=
      if c = 'Σ' then [if meetsCased before && !meetsCased rest then 'ς' else 'σ']
      else smallChar c
    small ++ smallFrom (c :: before) rest

def lowerCase (s : String) : String := String.ofList (smallFrom [] s.toList)

/-- The text with the letters `A` to `Z` made small and nothing else changed. -/
def asciiLowerCase (s : String) : String := String.ofList (s.toList.map Char.toLower)

/-- Whether two texts differ at most in the case of the letters `A` to `Z`. -/
def sameUpToAsciiCase (s t : String) : Bool := asciiLowerCase s == asciiLowerCase t

end ChannelLog.Text
