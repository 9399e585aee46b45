/-!
# Paths

A path leads to a folder in steps. It can be written in several ways, because an empty step leads
nowhere, and neither does a dot after the first step.

Main statement: `Path.beq_iff` (equal paths begin at the same place and take the same steps).
-/

namespace ChannelLog

/-- A path as it was written. -/
structure Path where
  text : String

namespace Path

def isAbsolute (p : Path) : Bool := p.text.toList.head? == some '/'

/-- What stands between the slashes. -/
def parts (p : Path) : List (List Char) := p.text.toList.splitOn '/'

/-- The steps of the path. A dot is a step only where a relative path begins. -/
def steps (p : Path) : List (List Char) :=
  (p.parts.take 1).filter (· == ['.']) ++ p.parts.filter fun part => part != [] && part != ['.']

instance : BEq Path := ⟨fun p q => p.isAbsolute == q.isAbsolute && p.steps == q.steps⟩

theorem beq_iff {p q : Path} :
    (p == q) = true ↔ p.isAbsolute = q.isAbsolute ∧ p.steps = q.steps := by
  change (p.isAbsolute == q.isAbsolute && p.steps == q.steps) = true ↔ _
  simp

instance : EquivBEq Path where
  rfl := beq_iff.2 ⟨rfl, rfl⟩
  symm h := beq_iff.2 ⟨(beq_iff.1 h).1.symm, (beq_iff.1 h).2.symm⟩
  trans h₁ h₂ := beq_iff.2
    ⟨(beq_iff.1 h₁).1.trans (beq_iff.1 h₂).1, (beq_iff.1 h₁).2.trans (beq_iff.1 h₂).2⟩

end Path

end ChannelLog
