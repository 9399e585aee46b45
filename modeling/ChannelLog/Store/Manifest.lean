import ChannelLog.Store
import ChannelLog.Text.Blank
import ChannelLog.Text.Natural

/-!
# Manifests

The manifest of a folder lists its entries, one a line: the location, a space and the time of the
append. Loading passes over blank lines and stops at the first line that is no entry. A location
listed twice keeps its first place and takes the last time.
-/

namespace ChannelLog

/-- The locations in the order in which they were first listed, and the time of each. -/
structure Manifest where
  order : List Location
  timestamps : Dict UInt64
deriving DecidableEq

namespace Manifest

def empty : Manifest := ⟨[], ∅⟩

def record (m : Manifest) (location : Location) (timestamp : UInt64) : Manifest where
  order := if m.timestamps.contains location then m.order else m.order ++ [location]
  timestamps := m.timestamps.insert location timestamp

/-! ## Text -/

/-- The line of an entry, with its line feed. -/
def line (location : Location) (timestamp : UInt64) : String :=
  location ++ " " ++ String.ofList (Text.digits timestamp.toNat) ++ "\n"

/-- The entry on a line, without its line feed. -/
def entryOf? (line : List Char) : Option (Location × UInt64) :=
  match line.dropWhile (· ≠ ' ') with
  | [] => none
  | _ :: rest =>
    let location := line.takeWhile (· ≠ ' ')
    if isLocation location then
      (Text.readNatural? UInt64.size (Text.trim rest)).map fun n =>
        (String.ofList location, UInt64.ofNat n)
    else none

/-- Adds the entries on `lines`, the first of which has the number `number`. -/
def loadLines (m : Manifest) (number : Nat) : List (List Char) → Except StorageError Manifest
  | [] => .ok m
  | line :: rest =>
    if line.all Text.isBlank then loadLines m (number + 1) rest
    else match entryOf? line with
      | none => .error (.malformedLine number (String.ofList line))
      | some (location, timestamp) => loadLines (m.record location timestamp) (number + 1) rest

def ofText (text : String) : Except StorageError Manifest :=
  loadLines empty 1 (Text.lines text.toList)

end Manifest

end ChannelLog
