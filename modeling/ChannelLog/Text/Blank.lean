import ChannelLog.Text.Range

/-!
# Blanks and lines

White space as Unicode has it, trimming, and the lines of a text.

Main statement: `lines_append_newline` (a finished line comes first, then the lines of the rest).
-/

namespace ChannelLog.Text

/-- The characters with the property White_Space. -/
def blankRanges : List (Nat × Nat) := [
  (0x9, 0xD), (0x20, 0x20), (0x85, 0x85), (0xA0, 0xA0), (0x1680, 0x1680), (0x2000, 0x200A),
  (0x2028, 0x2029), (0x202F, 0x202F), (0x205F, 0x205F), (0x3000, 0x3000)]

def isBlank (c : Char) : Bool := inRanges blankRanges c

/-- The text without the blanks at its two ends. -/
def trim (cs : List Char) : List Char :=
  ((cs.dropWhile isBlank).reverse.dropWhile isBlank).reverse

/-- A line without the carriage return that its line feed may follow. -/
def dropReturn (line : List Char) : List Char :=
  if line.getLast? = some '\r' then line.dropLast else line

/-- The lines of a text. Each ends with a line feed, before which one carriage return is dropped;
text after the last line feed is a line as it stands. -/
def lines (cs : List Char) : List (List Char) :=
  go [] cs
where
  /-- `line` is what the current line has so far, last character first. -/
  go (line : List Char) : List Char → List (List Char)
    | [] => if line.isEmpty then [] else [line.reverse]
    | '\n' :: rest => dropReturn line.reverse :: go [] rest
    | c :: rest => go (c :: line) rest

theorem lines.go_append_newline (line before rest : List Char) (h : '\n' ∉ before) :
    lines.go line (before ++ '\n' :: rest)
      = dropReturn (line.reverse ++ before) :: lines.go [] rest := by
  induction before generalizing line with
  | nil => simp [lines.go]
  | cons c before ih =>
    have hc : c ≠ '\n' := fun e => h (by simp [e])
    have hb : '\n' ∉ before := fun e => h (by simp [e])
    rw [List.cons_append, lines.go]
    · rw [ih _ hb]; simp
    · exact fun e => hc e

/-- A finished line without line feeds of its own comes first, and the rest follows. -/
theorem lines_append_newline {line rest : List Char} (h : '\n' ∉ line) :
    lines (line ++ '\n' :: rest) = dropReturn line :: lines rest :=
  lines.go_append_newline [] line rest h

end ChannelLog.Text
