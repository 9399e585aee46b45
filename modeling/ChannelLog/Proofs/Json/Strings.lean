import ChannelLog.Json.Token
import ChannelLog.Json.Writer

/-!
# Written strings are scanned as they were written

* `scanString_escaped`: an escaped text up to its closing quote is scanned into one piece for each
  character.
* `denoted?_pieces`: these pieces denote the text.
-/

namespace ChannelLog.Json

/-- How a character comes back: those without a short escape come as a unit. -/
def piece (c : Char) : Piece :=
  if c.toNat < 0x20 ∧ c ≠ '\x08' ∧ c ≠ '\x0c' ∧ c ≠ '\n' ∧ c ≠ '\r' ∧ c ≠ '\t' then .unit c.toNat
  else .char c

theorem piece_of_ge {c : Char} (h : ¬ c.toNat < 0x20) : piece c = .char c :=
  if_neg fun hc => h hc.1

theorem unit?_digits : ∀ n < 0x20,
    unit? '0' '0' (Nat.digitChar (n / 16)) (Nat.digitChar (n % 16)) = some n := by
  decide

theorem scanString_unit {n : Nat} (h : n < 0x20) (rest : List Char) :
    scanString ('\\' :: 'u' :: '0' :: '0' :: Nat.digitChar (n / 16) :: Nat.digitChar (n % 16) :: rest)
      = (scanString rest).map fun p => (.unit n :: p.1, p.2) := by
  rw [scanString, unit?_digits n h]
  cases scanString rest <;> rfl

theorem scanString_short {e c : Char} (he : e ≠ 'u') (h : unescape? e = some c)
    (rest : List Char) :
    scanString ('\\' :: e :: rest) = (scanString rest).map fun p => (.char c :: p.1, p.2) := by
  rw [scanString, h]
  · cases scanString rest <;> rfl
  · intro _ _ _ _ _ heq _
    exact he heq

theorem scanString_plain {c : Char} (hq : c ≠ '"') (hb : c ≠ '\\') (hc : ¬ c.toNat < 0x20)
    (rest : List Char) :
    scanString (c :: rest) = (scanString rest).map fun p => (.char c :: p.1, p.2) := by
  rw [scanString, if_neg hc]
  · cases scanString rest <;> rfl
  · exact fun h => hq h
  · exact fun _ _ _ _ _ h _ => hb h
  · exact fun _ _ h _ => hb h

/-- **One escaped character is scanned into its piece.** -/
theorem scanString_escape (c : Char) (rest : List Char) :
    scanString (escape c ++ rest) = (scanString rest).map fun p => (piece c :: p.1, p.2) := by
  unfold escape
  split
  case h_8 h₁ h₂ h₃ h₄ h₅ h₆ h₇ =>
    by_cases h : c.toNat < 0x20
    · have hp : piece c = .unit c.toNat := if_pos ⟨h, h₃, h₄, h₅, h₆, h₇⟩
      rw [if_pos h, hp]
      exact scanString_unit h rest
    · rw [if_neg h, piece_of_ge h]
      exact scanString_plain h₁ h₂ h rest
  all_goals exact scanString_short (by decide) rfl rest

theorem scanString_escaped (cs rest : List Char) :
    scanString (cs.flatMap escape ++ '"' :: rest) = some (cs.map piece, rest) := by
  induction cs with
  | nil => rfl
  | cons c cs ih =>
    rw [List.flatMap_cons, List.append_assoc, scanString_escape, ih]
    rfl

theorem denoted?_unit_cons {u : Nat} (h : isSingleUnit u = true) (pieces : List Piece) :
    denoted? (.unit u :: pieces) = (denoted? pieces).map (Char.ofNat u :: ·) := by
  cases pieces with
  | nil => simp [denoted?, h]
  | cons p pieces =>
    cases p with
    | char c => simp [denoted?, h]
    | unit v => rw [denoted?, if_pos h]

theorem isSingleUnit_of_lt {n : Nat} (h : n < 0x20) : isSingleUnit n = true := by
  unfold isSingleUnit
  simp
  omega

/-- **The pieces of a text denote the text.** -/
theorem denoted?_pieces (cs : List Char) : denoted? (cs.map piece) = some cs := by
  induction cs with
  | nil => rfl
  | cons c cs ih =>
    rw [List.map_cons]
    by_cases h : c.toNat < 0x20 ∧ c ≠ '\x08' ∧ c ≠ '\x0c' ∧ c ≠ '\n' ∧ c ≠ '\r' ∧ c ≠ '\t'
    · have hp : piece c = .unit c.toNat := if_pos h
      rw [hp, denoted?_unit_cons (isSingleUnit_of_lt h.1), ih, Option.map_some, Char.ofNat_toNat]
    · have hp : piece c = .char c := if_neg h
      rw [hp, denoted?, ih, Option.map_some]

end ChannelLog.Json
