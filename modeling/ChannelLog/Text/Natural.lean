/-!
# Numbers without sign

Natural numbers below a bound, as settings and manifests hold them: an optional plus sign and
decimal digits, nothing else.

Main statement: `readNatural?_eq_some_iff`, a text is read as the number that it writes.
-/

namespace ChannelLog.Text

def digits (n : Nat) : List Char := Nat.toDigits 10 n

/-- The number below `bound` that `cs` writes. -/
def readNatural? (bound : Nat) (cs : List Char) : Option Nat :=
  let body := match cs with
    | '+' :: rest => rest
    | _ => cs
  if body.isEmpty || !body.all Char.isDigit then none
  else
    let n := Nat.ofDigitChars 10 body 0
    if n < bound then some n else none

theorem isDigit_of_mem_digits {n : Nat} {c : Char} (h : c ∈ digits n) : c.isDigit = true :=
  Nat.isDigit_of_mem_toDigits (by decide) (by decide) h

/-- `cs` writes the number `n`: decimal digits, one at least, after a plus sign or none. -/
def Writes (cs : List Char) (n : Nat) : Prop :=
  ∃ ds, (cs = ds ∨ cs = '+' :: ds) ∧ ds ≠ [] ∧ (∀ c ∈ ds, c.isDigit = true) ∧
    Nat.ofDigitChars 10 ds 0 = n

/-- A text without the plus sign at its head. -/
def unsigned (cs : List Char) : List Char :=
  match cs with
  | '+' :: rest => rest
  | _ => cs

theorem eq_unsigned_or (cs : List Char) : cs = unsigned cs ∨ cs = '+' :: unsigned cs := by
  unfold unsigned
  split
  · exact .inr rfl
  · exact .inl rfl

theorem unsigned_digits {cs ds : List Char} (hcs : cs = ds ∨ cs = '+' :: ds)
    (hds : ∀ c ∈ ds, c.isDigit = true) : unsigned cs = ds := by
  rcases hcs with rfl | rfl
  · unfold unsigned
    split
    · exact absurd (hds '+' List.mem_cons_self) (by decide)
    · rfl
  · rfl

theorem readNatural?_eq (bound : Nat) (cs : List Char) :
    readNatural? bound cs
      = if unsigned cs = [] ∨ ¬ (unsigned cs).all Char.isDigit then none
        else if Nat.ofDigitChars 10 (unsigned cs) 0 < bound then
          some (Nat.ofDigitChars 10 (unsigned cs) 0)
        else none := by
  have hread : readNatural? bound cs
      = if ((unsigned cs).isEmpty || !(unsigned cs).all Char.isDigit) = true then none
        else if Nat.ofDigitChars 10 (unsigned cs) 0 < bound then
          some (Nat.ofDigitChars 10 (unsigned cs) 0)
        else none := rfl
  simp only [hread, Bool.or_eq_true, List.isEmpty_iff, Bool.not_eq_true', Bool.not_eq_true]

/-- **A text is read as the number that it writes**, if that is small enough. -/
theorem readNatural?_eq_some_iff {bound n : Nat} {cs : List Char} :
    readNatural? bound cs = some n ↔ Writes cs n ∧ n < bound := by
  rw [readNatural?_eq]
  constructor
  · intro h
    split at h
    · cases h
    · next hds =>
      rw [not_or, Classical.not_not, List.all_eq_true] at hds
      split at h
      · next hlt =>
        cases h
        exact ⟨⟨unsigned cs, eq_unsigned_or cs, hds.1, hds.2, rfl⟩, hlt⟩
      · cases h
  · rintro ⟨⟨ds, hcs, hne, hds, rfl⟩, hlt⟩
    have hall : ds.all Char.isDigit = true := List.all_eq_true.2 hds
    rw [unsigned_digits hcs hds, if_neg (by simp [hne, hall]), if_pos hlt]

theorem writes_digits (n : Nat) : Writes (digits n) n :=
  ⟨digits n, .inl rfl, Nat.toDigits_ne_nil, fun _ => isDigit_of_mem_digits,
    Nat.ofDigitChars_toDigits (by decide) (by decide)⟩

end ChannelLog.Text
