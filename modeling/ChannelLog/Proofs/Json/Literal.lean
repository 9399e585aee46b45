import ChannelLog.Json.Token

/-!
# Written numbers are scanned as they were written

A literal is the text of a number taken apart; `Literal.text` puts it together again.

* `scanNumber_text`: scanning the text of a well-formed literal gives the literal, as long as what
  follows cannot go on with it (`Ends`).
* `Number.text_eq`: the text of every number is the text of a well-formed literal, its
  `Number.literal` (`Number.wellFormed_literal`).
-/

namespace ChannelLog

/-! ## Literals -/

namespace Literal

def fractionText (fraction : List Char) : List Char :=
  if fraction.isEmpty then [] else '.' :: fraction

def exponentText : Option (Bool × List Char) → List Char
  | none => []
  | some (negative, digits) => 'e' :: (if negative then '-' else '+') :: digits

def text (l : Literal) : List Char :=
  (if l.negative then ['-'] else []) ++ (l.whole ++ (fractionText l.fraction
    ++ exponentText l.exponent))

/-- The parts of a literal hold digits and those that have to be there are there; the whole part
has no zero in front. -/
structure WellFormed (l : Literal) : Prop where
  whole_digits : ∀ c ∈ l.whole, c.isDigit = true
  whole_head : l.whole = ['0'] ∨ ∃ c cs, l.whole = c :: cs ∧ c ≠ '0'
  fraction_digits : ∀ c ∈ l.fraction, c.isDigit = true
  exponent_digits : ∀ e, l.exponent = some e → e.2 ≠ [] ∧ ∀ c ∈ e.2, c.isDigit = true

end Literal

namespace Json

/-! ## Runs of digits -/

/-- What follows a run of digits does not go on with one. -/
def NoDigit (rest : List Char) : Prop := ∀ c cs, rest = c :: cs → c.isDigit = false

/-- What follows a number does not go on with it. -/
def Ends (rest : List Char) : Prop :=
  ∀ c cs, rest = c :: cs → c.isDigit = false ∧ c ≠ '.' ∧ c ≠ 'e' ∧ c ≠ 'E'

theorem Ends.noDigit {rest : List Char} (h : Ends rest) : NoDigit rest :=
  fun c cs e => (h c cs e).1

theorem ends_nil : Ends [] := fun _ _ e => by simp at e

theorem ends_cons {c : Char} (rest : List Char) (hd : c.isDigit = false) (hp : c ≠ '.')
    (he : c ≠ 'e') (hE : c ≠ 'E') : Ends (c :: rest) := by
  intro d cs e
  obtain ⟨rfl, rfl⟩ := List.cons.inj e
  exact ⟨hd, hp, he, hE⟩

theorem noDigit_cons {c : Char} (rest : List Char) (h : c.isDigit = false) :
    NoDigit (c :: rest) := by
  intro d cs e
  obtain ⟨rfl, rfl⟩ := List.cons.inj e
  exact h

theorem scanDigits_append {ds rest : List Char} (hd : ∀ c ∈ ds, c.isDigit = true)
    (hr : NoDigit rest) : scanDigits (ds ++ rest) = (ds, rest) := by
  have htake : rest.takeWhile Char.isDigit = [] := by
    cases rest with
    | nil => rfl
    | cons c cs => simp [hr c cs rfl]
  have hdrop : rest.dropWhile Char.isDigit = rest := by
    cases rest with
    | nil => rfl
    | cons c cs => simp [hr c cs rfl]
  unfold scanDigits
  rw [List.takeWhile_append_of_pos hd, List.dropWhile_append_of_pos hd, htake, hdrop]
  simp

theorem scanDigits?_append {ds rest : List Char} (hne : ds ≠ [])
    (hd : ∀ c ∈ ds, c.isDigit = true) (hr : NoDigit rest) :
    scanDigits? (ds ++ rest) = some (ds, rest) := by
  unfold scanDigits?
  rw [scanDigits_append hd hr]
  simp [hne]

/-! ## The parts of a number -/

theorem scanWhole?_append {ds rest : List Char} (hd : ∀ c ∈ ds, c.isDigit = true)
    (hw : ds = ['0'] ∨ ∃ c cs, ds = c :: cs ∧ c ≠ '0') (hr : NoDigit rest) :
    scanWhole? (ds ++ rest) = some (ds, rest) := by
  rcases hw with rfl | ⟨c, cs, rfl, hc⟩
  · rfl
  · have hscan := scanDigits?_append (List.cons_ne_nil c cs) hd hr
    unfold scanWhole?
    split
    · next tail e => exact absurd (List.cons.inj e).1 hc
    · exact hscan

theorem scanFraction?_append {ds rest : List Char} (hd : ∀ c ∈ ds, c.isDigit = true)
    (hr : NoDigit rest) (hp : ∀ cs, rest ≠ '.' :: cs) :
    scanFraction? (Literal.fractionText ds ++ rest) = some (ds, rest) := by
  cases ds with
  | nil =>
    show scanFraction? rest = some ([], rest)
    unfold scanFraction?
    split
    · next cs => exact absurd rfl (hp cs)
    · rfl
  | cons d ds => exact scanDigits?_append (List.cons_ne_nil d ds) hd hr

theorem scanExponent?_append {e : Option (Bool × List Char)} {rest : List Char}
    (hd : ∀ p, e = some p → p.2 ≠ [] ∧ ∀ c ∈ p.2, c.isDigit = true) (hr : Ends rest) :
    scanExponent? (Literal.exponentText e ++ rest) = some (e, rest) := by
  cases e with
  | none =>
    show scanExponent? rest = some (none, rest)
    unfold scanExponent?
    split
    · next c cs =>
      obtain ⟨-, -, he, hE⟩ := hr c cs rfl
      simp [he, hE]
    · rfl
  | some p =>
    obtain ⟨negative, ds⟩ := p
    obtain ⟨hne, hds⟩ := hd _ rfl
    have hscan := scanDigits?_append hne hds hr.noDigit
    cases negative <;> simp [Literal.exponentText, scanExponent?, scanSign, hscan]

theorem scanMinus_digit {c : Char} (cs : List Char) (h : c.isDigit = true) :
    scanMinus (c :: cs) = (Bool.false, c :: cs) := by
  unfold scanMinus
  split
  · next e => exact absurd ((List.cons.inj e).1 ▸ h) (by decide)
  · rfl

/-! ## Numbers -/

/-- **Scanning a written literal gives it back.** -/
theorem scanNumber_text {l : Literal} (h : l.WellFormed) {rest : List Char} (hr : Ends rest) :
    scanNumber (l.text ++ rest) = some (l, rest) := by
  obtain ⟨negative, whole, fraction, exponent⟩ := l
  obtain ⟨hwd, hwh, hfd, hed⟩ := h
  simp only at hwd hwh hfd hed
  obtain ⟨c, cs, hc⟩ : ∃ c cs, whole = c :: cs := by
    rcases hwh with rfl | ⟨c, cs, rfl, -⟩
    · exact ⟨_, _, rfl⟩
    · exact ⟨_, _, rfl⟩
  have hexp : NoDigit (Literal.exponentText exponent ++ rest) ∧
      ∀ cs, Literal.exponentText exponent ++ rest ≠ '.' :: cs := by
    cases exponent with
    | none => exact ⟨hr.noDigit, fun cs e => (hr '.' cs e).2.1 rfl⟩
    | some e => exact ⟨noDigit_cons _ (by decide), fun cs he => by simp [Literal.exponentText] at he⟩
  have hfrac : NoDigit (Literal.fractionText fraction ++ (Literal.exponentText exponent ++ rest)) := by
    cases fraction with
    | nil => exact hexp.1
    | cons d ds => exact noDigit_cons _ (by decide)
  have hminus : ∀ tail, scanMinus ((if negative then ['-'] else []) ++ (whole ++ tail))
      = (negative, whole ++ tail) := by
    intro tail
    cases negative with
    | true => rfl
    | false =>
      rw [hc]
      exact scanMinus_digit _ (hwd c (by simp [hc]))
  unfold scanNumber
  simp only [Literal.text, List.append_assoc]
  rw [hminus]
  simp only [scanWhole?_append hwd hwh hfrac, Option.bind_eq_bind, Option.bind_some,
    scanFraction?_append hfd hexp.1 hexp.2, scanExponent?_append hed hr]
  rfl

end Json

/-! ## The literal of a number -/

namespace Number

/-- The literal with the digits given and the point after the first `point` of them. -/
def spread (digits : List Char) (point : Int) : Literal :=
  let count : Int := digits.length
  let zeros (n : Int) : List Char := List.replicate n.toNat '0'
  if count ≤ point ∧ point ≤ 16 then ⟨false, digits ++ zeros (point - count), ['0'], none⟩
  else if 0 < point ∧ point ≤ 16 then
    ⟨false, digits.take point.toNat, digits.drop point.toNat, none⟩
  else if -5 < point ∧ point ≤ 0 then ⟨false, ['0'], zeros (-point) ++ digits, none⟩
  else
    ⟨false, digits.take 1, digits.drop 1,
      some (decide (point - 1 < 0), Text.digits (point - 1).natAbs)⟩

def magnitudeLiteral (m : Magnitude) : Literal :=
  if m.val = 0 then ⟨false, ['0'], ['0'], none⟩
  else
    let digits := Text.digits m.shortest.digits
    spread digits (digits.length + m.shortest.exponent)

def literal : Number → Literal
  | integer i => ⟨decide (i < 0), Text.digits i.natAbs, [], none⟩
  | float x => { magnitudeLiteral x.magnitude with negative := x.negative }

theorem layout_eq {digits : List Char} (hne : digits ≠ []) (point : Int) :
    layout digits point = (spread digits point).text := by
  simp only [layout, spread]
  by_cases h₁ : (digits.length : Int) ≤ point ∧ point ≤ 16
  · rw [if_pos h₁, if_pos h₁]
    simp [Literal.text, Literal.fractionText, Literal.exponentText]
  rw [if_neg h₁, if_neg h₁]
  by_cases h₂ : 0 < point ∧ point ≤ 16
  · have : digits.drop point.toNat ≠ [] := by
      rw [ne_eq, List.drop_eq_nil_iff]
      omega
    rw [if_pos h₂, if_pos h₂]
    simp [Literal.text, Literal.fractionText, Literal.exponentText, this]
  rw [if_neg h₂, if_neg h₂]
  by_cases h₃ : -5 < point ∧ point ≤ 0
  · rw [if_pos h₃, if_pos h₃]
    simp [Literal.text, Literal.fractionText, Literal.exponentText, hne]
  · have : (digits.drop 1).isEmpty = decide (digits.length ≤ 1) := by
      rw [Bool.eq_iff_iff, List.isEmpty_iff, List.drop_eq_nil_iff, decide_eq_true_iff]
    rw [if_neg h₃, if_neg h₃]
    simp only [Literal.text, Literal.fractionText, Literal.exponentText, this]
    simp

theorem digits_ne_nil (n : Nat) : Text.digits n ≠ [] := Nat.toDigits_ne_nil

theorem text_eq (n : Number) : n.text = n.literal.text := by
  cases n with
  | integer i => by_cases h : i < 0 <;> simp [text, literal, Literal.text, h, Literal.fractionText,
      Literal.exponentText]
  | float x =>
    have hm : magnitudeText x.magnitude = (magnitudeLiteral x.magnitude).text := by
      unfold magnitudeText magnitudeLiteral
      split
      · rfl
      · exact layout_eq (digits_ne_nil _) _
    have hneg : (magnitudeLiteral x.magnitude).negative = false := by
      simp only [magnitudeLiteral, spread]
      repeat' split
      all_goals rfl
    cases h : x.negative <;> simp [text, literal, Literal.text, h, hm, hneg]

theorem digits_head {n : Nat} (h : 0 < n) : ∃ c cs, Text.digits n = c :: cs ∧ c ≠ '0' := by
  induction n using Nat.strongRecOn with
  | ind n ih =>
    unfold Text.digits
    rw [Nat.toDigits_eq_if (by decide)]
    split
    · next hlt =>
      have hne : ∀ k < 10, 0 < k → Nat.digitChar k ≠ '0' := by decide
      exact ⟨_, _, rfl, hne n hlt h⟩
    · next hge =>
      obtain ⟨c, cs, hc, hne⟩ := ih (n / 10) (by omega) (by omega)
      unfold Text.digits at hc
      exact ⟨c, cs ++ [Nat.digitChar (n % 10)], by rw [hc, List.cons_append], hne⟩

theorem wellFormed_spread {n : Nat} (h : 0 < n) (point : Int) :
    (spread (Text.digits n) point).WellFormed := by
  obtain ⟨c, cs, hc, hne⟩ := digits_head h
  have hd : ∀ c ∈ Text.digits n, c.isDigit = true := fun c hc => Text.isDigit_of_mem_digits hc
  have hz : ∀ k, ∀ c ∈ List.replicate k '0', c.isDigit = true := fun k c hc => by
    rw [(List.mem_replicate.1 hc).2]
    decide
  simp only [spread]
  split
  · refine ⟨fun c hc => ?_, .inr ⟨c, _, by rw [hc, List.cons_append], hne⟩, fun c hc => ?_,
      fun e he => by simp at he⟩
    · rcases List.mem_append.1 hc with hc | hc
      · exact hd c hc
      · exact hz _ c hc
    · rw [List.mem_singleton.1 hc]
      decide
  split
  · obtain ⟨k, hk⟩ : ∃ k, point.toNat = k + 1 := ⟨point.toNat - 1, by omega⟩
    exact ⟨fun c hc => hd c (List.mem_of_mem_take hc),
      .inr ⟨c, _, by rw [hc, hk, List.take_succ_cons], hne⟩,
      fun c hc => hd c (List.mem_of_mem_drop hc), fun e he => by simp at he⟩
  split
  · refine ⟨fun c hc => ?_, .inl rfl, fun c hc => ?_, fun e he => by simp at he⟩
    · rw [List.mem_singleton.1 hc]
      decide
    · rcases List.mem_append.1 hc with hc | hc
      · exact hz _ c hc
      · exact hd c hc
  · refine ⟨fun c hc => hd c (List.mem_of_mem_take hc), .inr ⟨c, [], by rw [hc]; rfl, hne⟩,
      fun c hc => hd c (List.mem_of_mem_drop hc), fun e he => ?_⟩
    obtain rfl := Option.some.inj he
    exact ⟨digits_ne_nil _, fun c hc => Text.isDigit_of_mem_digits hc⟩

end Number

end ChannelLog
