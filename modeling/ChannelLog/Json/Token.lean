import ChannelLog.Json.Number

/-!
# Tokens of JSON text

A text is cut into punctuation, words, numbers and strings. What a string denotes is found out
later: its escapes of 16-bit units may fail to pair up, which matters only to those who want the
text.

Main statements: `length_scanString` and `length_scanNumber`, a string or number takes at least one
character off the text.
-/

namespace ChannelLog.Json

inductive Token where
  | openArray | closeArray | openObject | closeObject | comma | colon
  | null | true | false
  | number (l : Literal)
  /-- What the string denotes; none if it has a unit of a pair without the other. -/
  | string (s : Option String)
deriving DecidableEq

/-! ## Strings -/

/-- A character of a string, or a 16-bit unit given by its number. -/
inductive Piece where
  | char (c : Char)
  | unit (u : Nat)

def hexDigit? (c : Char) : Option Nat :=
  if c.isDigit then some (c.toNat - '0'.toNat)
  else if 'a' ≤ c ∧ c ≤ 'f' then some (c.toNat - 'a'.toNat + 10)
  else if 'A' ≤ c ∧ c ≤ 'F' then some (c.toNat - 'A'.toNat + 10)
  else none

def unit? (a b c d : Char) : Option Nat := do
  return (((← hexDigit? a) * 16 + (← hexDigit? b)) * 16 + (← hexDigit? c)) * 16 + (← hexDigit? d)

/-- The character that a backslash and `c` write. -/
def unescape? (c : Char) : Option Char :=
  match c with
  | '"' => some '"'
  | '\\' => some '\\'
  | '/' => some '/'
  | 'b' => some '\x08'
  | 'f' => some '\x0c'
  | 'n' => some '\n'
  | 'r' => some '\r'
  | 't' => some '\t'
  | _ => none

/-- The pieces up to the closing quote, and the text after it. -/
def scanString : List Char → Option (List Piece × List Char)
  | [] => none
  | '"' :: rest => some ([], rest)
  | '\\' :: 'u' :: a :: b :: c :: d :: rest => do
    let u ← unit? a b c d
    let (pieces, rest) ← scanString rest
    return (.unit u :: pieces, rest)
  | '\\' :: e :: rest => do
    let c ← unescape? e
    let (pieces, rest) ← scanString rest
    return (.char c :: pieces, rest)
  | c :: rest =>
    if c.toNat < 0x20 then none
    else do
      let (pieces, rest) ← scanString rest
      return (.char c :: pieces, rest)

/-- Whether a unit is a character by itself. -/
def isSingleUnit (u : Nat) : Bool := u < 0xD800 || 0xDFFF < u

/-- Whether two units together are a character. -/
def isPair (u v : Nat) : Bool := u < 0xDC00 && 0xDC00 ≤ v && v ≤ 0xDFFF

/-- The characters that the pieces denote. -/
def denoted? : List Piece → Option (List Char)
  | [] => some []
  | .char c :: pieces => (denoted? pieces).map (c :: ·)
  | .unit u :: .unit v :: pieces =>
    if isSingleUnit u then (denoted? (.unit v :: pieces)).map (Char.ofNat u :: ·)
    else if isPair u v then
      (denoted? pieces).map (Char.ofNat (0x10000 + (u - 0xD800) * 0x400 + (v - 0xDC00)) :: ·)
    else none
  | .unit u :: pieces =>
    if isSingleUnit u then (denoted? pieces).map (Char.ofNat u :: ·) else none

theorem length_scanString {cs rest : List Char} {pieces : List Piece}
    (h : scanString cs = some (pieces, rest)) : rest.length < cs.length := by
  fun_induction scanString cs generalizing pieces rest with
  | case1 => simp at h
  | case2 => simp_all
  | case3 a b c d cs ih =>
    simp only [Option.bind_eq_bind, Option.bind_eq_some_iff, Prod.exists] at h
    obtain ⟨_, _, _, _, h, e⟩ := h
    have := ih h
    simp_all
    omega
  | case4 c cs _ ih =>
    simp only [Option.bind_eq_bind, Option.bind_eq_some_iff, Prod.exists] at h
    obtain ⟨_, _, _, _, h, e⟩ := h
    have := ih h
    simp_all
    omega
  | case5 => simp at h
  | case6 c cs _ _ _ _ ih =>
    simp only [Option.bind_eq_bind, Option.bind_eq_some_iff, Prod.exists] at h
    obtain ⟨_, _, h, e⟩ := h
    have := ih h
    simp_all
    omega

/-! ## Numbers -/

def scanDigits (cs : List Char) : List Char × List Char :=
  (cs.takeWhile Char.isDigit, cs.dropWhile Char.isDigit)

def scanDigits? (cs : List Char) : Option (List Char × List Char) :=
  if (scanDigits cs).1.isEmpty then none else some (scanDigits cs)

/-- The whole part: a zero by itself or digits. -/
def scanWhole? : List Char → Option (List Char × List Char)
  | '0' :: rest => some (['0'], rest)
  | cs => scanDigits? cs

def scanFraction? : List Char → Option (List Char × List Char)
  | '.' :: rest => scanDigits? rest
  | cs => some ([], cs)

def scanSign : List Char → Bool × List Char
  | '-' :: rest => (Bool.true, rest)
  | '+' :: rest => (Bool.false, rest)
  | cs => (Bool.false, cs)

def scanExponent? : List Char → Option (Option (Bool × List Char) × List Char)
  | c :: rest =>
    if c = 'e' ∨ c = 'E' then do
      let (digits, after) ← scanDigits? (scanSign rest).2
      return (some ((scanSign rest).1, digits), after)
    else some (none, c :: rest)
  | [] => some (none, [])

/-- Whether a minus sign is in front, and the text after it. -/
def scanMinus : List Char → Bool × List Char
  | '-' :: rest => (Bool.true, rest)
  | cs => (Bool.false, cs)

/-- A number in front, and the text after it. -/
def scanNumber (cs : List Char) : Option (Literal × List Char) := do
  let (whole, rest) ← scanWhole? (scanMinus cs).2
  let (fraction, rest) ← scanFraction? rest
  let (exponent, rest) ← scanExponent? rest
  return (⟨(scanMinus cs).1, whole, fraction, exponent⟩, rest)

theorem length_scanDigits? {cs digits rest : List Char} (h : scanDigits? cs = some (digits, rest)) :
    rest.length < cs.length := by
  unfold scanDigits? scanDigits at h
  split at h
  · simp at h
  · next hne =>
    have hsum := congrArg List.length (List.takeWhile_append_dropWhile (p := Char.isDigit) (l := cs))
    simp only [List.length_append] at hsum
    simp only [Option.some.injEq, Prod.mk.injEq] at h
    have : 0 < (cs.takeWhile Char.isDigit).length := by
      cases e : cs.takeWhile Char.isDigit with
      | nil => simp [e] at hne
      | cons => simp
    rw [← h.2]
    omega

theorem length_scanWhole? {cs whole rest : List Char} (h : scanWhole? cs = some (whole, rest)) :
    rest.length < cs.length := by
  unfold scanWhole? at h
  split at h
  · simp_all
  · exact length_scanDigits? h

theorem length_scanFraction? {cs fraction rest : List Char}
    (h : scanFraction? cs = some (fraction, rest)) : rest.length ≤ cs.length := by
  unfold scanFraction? at h
  split at h
  · have := length_scanDigits? h
    simp
    omega
  · simp_all

theorem length_scanSign (cs : List Char) : (scanSign cs).2.length ≤ cs.length := by
  unfold scanSign
  split <;> simp

theorem length_scanExponent? {cs rest : List Char} {exponent : Option (Bool × List Char)}
    (h : scanExponent? cs = some (exponent, rest)) : rest.length ≤ cs.length := by
  unfold scanExponent? at h
  split at h
  · next c body =>
    split at h
    · simp only [Option.bind_eq_bind, Option.bind_eq_some_iff, Prod.exists] at h
      obtain ⟨_, _, hd, e⟩ := h
      have h1 := length_scanDigits? hd
      have h2 := length_scanSign body
      simp_all
      omega
    · simp_all
  · simp_all

theorem length_scanMinus (cs : List Char) : (scanMinus cs).2.length ≤ cs.length := by
  unfold scanMinus
  split <;> simp

theorem length_scanNumber {cs rest : List Char} {l : Literal}
    (h : scanNumber cs = some (l, rest)) : rest.length < cs.length := by
  unfold scanNumber at h
  simp only [Option.bind_eq_bind, Option.bind_eq_some_iff, Prod.exists] at h
  obtain ⟨_, _, hw, _, _, hf, _, _, he, e⟩ := h
  have h1 := length_scanWhole? hw
  have h2 := length_scanFraction? hf
  have h3 := length_scanExponent? he
  have h4 := length_scanMinus cs
  simp only [Option.pure_def, Option.some.injEq, Prod.mk.injEq] at e
  rw [← e.2]
  omega

/-! ## The text -/

/-- The blanks between tokens. -/
def isSpace (c : Char) : Bool := c == ' ' || c == '\t' || c == '\n' || c == '\r'

/-- The tokens of a text; none if it has something else than tokens and blanks. -/
def tokens? (cs : List Char) : Option (List Token) :=
  match cs with
  | [] => some []
  | '[' :: rest => (tokens? rest).map (.openArray :: ·)
  | ']' :: rest => (tokens? rest).map (.closeArray :: ·)
  | '\x7b' :: rest => (tokens? rest).map (.openObject :: ·)
  | '\x7d' :: rest => (tokens? rest).map (.closeObject :: ·)
  | ',' :: rest => (tokens? rest).map (.comma :: ·)
  | ':' :: rest => (tokens? rest).map (.colon :: ·)
  | 'n' :: 'u' :: 'l' :: 'l' :: rest => (tokens? rest).map (.null :: ·)
  | 't' :: 'r' :: 'u' :: 'e' :: rest => (tokens? rest).map (.true :: ·)
  | 'f' :: 'a' :: 'l' :: 's' :: 'e' :: rest => (tokens? rest).map (.false :: ·)
  | '"' :: body =>
    match h : scanString body with
    | none => none
    | some (pieces, rest) =>
      have := length_scanString h
      (tokens? rest).map (.string ((denoted? pieces).map String.ofList) :: ·)
  | c :: rest =>
    if isSpace c then tokens? rest
    else
      match h : scanNumber (c :: rest) with
      | none => none
      | some (l, after) =>
        have : after.length < rest.length + 1 := length_scanNumber h
        (tokens? after).map (.number l :: ·)
termination_by cs.length

end ChannelLog.Json
