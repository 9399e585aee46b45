import ChannelLog.Json.Source
import ChannelLog.Proofs.Json.Numbers
import ChannelLog.Proofs.Json.Strings

/-!
# Written values are read as they were written

* `tokens?_write`: the compact form of a value is cut into the tokens of the value.
* `foldlM_tokens`: taking in these tokens, the machine has read the tree of the value.
* `Source.ofText?_text`: the tree of a written value, `Json.source`.
* `isSome_value?_source`: this tree denotes a value exactly if reading may nest as deep as the value
  does (`Json.depth`).
-/

namespace ChannelLog.Json

/-! ## What a value is written as -/

mutual

def tokens : Json → List Token
  | null => [.null]
  | bool true => [.true]
  | bool false => [.false]
  | number n => [.number n.literal]
  | string s => [.string (some s)]
  | array [] => [.openArray, .closeArray]
  | array (v :: items) => .openArray :: (tokens v ++ (itemTokens items ++ [.closeArray]))
  | object [] => [.openObject, .closeObject]
  | object ((key, v) :: members) =>
    .openObject :: .string (some key) :: .colon
      :: (tokens v ++ (memberTokens members ++ [.closeObject]))

def itemTokens : List Json → List Token
  | [] => []
  | v :: items => .comma :: (tokens v ++ itemTokens items)

def memberTokens : List (String × Json) → List Token
  | [] => []
  | (key, v) :: members =>
    .comma :: .string (some key) :: .colon :: (tokens v ++ memberTokens members)

end

mutual

/-- The tree of a value as it is written. -/
def source : Json → Source
  | null => .null
  | bool b => .bool b
  | number n => .number n.literal
  | string s => .string (some s)
  | array items => .array (itemSources items)
  | object members => .object (memberSources members)

def itemSources : List Json → List Source
  | [] => []
  | v :: items => source v :: itemSources items

def memberSources : List (String × Json) → List (Option String × Source)
  | [] => []
  | (key, v) :: members => (some key, source v) :: memberSources members

end

/-! ## Tokens -/

theorem tokens?_string (s : String) (rest : List Char) :
    tokens? (writeString s ++ rest) = (tokens? rest).map (.string (some s) :: ·) := by
  have hs : writeString s ++ rest = '"' :: (s.toList.flatMap escape ++ '"' :: rest) := by
    simp [writeString]
  rw [hs, tokens?]
  split
  · next h => simp [scanString_escaped] at h
  · next h =>
    rw [scanString_escaped, Option.some.injEq, Prod.mk.injEq] at h
    obtain ⟨rfl, rfl⟩ := h
    rw [denoted?_pieces, Option.map_some, String.ofList_toList]

theorem tokens?_of_scanNumber {c : Char} {cs after : List Char} {l : Literal}
    (hc : c.isDigit = true ∨ c = '-') (h : scanNumber (c :: cs) = some (l, after)) :
    tokens? (c :: cs) = (tokens? after).map (.number l :: ·) := by
  have hne : ∀ d : Char, d.isDigit = false → d ≠ '-' → c ≠ d := by
    rintro d hd hm rfl
    rcases hc with hc | hc
    · exact absurd (hc.symm.trans hd) (by decide)
    · exact hm hc
  have hspace : isSpace c = false := by
    have h₁ := hne ' ' (by decide) (by decide)
    have h₂ := hne '\t' (by decide) (by decide)
    have h₃ := hne '\n' (by decide) (by decide)
    have h₄ := hne '\r' (by decide) (by decide)
    simp [isSpace, h₁, h₂, h₃, h₄]
  rw [tokens?.eq_def]
  split
  case h_12 =>
    next heq =>
    obtain ⟨rfl, rfl⟩ := List.cons.inj heq
    rw [if_neg (by simp [hspace])]
    split
    · next hn => simp [h] at hn
    · next hn =>
      rw [h, Option.some.injEq, Prod.mk.injEq] at hn
      obtain ⟨rfl, rfl⟩ := hn
      rfl
  case h_1 => next heq => simp at heq
  all_goals
    next heq => exact absurd (List.cons.inj heq).1 (hne _ (by decide) (by decide))

theorem tokens?_number (n : Number) {rest : List Char} (hr : Ends rest) :
    tokens? (n.text ++ rest) = (tokens? rest).map (.number n.literal :: ·) := by
  have hw := Number.wellFormed_literal n
  have hscan := scanNumber_text hw hr
  rw [Number.text_eq]
  obtain ⟨c, cs, hc, hd⟩ : ∃ c cs, n.literal.text = c :: cs ∧ (c.isDigit = true ∨ c = '-') := by
    obtain ⟨c, cs, hc⟩ : ∃ c cs, n.literal.whole = c :: cs := by
      rcases hw.whole_head with h | ⟨c, cs, h, -⟩
      · exact ⟨_, _, h⟩
      · exact ⟨_, _, h⟩
    have hd := hw.whole_digits c (by simp [hc])
    cases hneg : n.literal.negative with
    | false => exact ⟨c, _, by simp only [Literal.text, hneg, hc]; rfl, .inl hd⟩
    | true => exact ⟨'-', _, by simp only [Literal.text, hneg]; rfl, .inr rfl⟩
  rw [hc] at hscan ⊢
  exact tokens?_of_scanNumber hd hscan

theorem ends_itemTokens (items : List Json) (rest : List Char) :
    Ends (writeItems items ++ ']' :: rest) := by
  cases items with
  | nil => exact ends_cons _ (by decide) (by decide) (by decide) (by decide)
  | cons v items => exact ends_cons _ (by decide) (by decide) (by decide) (by decide)

theorem ends_memberTokens (members : List (String × Json)) (rest : List Char) :
    Ends (writeMembers members ++ '\x7d' :: rest) := by
  cases members with
  | nil => exact ends_cons _ (by decide) (by decide) (by decide) (by decide)
  | cons m members => exact ends_cons _ (by decide) (by decide) (by decide) (by decide)

mutual

/-- **The compact form of a value is cut into its tokens**, whatever follows. -/
theorem tokens?_write (v : Json) {rest : List Char} (hr : Ends rest) :
    tokens? (write v ++ rest) = (tokens? rest).map (tokens v ++ ·) := by
  match v with
  | null => rw [write, tokens]; simp [tokens?]
  | bool true => rw [write, tokens]; simp [tokens?]
  | bool false => rw [write, tokens]; simp [tokens?]
  | number n => exact tokens?_number n hr
  | string s => exact tokens?_string s rest
  | array [] =>
    rw [write, tokens]
    simp [tokens?, Function.comp_def]
  | array (v :: items) =>
    have hw : write (array (v :: items)) ++ rest
        = '[' :: (write v ++ (writeItems items ++ ']' :: rest)) := by simp [write]
    rw [hw, tokens?, tokens?_write v (ends_itemTokens items rest), tokens?_writeItems, tokens]
    simp [Function.comp_def]
  | object [] =>
    rw [write, tokens]
    simp [tokens?, Function.comp_def]
  | object ((key, v) :: members) =>
    have hw : write (object ((key, v) :: members)) ++ rest
        = '\x7b' :: (writeString key ++ ':' :: (write v ++ (writeMembers members ++ '\x7d' :: rest)))
        := by simp [write]
    rw [hw, tokens?, tokens?_string, tokens?, tokens?_write v (ends_memberTokens members rest),
      tokens?_writeMembers, tokens]
    simp [Function.comp_def]

theorem tokens?_writeItems (items : List Json) (rest : List Char) :
    tokens? (writeItems items ++ ']' :: rest)
      = (tokens? rest).map (itemTokens items ++ .closeArray :: ·) := by
  match items with
  | [] => rw [writeItems, List.nil_append, tokens?]; rfl
  | v :: items =>
    have hw : writeItems (v :: items) ++ ']' :: rest
        = ',' :: (write v ++ (writeItems items ++ ']' :: rest)) := by simp [writeItems]
    rw [hw, tokens?, tokens?_write v (ends_itemTokens items rest), tokens?_writeItems, itemTokens]
    simp [Function.comp_def]

theorem tokens?_writeMembers (members : List (String × Json)) (rest : List Char) :
    tokens? (writeMembers members ++ '\x7d' :: rest)
      = (tokens? rest).map (memberTokens members ++ .closeObject :: ·) := by
  match members with
  | [] => rw [writeMembers, List.nil_append, tokens?]; rfl
  | (key, v) :: members =>
    have hw : writeMembers ((key, v) :: members) ++ '\x7d' :: rest
        = ',' :: (writeString key ++ ':' :: (write v ++ (writeMembers members ++ '\x7d' :: rest)))
        := by simp [writeMembers]
    rw [hw, tokens?, tokens?_string, tokens?, tokens?_write v (ends_memberTokens members rest),
      tokens?_writeMembers, memberTokens]
    simp [Function.comp_def]

end

theorem tokens?_text (v : Json) : tokens? v.text.toList = some v.tokens := by
  have h := tokens?_write v ends_nil
  rw [List.append_nil, tokens?, Option.map_some, List.append_nil] at h
  rw [text, String.toList_ofList, h]

/-! ## The machine -/

namespace Source

/-- A value may start here. -/
def Mode.StartsValue : Mode → Prop
  | .value | .firstItem => True
  | _ => False

theorem startsValue_value : Mode.value.StartsValue := trivial

theorem startsValue_firstItem : Mode.firstItem.StartsValue := trivial

theorem step_openValue {mode : Mode} (hm : mode.StartsValue) (stack : List Frame) {t : Token}
    (ht : t ≠ .closeArray) : Machine.step ⟨mode, stack⟩ t = openValue stack t := by
  cases mode with
  | value => rfl
  | firstItem => cases t <;> first | rfl | exact absurd rfl ht
  | _ => exact hm.elim

theorem foldlM_openValue {mode : Mode} (hm : mode.StartsValue) {stack : List Frame} {t : Token}
    (ht : t ≠ .closeArray) {m : Machine} (h : openValue stack t = some m) (ts : List Token) :
    (t :: ts).foldlM Machine.step ⟨mode, stack⟩ = ts.foldlM Machine.step m := by
  rw [List.foldlM_cons, step_openValue hm stack ht, h]
  rfl

theorem foldlM_step {m n : Machine} {t : Token} (h : m.step t = some n) (ts : List Token) :
    (t :: ts).foldlM Machine.step m = ts.foldlM Machine.step n := by
  rw [List.foldlM_cons, h]
  rfl

mutual

/-- **Taking in the tokens of a value, the machine has read its tree.** -/
theorem foldlM_tokens (v : Json) {mode : Mode} (hm : mode.StartsValue) (stack : List Frame)
    (ts : List Token) :
    (v.tokens ++ ts).foldlM Machine.step ⟨mode, stack⟩
      = ts.foldlM Machine.step ⟨.after v.source, stack⟩ := by
  match v with
  | .null => exact foldlM_openValue hm (by decide) rfl ts
  | .bool Bool.true => exact foldlM_openValue hm (by decide) rfl ts
  | .bool Bool.false => exact foldlM_openValue hm (by decide) rfl ts
  | .number n => exact foldlM_openValue hm (by simp) rfl ts
  | .string s => exact foldlM_openValue hm (by simp) rfl ts
  | .array [] =>
    rw [tokens, List.cons_append, foldlM_openValue hm (by decide) rfl]
    exact foldlM_step rfl ts
  | .array (v :: items) =>
    rw [tokens, List.cons_append, List.append_assoc, List.append_assoc,
      foldlM_openValue hm (by decide) rfl, foldlM_tokens v startsValue_firstItem]
    exact foldlM_itemTokens items [] v.source stack ts
  | .object [] =>
    rw [tokens, List.cons_append, foldlM_openValue hm (by decide) rfl]
    exact foldlM_step rfl ts
  | .object ((key, v) :: members) =>
    rw [tokens, List.cons_append, List.cons_append, List.cons_append, List.append_assoc,
      List.append_assoc, foldlM_openValue hm (by decide) rfl, foldlM_step rfl, foldlM_step rfl,
      foldlM_tokens v startsValue_value]
    exact foldlM_memberTokens members [] (some key) v.source stack ts

theorem foldlM_itemTokens (items : List Json) (done : List Source) (last : Source)
    (stack : List Frame) (ts : List Token) :
    (itemTokens items ++ (.closeArray :: ts)).foldlM Machine.step
        ⟨.after last, .items done :: stack⟩
      = ts.foldlM Machine.step
        ⟨.after (.array (done.reverse ++ last :: itemSources items)), stack⟩ := by
  match items with
  | [] =>
    rw [itemTokens, itemSources, List.nil_append, ← List.reverse_cons]
    exact foldlM_step rfl ts
  | v :: items =>
    rw [itemTokens, List.cons_append, List.append_assoc, foldlM_step rfl,
      foldlM_tokens v startsValue_value, foldlM_itemTokens items (last :: done)]
    simp [itemSources]

theorem foldlM_memberTokens (members : List (String × Json))
    (done : List (Option String × Source)) (key : Option String) (last : Source)
    (stack : List Frame) (ts : List Token) :
    (memberTokens members ++ (.closeObject :: ts)).foldlM Machine.step
        ⟨.after last, .member done key :: stack⟩
      = ts.foldlM Machine.step
        ⟨.after (.object (done.reverse ++ (key, last) :: memberSources members)), stack⟩ := by
  match members with
  | [] =>
    rw [memberTokens, memberSources, List.nil_append, ← List.reverse_cons]
    exact foldlM_step rfl ts
  | (k, v) :: members =>
    rw [memberTokens, List.cons_append, List.cons_append, List.cons_append, List.append_assoc,
      foldlM_step rfl, foldlM_step rfl, foldlM_step rfl, foldlM_tokens v startsValue_value,
      foldlM_memberTokens members ((key, last) :: done)]
    simp [memberSources]

end

/-- **The tree of a written value.** -/
theorem ofText?_text (v : Json) : ofText? v.text = some v.source := by
  have h := foldlM_tokens v startsValue_value [] []
  rw [List.append_nil] at h
  simp only [ofText?, tokens?_text, Option.bind_eq_bind, Option.bind_some, ofTokens?, h]
  rfl

end Source

/-! ## What the tree denotes -/

mutual

/-- How deep arrays and objects are nested. -/
def depth : Json → Nat
  | array items => itemDepth items + 1
  | object members => memberDepth members + 1
  | _ => 0

def itemDepth : List Json → Nat
  | [] => 0
  | v :: items => max (depth v) (itemDepth items)

def memberDepth : List (String × Json) → Nat
  | [] => 0
  | (_, v) :: members => max (depth v) (memberDepth members)

end

mutual

def InRange : Json → Prop
  | number n => n.InRange
  | array items => ItemsInRange items
  | object members => MembersInRange members
  | _ => True

def ItemsInRange : List Json → Prop
  | [] => True
  | v :: items => InRange v ∧ ItemsInRange items

def MembersInRange : List (String × Json) → Prop
  | [] => True
  | (_, v) :: members => InRange v ∧ MembersInRange members

end

theorem memberDepth_le_iff {members : List (String × Json)} {d : Nat} :
    memberDepth members ≤ d ↔ ∀ m ∈ members, m.2.depth ≤ d := by
  induction members with
  | nil => simp [memberDepth]
  | cons m members ih => rw [memberDepth, Nat.max_le, ih, List.forall_mem_cons]

theorem membersInRange_iff {members : List (String × Json)} :
    MembersInRange members ↔ ∀ m ∈ members, m.2.InRange := by
  induction members with
  | nil => simp [MembersInRange]
  | cons m members ih => rw [MembersInRange, ih, List.forall_mem_cons]

namespace Source

mutual

/-- **The tree of a value denotes one exactly if reading may nest as deep as the value does.** -/
theorem isSome_value?_source {v : Json} (h : v.InRange) (d : Nat) :
    (value? d v.source).isSome ↔ v.depth ≤ d := by
  match v with
  | .null => simp [source, value?, depth]
  | .bool b => simp [source, value?, depth]
  | .number n =>
    have hn := Number.isSome_number? h
    simp [source, value?, depth, hn]
  | .string s => simp [source, value?, depth]
  | .array items =>
    cases d with
    | zero => simp [source, value?, depth]
    | succ d => simp [source, value?, depth, isSome_itemValues?_source h d]
  | .object members =>
    cases d with
    | zero => simp [source, value?, depth]
    | succ d => simp [source, value?, depth, isSome_memberValues?_source h d]

theorem isSome_itemValues?_source {items : List Json} (h : ItemsInRange items) (d : Nat) :
    (itemValues? d (itemSources items)).isSome ↔ itemDepth items ≤ d := by
  match items with
  | [] => simp [itemSources, itemValues?, itemDepth]
  | v :: items =>
    obtain ⟨hv, hi⟩ := h
    have h₁ := isSome_value?_source hv d
    have h₂ := isSome_itemValues?_source hi d
    rw [itemDepth, Nat.max_le, ← h₁, ← h₂, itemSources, itemValues?]
    cases value? d v.source <;> cases itemValues? d (itemSources items) <;> simp

theorem isSome_memberValues?_source {members : List (String × Json)} (h : MembersInRange members)
    (d : Nat) :
    (memberValues? d (memberSources members)).isSome ↔ memberDepth members ≤ d := by
  match members with
  | [] => simp [memberSources, memberValues?, memberDepth]
  | (key, v) :: members =>
    obtain ⟨hv, hm⟩ := h
    have h₁ := isSome_value?_source hv d
    have h₂ := isSome_memberValues?_source hm d
    rw [memberDepth, Nat.max_le, ← h₁, ← h₂, memberSources, memberValues?]
    cases value? d v.source <;> cases memberValues? d (memberSources members) <;> simp

end

end Source

end ChannelLog.Json
