import ChannelLog.Json.Writer
import ChannelLog.Proofs.Json.Records

/-!
# Values that are read as themselves

Reading a written value can change it: the members of its objects come out in ascending order, and
a floating-point number is rounded more than once.

* `ReadsBack`: all objects of a value have their members in order, and all its numbers are read as
  themselves. Whole numbers of 64 bits are (`Number.readsBack_integer`).
* `Source.value?_source_eq_some_iff`: **these are the values whose written form denotes themselves**,
  if reading may nest as deep as they do.
* `ofText?_canonicalText_iff`: the same of the canonical text, which whatever is read back has as its
  text.
-/

namespace ChannelLog

/-! ## Members in order -/

section

variable {α : Type}

theorem ascending_iff_keys {entries : List (String × α)} :
    Ascending entries ↔ (entries.map (·.1)).Pairwise (· < ·) := List.pairwise_map.symm

theorem Ascending.of_keys {β : Type} {xs : List (String × α)} {ys : List (String × β)}
    (h : Ascending xs) (hkeys : ys.map (·.1) = xs.map (·.1)) : Ascending ys := by
  rw [ascending_iff_keys, hkeys]
  exact ascending_iff_keys.1 h

end

namespace Json

theorem entries_ofList (members : List (String × Json)) :
    (Dict.ofList members).entries = sortMembers members := by
  suffices h : ∀ d : Dict Json, (members.foldl (fun d m => d.insert m.1 m.2) d).entries
      = members.foldl (fun sorted m => insertEntry m.1 m.2 sorted) d.entries from h ∅
  intro d
  induction members generalizing d with
  | nil => rfl
  | cons m members ih => exact ih (d.insert m.1 m.2)

theorem ascending_sortMembers (members : List (String × Json)) :
    Ascending (sortMembers members) := by
  rw [← entries_ofList]
  exact (Dict.ofList members).ascending

theorem sortMembers_eq_self {members : List (String × Json)} (h : Ascending members) :
    sortMembers members = members := by
  have hd := Dict.ofList_entries (⟨members, h⟩ : Dict Json)
  rw [← entries_ofList, hd]

theorem mem_of_mem_sortMembers {members : List (String × Json)} {m : String × Json}
    (h : m ∈ sortMembers members) : m ∈ members := by
  suffices hs : ∀ sorted, m ∈ members.foldl (fun sorted n => insertEntry n.1 n.2 sorted) sorted →
      m ∈ sorted ∨ m ∈ members from (hs [] h).resolve_left List.not_mem_nil
  clear h
  intro sorted h
  induction members generalizing sorted with
  | nil => exact .inl h
  | cons n members ih =>
    rcases ih _ h with hm | hm
    · rcases mem_insertEntry hm with rfl | hm
      · exact .inr List.mem_cons_self
      · exact .inl hm
    · exact .inr (List.mem_cons_of_mem n hm)

end Json

/-! ## Values -/

/-- The number is read as itself. -/
def Number.ReadsBack (n : Number) : Prop := n.literal.number? = some n

/-- **Whole numbers of 64 bits are read as themselves.** -/
theorem Number.readsBack_integer {i : Int} (h : IsWord i) : (integer i).ReadsBack :=
  number?_integer h

theorem Literal.gather_lt {significand : Nat} (h : significand < UInt64.size)
    (digits : List Char) : (gather significand digits).1 < UInt64.size := by
  induction digits generalizing significand with
  | nil => exact h
  | cons d ds ih =>
    rw [gather]
    split
    · next hnext => exact ih hnext
    · exact h

theorem Literal.isWord_of_number? {l : Literal} {i : Int}
    (h : l.number? = some (.integer i)) : Number.IsWord i := by
  have hfloat : ∀ negative significand e, float? negative significand e ≠ some (.integer i) := by
    intro negative significand e he
    obtain ⟨_, -, he⟩ := Option.bind_eq_some_iff.1 he
    obtain ⟨_, -, he⟩ := Option.bind_eq_some_iff.1 he
    exact nomatch Option.some.inj he
  have hlt : (gather 0 l.whole).1 < UInt64.size := gather_lt (by decide) l.whole
  simp only [number?] at h
  split at h
  · split at h
    · obtain rfl := Number.integer.inj (Option.some.inj h)
      exact ⟨by omega, by omega⟩
    · split at h
      · next hle =>
        obtain rfl := Number.integer.inj (Option.some.inj h)
        exact ⟨by omega, by omega⟩
      · exact absurd h (hfloat _ _ _)
  · exact absurd h (hfloat _ _ _)

theorem Number.ReadsBack.inRange {n : Number} (h : n.ReadsBack) : n.InRange := by
  cases n with
  | integer i => exact Literal.isWord_of_number? h
  | float x => trivial

namespace Json

mutual

/-- Members are in order, and numbers are read as themselves. -/
def ReadsBack : Json → Prop
  | number n => n.ReadsBack
  | array items => ItemsReadBack items
  | object members => Ascending members ∧ MembersReadBack members
  | _ => True

def ItemsReadBack : List Json → Prop
  | [] => True
  | v :: items => ReadsBack v ∧ ItemsReadBack items

def MembersReadBack : List (String × Json) → Prop
  | [] => True
  | (_, v) :: members => ReadsBack v ∧ MembersReadBack members

end

mutual

theorem ReadsBack.inRange {v : Json} (h : v.ReadsBack) : v.InRange := by
  match v with
  | .null | .bool _ | .string _ => trivial
  | .number _ => exact Number.ReadsBack.inRange h
  | .array _ => exact itemsInRange_of_itemsReadBack h
  | .object _ => exact membersInRange_of_membersReadBack h.2

theorem itemsInRange_of_itemsReadBack {items : List Json} (h : ItemsReadBack items) :
    ItemsInRange items := by
  match items with
  | [] => trivial
  | _ :: _ => exact ⟨h.1.inRange, itemsInRange_of_itemsReadBack h.2⟩

theorem membersInRange_of_membersReadBack {members : List (String × Json)}
    (h : MembersReadBack members) : MembersInRange members := by
  match members with
  | [] => trivial
  | _ :: _ => exact ⟨h.1.inRange, membersInRange_of_membersReadBack h.2⟩

end

namespace Source

theorem keys_memberValues? {d : Nat} {members values : List (String × Json)}
    (h : memberValues? d (memberSources members) = some values) :
    values.map (·.1) = members.map (·.1) := by
  induction members generalizing values with
  | nil =>
    obtain rfl := Option.some.inj h
    rfl
  | cons m members ih =>
    obtain ⟨key, v⟩ := m
    rw [memberSources, memberValues?] at h
    cases hv : value? d v.source with
    | none => simp [hv] at h
    | some w =>
      cases hm : memberValues? d (memberSources members) with
      | none => simp [hv, hm] at h
      | some rest =>
        simp only [hv, hm, Option.bind_eq_bind, Option.bind_some] at h
        obtain rfl := Option.some.inj h
        rw [List.map_cons, List.map_cons, ih hm]

theorem map_sortMembers_eq_some_iff {d : Nat} {members : List (String × Json)} :
    ((memberValues? d (memberSources members)).map fun ms => Json.object (sortMembers ms))
        = some (.object members)
      ↔ Ascending members ∧ memberValues? d (memberSources members) = some members := by
  constructor
  · intro h
    obtain ⟨values, hvalues, hobject⟩ := Option.map_eq_some_iff.1 h
    have hsorted : sortMembers values = members := Json.object.inj hobject
    have hascending : Ascending members := hsorted ▸ ascending_sortMembers values
    rw [sortMembers_eq_self (hascending.of_keys (keys_memberValues? hvalues))] at hsorted
    exact ⟨hascending, hsorted ▸ hvalues⟩
  · rintro ⟨hascending, hvalues⟩
    rw [hvalues, Option.map_some, sortMembers_eq_self hascending]

mutual

/-- **A written value denotes itself exactly if it reads back**, and reading may nest as deep. -/
theorem value?_source_eq_some_iff (v : Json) (d : Nat) :
    value? d v.source = some v ↔ v.depth ≤ d ∧ v.ReadsBack := by
  match v with
  | .null => simp [source, value?, depth, ReadsBack]
  | .bool b => simp [source, value?, depth, ReadsBack]
  | .number n => simp [source, value?, depth, ReadsBack, Number.ReadsBack]
  | .string s => simp [source, value?, depth, ReadsBack]
  | .array items =>
    cases d with
    | zero => simp [source, value?, depth]
    | succ d =>
      have hitems := itemValues?_source_eq_some_iff items d
      simp [source, value?, depth, ReadsBack, hitems]
  | .object members =>
    cases d with
    | zero => simp [source, value?, depth]
    | succ d =>
      have hmembers := memberValues?_source_eq_some_iff members d
      rw [source, value?, map_sortMembers_eq_some_iff, hmembers, depth, ReadsBack,
        Nat.succ_le_succ_iff]
      exact and_left_comm

theorem itemValues?_source_eq_some_iff (items : List Json) (d : Nat) :
    itemValues? d (itemSources items) = some items ↔ itemDepth items ≤ d ∧ ItemsReadBack items := by
  match items with
  | [] => simp [itemSources, itemValues?, itemDepth, ItemsReadBack]
  | v :: items =>
    have hv := value?_source_eq_some_iff v d
    have hi := itemValues?_source_eq_some_iff items d
    rw [itemSources, itemValues?, itemDepth, ItemsReadBack, Nat.max_le,
      and_and_and_comm, ← hv, ← hi]
    cases value? d v.source <;> cases itemValues? d (itemSources items) <;> simp

theorem memberValues?_source_eq_some_iff (members : List (String × Json)) (d : Nat) :
    memberValues? d (memberSources members) = some members
      ↔ memberDepth members ≤ d ∧ MembersReadBack members := by
  match members with
  | [] => simp [memberSources, memberValues?, memberDepth, MembersReadBack]
  | (key, v) :: members =>
    have hv := value?_source_eq_some_iff v d
    have hm := memberValues?_source_eq_some_iff members d
    rw [memberSources, memberValues?, memberDepth, MembersReadBack, Nat.max_le,
      and_and_and_comm, ← hv, ← hm]
    cases value? d v.source <;> cases memberValues? d (memberSources members) <;> simp

end

end Source

/-! ## Canonical texts -/

theorem keys_canonicalMembers (members : List (String × Json)) :
    (canonicalMembers members).map (·.1) = members.map (·.1) := by
  induction members with
  | nil => rfl
  | cons m members ih =>
    obtain ⟨key, v⟩ := m
    rw [canonicalMembers, List.map_cons, List.map_cons, ih]

theorem canonicalItems_eq_self {items : List Json} (h : ∀ v ∈ items, v.canonical = v) :
    canonicalItems items = items := by
  induction items with
  | nil => rfl
  | cons v items ih =>
    rw [canonicalItems, h v List.mem_cons_self, ih fun w hw => h w (List.mem_cons_of_mem _ hw)]

theorem canonicalMembers_eq_self {members : List (String × Json)}
    (h : ∀ m ∈ members, m.2.canonical = m.2) : canonicalMembers members = members := by
  induction members with
  | nil => rfl
  | cons m members ih =>
    obtain ⟨key, v⟩ := m
    have hv : v.canonical = v := h (key, v) List.mem_cons_self
    rw [canonicalMembers, hv, ih fun n hn => h n (List.mem_cons_of_mem _ hn)]

namespace Source

/-- A property of values, nested so deep at most, passes from the parts of a value to the value when
it is read. -/
structure Inherited (P : Nat → Json → Prop) : Prop where
  null : ∀ d, P d .null
  bool : ∀ d b, P d (.bool b)
  number : ∀ d (l : Literal) n, l.number? = some n → P d (.number n)
  string : ∀ d s, P d (.string s)
  array : ∀ d items, (∀ v ∈ items, P d v) → P (d + 1) (.array items)
  object : ∀ d (members : List (String × Json)), (∀ m ∈ members, P d m.2) →
    P (d + 1) (.object (sortMembers members))

namespace Inherited

variable {P : Nat → Json → Prop}

mutual

/-- **Such a property holds of everything that is read.** -/
theorem of_value? (hP : Inherited P) {s : Source} {d : Nat} {v : Json}
    (h : value? d s = some v) : P d v := by
  match s with
  | .null =>
    obtain rfl := Option.some.inj h
    exact hP.null d
  | .bool b =>
    obtain rfl := Option.some.inj h
    exact hP.bool d b
  | .number l =>
    obtain ⟨n, hn, rfl⟩ := Option.map_eq_some_iff.1 h
    exact hP.number d l n hn
  | .string s =>
    obtain ⟨t, -, rfl⟩ := Option.map_eq_some_iff.1 h
    exact hP.string d t
  | .array items =>
    cases d with
    | zero => simp [value?] at h
    | succ d =>
      rw [value?] at h
      obtain ⟨values, hvalues, rfl⟩ := Option.map_eq_some_iff.1 h
      exact hP.array d values (of_itemValues? hP hvalues)
  | .object members =>
    cases d with
    | zero => simp [value?] at h
    | succ d =>
      rw [value?] at h
      obtain ⟨values, hvalues, rfl⟩ := Option.map_eq_some_iff.1 h
      exact hP.object d values (of_memberValues? hP hvalues)

theorem of_itemValues? (hP : Inherited P) {items : List Source} {d : Nat} {values : List Json}
    (h : itemValues? d items = some values) : ∀ v ∈ values, P d v := by
  match items with
  | [] =>
    obtain rfl := Option.some.inj h
    exact fun v hv => absurd hv List.not_mem_nil
  | s :: items =>
    rw [itemValues?] at h
    obtain ⟨v, hv, h⟩ := Option.bind_eq_some_iff.1 h
    obtain ⟨rest, hrest, h⟩ := Option.bind_eq_some_iff.1 h
    obtain rfl := Option.some.inj h
    exact List.forall_mem_cons.2 ⟨of_value? hP hv, of_itemValues? hP hrest⟩

theorem of_memberValues? (hP : Inherited P) {members : List (Option String × Source)} {d : Nat}
    {values : List (String × Json)} (h : memberValues? d members = some values) :
    ∀ m ∈ values, P d m.2 := by
  match members with
  | [] =>
    obtain rfl := Option.some.inj h
    exact fun m hm => absurd hm List.not_mem_nil
  | (key, s) :: members =>
    rw [memberValues?] at h
    obtain ⟨k, -, h⟩ := Option.bind_eq_some_iff.1 h
    obtain ⟨v, hv, h⟩ := Option.bind_eq_some_iff.1 h
    obtain ⟨rest, hrest, h⟩ := Option.bind_eq_some_iff.1 h
    obtain rfl := Option.some.inj h
    exact List.forall_mem_cons.2 ⟨of_value? hP hv, of_memberValues? hP hrest⟩

end

end Inherited

theorem inherited_canonical : Inherited fun _ v => v.canonical = v where
  null _ := rfl
  bool _ _ := rfl
  number _ _ _ _ := rfl
  string _ _ := rfl
  array _ items hitems := by rw [canonical, canonicalItems_eq_self hitems]
  object _ members hmembers := by
    rw [canonical,
      canonicalMembers_eq_self fun m hm => hmembers m (mem_of_mem_sortMembers hm),
      sortMembers_eq_self (ascending_sortMembers members)]

theorem canonical_of_value? {s : Source} {d : Nat} {v : Json} (h : value? d s = some v) :
    v.canonical = v :=
  inherited_canonical.of_value? h

end Source

theorem ofText?_text (v : Json) : ofText? v.text = v.source.value? depthLimit := by
  rw [ofText?, Source.ofText?_text]
  rfl

theorem canonical_of_readsBack {v : Json} (h : v.ReadsBack) : v.canonical = v :=
  Source.canonical_of_value? ((Source.value?_source_eq_some_iff v v.depth).2 ⟨Nat.le_refl _, h⟩)

/-- **The canonical text of a value is read as the value exactly if the value reads back**, and is
nested no deeper than what is read at all. -/
theorem ofText?_canonicalText_iff (v : Json) :
    ofText? v.canonicalText = some v ↔ v.depth ≤ depthLimit ∧ v.ReadsBack := by
  rw [canonicalText, ofText?_text]
  constructor
  · intro h
    rw [Source.canonical_of_value? h] at h
    exact (Source.value?_source_eq_some_iff v depthLimit).1 h
  · rintro ⟨hdepth, hreads⟩
    rw [canonical_of_readsBack hreads]
    exact (Source.value?_source_eq_some_iff v depthLimit).2 ⟨hdepth, hreads⟩

end Json

end ChannelLog
