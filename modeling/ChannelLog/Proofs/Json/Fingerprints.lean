import ChannelLog.Proofs.Json.Bytes
import ChannelLog.Proofs.Json.Distinct

/-!
# Which fingerprints last

A value that was read is written, and read again. What comes back can be another value, with another
fingerprint, if it holds floating-point numbers.

* `Json.IsRead`: what is known of a value that was read. Of its parts only the floating-point numbers
  (`Json.numbers`) may not be read as themselves.
* `Json.fingerprint_eq_iff`: values have one fingerprint if they have one canonical text, or if the
  texts have one hash all the same.
* `Json.fingerprint_reread_iff`: **what was read is read again from its canonical text, with the same
  fingerprint exactly if all its floating-point numbers are read as themselves**, but for collisions
  of the hash.
-/

namespace ChannelLog.Json

/-! ## The numbers of a value -/

mutual

/-- The numbers in a value, in the order in which they are written. -/
def numbers : Json → List Number
  | number n => [n]
  | array items => itemNumbers items
  | object members => memberNumbers members
  | _ => []

def itemNumbers : List Json → List Number
  | [] => []
  | v :: items => numbers v ++ itemNumbers items

def memberNumbers : List (String × Json) → List Number
  | [] => []
  | (_, v) :: members => numbers v ++ memberNumbers members

end

theorem mem_itemNumbers_iff {items : List Json} {n : Number} :
    n ∈ itemNumbers items ↔ ∃ v ∈ items, n ∈ v.numbers := by
  induction items with
  | nil => simp [itemNumbers]
  | cons v items ih => simp [itemNumbers, ih]

theorem mem_memberNumbers_iff {members : List (String × Json)} {n : Number} :
    n ∈ memberNumbers members ↔ ∃ m ∈ members, n ∈ m.2.numbers := by
  induction members with
  | nil => simp [memberNumbers]
  | cons m members ih => simp [memberNumbers, ih]

theorem itemDepth_le_iff {items : List Json} {d : Nat} :
    itemDepth items ≤ d ↔ ∀ v ∈ items, v.depth ≤ d := by
  induction items with
  | nil => simp [itemDepth]
  | cons v items ih => rw [itemDepth, Nat.max_le, ih, List.forall_mem_cons]

theorem itemsInRange_iff {items : List Json} : ItemsInRange items ↔ ∀ v ∈ items, v.InRange := by
  induction items with
  | nil => simp [ItemsInRange]
  | cons v items ih => rw [ItemsInRange, ih, List.forall_mem_cons]

theorem itemsReadBack_iff {items : List Json} :
    ItemsReadBack items ↔ ∀ v ∈ items, v.ReadsBack := by
  induction items with
  | nil => simp [ItemsReadBack]
  | cons v items ih => rw [ItemsReadBack, ih, List.forall_mem_cons]

theorem membersReadBack_iff {members : List (String × Json)} :
    MembersReadBack members ↔ ∀ m ∈ members, m.2.ReadsBack := by
  induction members with
  | nil => simp [MembersReadBack]
  | cons m members ih => rw [MembersReadBack, ih, List.forall_mem_cons]

/-! ## Values that were read -/

/-- All floating-point numbers in the value are read as themselves. -/
def FloatsReadBack (v : Json) : Prop := ∀ x, .float x ∈ v.numbers → (Number.float x).ReadsBack

/-- What is known of a value that was read, nested at most `d` deep. -/
structure IsRead (d : Nat) (v : Json) : Prop where
  inRange : v.InRange
  depth_le : v.depth ≤ d
  readsBack_iff : v.ReadsBack ↔ v.FloatsReadBack

theorem isRead_array {d : Nat} {items : List Json} (h : ∀ v ∈ items, IsRead d v) :
    IsRead (d + 1) (.array items) where
  inRange := itemsInRange_iff.2 fun v hv => (h v hv).inRange
  depth_le := Nat.succ_le_succ (itemDepth_le_iff.2 fun v hv => (h v hv).depth_le)
  readsBack_iff := by
    show ItemsReadBack items ↔ ∀ x, .float x ∈ itemNumbers items → (Number.float x).ReadsBack
    rw [itemsReadBack_iff]
    constructor
    · intro hall x hx
      obtain ⟨v, hv, hmem⟩ := mem_itemNumbers_iff.1 hx
      exact (h v hv).readsBack_iff.1 (hall v hv) x hmem
    · intro hall v hv
      exact (h v hv).readsBack_iff.2 fun x hx => hall x (mem_itemNumbers_iff.2 ⟨v, hv, hx⟩)

theorem isRead_object {d : Nat} {members : List (String × Json)} (hascending : Ascending members)
    (h : ∀ m ∈ members, IsRead d m.2) : IsRead (d + 1) (.object members) where
  inRange := membersInRange_iff.2 fun m hm => (h m hm).inRange
  depth_le := Nat.succ_le_succ (memberDepth_le_iff.2 fun m hm => (h m hm).depth_le)
  readsBack_iff := by
    show Ascending members ∧ MembersReadBack members ↔
      ∀ x, .float x ∈ memberNumbers members → (Number.float x).ReadsBack
    rw [membersReadBack_iff]
    constructor
    · rintro ⟨-, hall⟩ x hx
      obtain ⟨m, hm, hmem⟩ := mem_memberNumbers_iff.1 hx
      exact (h m hm).readsBack_iff.1 (hall m hm) x hmem
    · intro hall
      refine ⟨hascending, fun m hm => ?_⟩
      exact (h m hm).readsBack_iff.2 fun x hx => hall x (mem_memberNumbers_iff.2 ⟨m, hm, hx⟩)

theorem isRead_number {l : Literal} {n : Number} (h : l.number? = some n) (d : Nat) :
    IsRead d (.number n) where
  inRange := by
    cases n with
    | integer i => exact Literal.isWord_of_number? h
    | float x => trivial
  depth_le := Nat.zero_le d
  readsBack_iff := by
    show n.ReadsBack ↔ ∀ x, .float x ∈ [n] → (Number.float x).ReadsBack
    cases n with
    | integer i => simp [Number.readsBack_integer (Literal.isWord_of_number? h)]
    | float x => simp

theorem isRead_plain {v : Json} (hrange : v.InRange) (hdepth : v.depth = 0) (hreads : v.ReadsBack)
    (hnumbers : v.numbers = []) (d : Nat) : IsRead d v where
  inRange := hrange
  depth_le := hdepth ▸ Nat.zero_le d
  readsBack_iff := iff_of_true hreads fun x hx => by
    rw [hnumbers] at hx
    exact absurd hx List.not_mem_nil

theorem inherited_isRead : Source.Inherited IsRead where
  null d := isRead_plain (by trivial) rfl (by trivial) rfl d
  bool d _ := isRead_plain (by trivial) rfl (by trivial) rfl d
  number d _ _ h := isRead_number h d
  string d _ := isRead_plain (by trivial) rfl (by trivial) rfl d
  array _ _ h := isRead_array h
  object _ members h := isRead_object (ascending_sortMembers members) fun m hm =>
    h m (mem_of_mem_sortMembers hm)

theorem exists_of_ofText? {text : String} {v : Json} (h : ofText? text = some v) :
    v.canonical = v ∧ IsRead depthLimit v := by
  obtain ⟨s, -, hs⟩ := Option.bind_eq_some_iff.1 h
  exact ⟨Source.canonical_of_value? hs, inherited_isRead.of_value? hs⟩

/-! ## Fingerprints -/

/-- Two texts that differ have one hash. -/
def Collide (a b : String) : Prop :=
  a ≠ b ∧ Keccak.hash (Bytes.utf8 a) = Keccak.hash (Bytes.utf8 b)

theorem digest_eq_iff {v w : Json} : v.digest = w.digest ↔
    v.canonicalText = w.canonicalText ∨ Collide v.canonicalText w.canonicalText := by
  by_cases htext : v.canonicalText = w.canonicalText
  · exact iff_of_true (by rw [digest, htext, ← digest]) (.inl htext)
  · exact ⟨fun h => .inr ⟨htext, h⟩, fun h => (h.resolve_left htext).2⟩

/-- **Values have one fingerprint if they have one canonical text**, or if their texts collide. -/
theorem fingerprint_eq_iff {v w : Json} : v.fingerprint = w.fingerprint ↔
    v.canonicalText = w.canonicalText ∨ Collide v.canonicalText w.canonicalText := by
  rw [← digest_eq_iff]
  constructor
  · intro h
    have hbytes := Hex.decodeMarked_encodeMarked v.digest
    rw [← fingerprint, h, fingerprint, Hex.decodeMarked_encodeMarked] at hbytes
    exact (Except.ok.inj hbytes).symm
  · intro h
    rw [fingerprint, h, ← fingerprint]

theorem canonicalText_inj {s t : String} {v w : Json} (hv : ofText? s = some v)
    (hw : ofText? t = some w) : v.canonicalText = w.canonicalText ↔ v = w := by
  rw [canonicalText, canonicalText, (exists_of_ofText? hv).1, (exists_of_ofText? hw).1]
  exact ⟨text_injective, congrArg _⟩

/-- **Values that were read are equal if their fingerprints are**, but for collisions. -/
theorem eq_or_collide_of_fingerprint_eq {s t : String} {v w : Json} (hv : ofText? s = some v)
    (hw : ofText? t = some w) (h : v.fingerprint = w.fingerprint) :
    v = w ∨ Collide v.canonicalText w.canonicalText := by
  rwa [fingerprint_eq_iff, canonicalText_inj hv hw] at h

/-- **What was read is read again from its canonical text, with the same fingerprint exactly if all
its floating-point numbers are read as themselves**; otherwise it has another canonical text, and so
the same fingerprint only if the two texts collide. -/
theorem fingerprint_reread_iff {text : String} {v : Json} (h : ofText? text = some v) :
    ∃ w, ofText? v.canonicalText = some w ∧ (w = v ↔ v.FloatsReadBack) ∧
      (w.canonicalText = v.canonicalText ↔ v.FloatsReadBack) ∧
      (w.fingerprint = v.fingerprint ↔
        v.FloatsReadBack ∨ Collide w.canonicalText v.canonicalText) := by
  obtain ⟨hcanonical, hread⟩ := exists_of_ofText? h
  obtain ⟨w, hw⟩ : ∃ w, ofText? v.canonicalText = some w := by
    rw [canonicalText, hcanonical, ofText?_text, ← Option.isSome_iff_exists,
      Source.isSome_value?_source hread.inRange]
    exact hread.depth_le
  have hsame : w = v ↔ v.FloatsReadBack := by
    have hself := ofText?_canonicalText_iff v
    rw [hw, Option.some.injEq, hread.readsBack_iff] at hself
    exact hself.trans (and_iff_right hread.depth_le)
  have htext : w.canonicalText = v.canonicalText ↔ w = v := canonicalText_inj hw h
  refine ⟨w, hw, hsame, htext.trans hsame, ?_⟩
  rw [fingerprint_eq_iff, htext, hsame]

theorem fingerprint_reread_whole : ∃ w,
    ofText? "[-1, [true]]" = some (.array [.number (.integer (-1)), .array [.bool true]]) ∧
    ofText? (canonicalText (.array [.number (.integer (-1)), .array [.bool true]])) = some w ∧
    w.fingerprint = fingerprint (.array [.number (.integer (-1)), .array [.bool true]]) := by
  have hread : ofText? "[-1, [true]]"
      = some (.array [.number (.integer (-1)), .array [.bool true]]) := by decide +kernel
  have hwhole : FloatsReadBack (.array [.number (.integer (-1)), .array [.bool true]]) := by
    intro x hx
    simp [numbers, itemNumbers] at hx
  obtain ⟨w, hw, -, -, hsame⟩ := fingerprint_reread_iff hread
  exact ⟨w, hread, hw, hsame.2 (.inl hwhole)⟩

/-! ## A number that is never read as itself -/

/-- Two numbers, each of which is read from the text of the other one. -/
structure Swapped where
  first : Json
  second : Json
  read_second : ofText? second.canonicalText = some first
  read_first : ofText? first.canonicalText = some second
  fingerprints_ne : second.fingerprint ≠ first.fingerprint

/-- Neighbours next to `10 ^ (-24)`. -/
def neighbours : Swapped where
  first := .number (.float ⟨false, ⟨4247835366853742248, by decide⟩⟩)
  second := .number (.float ⟨false, ⟨4247835366853742247, by decide⟩⟩)
  read_second := by decide +kernel
  read_first := by decide +kernel
  fingerprints_ne := by
    rw [fingerprint, fingerprint, digest_eq, digest_eq]
    decide +kernel

theorem text_neighbours : neighbours.second.canonicalText = "1e-24" := by decide +kernel

/-- **The fingerprint of a number changes** when it is written and read again. -/
theorem fingerprint_changed : ∃ v w, ofText? "1e-24" = some v ∧
    ofText? v.canonicalText = some w ∧ w.fingerprint ≠ v.fingerprint := by
  refine ⟨neighbours.first, neighbours.second, ?_, neighbours.read_first,
    neighbours.fingerprints_ne⟩
  rw [← text_neighbours]
  exact neighbours.read_second

end ChannelLog.Json
