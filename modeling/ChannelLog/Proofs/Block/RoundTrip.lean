import ChannelLog.Proofs.Json.Fingerprints
import ChannelLog.Proofs.Log.Fidelity

/-!
# Which blocks come back as they were written

A block is written with everything it holds: its version, the positions of each topic as they stand,
and the transactions in their order. What can change when it is read is a payload.

* `Json.Whole`: the payloads that are safe, whose numbers are whole ones of 64 bits. They read back as
  themselves (`Json.Whole.readsBack`).
* `Block.ofText?_text_eq_some_iff`: **a block is read as itself exactly if all its contents are
  faithful and nested no deeper than the limit.**
* `Block.ofText?_text_whole`: so blocks with safe payloads come back unchanged, whatever texts and
  positions they hold.
-/

namespace ChannelLog

/-! ## Values in canonical form -/

namespace Json

theorem canonical_object_eq_self_iff {members : List (String × Json)} :
    canonical (.object members) = .object members
      ↔ Ascending members ∧ canonicalMembers members = members := by
  rw [canonical, Json.object.injEq]
  constructor
  · intro h
    have hascending : Ascending members := h ▸ ascending_sortMembers (canonicalMembers members)
    refine ⟨hascending, ?_⟩
    rwa [sortMembers_eq_self (hascending.of_keys (keys_canonicalMembers members))] at h
  · rintro ⟨hascending, hmembers⟩
    rw [hmembers, sortMembers_eq_self hascending]

mutual

theorem readsBack_of_canonical {v : Json} (h : v.canonical = v)
    (hnumbers : ∀ n ∈ v.numbers, n.ReadsBack) : v.ReadsBack := by
  match v with
  | .null | .bool _ | .string _ => trivial
  | .number n => exact hnumbers n (List.mem_singleton_self n)
  | .array items =>
    rw [canonical, Json.array.injEq] at h
    exact itemsReadBack_of_canonical h hnumbers
  | .object members =>
    obtain ⟨hascending, hmembers⟩ := canonical_object_eq_self_iff.1 h
    exact ⟨hascending, membersReadBack_of_canonical hmembers hnumbers⟩

theorem itemsReadBack_of_canonical {items : List Json} (h : canonicalItems items = items)
    (hnumbers : ∀ n ∈ itemNumbers items, n.ReadsBack) : ItemsReadBack items := by
  match items with
  | [] => trivial
  | v :: items =>
    rw [canonicalItems, List.cons.injEq] at h
    rw [itemNumbers, List.forall_mem_append] at hnumbers
    exact ⟨readsBack_of_canonical h.1 hnumbers.1, itemsReadBack_of_canonical h.2 hnumbers.2⟩

theorem membersReadBack_of_canonical {members : List (String × Json)}
    (h : canonicalMembers members = members)
    (hnumbers : ∀ n ∈ memberNumbers members, n.ReadsBack) : MembersReadBack members := by
  match members with
  | [] => trivial
  | (key, v) :: members =>
    rw [canonicalMembers, List.cons.injEq, Prod.mk.injEq] at h
    rw [memberNumbers, List.forall_mem_append] at hnumbers
    exact ⟨readsBack_of_canonical h.1.2 hnumbers.1, membersReadBack_of_canonical h.2 hnumbers.2⟩

end

/-- A value without floating-point numbers: those that it holds are whole ones of 64 bits, unsigned
or, if negative, signed. The members of its objects are in order, as they are in every value that was
read. -/
structure Whole (v : Json) : Prop where
  canonical : v.canonical = v
  numbers : ∀ n ∈ v.numbers, ∃ i, n = .integer i ∧ Number.IsWord i

/-- **Values without floating-point numbers read back as themselves.** -/
theorem Whole.readsBack {v : Json} (h : v.Whole) : v.ReadsBack := by
  refine readsBack_of_canonical h.canonical fun n hn => ?_
  obtain ⟨i, rfl, hi⟩ := h.numbers n hn
  exact Number.readsBack_integer hi

theorem mapM_eq_some_self_iff {α : Type} {f : α → Option α} {xs : List α} :
    xs.mapM f = some xs ↔ ∀ x ∈ xs, f x = some x := by
  induction xs with
  | nil => simp
  | cons x xs ih =>
    rw [List.mapM_cons, List.forall_mem_cons, ← ih]
    cases f x <;> cases xs.mapM f <;> simp

end Json

/-! ## Transactions -/

/-- **A transaction is read as itself exactly if its content is faithful**, and its payload nested no
deeper than what is left at its place. -/
theorem Transaction.ofSource?_source_eq_some_iff (t : Transaction) {depth : Nat}
    (hdepth : 0 < depth) :
    ofSource? depth t.toJson.source = some t
      ↔ t.content.Faithful ∧ t.content.payloadDepth ≤ depth := by
  constructor
  · intro h
    have hfaithful : t.content.Faithful := (eq_iff_of_ofSource?_source h).1 rfl
    refine ⟨hfaithful, ?_⟩
    rw [← isSome_ofSource?_source hfaithful.inRange depth hdepth, h, Option.isSome_some]
  · rintro ⟨hfaithful, hle⟩
    have hsome := (isSome_ofSource?_source hfaithful.inRange depth hdepth).2 hle
    obtain ⟨u, hu⟩ := Option.isSome_iff_exists.1 hsome
    rw [hu, (eq_iff_of_ofSource?_source hu).2 hfaithful]

/-! ## Blocks -/

namespace Block

/-- **A block is read as itself exactly if all its contents are faithful** and nested no deeper than
the limit. -/
theorem ofText?_text_eq_some_iff {b : Block} (h : b.PositionsInRange) :
    ofText? b.text = some b
      ↔ ∀ t ∈ b.transactions, t.content.Faithful ∧ t.content.payloadDepth ≤ payloadLimit := by
  obtain ⟨header, transactions⟩ := b
  rw [ofText?_text h]
  simp only [Option.map_eq_some_iff, Block.mk.injEq, true_and, exists_eq_right,
    Json.mapM_eq_some_self_iff]
  exact forall₂_congr fun t _ => t.ofSource?_source_eq_some_iff (by decide)

/-- **A block with safe payloads comes back as it was written**: with its version, the same topics,
the positions of each in their order, and the transactions in theirs. A payload is safe if it is not
`null`, has no floating-point numbers, and is nested at most 124 levels; the texts of the block may be
any, and so may its positions, which need not be those of transactions. -/
theorem ofText?_text_whole {b : Block} (hpositions : b.PositionsInRange)
    (hpayloads : ∀ t ∈ b.transactions, ∀ v, t.content.data = some v →
      v ≠ .null ∧ v.Whole ∧ v.depth ≤ 124) :
    ofText? b.text = some b := by
  rw [ofText?_text_eq_some_iff hpositions]
  intro t ht
  constructor
  · intro v hv
    obtain ⟨hnull, hwhole, -⟩ := hpayloads t ht v hv
    exact ⟨hnull, hwhole.readsBack⟩
  · rw [Content.payloadDepth]
    cases hdata : t.content.data with
    | none => exact Nat.zero_le _
    | some v => exact (hpayloads t ht v hdata).2.2

def extremePayload : Json :=
  .object [("", .array [.number (.integer (-9223372036854775808)), .null]),
    ("\"\\\x00é", .object [("z", .number (.integer 18446744073709551615))])]

/-- A block that validation would refuse: it has no version, and lists positions that are not
there. -/
def oddBlock : Block :=
  ⟨⟨"", Dict.ofList [("\n\u2028", [7, 0, 7, 18446744073709551615]), ("", [])]⟩,
    [⟨{ data := some extremePayload, hash := some "" }, .ecdsa, "no signature"⟩,
      ⟨{ keys := some (Dict.ofList [("\t", "")]), encryptionMethod := some "\x7f" }, .ecdsa, ""⟩]⟩

theorem ofText?_oddBlock : oddBlock.PositionsInRange ∧ extremePayload.Whole ∧
    ofText? oddBlock.text = some oddBlock := by
  have hpositions : oddBlock.PositionsInRange := by
    show ∀ e ∈ oddBlock.header.index.entries, ∀ p ∈ e.2, p < UInt64.size
    decide
  have hwhole : extremePayload.Whole := by
    refine ⟨by decide, fun n hn => ?_⟩
    have hcases : n = .integer (-9223372036854775808) ∨ n = .integer 18446744073709551615 := by
      simpa [extremePayload, Json.numbers, Json.itemNumbers, Json.memberNumbers] using hn
    rcases hcases with rfl | rfl
    · exact ⟨_, rfl, by decide, by decide⟩
    · exact ⟨_, rfl, by decide, by decide⟩
  refine ⟨hpositions, hwhole, ofText?_text_whole hpositions fun t ht v hv => ?_⟩
  rcases List.mem_cons.1 ht with rfl | ht
  · obtain rfl := Option.some.inj hv
    exact ⟨by simp [extremePayload], hwhole, by decide⟩
  · obtain rfl := List.mem_singleton.1 ht
    simp at hv

end Block

end ChannelLog
