import ChannelLog.Proofs.Block.Single
import ChannelLog.Proofs.Bytes.Hex
import Mathlib.Data.List.Sort

/-!
# The index of a block says where its transactions are

A push lists the new position under each of its topics, and looks only at the end of a list to find
out whether the position stands there already.

* `Block.validate_eq_ok_iff`: what validation asks for is `Block.Consistent`: there is a version, and
  every topic lists positions of transactions, none twice.
* `Block.positions_push`, `Block.Consistent.push`: in a consistent block the new position is larger than
  all that are listed, so that it comes last and once under each of its topics. The block stays
  consistent.
* `Block.pushAll_indexed`: **after any pushes every topic lists what it listed before, and then the
  positions of the transactions that were pushed under it**, ascending.
-/

namespace ChannelLog

/-! ## Positions of a topic -/

/-- Appends `position` unless it is the last one. -/
def markLast (positions : List Nat) (position : Nat) : List Nat :=
  if positions.getLast? = some position then positions else positions ++ [position]

theorem markLast_idem (positions : List Nat) (position : Nat) :
    markLast (markLast positions position) position = markLast positions position := by
  have hlast : (markLast positions position).getLast? = some position := by
    unfold markLast
    split
    · assumption
    · exact List.getLast?_concat
  exact if_pos hlast

theorem markLast_fresh {positions : List Nat} {position : Nat} (h : ∀ p ∈ positions, p < position) :
    markLast positions position = positions ++ [position] := by
  refine if_neg fun hlast => ?_
  exact Nat.lt_irrefl _ (h position (List.mem_of_getLast? hlast))

namespace Block

theorem positions_register (position : Nat) (index : Dict (List Nat)) (topic k : String) :
    ((register position index topic).get? k).getD []
      = if k = topic then markLast ((index.get? k).getD []) position
        else (index.get? k).getD [] := by
  by_cases hlast : ((index.get? topic).getD []).getLast? = some position
  · have hsame : register position index topic = index := if_pos hlast
    rw [hsame]
    split
    · next hk =>
      rw [hk]
      exact (if_pos hlast).symm
    · rfl
  · have hnew : register position index topic
        = index.insert topic ((index.get? topic).getD [] ++ [position]) := if_neg hlast
    rw [hnew, Dict.get?_insert]
    split
    · next hk =>
      rw [hk]
      exact (if_neg hlast).symm
    · rfl

theorem positions_foldl_register (position : Nat) (topics : List String) (index : Dict (List Nat))
    (k : String) :
    ((topics.foldl (register position) index).get? k).getD []
      = if k ∈ topics then markLast ((index.get? k).getD []) position
        else (index.get? k).getD [] := by
  induction topics generalizing index with
  | nil => simp
  | cons topic topics ih =>
    rw [List.foldl_cons, ih, positions_register]
    by_cases ht : k = topic
    · have hmem : k ∈ topic :: topics := List.mem_cons.2 (.inl ht)
      rw [if_pos ht, if_pos hmem, markLast_idem, ite_self]
    · have hmem : k ∈ topic :: topics ↔ k ∈ topics := by simp [ht]
      simp only [if_neg ht, hmem]

theorem positions_push_eq (b : Block) (t : Transaction) (topics : List String) (topic : String) :
    (b.push t topics).positions topic
      = if topic ∈ topics ++ [t.contentHash] then
          markLast (b.positions topic) b.transactions.length
        else b.positions topic :=
  positions_foldl_register _ _ _ _

/-! ## What validation asks for -/

/-- There is a version, and every topic lists positions of transactions, none twice. -/
structure Consistent (b : Block) : Prop where
  version : b.header.version ≠ ""
  inRange : ∀ topic, ∀ p ∈ b.positions topic, p < b.transactions.length
  nodup : ∀ topic, (b.positions topic).Nodup

theorem checkPositions_eq_ok_iff {topic : String} {count : Nat} {seen positions : List Nat} :
    checkPositions topic count seen positions = .ok ()
      ↔ (∀ p ∈ positions, p < count) ∧ positions.Nodup ∧ ∀ p ∈ positions, p ∉ seen := by
  induction positions generalizing seen with
  | nil => simp [checkPositions]
  | cons position positions ih =>
    rw [checkPositions, List.forall_mem_cons, List.nodup_cons, List.forall_mem_cons]
    by_cases hrange : count ≤ position
    · rw [if_pos hrange]
      exact iff_of_false (fun h => nomatch h) fun h => absurd h.1.1 (by omega)
    · rw [if_neg hrange]
      by_cases hseen : position ∈ seen
      · rw [if_pos hseen]
        exact iff_of_false (fun h => nomatch h) fun h => h.2.2.1 hseen
      · rw [if_neg hseen, ih]
        have hnew : (∀ p ∈ positions, p ∉ position :: seen)
            ↔ position ∉ positions ∧ ∀ p ∈ positions, p ∉ seen := by
          simp only [List.mem_cons, not_or, forall_and, List.forall_mem_ne']
        have hlt : position < count := by omega
        rw [hnew]
        tauto

theorem forM_eq_ok_iff {α ε : Type} {f : α → Except ε Unit} {xs : List α} :
    xs.forM f = .ok () ↔ ∀ x ∈ xs, f x = .ok () := by
  refine ⟨fun h => ?_, forM_eq_ok⟩
  induction xs with
  | nil => exact fun x hx => absurd hx List.not_mem_nil
  | cons x xs ih =>
    change (f x >>= fun _ => xs.forM f) = .ok () at h
    cases hx : f x with
    | error e => exact nomatch hx ▸ h
    | ok u =>
      rw [hx] at h
      exact List.forall_mem_cons.2 ⟨hx, ih h⟩

/-- **Validation accepts exactly the consistent blocks.** -/
theorem validate_eq_ok_iff {b : Block} : b.validate = .ok () ↔ b.Consistent := by
  have hentry : ∀ e ∈ b.header.index.entries, b.positions e.1 = e.2 := fun e he => by
    rw [positions, Dict.get?_eq_some_iff.2 he, Option.getD_some]
  -- a topic that is no key lists nothing
  have hcases : ∀ topic, b.positions topic = [] ∨
      (topic, b.positions topic) ∈ b.header.index.entries := by
    intro topic
    cases hg : b.header.index.get? topic with
    | none => exact .inl (by rw [positions, hg, Option.getD_none])
    | some ps =>
      have hmem := Dict.get?_eq_some_iff.1 hg
      exact .inr (hentry _ hmem ▸ hmem)
  rw [validate]
  split
  · next hv => exact iff_of_false (by simp) fun h => h.version hv
  · next hv =>
    rw [forM_eq_ok_iff]
    constructor
    · intro h
      have htopic : ∀ topic, (∀ p ∈ b.positions topic, p < b.transactions.length) ∧
          (b.positions topic).Nodup := by
        intro topic
        rcases hcases topic with hnil | hmem
        · rw [hnil]
          exact ⟨fun p hp => absurd hp List.not_mem_nil, List.nodup_nil⟩
        · obtain ⟨hrange, hnodup, -⟩ := checkPositions_eq_ok_iff.1 (h _ hmem)
          exact ⟨hrange, hnodup⟩
      exact ⟨hv, fun topic => (htopic topic).1, fun topic => (htopic topic).2⟩
    · intro h e he
      have hrange := h.inRange e.1
      have hnodup := h.nodup e.1
      rw [hentry e he] at hrange hnodup
      exact checkPositions_eq_ok_iff.2 ⟨hrange, hnodup, fun p _ => List.not_mem_nil⟩

/-! ## One push -/

section

variable {b : Block}

/-- **A push lists the new position last under its topics**, and changes nothing under others. -/
theorem Consistent.positions_push (h : b.Consistent) (t : Transaction) (topics : List String)
    (topic : String) :
    (b.push t topics).positions topic
      = b.positions topic
        ++ if topic ∈ topics ++ [t.contentHash] then [b.transactions.length] else [] := by
  rw [positions_push_eq]
  split
  · exact markLast_fresh (h.inRange topic)
  · rw [List.append_nil]

theorem length_push (b : Block) (t : Transaction) (topics : List String) :
    (b.push t topics).transactions.length = b.transactions.length + 1 := List.length_append

/-- **A push keeps a block consistent.** -/
theorem Consistent.push (h : b.Consistent) (t : Transaction) (topics : List String) :
    (b.push t topics).Consistent where
  version := h.version
  inRange topic p hp := by
    rw [h.positions_push, List.mem_append] at hp
    rw [length_push]
    rcases hp with hp | hp
    · exact Nat.lt_succ_of_lt (h.inRange topic p hp)
    · split at hp
      · rw [List.mem_singleton.1 hp]
        exact Nat.lt_succ_self _
      · exact absurd hp List.not_mem_nil
  nodup topic := by
    rw [h.positions_push]
    split
    · refine List.nodup_append.2 ⟨h.nodup topic, List.nodup_singleton _, fun p hp q hq => ?_⟩
      rw [List.mem_singleton.1 hq]
      exact Nat.ne_of_lt (h.inRange topic p hp)
    · rw [List.append_nil]
      exact h.nodup topic

end

end Block

/-! ## Several pushes -/

/-- A transaction to be pushed, and the topics given for it. -/
structure Push where
  transaction : Transaction
  topics : List String

namespace Push

/-- The topic is one of those given, or the hash of the transaction. -/
def IsUnder (p : Push) (topic : String) : Prop :=
  topic ∈ p.topics ∨ topic = p.transaction.contentHash

instance (topic : String) : DecidablePred (IsUnder · topic) := fun p =>
  inferInstanceAs (Decidable (topic ∈ p.topics ∨ topic = p.transaction.contentHash))

theorem mem_topics_iff {p : Push} {topic : String} :
    topic ∈ p.topics ++ [p.transaction.contentHash] ↔ p.IsUnder topic := by
  rw [List.mem_append, List.mem_singleton]
  rfl

/-- The positions that come under a topic when the first push goes to `start`. -/
def places (topic : String) (start : Nat) (pushes : List Push) : List Nat :=
  ((pushes.zipIdx start).filter (·.1.IsUnder topic)).map (·.2)

theorem places_cons (topic : String) (start : Nat) (p : Push) (pushes : List Push) :
    places topic start (p :: pushes)
      = (if topic ∈ p.topics ++ [p.transaction.contentHash] then [start] else [])
        ++ places topic (start + 1) pushes := by
  rw [places, List.zipIdx_cons]
  by_cases h : p.IsUnder topic
  · rw [List.filter_cons_of_pos (by simpa using h), if_pos (mem_topics_iff.2 h)]
    rfl
  · rw [List.filter_cons_of_neg (by simpa using h), if_neg (mt mem_topics_iff.1 h)]
    rfl

theorem pairwise_places (topic : String) (start : Nat) (pushes : List Push) :
    (places topic start pushes).Pairwise (· < ·) := by
  have hsub : (places topic start pushes).Sublist ((pushes.zipIdx start).map (·.2)) :=
    List.filter_sublist.map _
  have hall : ((pushes.zipIdx start).map (·.2)).Pairwise (· < ·) := by
    rw [List.zipIdx_map_snd]
    exact List.pairwise_lt_range' 1
  exact hall.sublist hsub

theorem mem_places_iff {topic : String} {start position : Nat} {pushes : List Push} :
    position ∈ places topic start pushes
      ↔ ∃ i p, pushes[i]? = some p ∧ position = start + i ∧ p.IsUnder topic := by
  simp only [places, List.mem_map, List.mem_filter, decide_eq_true_eq,
    List.mem_zipIdx_iff_le_and_getElem?_sub]
  constructor
  · rintro ⟨⟨p, position⟩, ⟨⟨hle, hp⟩, hunder⟩, rfl⟩
    exact ⟨position - start, p, hp, (Nat.add_sub_cancel' hle).symm, hunder⟩
  · rintro ⟨i, p, hp, rfl, hunder⟩
    exact ⟨(p, start + i), ⟨⟨Nat.le_add_right _ _, by rwa [Nat.add_sub_cancel_left]⟩, hunder⟩, rfl⟩

end Push

namespace Block

def pushAll (b : Block) (pushes : List Push) : Block :=
  pushes.foldl (fun b p => b.push p.transaction p.topics) b

section

variable {b : Block}

theorem transactions_pushAll (b : Block) (pushes : List Push) :
    (b.pushAll pushes).transactions = b.transactions ++ pushes.map (·.transaction) := by
  induction pushes generalizing b with
  | nil => rw [List.map_nil, List.append_nil, pushAll, List.foldl_nil]
  | cons p pushes ih =>
    rw [pushAll, List.foldl_cons]
    refine (ih _).trans ?_
    rw [List.map_cons, Block.push, List.append_assoc, List.singleton_append]

theorem version_pushAll (b : Block) (pushes : List Push) :
    (b.pushAll pushes).header.version = b.header.version := by
  induction pushes generalizing b with
  | nil => rfl
  | cons p pushes ih => exact ih (b.push p.transaction p.topics)

theorem Consistent.pushAll (h : b.Consistent) (pushes : List Push) :
    (b.pushAll pushes).Consistent := by
  induction pushes generalizing b with
  | nil => exact h
  | cons p pushes ih => exact ih (h.push p.transaction p.topics)

theorem Consistent.positions_pushAll (h : b.Consistent) (pushes : List Push) (topic : String) :
    (b.pushAll pushes).positions topic
      = b.positions topic ++ Push.places topic b.transactions.length pushes := by
  induction pushes generalizing b with
  | nil => exact (List.append_nil _).symm
  | cons p pushes ih =>
    have hrest := ih (h.push p.transaction p.topics)
    rw [length_push, h.positions_push, List.append_assoc] at hrest
    rw [Push.places_cons]
    exact hrest

/-- **After any pushes a block still says where its transactions are.** They stand in the order of the
pushes after those that were there; every topic lists what it listed before, and then, ascending, the
positions of the transactions that were pushed under it or have it as their hash; and the block is
still valid. The lists that were there, as those of a block that was read, may have any order. -/
theorem pushAll_indexed (h : b.validate = .ok ()) (pushes : List Push) :
    (b.pushAll pushes).transactions = b.transactions ++ pushes.map (·.transaction) ∧
    (∀ topic, ∃ new, (b.pushAll pushes).positions topic = b.positions topic ++ new ∧
      new.Pairwise (· < ·) ∧
      ∀ position, position ∈ new ↔ ∃ i p, pushes[i]? = some p ∧
        position = b.transactions.length + i ∧
        (topic ∈ p.topics ∨ topic = p.transaction.contentHash)) ∧
    (b.pushAll pushes).header.version = b.header.version ∧
    (b.pushAll pushes).validate = .ok () := by
  have hb := validate_eq_ok_iff.1 h
  refine ⟨transactions_pushAll b pushes, fun topic => ?_, version_pushAll b pushes,
    validate_eq_ok_iff.2 (hb.pushAll pushes)⟩
  exact ⟨_, hb.positions_pushAll pushes topic, Push.pairwise_places _ _ _,
    fun position => Push.mem_places_iff⟩

/-! ## A block that was read -/

def plain (b : Bool) : Transaction := ⟨.clear (.bool b), .ecdsa, ""⟩

/-- A block with a list that is not ascending. -/
def turned : Block :=
  ⟨⟨"1", (∅ : Dict (List Nat)).insert "t" [1, 0]⟩, [plain true, plain false]⟩

/-- The second is pushed under its hash alone, the third once more under its own. -/
def somePushes : List Push :=
  [⟨plain true, ["t", "t"]⟩, ⟨plain false, []⟩, ⟨plain true, ["t", (plain true).contentHash]⟩]

theorem t_ne_contentHash (t : Transaction) : "t" ≠ t.contentHash := by
  intro h
  have hmark := congrArg (·.toList.head?) h
  rw [Transaction.contentHash, Json.fingerprint] at hmark
  simp [Hex.toList_encodeMarked] at hmark

theorem turned_indexed : turned.validate = .ok () ∧
    (turned.pushAll somePushes).positions "t" = [1, 0, 2, 4] ∧
    (turned.pushAll somePushes).validate = .ok () := by
  have hvalid : turned.validate = .ok () := by decide
  obtain ⟨-, hpositions, -, hstill⟩ := pushAll_indexed hvalid somePushes
  obtain ⟨new, hnew, hsorted, hmem⟩ := hpositions "t"
  have heq : new = [2, 4] := by
    refine hsorted.eq_of_mem_iff (by decide) fun position => (hmem position).trans ?_
    constructor
    · rintro ⟨i, p, hp, rfl, hunder | hhash⟩
      · match i with
        | 0 => decide
        | 1 =>
          obtain rfl := Option.some.inj hp
          exact absurd hunder List.not_mem_nil
        | 2 => decide
        | i + 3 => simp [somePushes] at hp
      · exact absurd hhash (t_ne_contentHash _)
    · intro h
      rcases List.mem_cons.1 h with rfl | h
      · exact ⟨0, _, rfl, rfl, .inl List.mem_cons_self⟩
      · obtain rfl := List.mem_singleton.1 h
        exact ⟨2, _, rfl, rfl, .inl List.mem_cons_self⟩
  rw [heq] at hnew
  exact ⟨hvalid, hnew, hstill⟩

end

end Block

end ChannelLog
