import ChannelLog.Proofs.Block.Pushing
import Mathlib.Data.List.Perm.Subperm

/-!
# Which transactions of a block are found

Asking for positions depends on nothing but which positions of the block are among them.

* `Block.Selects`: the transactions at the positions that are wanted, in the order of the block and
  each position once; `Selects.eq`, they are determined by the positions wanted.
* `Block.length_transactionsAt_eq_iff`: **no position asked for is skipped or merged with another
  exactly if** all are those of transactions and none is asked for twice.
* `Block.retrieval_by_set`: **the transactions at some positions, the positions of some topics and the
  transactions of some topics depend on the sets of positions and topics alone**, in any block.
-/

namespace ChannelLog

/-! ## Sorted positions without repetitions -/

theorem eraseReps_loop (a : Nat) (xs acc : List Nat) :
    List.eraseRepsBy.loop (· == ·) a xs acc = acc.reverse ++ (a :: xs).eraseReps := by
  induction xs generalizing a acc with
  | nil => exact List.reverse_cons
  | cons b xs ih =>
    show List.eraseRepsBy.loop _ a (b :: xs) acc
      = acc.reverse ++ List.eraseRepsBy.loop _ a (b :: xs) []
    rw [List.eraseRepsBy.loop, List.eraseRepsBy.loop]
    split
    · exact ih a acc
    · rw [ih b (a :: acc), ih b [a], List.reverse_cons, List.append_assoc]
      rfl

theorem eraseReps_cons_cons (a b : Nat) (xs : List Nat) : (a :: b :: xs).eraseReps
    = if a = b then (b :: xs).eraseReps else a :: (b :: xs).eraseReps := by
  show List.eraseRepsBy.loop (· == ·) a (b :: xs) [] = _
  rw [List.eraseRepsBy.loop, eraseReps_loop, eraseReps_loop]
  split
  · next h =>
    obtain rfl := beq_iff_eq.1 h
    exact (if_pos rfl).symm
  · next h => exact (if_neg (beq_eq_false_iff_ne.1 h)).symm

theorem mem_eraseReps {p : Nat} {xs : List Nat} : p ∈ xs.eraseReps ↔ p ∈ xs := by
  induction xs with
  | nil => rfl
  | cons a xs ih =>
    cases xs with
    | nil => rfl
    | cons b xs =>
      rw [eraseReps_cons_cons]
      split
      · next h => simp [ih, h]
      · rw [List.mem_cons, ih, ← List.mem_cons]

theorem pairwise_eraseReps {xs : List Nat} (h : xs.Pairwise (· ≤ ·)) :
    xs.eraseReps.Pairwise (· < ·) := by
  induction xs with
  | nil => exact List.Pairwise.nil
  | cons a xs ih =>
    cases xs with
    | nil => exact List.pairwise_singleton _ _
    | cons b xs =>
      obtain ⟨hle, hrest⟩ := List.pairwise_cons.1 h
      rw [eraseReps_cons_cons]
      split
      · exact ih hrest
      · next hne =>
        refine List.pairwise_cons.2 ⟨fun p hp => ?_, ih hrest⟩
        have hab : a < b := Nat.lt_of_le_of_ne (hle b List.mem_cons_self) hne
        rcases List.mem_cons.1 (mem_eraseReps.1 hp) with rfl | hp
        · exact hab
        · exact Nat.lt_of_lt_of_le hab ((List.pairwise_cons.1 hrest).1 p hp)

namespace Block

variable {b : Block} {wanted wanted' : Nat → Prop} {found found' : List Transaction}
  {positions : List Nat} {topics : List String}

/-! ## Transactions at positions -/

/-- `found` are the transactions at the positions that are wanted, in the order of the block and each
position once. -/
def Selects (b : Block) (wanted : Nat → Prop) (found : List Transaction) : Prop :=
  ∃ places : List Nat, places.Pairwise (· < ·) ∧
    (∀ p, p ∈ places ↔ p < b.transactions.length ∧ wanted p) ∧
    found.map some = places.map (b.transactions[·]?)

/-- **What is selected is determined** by which positions of the block are wanted. -/
theorem Selects.eq (h : b.Selects wanted found) (h' : b.Selects wanted' found')
    (hsame : ∀ p < b.transactions.length, wanted p ↔ wanted' p) : found = found' := by
  obtain ⟨places, hsorted, hmem, hfound⟩ := h
  obtain ⟨places', hsorted', hmem', hfound'⟩ := h'
  have hplaces : places = places' := hsorted.eq_of_mem_iff hsorted' fun p => by
    rw [hmem, hmem', and_congr_right (hsame p)]
  apply List.map_injective_iff.2 (Option.some_injective Transaction)
  rw [hfound, hfound', hplaces]

theorem Selects.congr (h : b.Selects wanted found) (hsame : ∀ p, wanted p ↔ wanted' p) :
    b.Selects wanted' found := by
  obtain ⟨places, hsorted, hmem, hfound⟩ := h
  exact ⟨places, hsorted, fun p => (hmem p).trans (and_congr_right' (hsame p)), hfound⟩

theorem mem_ascending {p : Nat} : p ∈ ascending positions ↔ p ∈ positions := by
  rw [ascending, mem_eraseReps, List.mem_mergeSort]

theorem pairwise_ascending (positions : List Nat) : (ascending positions).Pairwise (· < ·) :=
  pairwise_eraseReps (List.pairwise_mergeSort' (· ≤ ·) _)

/-- **The transactions found are those at the positions asked for.** -/
theorem selects_transactionsAt (b : Block) (positions : List Nat) :
    b.Selects (· ∈ positions) (b.transactionsAt positions) := by
  refine ⟨(ascending positions).filter (b.transactions[·]?.isSome),
    (pairwise_ascending positions).filter _, fun p => ?_, ?_⟩
  · rw [List.mem_filter, mem_ascending, and_comm, isSome_getElem?]
  · rw [transactionsAt, List.map_filterMap_some_eq_filter_map_isSome, List.filter_map]
    rfl

/-- The transactions of a block, one after the other, of which those at the positions are kept. -/
def scan (b : Block) (positions : List Nat) : List Transaction :=
  b.transactions.zipIdx.filterMap fun (t, i) => if i ∈ positions then some t else none

theorem scan_eq_map (b : Block) (positions : List Nat) : b.scan positions
    = (b.transactions.zipIdx.filter (·.2 ∈ positions)).map (·.1) := by
  rw [scan, ← List.filterMap_eq_map, List.filterMap_filter]
  congr 1
  funext e
  simp

theorem selects_scan (b : Block) (positions : List Nat) :
    b.Selects (· ∈ positions) (b.scan positions) := by
  refine ⟨(b.transactions.zipIdx.filter (·.2 ∈ positions)).map (·.2), ?_, fun p => ?_, ?_⟩
  · have hall : (b.transactions.zipIdx.map (·.2)).Pairwise (· < ·) := by
      rw [List.zipIdx_map_snd]
      exact List.pairwise_lt_range' 1
    exact hall.sublist (List.filter_sublist.map _)
  · simp only [List.mem_map, List.mem_filter, decide_eq_true_eq, List.mem_zipIdx_iff_getElem?]
    constructor
    · rintro ⟨⟨t, p⟩, ⟨ht, hp⟩, rfl⟩
      exact ⟨(List.getElem?_eq_some_iff.1 ht).1, hp⟩
    · rintro ⟨hlt, hp⟩
      exact ⟨(b.transactions[p], p), ⟨List.getElem?_eq_getElem hlt, hp⟩, rfl⟩
  · rw [scan_eq_map, List.map_map, List.map_map]
    refine List.map_congr_left fun e he => ?_
    exact (List.mem_zipIdx_iff_getElem?.1 (List.mem_filter.1 he).1).symm

/-- **Asking for positions is one scan of the block.** -/
theorem transactionsAt_eq_scan (b : Block) (positions : List Nat) :
    b.transactionsAt positions = b.scan positions :=
  (b.selects_transactionsAt positions).eq (b.selects_scan positions) fun _ _ => .rfl

theorem exists_perm_places (hdistinct : positions.Nodup)
    (hrange : ∀ p ∈ positions, p < b.transactions.length) :
    ∃ places : List Nat, places.Perm positions ∧ places.Pairwise (· < ·) ∧
      (b.transactionsAt positions).map some = places.map (b.transactions[·]?) := by
  obtain ⟨places, hsorted, hmem, hfound⟩ := b.selects_transactionsAt positions
  have hnodup : places.Nodup := hsorted.imp Nat.ne_of_lt
  refine ⟨places, (List.perm_ext_iff_of_nodup hnodup hdistinct).2 fun p => ?_, hsorted, hfound⟩
  rw [hmem, and_iff_right_of_imp (hrange p)]

/-- **No position asked for is skipped or merged with another exactly if** all are those of
transactions and none is asked for twice. -/
theorem length_transactionsAt_eq_iff :
    (b.transactionsAt positions).length = positions.length ↔
      positions.Nodup ∧ ∀ p ∈ positions, p < b.transactions.length := by
  constructor
  · intro heq
    obtain ⟨places, hsorted, hmem, hfound⟩ := b.selects_transactionsAt positions
    have hlength : (b.transactionsAt positions).length = places.length := by
      simpa using congrArg List.length hfound
    have hnodup : places.Nodup := hsorted.imp Nat.ne_of_lt
    -- the positions found are among those asked for, and as many
    have hperm : places.Perm positions :=
      (List.subperm_of_subset hnodup fun p hp => ((hmem p).1 hp).2).perm_of_length_le
        (heq.symm.trans hlength).le
    exact ⟨hperm.nodup_iff.1 hnodup, fun p hp => ((hmem p).1 (hperm.mem_iff.2 hp)).1⟩
  · rintro ⟨hdistinct, hrange⟩
    obtain ⟨places, hperm, -, hfound⟩ := exists_perm_places hdistinct hrange
    rw [← hperm.length_eq]
    simpa using congrArg List.length hfound

/-! ## Positions of topics -/

theorem mem_positionsOfAny {p : Nat} :
    p ∈ b.positionsOfAny topics ↔ ∃ topic ∈ topics, p ∈ b.positions topic := by
  rw [positionsOfAny, mem_ascending, List.mem_flatMap]

theorem pairwise_positionsOfAny (b : Block) (topics : List String) :
    (b.positionsOfAny topics).Pairwise (· < ·) :=
  pairwise_ascending _

/-! ## Sets of positions, sets of topics -/

/-- **Asking a block is a matter of sets.** Whatever the block lists, valid or not, the transactions
at some positions are those at the positions of the block among them, in ascending order and each
once, so that order, repetitions and positions out of range make no difference. The positions of some
topics are strictly ascending and are those listed under one of the topics, whatever the order and
repetitions of these. So the transactions at the positions of some topics are those of the block
listed under one of the topics, in the order of the block. -/
theorem retrieval_by_set (b : Block) :
    (∀ positions, b.Selects (· ∈ positions) (b.transactionsAt positions)) ∧
    (∀ positions others, (∀ p < b.transactions.length, p ∈ positions ↔ p ∈ others) →
      b.transactionsAt positions = b.transactionsAt others) ∧
    (∀ topics, (b.positionsOfAny topics).Pairwise (· < ·) ∧
      ∀ p, p ∈ b.positionsOfAny topics ↔ ∃ topic ∈ topics, p ∈ b.positions topic) ∧
    (∀ topics others, (∀ topic, topic ∈ topics ↔ topic ∈ others) →
      b.positionsOfAny topics = b.positionsOfAny others) ∧
    ∀ topics, b.Selects (fun p => ∃ topic ∈ topics, p ∈ b.positions topic)
      (b.transactionsAt (b.positionsOfAny topics)) := by
  refine ⟨b.selects_transactionsAt, fun positions others hsame => ?_,
    fun topics => ⟨b.pairwise_positionsOfAny topics, fun p => mem_positionsOfAny⟩,
    fun topics others hsame => ?_, fun topics => ?_⟩
  · exact (b.selects_transactionsAt positions).eq (b.selects_transactionsAt others) hsame
  · refine (b.pairwise_positionsOfAny topics).eq_of_mem_iff (b.pairwise_positionsOfAny others) ?_
    intro p
    simp only [mem_positionsOfAny, hsame]
  · exact (b.selects_transactionsAt _).congr fun p => mem_positionsOfAny

theorem retrieval_by_set_turned :
    (∀ p < turned.transactions.length, p ∈ [1, 7, 1, 0] ↔ p ∈ turned.positions "t") ∧
    turned.transactionsAt [1, 7, 1, 0] = turned.transactionsAt (turned.positions "t") ∧
    turned.positionsOfAny ["t", "u", "t"] = turned.positionsOfAny ["u", "t"] := by
  obtain ⟨-, hpositions, -, htopics, -⟩ := retrieval_by_set turned
  have hsame : ∀ p < turned.transactions.length,
      p ∈ [1, 7, 1, 0] ↔ p ∈ turned.positions "t" := by decide
  exact ⟨hsame, hpositions _ _ hsame, htopics _ _ fun topic => by simp [or_comm]⟩

end Block

end ChannelLog
