import ChannelLog.Log
import ChannelLog.Proofs.Block.Reading

/-!
# Blocks of one transaction

What `Log.persist` appends: an empty block to which one transaction was pushed.

* `Block.mem_topics_single`: its topics are those given and the content hash.
* `Log.checkBlock_single`: **it reads back exactly if its payload is nested at most
  `Block.payloadLimit` levels**, and then with the same header.
-/

namespace ChannelLog

namespace Block

/-- How deep a payload may be nested to be read inside of a block. -/
def payloadLimit : Nat := Json.depthLimit - 3

/-! ## Topics and positions -/

theorem get?_register_zero {index : Dict (List Nat)}
    (h : ∀ k positions, index.get? k = some positions → positions = [0]) (topic k : String) :
    (register 0 index topic).get? k = if k = topic then some [0] else index.get? k := by
  unfold register
  cases hg : index.get? topic with
  | none =>
    rw [Option.getD_none, if_neg (by simp), Dict.get?_insert]
    rfl
  | some positions =>
    obtain rfl := h topic positions hg
    have hlast : ((some [0] : Option (List Nat)).getD []).getLast? = some 0 := rfl
    simp only [hlast, if_true]
    split
    · next hk => rw [hk, hg]
    · rfl

theorem get?_foldl_register_zero (topics : List String) {index : Dict (List Nat)}
    (h : ∀ k positions, index.get? k = some positions → positions = [0]) (k : String) :
    (topics.foldl (register 0) index).get? k = if k ∈ topics then some [0] else index.get? k := by
  induction topics generalizing index with
  | nil => simp
  | cons topic topics ih =>
    have hstep := get?_register_zero h topic
    rw [List.foldl_cons, ih, hstep]
    · by_cases hk : k ∈ topics
      · simp [hk]
      · by_cases ht : k = topic <;> simp [hk, ht]
    · intro j positions hj
      rw [hstep] at hj
      split at hj
      · exact (Option.some.inj hj).symm
      · exact h j positions hj

theorem get?_single (t : Transaction) (topics : List String) (k : String) :
    (empty.push t topics).header.index.get? k
      = if k ∈ topics ++ [t.contentHash] then some [0] else none :=
  get?_foldl_register_zero _ (fun k positions h => by simp [empty] at h) k

theorem mem_topics_single {t : Transaction} {topics : List String} {k : String} :
    k ∈ (empty.push t topics).topics ↔ k ∈ topics ∨ k = t.contentHash := by
  rw [Block.topics, Dict.mem_keys_iff, get?_single]
  split <;> simp_all

theorem entry_single {t : Transaction} {topics : List String} {e : String × List Nat}
    (h : e ∈ (empty.push t topics).header.index.entries) : e.2 = [0] := by
  have hget := Dict.get?_eq_some_iff.2 h
  rw [get?_single] at hget
  split at hget
  · exact (Option.some.inj hget).symm
  · simp at hget

theorem transactionsAt_single (t u : Transaction) {topics : List String} {topic : String}
    (h : topic ∈ (empty.push t topics).topics) :
    (⟨(empty.push t topics).header, [u]⟩ : Block).transactionsAt
        ((⟨(empty.push t topics).header, [u]⟩ : Block).positions topic) = [u] := by
  have hmem : topic ∈ topics ++ [t.contentHash] := by
    rw [List.mem_append, List.mem_singleton]
    exact mem_topics_single.1 h
  rw [positions, get?_single, if_pos hmem, Option.getD_some, transactionsAt, ascending,
    List.mergeSort_singleton]
  rfl

theorem mem_of_mem_transactionsAt {b : Block} {positions : List Nat} {t : Transaction}
    (h : t ∈ b.transactionsAt positions) : t ∈ b.transactions := by
  obtain ⟨_, -, ht⟩ := List.mem_filterMap.1 h
  exact List.mem_of_getElem? ht

/-! ## Checking -/

theorem forM_eq_ok {α ε : Type} {f : α → Except ε Unit} {xs : List α}
    (h : ∀ x ∈ xs, f x = .ok ()) : xs.forM f = .ok () := by
  induction xs with
  | nil => rfl
  | cons x xs ih =>
    show (f x >>= fun _ => xs.forM f) = .ok ()
    rw [h x List.mem_cons_self]
    exact ih fun y hy => h y (List.mem_cons_of_mem x hy)

theorem validate_single (t u : Transaction) (topics : List String) :
    (⟨(empty.push t topics).header, [u]⟩ : Block).validate = .ok () := by
  have hv : (empty.push t topics).header.version ≠ "" := by
    show currentVersion ≠ ""
    decide
  rw [validate, if_neg hv]
  refine forM_eq_ok fun e he => ?_
  show checkPositions e.1 1 [] e.2 = .ok ()
  rw [entry_single he]
  rfl

theorem positionsInRange_single (t : Transaction) (topics : List String) :
    (empty.push t topics).PositionsInRange := by
  intro e he p hp
  rw [entry_single he, List.mem_singleton] at hp
  rw [hp]
  decide

/-- **Whether the block reads is up to its transaction.** -/
theorem ofText?_single (t : Transaction) (topics : List String) :
    ofText? (empty.push t topics).text
      = (Transaction.ofSource? payloadLimit t.toJson.source).map fun u =>
        ⟨(empty.push t topics).header, [u]⟩ := by
  have hone : (empty.push t topics).transactions = [t] := rfl
  have hlimit : Json.depthLimit - 3 = payloadLimit := rfl
  rw [ofText?_text (positionsInRange_single t topics), hone, hlimit, List.mapM_cons]
  cases Transaction.ofSource? payloadLimit t.toJson.source <;> rfl

end Block

namespace Log

open Block

/-- **A payload nested no deeper than the limit is read back**, in a block with the same header. -/
theorem checkBlock_single {t : Transaction} (h : t.content.InRange)
    (hd : t.content.payloadDepth ≤ payloadLimit) (topics : List String) :
    ∃ u, checkBlock (empty.push t topics).text = .ok ⟨(empty.push t topics).header, [u]⟩ := by
  obtain ⟨u, hu⟩ := Option.isSome_iff_exists.1
    ((Transaction.isSome_ofSource?_source h payloadLimit (by decide)).2 hd)
  refine ⟨u, ?_⟩
  rw [checkBlock, ofText?_single, hu, Option.map_some]
  simp only [validate_single]

theorem checkBlock_single_deep {t : Transaction} (h : t.content.InRange)
    (hd : payloadLimit < t.content.payloadDepth) (topics : List String) :
    checkBlock (empty.push t topics).text = .error .unreadable := by
  have hnone : Transaction.ofSource? payloadLimit t.toJson.source = none := by
    rw [← Option.not_isSome_iff_eq_none,
      Transaction.isSome_ofSource?_source h payloadLimit (by decide)]
    omega
  rw [checkBlock, ofText?_single, hnone, Option.map_none]

theorem ofSource?_of_checkBlock_single {t : Transaction} {topics : List String} {b : Block}
    (h : checkBlock (empty.push t topics).text = .ok b) :
    ∃ u, Transaction.ofSource? payloadLimit t.toJson.source = some u ∧
      b = ⟨(empty.push t topics).header, [u]⟩ := by
  rw [checkBlock, ofText?_single] at h
  cases hu : Transaction.ofSource? payloadLimit t.toJson.source with
  | none => simp [hu] at h
  | some u =>
    simp only [hu, Option.map_some, validate_single] at h
    exact ⟨u, rfl, (Except.ok.inj h).symm⟩

theorem exists_of_checkBlock_single {t : Transaction} {topics : List String} {b : Block}
    (h : checkBlock (empty.push t topics).text = .ok b) :
    ∃ u, b = ⟨(empty.push t topics).header, [u]⟩ := by
  obtain ⟨u, -, he⟩ := ofSource?_of_checkBlock_single h
  exact ⟨u, he⟩

end Log

end ChannelLog
