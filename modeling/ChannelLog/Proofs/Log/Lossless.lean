import ChannelLog.Proofs.Block.Retrieval
import ChannelLog.Proofs.Block.RoundTrip
import ChannelLog.Proofs.Log.Restart
import ChannelLog.Proofs.Log.Starting

/-!
# No listed transaction is lost in a look-up

Positions that are out of range, or listed twice, would be passed over without a word when a topic is
looked up. Validation refuses the blocks that have such positions.

* `Block.validate_iff_lossless`: **validation accepts a block with a version exactly if every topic
  gives as many transactions as it lists positions.**
* `LoadedBlock.FoundWhole`: one entry is found for each position listed.
* `Log.validation_lossless`: **what a log serves of a topic is all that its blocks list.**
-/

namespace ChannelLog

/-! ## One block -/

namespace Block

theorem validate_eq_ok_iff_lists {b : Block} : b.validate = .ok () ↔ b.header.version ≠ "" ∧
    ∀ topic, (b.positions topic).Nodup ∧ ∀ p ∈ b.positions topic, p < b.transactions.length := by
  rw [validate_eq_ok_iff]
  exact ⟨fun h => ⟨h.version, fun topic => ⟨h.nodup topic, h.inRange topic⟩⟩,
    fun ⟨hversion, hlists⟩ => ⟨hversion, fun topic => (hlists topic).2,
      fun topic => (hlists topic).1⟩⟩

/-- **Validation refuses exactly the blocks in which a look-up would lose a position**, and those
without a version. -/
theorem validate_iff_lossless {b : Block} : b.validate = .ok () ↔ b.header.version ≠ "" ∧
    ∀ topic, (b.transactionsAt (b.positions topic)).length = (b.positions topic).length := by
  rw [validate_eq_ok_iff_lists]
  exact and_congr_right fun _ => forall_congr' fun topic => length_transactionsAt_eq_iff.symm

end Block

/-- One entry is found for each position that the block lists under the topic, in the order of the
block. -/
def LoadedBlock.FoundWhole (b : LoadedBlock) (topic : String) (found : List Found) : Prop :=
  ∃ places : List Nat, places.Perm (b.block.positions topic) ∧ places.Pairwise (· < ·) ∧
    found.map some = places.map fun p =>
      b.block.transactions[p]?.map (⟨·, b.location, b.details⟩)

theorem LoadedBlock.foundWhole {b : LoadedBlock} (h : b.block.validate = .ok ()) (topic : String) :
    b.FoundWhole topic (b.found topic) := by
  obtain ⟨-, hlists⟩ := Block.validate_eq_ok_iff_lists.1 h
  obtain ⟨hdistinct, hrange⟩ := hlists topic
  obtain ⟨places, hperm, hsorted, hfound⟩ := Block.exists_perm_places hdistinct hrange
  refine ⟨places, hperm, hsorted, ?_⟩
  have hmap := congrArg (List.map (Option.map (⟨·, b.location, b.details⟩ : Transaction → Found)))
    hfound
  simpa [LoadedBlock.found, Function.comp_def] using hmap

/-! ## Look-ups -/

namespace Log

variable {σ : Type} [Store σ]

theorem validate_of_readBlock {store : σ} {l : Location} {b : LoadedBlock}
    (h : readBlock store l = .ok b) : b.block.validate = .ok () := by
  obtain ⟨stored, -, hcheck⟩ := exists_of_readBlock h
  exact (checkBlock_eq_ok_iff.1 hcheck).2

theorem exists_of_transactionsOf {log : Log σ} {topic : String} {found : List Found}
    (h : log.transactionsOf topic = .ok found) : ∃ blocks : List LoadedBlock,
      log.locationsOf topic = .ok (blocks.map (·.location)) ∧
      (∀ b ∈ blocks, readBlock log.store b.location = .ok b) ∧
      found = blocks.flatMap (·.found topic) := by
  cases hready : log.isReady with
  | false =>
    rw [transactionsOf_refused hready] at h
    cases h
  | true =>
    obtain ⟨index, hphase⟩ := isReady_iff.1 hready
    obtain ⟨blocks, hread, rfl⟩ := (transactionsOf_eq_ok_iff hphase).1 h
    refine ⟨blocks, ?_, fun b hb => ?_, rfl⟩
    · have hlocations := locations_of_mapM_readBlock hread
      rw [List.map_map] at hlocations
      simp only [locationsOf, hphase, ← hlocations]
      rfl
    · obtain ⟨l, -, hl⟩ := exists_of_mem_mapM_ok hread hb
      exact (location_of_readBlock hl).symm ▸ hl

/-- **Validation is exact, and makes look-ups lossless.** A block is valid exactly if it has a version
and every topic lists positions of transactions, none twice; and exactly if it has a version and every
topic gives as many transactions as it lists positions. So what a log serves of a topic has, for each
position that a block lists under it, the transaction that stands there. -/
theorem validation_lossless :
    (∀ b : Block, b.validate = .ok () ↔ b.header.version ≠ "" ∧
      ∀ topic, (b.positions topic).Nodup ∧ ∀ p ∈ b.positions topic, p < b.transactions.length) ∧
    (∀ b : Block, b.validate = .ok () ↔ b.header.version ≠ "" ∧
      ∀ topic, (b.transactionsAt (b.positions topic)).length = (b.positions topic).length) ∧
    ∀ (log : Log σ) topic found, log.transactionsOf topic = .ok found →
      ∃ blocks : List LoadedBlock,
        log.locationsOf topic = .ok (blocks.map (·.location)) ∧
        (∀ b ∈ blocks, readBlock log.store b.location = .ok b ∧
          b.FoundWhole topic (b.found topic)) ∧
        found = blocks.flatMap (·.found topic) := by
  refine ⟨fun b => Block.validate_eq_ok_iff_lists, fun b => Block.validate_iff_lossless, ?_⟩
  intro log topic found h
  obtain ⟨blocks, hlocations, hread, hfound⟩ := exists_of_transactionsOf h
  exact ⟨blocks, hlocations, fun b hb =>
    ⟨hread b hb, b.foundWhole (validate_of_readBlock (hread b hb)) topic⟩, hfound⟩

/-! ## A list that is not ascending -/

def turnedAppended : Appended := (MemoryStore.empty.append 0 Block.turned.text).1

def turnedStore : MemoryStore := (MemoryStore.empty.append 0 Block.turned.text).2

/-- A ready log over a store that holds one block, with a list that is not ascending. -/
def turnedLog : Log MemoryStore :=
  ⟨turnedStore, {}, .ready (TopicIndex.empty.push turnedAppended.location Block.turned.topics)⟩

theorem checkBlock_turned : checkBlock Block.turned.text = .ok Block.turned := by
  refine checkBlock_eq_ok_iff.2 ⟨Block.ofText?_text_whole ?_ fun t ht v hv => ?_, by decide⟩
  · show ∀ e ∈ Block.turned.header.index.entries, ∀ p ∈ e.2, p < UInt64.size
    decide
  · obtain ⟨b, rfl⟩ : ∃ b, v = .bool b := by
      simp only [Block.turned, List.mem_cons, List.not_mem_nil, or_false] at ht
      rcases ht with rfl | rfl <;> exact ⟨_, (Option.some.inj hv).symm⟩
    exact ⟨by simp, ⟨rfl, by simp [Json.numbers]⟩, by simp [Json.depth]⟩

theorem readBlock_turned : ∃ details, readBlock turnedLog.store turnedAppended.location
    = .ok ⟨turnedAppended.location, Block.turned, details⟩ := by
  have happend : Store.append MemoryStore.empty 0 Block.turned.text
      = .ok (turnedAppended, turnedStore) := rfl
  have hread := readBlock_of_read (LawfulStore.read_append_self happend)
  rw [checkBlock_turned] at hread
  exact ⟨_, hread⟩

/-- Both positions are served, in the order of the block. -/
theorem validation_lossless_turned : ∃ found, turnedLog.transactionsOf "t" = .ok found ∧
    found.map (some ·.transaction) = [some (Block.plain true), some (Block.plain false)] := by
  obtain ⟨details, hread⟩ := readBlock_turned
  have hlocations : turnedLog.locationsOf "t" = .ok [turnedAppended.location] := rfl
  obtain ⟨found, hfound⟩ : ∃ found, turnedLog.transactionsOf "t" = .ok found := by
    rw [transactionsOf_eq rfl]
    exact ⟨_, congrArg (Except.map _) (mapM_singleton_ok hread)⟩
  obtain ⟨blocks, hblocks, hwhole, rfl⟩ := validation_lossless.2.2 turnedLog "t" found hfound
  have hone : blocks.map (·.location) = [turnedAppended.location] :=
    Except.ok.inj (hblocks.symm.trans hlocations)
  obtain ⟨b, rfl, hb⟩ := List.map_eq_singleton_iff.1 hone
  obtain ⟨hself, places, hperm, hsorted, hplaces⟩ := hwhole b List.mem_cons_self
  rw [hb] at hself
  obtain rfl := Except.ok.inj (hself.symm.trans hread)
  have heq : places = [0, 1] := hsorted.eq_of_mem_iff (by decide) fun p => by
    rw [hperm.mem_iff]
    exact List.mem_pair.trans (Or.comm.trans List.mem_pair.symm)
  rw [heq] at hplaces
  refine ⟨_, hfound, ?_⟩
  rw [List.flatMap_singleton]
  have hmap := congrArg (List.map (Option.map (·.transaction))) hplaces
  rwa [List.map_map] at hmap

end Log

end ChannelLog
