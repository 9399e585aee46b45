import ChannelLog.Proofs.Store.FirstListed
import ChannelLog.TopicIndex

/-!
# The topic index lists each location once

* `Listing.Valid`, `TopicIndex.Valid`: the set next to an order holds what the order holds, and the
  order holds nothing twice. Both hold of the empty index and are kept by every push.
* `TopicIndex.locations_push`: a push lists the location last under each of the topics, unless it is
  listed there already, and changes nothing under any other topic.
* `TopicIndex.locations_foldl_push`: locations that were not listed are listed in the order in which
  they are pushed.
* `TopicIndex.lists_first_pushes`: **whatever is pushed into an empty index, a topic lists the locations
  pushed under it in the order of their first pushes**, and the index counts the topics that were
  pushed.
-/

namespace ChannelLog

namespace Listing

/-- The set holds what the order holds, which holds nothing twice. -/
structure Valid (l : Listing) : Prop where
  contains_iff : ∀ location, l.known.contains location = true ↔ location ∈ l.order
  nodup : l.order.Nodup

theorem valid_empty : empty.Valid := ⟨fun l => by simp [empty, Dict.contains], List.nodup_nil⟩

theorem Valid.order_push {l : Listing} (h : l.Valid) (location : Location) :
    (l.push location).order = listLast l.order location := by
  unfold push listLast
  by_cases hc : location ∈ l.order
  · rw [if_pos ((h.contains_iff location).2 hc), if_pos hc]
  · rw [if_neg fun he => hc ((h.contains_iff location).1 he), if_neg hc]

theorem Valid.push {l : Listing} (h : l.Valid) (location : Location) :
    (l.push location).Valid := by
  by_cases hc : l.known.contains location = true
  · rw [Listing.push, if_pos hc]
    exact h
  have hn : location ∉ l.order := fun hm => hc ((h.contains_iff location).2 hm)
  rw [Listing.push, if_neg hc]
  refine ⟨fun k => ?_, ?_⟩
  · simp only [Dict.contains, Dict.get?_insert, List.mem_append, List.mem_singleton]
    rw [← h.contains_iff k, Dict.contains]
    split <;> simp_all
  · rw [← listLast_fresh hn]
    exact nodup_listLast h.nodup location

end Listing

namespace TopicIndex

/-- Every listing is valid. -/
def Valid (index : TopicIndex) : Prop := ∀ topic, (index.listing topic).Valid

theorem valid_empty : empty.Valid := fun _ => Listing.valid_empty

theorem listing_pushTopic (index : TopicIndex) (location : Location) (topic t : String) :
    (pushTopic location index topic).listing t
      = if t = topic then (index.listing topic).push location else index.listing t := by
  simp only [listing, pushTopic, Dict.get?_insert]
  split <;> rfl

theorem Valid.pushTopic {index : TopicIndex} (h : index.Valid) (location : Location)
    (topic : String) : (pushTopic location index topic).Valid := by
  intro t
  rw [listing_pushTopic]
  split
  · exact (h topic).push location
  · exact h t

theorem locations_pushTopic {index : TopicIndex} (h : index.Valid) (location : Location)
    (topic t : String) :
    (pushTopic location index topic).locations t
      = if t = topic then listLast (index.locations t) location else index.locations t := by
  rw [locations, listing_pushTopic]
  split
  · next ht =>
    rw [(h topic).order_push, ht]
    rfl
  · rfl

theorem Valid.push {index : TopicIndex} (h : index.Valid) (location : Location)
    (topics : List String) : (index.push location topics).Valid := by
  unfold TopicIndex.push
  induction topics generalizing index with
  | nil => exact h
  | cons topic topics ih => exact ih (h.pushTopic location topic)

/-- **A push lists the location last under each of its topics**, and under no other. -/
theorem locations_push {index : TopicIndex} (h : index.Valid) (location : Location)
    (topics : List String) (t : String) :
    (index.push location topics).locations t
      = if t ∈ topics then listLast (index.locations t) location else index.locations t := by
  unfold push
  induction topics generalizing index with
  | nil => simp
  | cons topic topics ih =>
    rw [List.foldl_cons, ih (h.pushTopic location topic), locations_pushTopic h]
    by_cases ht : t = topic
    · by_cases hm : t ∈ topics
      · rw [if_pos hm, if_pos ht, if_pos (List.mem_cons_of_mem _ hm), listLast_idem]
      · rw [if_neg hm, if_pos ht, if_pos (List.mem_cons.2 (.inl ht))]
    · have hiff : t ∈ topic :: topics ↔ t ∈ topics := by simp [ht]
      simp only [if_neg ht, hiff]

/-! ## Several pushes -/

section

variable {α : Type} {location : α → Location} {topics : α → List String}

theorem Valid.foldl_push {index : TopicIndex} (h : index.Valid) (xs : List α) :
    (xs.foldl (fun index x => index.push (location x) (topics x)) index).Valid := by
  induction xs generalizing index with
  | nil => exact h
  | cons x xs ih => exact ih (h.push _ _)

theorem mem_locations_foldl_push {index : TopicIndex} (h : index.Valid) {xs : List α} {t : String}
    {l : Location} :
    l ∈ (xs.foldl (fun index x => index.push (location x) (topics x)) index).locations t
      ↔ l ∈ index.locations t ∨ ∃ x ∈ xs, l = location x ∧ t ∈ topics x := by
  induction xs generalizing index with
  | nil => simp
  | cons x xs ih =>
    rw [List.foldl_cons, ih (h.push _ _), locations_push h]
    simp only [List.mem_cons, or_and_right, exists_or, exists_eq_left, ← or_assoc]
    refine or_congr_left ?_
    split
    · next ht => rw [mem_listLast, and_iff_left ht]
    · next ht => exact (or_iff_left fun hx => ht hx.2).symm

/-- **Locations that are pushed for the first time are listed in the order of the pushes.** -/
theorem locations_foldl_push {index : TopicIndex} (h : index.Valid) {xs : List α} {t : String}
    (hnodup : (xs.map location).Nodup) (hnew : ∀ x ∈ xs, location x ∉ index.locations t) :
    (xs.foldl (fun index x => index.push (location x) (topics x)) index).locations t
      = index.locations t ++ (xs.filter (t ∈ topics ·)).map location := by
  induction xs generalizing index with
  | nil => simp
  | cons x xs ih =>
    rw [List.map_cons, List.nodup_cons] at hnodup
    have hx := listLast_fresh (hnew x List.mem_cons_self)
    have hpush := locations_push h (location x) (topics x) t
    rw [List.foldl_cons, ih (h.push _ _) hnodup.2 ?_, hpush]
    · by_cases ht : t ∈ topics x
      · rw [if_pos ht, hx, List.filter_cons_of_pos (by simpa using ht), List.map_cons,
          List.append_assoc]
        rfl
      · rw [if_neg ht, List.filter_cons_of_neg (by simpa using ht)]
    · intro y hy hm
      have hold := hnew y (List.mem_cons_of_mem x hy)
      rw [hpush] at hm
      split at hm
      · rcases mem_listLast.1 hm with hm | he
        · exact hold hm
        · exact hnodup.1 (he ▸ List.mem_map_of_mem hy)
      · exact hold hm

end

/-! ## All that was ever pushed -/

/-- A location, and the topics under which it is pushed. -/
structure Push where
  location : Location
  topics : List String

/-- The index after some pushes into an empty one. -/
def ofPushes (pushes : List Push) : TopicIndex :=
  pushes.foldl (fun index p => index.push p.location p.topics) empty

/-- The locations that are pushed under a topic, as often as they are. -/
def pushedUnder (topic : String) (pushes : List Push) : List Location :=
  (pushes.filter (topic ∈ ·.topics)).map (·.location)

theorem ofPushes_append (pushes : List Push) (p : Push) :
    ofPushes (pushes ++ [p]) = (ofPushes pushes).push p.location p.topics := by
  rw [ofPushes, List.foldl_append]
  rfl

theorem pushedUnder_append (topic : String) (pushes : List Push) (p : Push) :
    pushedUnder topic (pushes ++ [p])
      = if topic ∈ p.topics then pushedUnder topic pushes ++ [p.location]
        else pushedUnder topic pushes := by
  unfold pushedUnder
  rw [List.filter_append, List.map_append]
  split
  · next h => simp [h]
  · next h => simp [h]

theorem valid_ofPushes (pushes : List Push) : (ofPushes pushes).Valid :=
  valid_empty.foldl_push pushes

/-- **A topic lists the locations pushed under it where they are pushed first.** -/
theorem locations_ofPushes (pushes : List Push) (topic : String) :
    (ofPushes pushes).locations topic = (pushedUnder topic pushes).eraseDups := by
  induction pushes using List.reverseRecOn with
  | nil => rfl
  | append_singleton pushes p ih =>
    rw [ofPushes_append, locations_push (valid_ofPushes pushes), ih, pushedUnder_append]
    split
    · rw [eraseDups_concat]
    · rfl

theorem mem_keys_push {index : TopicIndex} {location : Location} {topics : List String}
    {topic : String} :
    topic ∈ (index.push location topics).listings.keys
      ↔ topic ∈ topics ∨ topic ∈ index.listings.keys := by
  unfold push
  induction topics generalizing index with
  | nil => simp
  | cons t topics ih =>
    rw [List.foldl_cons, ih, pushTopic, Dict.mem_keys_iff, Dict.mem_keys_iff, Dict.get?_insert,
      List.mem_cons]
    by_cases h : topic = t
    · simp [h]
    · simp [h]

theorem mem_keys_ofPushes {pushes : List Push} {topic : String} :
    topic ∈ (ofPushes pushes).listings.keys ↔ topic ∈ pushes.flatMap (·.topics) := by
  induction pushes using List.reverseRecOn with
  | nil => simp [ofPushes, empty, Dict.mem_keys_iff]
  | append_singleton pushes p ih =>
    rw [ofPushes_append, mem_keys_push, ih, List.flatMap_append, List.mem_append, or_comm,
      List.flatMap_singleton]

theorem topicCount_ofPushes (pushes : List Push) :
    (ofPushes pushes).topicCount = (pushes.flatMap (·.topics)).eraseDups.length := by
  have hperm : (ofPushes pushes).listings.keys.Perm (pushes.flatMap (·.topics)).eraseDups := by
    rw [List.perm_ext_iff_of_nodup (Dict.nodup_keys _) (nodup_eraseDups _)]
    intro topic
    rw [mem_keys_ofPushes, List.mem_eraseDups]
  calc (ofPushes pushes).topicCount
      = (ofPushes pushes).listings.keys.length := (List.length_map _).symm
    _ = (pushes.flatMap (·.topics)).eraseDups.length := hperm.length_eq

/-- **A topic index keeps the order of first pushes, without repetition.** Any locations are pushed
under any topics, repeated in any pattern. Then for every topic the set and the order hold the same
locations, the order is that of the first pushes under the topic and has nothing twice, and the
index counts the different topics that were ever pushed. -/
theorem lists_first_pushes (pushes : List Push) :
    (∀ topic,
      (∀ l, ((ofPushes pushes).listing topic).known.contains l = true
        ↔ l ∈ ((ofPushes pushes).listing topic).order) ∧
      (ofPushes pushes).locations topic = (pushedUnder topic pushes).eraseDups ∧
      ((ofPushes pushes).locations topic).Nodup) ∧
    (ofPushes pushes).topicCount = (pushes.flatMap (·.topics)).eraseDups.length := by
  refine ⟨fun topic => ⟨?_, ?_, ?_⟩, ?_⟩
  · exact (valid_ofPushes pushes topic).contains_iff
  · exact locations_ofPushes pushes topic
  · exact (valid_ofPushes pushes topic).nodup
  · exact topicCount_ofPushes pushes

example : (ofPushes [⟨"b", ["t", "t"]⟩, ⟨"a", ["t", "u"]⟩, ⟨"b", ["t"]⟩]).locations "t"
    = ["b", "a"] := by decide

end TopicIndex

end ChannelLog
