import ChannelLog.Proofs.Log.Interleaving
import ChannelLog.Proofs.Log.Readability

/-!
# In which order calls at the same time are served

The store lists blocks in the order in which they were appended, the index in the order in which
they were recorded. A new log over the same store goes by the first, the log that the calls work on
by the second.

* `Inv`: what holds between any two steps, and after every schedule (`Inv.run`). A step changes the
  index by what it records (`phase_step`) and the store by what it appends (`Grown.step`).
* `Grown.transactionsOf`, `Grown.buildIndex`: what either log serves.
* `served_in_storage_order_iff`: **both serve the same exactly if the calls of the topic recorded in
  the order in which they appended**, which nothing makes them do (`crossed_not_in_storage_order`).
-/

namespace ChannelLog.Persisting

open Function (update)

variable {ι σ : Type} {calls : ι → PersistCall} {ls : List Location} {index : TopicIndex}
  {s s' : Persisting ι σ} {i : ι}

/-! ## Calls and their blocks -/

/-- What a call's block reads as: it stands under the call's topics, with one transaction that is
found under each. -/
structure Loaded (s : Persisting ι σ) (i : ι) (b : LoadedBlock) : Prop where
  location : b.location = s.location i
  topics : b.block.topics = s.topics i
  found : ∀ topic ∈ s.topics i, ∃ u,
    b.block.transactionsAt (b.block.positions topic) = [u]

theorem map_location_found {order : List ι} {blocks : List LoadedBlock} {topic : String}
    (h : List.Forall₂ s.Loaded order blocks) (htopic : ∀ i ∈ order, topic ∈ s.topics i) :
    (blocks.flatMap fun b => (b.block.transactionsAt (b.block.positions topic)).map
      fun t => (⟨t, b.location, b.details⟩ : Found)).map (·.location) = order.map s.location := by
  induction h with
  | nil => rfl
  | @cons i b order blocks hb _ ih =>
    obtain ⟨u, hu⟩ := hb.found topic (htopic i List.mem_cons_self)
    rw [List.flatMap_cons, List.map_append, ih fun j hj => htopic j (List.mem_cons_of_mem i hj), hu]
    show b.location :: order.map s.location = _
    rw [hb.location, List.map_cons]

theorem foldl_loaded {order : List ι} {blocks : List LoadedBlock}
    (h : List.Forall₂ s.Loaded order blocks) (index : TopicIndex) :
    blocks.foldl (fun index b => index.push b.location b.block.topics) index
      = s.pushAll index order := by
  unfold pushAll
  induction h generalizing index with
  | nil => rfl
  | cons hb _ ih => rw [List.foldl_cons, List.foldl_cons, hb.location, hb.topics, ih]

theorem Distinct.eq_of_map_location (h : s.Distinct ls) {xs ys : List ι}
    (hxs : ∀ i ∈ xs, i ∈ s.appends) (hys : ∀ i ∈ ys, i ∈ s.appends)
    (he : xs.map s.location = ys.map s.location) : xs = ys := by
  induction xs generalizing ys with
  | nil => exact (List.map_eq_nil_iff.1 he.symm).symm
  | cons x xs ih =>
    cases ys with
    | nil => simp at he
    | cons y ys =>
      obtain ⟨hhead, htail⟩ := List.cons.inj he
      have hxy : x = y := List.inj_on_of_nodup_map h.nodup (hxs x List.mem_cons_self)
        (hys y List.mem_cons_self) hhead
      rw [hxy, ih (fun i hi => hxs i (List.mem_cons_of_mem x hi))
        (fun i hi => hys i (List.mem_cons_of_mem y hi)) htail]

theorem Distinct.locations_pushAll (h : s.Distinct ls) (hindex : index.Valid)
    (hlisted : ∀ topic, ∀ l ∈ index.locations topic, l ∈ ls) {order : List ι}
    (hperm : order.Perm s.appends) (topic : String) :
    (s.pushAll index order).locations topic
      = index.locations topic ++ (s.under topic order).map s.location := by
  refine TopicIndex.locations_foldl_push hindex ?_ fun i hi hm => ?_
  · exact (hperm.map s.location).nodup_iff.2 h.nodup
  · exact h.notMem i (hperm.mem_iff.1 hi) (hlisted topic _ hm)

/-! ## Blocks in the store -/

variable [Store σ] {store : σ}

/-- The store `store`, which has the locations `ls`, was given the blocks of the calls in the order
of their appends. -/
structure Grown (calls : ι → PersistCall) (store : σ) (ls : List Location) (s : Persisting ι σ) :
    Prop where
  locations : Store.locations s.log.store = .ok (ls ++ s.appends.map s.location)
  kept : ∀ l ∈ ls, Store.read s.log.store l = Store.read store l
  read : ∀ i ∈ s.appends, ∃ block details, (calls i).Makes block ∧ s.topics i = block.topics ∧
    Store.read s.log.store (s.location i) = .ok ⟨block.text, details⟩

theorem Grown.loaded (h : s.Grown calls store ls) (hi : i ∈ s.appends) {b : LoadedBlock}
    (hb : Log.readBlock s.log.store (s.location i) = .ok b) : s.Loaded i b := by
  obtain ⟨block, details, ⟨t, -, rfl⟩, htopics, hread⟩ := h.read i hi
  have hcheck := Log.checkBlock_of_readBlock hread hb
  obtain ⟨u, hu⟩ := Log.exists_of_checkBlock_single hcheck
  refine ⟨Log.location_of_readBlock hb, ?_, fun topic ht => ⟨u, ?_⟩⟩
  · rw [hu, htopics]
    rfl
  · rw [htopics] at ht
    rw [hu]
    exact Block.transactionsAt_single t u ht

theorem Grown.exists_readBlock (h : s.Grown calls store ls) (hi : i ∈ s.appends)
    (hrange : (calls i).content.InRange)
    (hdepth : (calls i).content.payloadDepth ≤ Block.payloadLimit) :
    ∃ b, Log.readBlock s.log.store (s.location i) = .ok b := by
  obtain ⟨block, details, ⟨t, ht, rfl⟩, -, hread⟩ := h.read i hi
  rw [← ht] at hrange hdepth
  obtain ⟨u, hu⟩ := Log.checkBlock_single hrange hdepth (calls i).topics
  rw [Log.readBlock_of_read hread, hu]
  exact ⟨_, rfl⟩

theorem Grown.exists_mapM_readBlock (h : s.Grown calls store ls) {order : List ι}
    (hsub : ∀ i ∈ order, i ∈ s.appends)
    (hreadable : ∀ i ∈ order, ∃ b, Log.readBlock s.log.store (s.location i) = .ok b) :
    ∃ blocks, (order.map s.location).mapM (Log.readBlock s.log.store) = .ok blocks ∧
      List.Forall₂ s.Loaded order blocks := by
  rw [List.mapM_map]
  refine exists_mapM_ok fun i hi => ?_
  obtain ⟨b, hb⟩ := hreadable i hi
  exact ⟨b, hb, h.loaded (hsub i hi) hb⟩

/-- **A log whose index has the blocks in some order serves them in that order**, after what it
served before. -/
theorem Grown.transactionsOf (h : s.Grown calls store ls) (hdistinct : s.Distinct ls)
    (hindex : index.Valid) (hlisted : ∀ topic, ∀ l ∈ index.locations topic, l ∈ ls)
    {order : List ι} (hperm : order.Perm s.appends)
    (hreadable : ∀ i ∈ s.appends, ∃ b, Log.readBlock s.log.store (s.location i) = .ok b)
    {log log' : Log σ} (hready : log.phase = .ready index) (hstore : log.store = store)
    (hready' : log'.phase = .ready (s.pushAll index order)) (hstore' : log'.store = s.log.store)
    {topic : String} {old : List Found} (hold : log.transactionsOf topic = .ok old) :
    ∃ new, log'.transactionsOf topic = .ok (old ++ new) ∧
      new.map (·.location) = (s.under topic order).map s.location := by
  have hsub : ∀ i ∈ s.under topic order, i ∈ s.appends := fun i hi =>
    hperm.mem_iff.1 (List.mem_filter.1 hi).1
  rw [Log.transactionsOf_ready hready, hstore] at hold
  rw [Log.transactionsOf_ready hready', hstore', hdistinct.locations_pushAll hindex hlisted hperm,
    List.mapM_append, mapM_congr fun l hl => Log.readBlock_congr (h.kept l (hlisted topic l hl))]
  cases hm : (index.locations topic).mapM (Log.readBlock store) with
  | error e => simp [hm, Except.map] at hold
  | ok blocks =>
    rw [hm] at hold
    obtain ⟨blocks', hblocks', hall⟩ := h.exists_mapM_readBlock hsub
      fun i hi => hreadable i (hsub i hi)
    rw [hblocks', ← Except.ok.inj hold]
    refine ⟨_, congrArg Except.ok (List.flatMap_append ..), ?_⟩
    exact map_location_found hall fun i hi => by simpa using (List.mem_filter.1 hi).2

/-! ## A new log over the same store -/

/-- An index is built of a store that has grown if the new blocks can be read, and then **it has
them in the order of the appends**. -/
theorem Grown.buildIndex (h : s.Grown calls store ls) (hls : Store.locations store = .ok ls)
    {settings : LogSettings} (hindex : Log.buildIndex store settings = .ok index)
    (hreadable : ∀ i ∈ s.appends, ∃ b, Log.readBlock s.log.store (s.location i) = .ok b)
    (settings' : LogSettings) :
    Log.buildIndex s.log.store settings' = .ok (s.pushAll index s.appends) := by
  obtain ⟨blocks, hblocks, rfl⟩ := Log.exists_of_buildIndex hindex hls
  obtain ⟨blocks', hblocks', hall⟩ := h.exists_mapM_readBlock (fun _ hi => hi) hreadable
  have hkept : ls.mapM (Log.readBlock s.log.store) = .ok blocks := by
    rw [mapM_congr fun l hl => Log.readBlock_congr (h.kept l hl), hblocks]
  rw [Log.buildIndex_eq, h.locations]
  simp only
  rw [List.mapM_append, hkept, hblocks', ← foldl_loaded hall, ← List.foldl_append]
  rfl

theorem Grown.exists_of_buildIndex (h : s.Grown calls store ls) {settings : LogSettings}
    (hindex : Log.buildIndex s.log.store settings = .ok index) :
    ∀ i ∈ s.appends, ∃ b, Log.readBlock s.log.store (s.location i) = .ok b := by
  intro i hi
  obtain ⟨blocks, hblocks, -⟩ := Log.exists_of_buildIndex hindex h.locations
  exact exists_of_mapM_ok hblocks (List.mem_append_right _ (List.mem_map_of_mem hi))

/-! ## Between two steps -/

section

variable [LawfulStore σ]

/-- What holds between any two steps of calls that started on a log with the store `store`, which
has the locations `ls`, and the index `index`. -/
structure Inv (calls : ι → PersistCall) (store : σ) (ls : List Location) (index : TopicIndex)
    (s : Persisting ι σ) : Prop where
  orders : s.Orders calls
  phase : s.log.phase = .ready (s.pushAll index s.records)
  valid : LawfulStore.Valid s.log.store
  grown : s.Distinct ls → s.Grown calls store ls

theorem Inv.start (log : Log σ) (hready : log.phase = .ready index)
    (hvalid : LawfulStore.Valid log.store) (hls : Store.locations log.store = .ok ls) :
    Inv calls log.store ls index (Persisting.start log) where
  orders := Orders.start log
  phase := hready
  valid := hvalid
  grown _ := ⟨by simpa [Persisting.start] using hls, fun _ _ => rfl, fun _ h => nomatch h⟩

theorem Inv.served (h : Inv calls store ls index s) (hended : s.Ended) (hdistinct : s.Distinct ls)
    (hls : Store.locations store = .ok ls) {settings : LogSettings}
    (hindex : Log.buildIndex store settings = .ok index) {log fresh : Log σ}
    (hready : log.phase = .ready index) (hstore : log.store = store) {settings' : LogSettings}
    (hfresh : Log.start (Log.ofStore s.log.store settings') = .ok () fresh) (topic : String) :
    ∃ old new new', log.transactionsOf topic = .ok old ∧
      s.log.transactionsOf topic = .ok (old ++ new) ∧
      fresh.transactionsOf topic = .ok (old ++ new') ∧
      new.map (·.location) = (s.under topic s.records).map s.location ∧
      new'.map (·.location) = (s.under topic s.appends).map s.location ∧
      (new = new' ↔ s.under topic s.records = s.under topic s.appends) := by
  have hgrown := h.grown hdistinct
  obtain ⟨index', hindex', rfl⟩ := Log.exists_of_start hfresh
  have hreadable := hgrown.exists_of_buildIndex hindex'
  rw [hgrown.buildIndex hls hindex hreadable] at hindex'
  obtain rfl := Except.ok.inj hindex'
  obtain ⟨hvalid, hlisted⟩ := Log.valid_of_buildIndex hindex hls
  have hmem := fun topic l hl => (hlisted topic l hl).1
  have hperm := h.orders.perm hended
  have hfreshReady : (⟨s.log.store, settings', .ready (s.pushAll index s.appends)⟩ : Log σ).phase
      = .ready (s.pushAll index s.appends) := rfl
  obtain ⟨old, hold⟩ : ∃ old, log.transactionsOf topic = .ok old := by
    obtain ⟨blocks, hblocks, -⟩ := exists_mapM_ok (R := fun _ _ => True) fun l hl =>
      (hlisted topic l hl).2.imp fun b hb => ⟨hb, trivial⟩
    rw [Log.transactionsOf_ready hready, hstore, hblocks]
    exact ⟨_, rfl⟩
  obtain ⟨new, hnew, hlocations⟩ := hgrown.transactionsOf hdistinct hvalid hmem hperm hreadable
    hready hstore h.phase rfl hold
  obtain ⟨new', hnew', hlocations'⟩ := hgrown.transactionsOf hdistinct hvalid hmem
    (.refl s.appends) hreadable hready hstore hfreshReady rfl hold
  refine ⟨old, new, new', hold, hnew, hnew', hlocations, hlocations', fun he => ?_, fun he => ?_⟩
  · rw [he, hlocations'] at hlocations
    exact hdistinct.eq_of_map_location
      (fun i hi => (List.mem_filter.1 hi).1) (fun i hi => hperm.mem_iff.1 (List.mem_filter.1 hi).1)
      hlocations |>.symm
  · have hsame : (s.pushAll index s.records).locations topic
        = (s.pushAll index s.appends).locations topic := by
      rw [hdistinct.locations_pushAll hvalid hmem hperm,
        hdistinct.locations_pushAll hvalid hmem (.refl _), he]
    rw [Log.transactionsOf_ready h.phase, hsame] at hnew
    rw [Log.transactionsOf_ready hfreshReady, hnew] at hnew'
    exact List.append_cancel_left (Except.ok.inj hnew')

end

/-! ## Keeping the index -/

variable [DecidableEq ι]

theorem phase_step {current : TopicIndex} (horders : s.Orders calls)
    (hstep : Step calls s current i s') (hcurrent : current = s.pushAll index s.records)
    (h : s.log.phase = .ready current) : s'.log.phase = .ready (s'.pushAll index s'.records) := by
  -- the calls in the index have their locations and topics from before
  have hsame : ∀ p, s'.progress = update s.progress i p → i ∉ s.records →
      s'.pushAll index s.records = s.pushAll index s.records := by
    intro p hp hi
    have hother : ∀ j ∈ s.records, j ≠ i := fun j hj he => hi (he ▸ hj)
    exact pushAll_congr (fun j hj => location_of_ne hp (hother j hj))
      (fun j hj => topics_of_ne hp (hother j hj)) index
  cases hstep with
  | idle => rw [h, hcurrent]
  | unseen p hold hnew =>
    have hi : i ∉ s.records := by
      rw [horders.mem_records]
      intro hr
      cases hp : s.progress i <;> simp_all [Progress.IsReturned, Progress.IsStored]
    rw [hsame p rfl hi, h, hcurrent]
  | append block a store hp ha =>
    have hi : i ∉ s.records := by
      rw [horders.mem_records, hp]
      exact not_false
    rw [hsame _ rfl hi, ← hcurrent]
    exact h
  | record block a hp =>
    have hi : i ∉ s.records := by
      rw [horders.mem_records, hp]
      exact not_false
    rw [pushAll_append, hsame _ rfl hi, ← hcurrent, location_self rfl, topics_self rfl]
    rfl

/-! ## Keeping the store -/

/-- Nothing was appended between `s` and `s'`. -/
structure SameBlocks (s s' : Persisting ι σ) : Prop where
  store : s'.log.store = s.log.store
  appends : s'.appends = s.appends
  location : s'.location = s.location
  topics : s'.topics = s.topics

theorem Step.sameBlocks (h : Step calls s index i s') : s.SameBlocks s' ∨
    ∃ block a store, s.progress i = .prepared block ∧
      Store.append s.log.store (calls i).now block.text = .ok (a, store) ∧
      s'.log.store = store ∧ s'.appends = s.appends ++ [i] ∧
      s'.progress = update s.progress i (.appended block a) := by
  have hblank : ∀ p : Progress, ¬p.IsStored → p.location = "" ∧ p.topics = [] := by
    intro p hp
    cases p <;> simp_all [Progress.IsStored, Progress.location, Progress.topics]
  cases h with
  | idle => exact .inl ⟨rfl, rfl, rfl, rfl⟩
  | unseen p hold hnew =>
    obtain ⟨hl, ht⟩ := hblank _ hold
    obtain ⟨hl', ht'⟩ := hblank p hnew
    exact .inl ⟨rfl, rfl, location_eq rfl (hl'.trans hl.symm), topics_eq rfl (ht'.trans ht.symm)⟩
  | append block a store hp ha => exact .inr ⟨block, a, store, hp, ha, rfl, rfl, rfl⟩
  | record block a hp =>
    refine .inl ⟨rfl, rfl, location_eq rfl ?_, topics_eq rfl ?_⟩
    · rw [location, hp]
      rfl
    · rw [topics, hp]
      rfl

theorem Distinct.of_step (horders : s.Orders calls) (hstep : Step calls s index i s')
    (h : s'.Distinct ls) : s.Distinct ls := by
  rcases hstep.sameBlocks with hs | ⟨block, a, store, hp, -, -, happends, hprogress⟩
  · exact ⟨by rw [← hs.appends, ← hs.location]; exact h.nodup,
      by rw [← hs.appends, ← hs.location]; exact h.notMem⟩
  · have hsame : ∀ j ∈ s.appends, s'.location j = s.location j := by
      intro j hj
      refine location_of_ne hprogress ?_
      rintro rfl
      rw [horders.mem_appends, hp] at hj
      exact hj
    obtain ⟨hnodup, hnot⟩ := h
    rw [happends] at hnodup hnot
    rw [List.map_append, List.map_congr_left hsame] at hnodup
    refine ⟨(List.nodup_append.1 hnodup).1, fun j hj => ?_⟩
    rw [← hsame j hj]
    exact hnot j (List.mem_append_left _ hj)

variable [LawfulStore σ]

theorem Grown.step (horders : s.Orders calls) (hvalid : LawfulStore.Valid s.log.store)
    (hstep : Step calls s index i s') (hdistinct : s'.Distinct ls) (h : s.Grown calls store ls) :
    s'.Grown calls store ls := by
  rcases hstep.sameBlocks with hs | ⟨block, a, store', hp, ha, rfl, happends, hprogress⟩
  · refine ⟨?_, ?_, ?_⟩
    · rw [hs.store, hs.appends, hs.location]
      exact h.locations
    · rw [hs.store]
      exact h.kept
    · rw [hs.store, hs.appends, hs.location, hs.topics]
      exact h.read
  have hi : i ∉ s.appends := by
    rw [horders.mem_appends, hp]
    exact not_false
  have hother : ∀ j ∈ s.appends, j ≠ i := fun j hj he => hi (he ▸ hj)
  have hlocation : s'.location i = a.location := location_self hprogress
  have htopics : s'.topics i = block.topics := topics_self hprogress
  have hmap : s.appends.map s'.location = s.appends.map s.location :=
    List.map_congr_left fun j hj => location_of_ne hprogress (hother j hj)
  -- the new location is neither one of the start nor that of an earlier append
  have hold : a.location ∉ ls := by
    rw [← hlocation]
    exact hdistinct.notMem i (by rw [happends]; exact List.mem_append_right _ List.mem_cons_self)
  have hnew : a.location ∉ s.appends.map s.location := by
    have hnodup := hdistinct.nodup
    rw [happends, List.map_append, hmap, List.map_singleton, hlocation] at hnodup
    exact fun hm => (List.nodup_append.1 hnodup).2.2 _ hm _ List.mem_cons_self rfl
  refine ⟨?_, fun l hl => ?_, fun j hj => ?_⟩
  · have hfresh : a.location ∉ ls ++ s.appends.map s.location := fun hm =>
      (List.mem_append.1 hm).elim hold hnew
    rw [LawfulStore.locations_append hvalid ha h.locations hfresh, happends, List.map_append, hmap,
      List.map_singleton, hlocation, List.append_assoc]
  · have hne : l ≠ a.location := fun he => hold (he ▸ hl)
    rw [LawfulStore.read_append_other ha hne]
    exact h.kept l hl
  · rw [happends] at hj
    rcases List.mem_append.1 hj with hj | hj
    · obtain ⟨b, details, hmakes, ht, hread⟩ := h.read j hj
      have hne : s.location j ≠ a.location := fun he => hnew (he ▸ List.mem_map_of_mem hj)
      refine ⟨b, details, hmakes, ?_, ?_⟩
      · rw [topics_of_ne hprogress (hother j hj)]
        exact ht
      · rw [location_of_ne hprogress (hother j hj), LawfulStore.read_append_other ha hne]
        exact hread
    · obtain rfl := List.mem_singleton.1 hj
      refine ⟨block, a.details, horders.prepared j block hp, htopics, ?_⟩
      rw [hlocation]
      exact LawfulStore.read_append_self ha

/-! ## Every schedule -/

theorem valid_step (hstep : Step calls s index i s') (h : LawfulStore.Valid s.log.store) :
    LawfulStore.Valid s'.log.store := by
  rcases hstep.sameBlocks with hs | ⟨block, a, store, hp, ha, rfl, -, -⟩
  · rw [hs.store]
    exact h
  · exact LawfulStore.valid_append h ha

/-- **A step keeps the invariant.** -/
theorem Inv.of_step (h : Inv calls store ls index s)
    (hstep : Step calls s (s.pushAll index s.records) i s') : Inv calls store ls index s' where
  orders := h.orders.step hstep
  phase := phase_step h.orders hstep rfl h.phase
  valid := valid_step hstep h.valid
  grown hd := (h.grown (hd.of_step h.orders hstep)).step h.orders h.valid hstep hd

/-- **The invariant holds after every schedule.** -/
theorem Inv.run (h : Inv calls store ls index s) (schedule : List ι) :
    Inv calls store ls index (run calls s schedule) := by
  induction schedule generalizing s with
  | nil => exact h
  | cons i schedule ih => exact ih (h.of_step (step_step h.phase i))

/-- **The log serves a topic in storage order exactly if the calls of the topic recorded their
blocks in the order in which they had appended them.** -/
theorem served_in_storage_order_iff {settings : LogSettings} {log : Log σ}
    (hstart : Log.start (Log.ofStore store settings) = .ok () log)
    (hvalid : LawfulStore.Valid store) (hls : Store.locations store = .ok ls) {schedule : List ι}
    (hrun : run calls (start log) schedule = s) (hended : s.Ended) (hdistinct : s.Distinct ls) :
    s.records.Perm s.appends ∧
    Store.locations s.log.store = .ok (ls ++ s.appends.map s.location) ∧
    ((∀ i, (calls i).content.InRange ∧ (calls i).content.payloadDepth ≤ Block.payloadLimit) →
      ∀ settings', ∃ fresh, Log.start (Log.ofStore s.log.store settings') = .ok () fresh) ∧
    ∀ settings' fresh, Log.start (Log.ofStore s.log.store settings') = .ok () fresh → ∀ topic,
      ∃ old new new', log.transactionsOf topic = .ok old ∧
        s.log.transactionsOf topic = .ok (old ++ new) ∧
        fresh.transactionsOf topic = .ok (old ++ new') ∧
        new.map (·.location) = (s.under topic s.records).map s.location ∧
        new'.map (·.location) = (s.under topic s.appends).map s.location ∧
        (new = new' ↔ s.under topic s.records = s.under topic s.appends) := by
  obtain ⟨index, hindex, rfl⟩ := Log.exists_of_start hstart
  have hinv : Inv calls store ls index s := by
    rw [← hrun]
    exact (Inv.start ⟨store, settings, .ready index⟩ rfl hvalid hls).run schedule
  have hgrown := hinv.grown hdistinct
  refine ⟨hinv.orders.perm hended, hgrown.locations, fun hcalls settings' => ?_,
    fun settings' fresh hfresh topic => ?_⟩
  · have hreadable := fun i (hi : i ∈ s.appends) =>
      hgrown.exists_readBlock hi (hcalls i).1 (hcalls i).2
    rw [Log.start_ofStore, hgrown.buildIndex hls hindex hreadable]
    exact ⟨_, rfl⟩
  · exact hinv.served hended hdistinct hls hindex rfl rfl hfresh topic

/-! ## Two calls that cross -/

/-- Two calls under one topic. -/
def rivals (b : Bool) : PersistCall := ⟨0, .clear (.bool b), Log.exampleSigner, ["t"]⟩

def crossed : Persisting Bool MemoryStore :=
  run rivals (start Log.fresh) crossing

def rivalBlock (b : Bool) : Block := Block.empty.push (signedBool b).transaction ["t"]

/-- Where the block of a call is appended, the first one's before the second one's. -/
def rivalAppended (b : Bool) : Appended :=
  ⟨blockLocation b.toNat (rivalBlock b).text, .inMemory, (rivalBlock b).text.utf8ByteSize, 0⟩

theorem prepare_rivals (b : Bool) {log : Log MemoryStore} {index : TopicIndex}
    (h : log.phase = .ready index) : (rivals b).prepare log = .ok (rivalBlock b) log := by
  have hready : Log.ensureReady log = .ok () log := by
    rw [Log.ensureReady_eq, Log.isReady_ready h]
    rfl
  have hcreate : Transaction.create (rivals b).content (rivals b).signer
      = .ok (signedBool b).transaction := (signedBool b).created
  rw [PersistCall.prepare, LogM.bind_ok hready, hcreate]
  rfl

theorem append_rivals (b : Bool) {store : MemoryStore} (h : store.order.length = b.toNat) :
    Store.append store (rivals b).now (rivalBlock b).text
      = .ok (rivalAppended b, (store.append 0 (rivalBlock b).text).2) := by
  rw [rivalAppended, ← h]
  rfl

theorem run_crossed : crossed.appends = [false, true] ∧ crossed.records = [true, false] ∧
    ∀ b, crossed.progress b = .returned
      ⟨(rivalAppended b).location, (rivalAppended b).details, (rivalBlock b).topics⟩ := by
  have hready : Log.fresh.phase = .ready .empty := rfl
  have hlength : (Log.fresh.store.append 0 (rivalBlock false).text).2.order.length = true.toNat := by
    simp [MemoryStore.append, Log.fresh, MemoryStore.empty]
  have hempty : Log.fresh.store.order.length = false.toNat := rfl
  have hfirst := append_rivals false hempty
  have hsecond := append_rivals true hlength
  have hcrossed : crossed = run rivals (start Log.fresh) crossing := rfl
  rw [hcrossed]
  exact run_crossing rivals rivalBlock rivalAppended hready (fun b _ h => prepare_rivals b h)
    hfirst hsecond

theorem locations_rivals : (rivalAppended false).location ≠ (rivalAppended true).location := by
  simp only [rivalAppended, blockLocation, Keccak.hash_eq, rivalBlock, Block.text, Json.utf8_text, Block.push,
    (signedBool _).contentHash]
  decide +kernel

theorem distinct_crossed : crossed.Distinct [] := by
  obtain ⟨happends, -, hreturned⟩ := run_crossed
  refine ⟨?_, fun _ _ => List.not_mem_nil⟩
  have hlocation (b : Bool) : crossed.location b = (rivalAppended b).location := by
    rw [location, hreturned, Progress.location]
  have hne := locations_rivals
  rw [← hlocation, ← hlocation] at hne
  rw [happends]
  exact List.nodup_cons.2 ⟨fun h => hne (List.mem_singleton.1 h), List.nodup_singleton _⟩

theorem under_crossed : crossed.under "t" crossed.records = [true, false] ∧
    crossed.under "t" crossed.appends = [false, true] := by
  obtain ⟨happends, hrecords, hreturned⟩ := run_crossed
  have htopics (b : Bool) : "t" ∈ crossed.topics b := by
    rw [topics, hreturned, Progress.topics, rivalBlock, Block.mem_topics_single]
    exact .inl List.mem_cons_self
  have hall : ∀ order, crossed.under "t" order = order := fun order =>
    List.filter_eq_self.2 fun b _ => by simpa using htopics b
  rw [hall, hall]
  exact ⟨hrecords, happends⟩

theorem ended_crossed : crossed.Ended := fun b => by
  rw [run_crossed.2.2 b]
  rfl

theorem shallow_rivals (b : Bool) : (rivals b).content.InRange ∧
    (rivals b).content.payloadDepth ≤ Block.payloadLimit := by
  refine ⟨fun v hv => ?_, ?_⟩
  · rw [← Option.some.inj hv]
    trivial
  · cases b <;> decide

theorem crossed_served :
    ∃ fresh new new', Log.start (Log.ofStore crossed.log.store {}) = .ok () fresh ∧
      crossed.log.transactionsOf "t" = .ok new ∧ fresh.transactionsOf "t" = .ok new' ∧
      new.map (·.location) = [true, false].map crossed.location ∧
      new'.map (·.location) = [false, true].map crossed.location := by
  have hvalid : LawfulStore.Valid MemoryStore.empty := trivial
  have hls : Store.locations MemoryStore.empty = .ok [] := rfl
  have hrun : run rivals (start Log.fresh) [false, false, true, true, true, false] = crossed := rfl
  obtain ⟨-, -, hstart, hserved⟩ := served_in_storage_order_iff Log.start_fresh hvalid hls hrun
    ended_crossed distinct_crossed
  obtain ⟨fresh, hfresh⟩ := hstart shallow_rivals {}
  obtain ⟨old, new, new', hold, hnew, hnew', hlocations, hlocations', -⟩ :=
    hserved {} fresh hfresh "t"
  have hready : Log.fresh.phase = .ready .empty := rfl
  have hnone : Log.fresh.transactionsOf "t" = .ok [] := by
    rw [Log.transactionsOf_ready hready]
    rfl
  rw [hnone] at hold
  obtain rfl := Except.ok.inj hold
  rw [under_crossed.1] at hlocations
  rw [under_crossed.2] at hlocations'
  exact ⟨fresh, new, new', hfresh, hnew, hnew', hlocations, hlocations'⟩

/-- **Calls that cross are not served in storage order**: a new log over the same store lists them
the other way round. -/
theorem crossed_not_in_storage_order :
    crossed.Ended ∧ crossed.Distinct [] ∧
    ∃ fresh, Log.start (Log.ofStore crossed.log.store {}) = .ok () fresh ∧
      crossed.log.transactionsOf "t" ≠ fresh.transactionsOf "t" := by
  have hready : Log.fresh.phase = .ready .empty := rfl
  have hstore : Log.fresh.store = MemoryStore.empty := rfl
  have hls : Store.locations MemoryStore.empty = .ok [] := rfl
  have hinv : Inv rivals MemoryStore.empty [] .empty crossed :=
    (Inv.start Log.fresh hready trivial hls).run _
  have hgrown := hinv.grown distinct_crossed
  have hindex : Log.buildIndex MemoryStore.empty {} = .ok .empty := by
    rw [Log.buildIndex_eq]
    rfl
  have hreadable := fun b (hb : b ∈ crossed.appends) =>
    hgrown.exists_readBlock hb (shallow_rivals b).1 (shallow_rivals b).2
  have hfresh : Log.start (Log.ofStore crossed.log.store {})
      = .ok () ⟨crossed.log.store, {}, .ready (crossed.pushAll .empty crossed.appends)⟩ := by
    rw [Log.start_ofStore, hgrown.buildIndex hls hindex hreadable]
  refine ⟨ended_crossed, distinct_crossed, _, hfresh, fun he => ?_⟩
  obtain ⟨old, new, new', -, hnew, hnew', -, -, hiff⟩ :=
    hinv.served ended_crossed distinct_crossed hls hindex hready hstore hfresh "t"
  rw [hnew, hnew'] at he
  have hsame := hiff.1 (List.append_cancel_left (Except.ok.inj he))
  rw [under_crossed.1, under_crossed.2] at hsame
  simp at hsame

end ChannelLog.Persisting
