import ChannelLog.Proofs.Log.Serving
import ChannelLog.Proofs.Log.StorageOrder

/-!
# A log is safe at every point of concurrent use

* `Persisting.Waiting`: before the log is ready, no call to persist gets past its first step. So the
  store is still the one that was read when the index is put to use.
* `Persisting.Kept`, `Persisting.Inv.hasTopic`: what was stored stays, and the index lists nothing
  else.
* `Serving.Situation`: the log waits to be started, or one call is starting it, or it is ready. Each
  step leads from one of these to another (`Situation.step`), and never away from the last
  (`Ready.step`).
* `Serving.safe_at_every_point`: **what holds after every schedule**, whatever the calls are at and
  whenever the store fails.
-/

namespace ChannelLog

open Function (update)

/-- The block at a location has a topic in its index, as it reads or as it was written. -/
def Log.HasTopic {σ : Type} [Store σ] (store : σ) (location : Location) (topic : String) : Prop :=
  ∃ stored block, Store.read store location = .ok stored ∧ topic ∈ block.topics ∧
    (Log.checkBlock stored.content = .ok block ∨ stored.content = block.text)

/-! ## Calls to persist -/

namespace Persisting

variable {ι σ : Type} {calls : ι → PersistCall} {store : σ} {settings : LogSettings}
  {ls : List Location} {index : TopicIndex} {s s' : Persisting ι σ} {i : ι}

/-- Nothing was persisted: each call has taken no step, or was turned away. -/
structure Waiting (store : σ) (settings : LogSettings) (s : Persisting ι σ) : Prop where
  store : s.log.store = store
  settings : s.log.settings = settings
  appends : s.appends = []
  records : s.records = []
  progress : ∀ i, s.progress i = .called ∨ ∃ e, s.progress i = .failed e

theorem Waiting.start (store : σ) (settings : LogSettings) :
    (start (Log.ofStore store settings) : Persisting ι σ).Waiting store settings :=
  ⟨rfl, rfl, rfl, rfl, fun _ => .inl rfl⟩

theorem Waiting.phase (h : s.Waiting store settings) (phase : Phase) :
    ({ s with log := { s.log with phase } } : Persisting ι σ).Waiting store settings :=
  ⟨h.store, h.settings, h.appends, h.records, h.progress⟩

theorem Waiting.orders (h : s.Waiting store settings) (calls : ι → PersistCall) :
    s.Orders calls := by
  have hstored : ∀ i, ¬(s.progress i).IsStored := fun i => by
    rcases h.progress i with hi | ⟨e, hi⟩ <;> rw [hi] <;> exact not_false
  have hreturned : ∀ i, ¬(s.progress i).IsReturned := fun i => by
    rcases h.progress i with hi | ⟨e, hi⟩ <;> rw [hi] <;> exact not_false
  refine ⟨fun i block hb => ?_, ?_, fun i => ?_, ?_, fun i => ?_⟩
  · rcases h.progress i with hi | ⟨e, hi⟩ <;> rw [hi] at hb <;> exact nomatch hb
  · rw [h.appends]
    exact List.nodup_nil
  · rw [h.appends]
    exact iff_of_false List.not_mem_nil (hstored i)
  · rw [h.records]
    exact List.nodup_nil
  · rw [h.records]
    exact iff_of_false List.not_mem_nil (hreturned i)

theorem Orders.appended_of_recorded (h : s.Orders calls) (hi : i ∈ s.records) : i ∈ s.appends := by
  rw [h.mem_appends]
  rw [h.mem_records] at hi
  cases hp : s.progress i <;> simp_all [Progress.IsStored, Progress.IsReturned]

/-- A block with the topic was stored at the location: it was there when the log was started, or a
call appended it. -/
def WasStored [Store σ] (store : σ) (s : Persisting ι σ) (location : Location) (topic : String) :
    Prop :=
  (∃ b, Log.readBlock store location = .ok b ∧ topic ∈ b.block.topics) ∨
    ∃ i ∈ s.appends, s.location i = location ∧ topic ∈ s.topics i

/-- What is in the store stays there, in one form or another, and the calls appended the blocks that
they made. -/
structure Kept [Store σ] (calls : ι → PersistCall) (store : σ) (s : Persisting ι σ) : Prop where
  read : ∀ l, (∃ stored, Store.read store l = .ok stored) →
    ∃ stored, Store.read s.log.store l = .ok stored
  stored : ∀ i ∈ s.appends, ∃ stored, Store.read s.log.store (s.location i) = .ok stored
  made : ∀ i ∈ s.appends, ∃ block, (calls i).Makes block ∧ s.topics i = block.topics

theorem Waiting.kept [Store σ] (h : s.Waiting store settings) (calls : ι → PersistCall) :
    s.Kept calls store where
  read l hl := by rwa [h.store]
  stored i hi := by
    rw [h.appends] at hi
    exact absurd hi List.not_mem_nil
  made i hi := by
    rw [h.appends] at hi
    exact absurd hi List.not_mem_nil

section

variable [Store σ] [LawfulStore σ]

theorem Waiting.inv (h : s.Waiting store settings) (hready : s.log.phase = .ready index)
    (hvalid : LawfulStore.Valid store) (hls : Store.locations store = .ok ls) :
    Inv calls store ls index s where
  orders := h.orders calls
  phase := by
    rw [hready, h.records]
    rfl
  valid := by rwa [h.store]
  grown _ := by
    refine ⟨?_, fun l _ => by rw [h.store], fun i hi => ?_⟩
    · rw [h.store, h.appends, List.map_nil, List.append_nil]
      exact hls
    · rw [h.appends] at hi
      exact absurd hi List.not_mem_nil

theorem Inv.wasStored (h : Inv calls store ls index s)
    (hindex : Log.buildIndex store settings = .ok index) (hls : Store.locations store = .ok ls)
    {topic : String} {l : Location} (hl : l ∈ (s.pushAll index s.records).locations topic) :
    s.WasStored store l topic := by
  have hvalid := (Log.valid_of_buildIndex hindex hls).1
  rcases (TopicIndex.mem_locations_foldl_push hvalid).1 hl with hl | ⟨i, hi, rfl, ht⟩
  · exact .inl ((Log.mem_locations_of_buildIndex hindex hls).1 hl).2
  · exact .inr ⟨i, h.orders.appended_of_recorded hi, rfl, ht⟩

omit [LawfulStore σ] in
theorem Kept.exists_read (h : s.Kept calls store) {topic : String} {l : Location}
    (hl : s.WasStored store l topic) : ∃ stored, Store.read s.log.store l = .ok stored := by
  rcases hl with ⟨b, hb, -⟩ | ⟨i, hi, rfl, -⟩
  · obtain ⟨stored, hread, -⟩ := Log.exists_of_readBlock hb
    exact h.read l ⟨stored, hread⟩
  · exact h.stored i hi

/-- **What the index lists is in the store with its topic**, if no two entries have one location. -/
theorem Inv.hasTopic (h : Inv calls store ls index s) (hdistinct : s.Distinct ls)
    (hindex : Log.buildIndex store settings = .ok index) (hls : Store.locations store = .ok ls)
    {topic : String} {l : Location} (hl : l ∈ (s.pushAll index s.records).locations topic) :
    l ∈ ls ++ s.appends.map s.location ∧ Log.HasTopic s.log.store l topic := by
  have hvalid := (Log.valid_of_buildIndex hindex hls).1
  have hgrown := h.grown hdistinct
  rcases (TopicIndex.mem_locations_foldl_push hvalid).1 hl with hl | ⟨i, hi, rfl, ht⟩
  · obtain ⟨hmem, b, hb, ht⟩ := (Log.mem_locations_of_buildIndex hindex hls).1 hl
    obtain ⟨stored, hread, hcheck⟩ := Log.exists_of_readBlock hb
    rw [← hgrown.kept l hmem] at hread
    exact ⟨List.mem_append_left _ hmem, stored, b.block, hread, ht, .inl hcheck⟩
  · have happended := h.orders.appended_of_recorded hi
    obtain ⟨block, details, -, htopics, hread⟩ := hgrown.read i happended
    rw [htopics] at ht
    exact ⟨List.mem_append_right _ (List.mem_map_of_mem happended), _, block, hread, ht, .inr rfl⟩

end

/-! ## Their steps -/

variable [DecidableEq ι] [Store σ]

theorem Waiting.step (h : s.Waiting store settings) (hphase : s.log.isReady = false)
    (outage : Outage) (i : ι) : (s.stepDuring outage calls i).Waiting store settings ∧
      (s.stepDuring outage calls i).log = s.log := by
  have hunprepared : ∀ block, s.progress i ≠ .prepared block := by
    intro block hp
    rcases h.progress i with hi | ⟨e, hi⟩ <;> rw [hi] at hp <;> exact nomatch hp
  rw [stepDuring_eq hunprepared]
  rcases h.progress i with hi | ⟨e, hi⟩
  · rw [step_called_error hi ((calls i).prepare_refused hphase)]
    refine ⟨⟨h.store, h.settings, h.appends, h.records, fun j => ?_⟩, rfl⟩
    by_cases hj : j = i
    · rw [hj]
      exact .inr ⟨_, Function.update_self ..⟩
    · have hsame := Function.update_of_ne hj (.failed .notInitialized) s.progress
      exact (h.progress j).imp hsame.trans fun ⟨e, he⟩ => ⟨e, hsame.trans he⟩
  · rw [step_failed hi]
    exact ⟨h, rfl⟩

theorem Kept.step [LawfulStore σ] (h : s.Kept calls store) (horders : s.Orders calls)
    (hstep : Step calls s index i s') : s'.Kept calls store := by
  rcases hstep.sameBlocks with hs | ⟨block, a, store', hp, ha, hstore, happends, hprogress⟩
  · refine ⟨?_, ?_, ?_⟩
    · rw [hs.store]
      exact h.read
    · rw [hs.store, hs.appends, hs.location]
      exact h.stored
    · rw [hs.appends, hs.topics]
      exact h.made
  have hlater {l : Location} := LawfulStore.exists_read_append (l := l) ha
  have hother : ∀ j ∈ s.appends, j ≠ i := by
    rintro j hj rfl
    rw [horders.mem_appends, hp] at hj
    exact hj
  refine ⟨fun l hl => ?_, fun j hj => ?_, fun j hj => ?_⟩
  · rw [hstore]
    exact hlater (h.read l hl)
  · rw [hstore]
    rw [happends, List.mem_append, List.mem_singleton] at hj
    rcases hj with hj | rfl
    · rw [location_of_ne hprogress (hother j hj)]
      exact hlater (h.stored j hj)
    · rw [location_self hprogress]
      exact ⟨_, LawfulStore.read_append_self ha⟩
  · rw [happends, List.mem_append, List.mem_singleton] at hj
    rcases hj with hj | rfl
    · rw [topics_of_ne hprogress (hother j hj)]
      exact h.made j hj
    · exact ⟨block, horders.prepared j block hp, topics_self hprogress⟩

end Persisting

namespace Serving

variable {ι κ σ : Type}

/-! ## The situations of a log -/

section

variable [Store σ] [LawfulStore σ] {calls : ι → PersistCall} {store : σ} {settings : LogSettings}
  {ls : List Location} {index : TopicIndex} {s : Serving ι κ σ}

/-- The log is ready, and was started with `index` over the locations `ls`. -/
structure Ready (calls : ι → PersistCall) (store : σ) (settings : LogSettings) (ls : List Location)
    (index : TopicIndex) (s : Serving ι κ σ) : Prop where
  locations : Store.locations store = .ok ls
  built : Log.buildIndex store settings = .ok index
  inv : Persisting.Inv calls store ls index s.persists
  kept : s.persists.Kept calls store
  settled : ∀ k, ¬(s.startups k).IsUnderway

/-- Where a log stands that had the store `store` when no call had taken a step. -/
inductive Situation (calls : ι → PersistCall) (store : σ) (settings : LogSettings)
    (s : Serving ι κ σ) : Prop where
  | idle (phase : s.log.phase = .uninitialized) (waiting : s.persists.Waiting store settings)
    (settled : ∀ k, ¬(s.startups k).IsUnderway)
  | starting (k : κ) (phase : s.log.phase = .initializing)
    (waiting : s.persists.Waiting store settings)
    (underway : ∀ j, (s.startups j).IsUnderway ↔ j = k)
    (scanned : ∀ index, s.startups k = .scanned (.ok index) →
      Log.buildIndex store settings = .ok index)
  | ready (ls : List Location) (index : TopicIndex) (h : s.Ready calls store settings ls index)

theorem Situation.start (calls : ι → PersistCall) (store : σ) (settings : LogSettings) :
    (start (Log.ofStore store settings) : Serving ι κ σ).Situation calls store settings :=
  .idle rfl (.start store settings) fun _ => id

theorem Ready.phase (h : s.Ready calls store settings ls index) :
    s.log.phase = .ready (s.persists.pushAll index s.persists.records) := h.inv.phase

theorem Ready.isReady (h : s.Ready calls store settings ls index) : s.log.isReady = true :=
  Log.isReady_ready h.phase

end

variable [DecidableEq κ] [Store σ] [DecidableEq ι]

/-! ## From one situation to another -/

section

variable [LawfulStore σ] {calls : ι → PersistCall} {store : σ} {settings : LogSettings}
  {ls : List Location} {index : TopicIndex} {s : Serving ι κ σ}

theorem Ready.step (h : s.Ready calls store settings ls index) (turn : Turn ι κ) :
    (step calls s turn).Ready calls store settings ls index := by
  obtain ⟨i | k, outage⟩ := turn
  · have hstep : Persisting.Step calls s.persists _ i (s.persists.stepDuring outage calls i) :=
      Persisting.step_stepDuring h.inv.phase outage i
    exact ⟨h.locations, h.built, h.inv.of_step hstep, h.kept.step h.inv.orders hstep, h.settled⟩
  · show (s.stepStartup outage k).Ready calls store settings ls index
    have hstep := startStep_stepStartup outage s k
    generalize s.stepStartup outage k = s' at hstep
    cases hstep with
    | idle result hk => exact h
    | claim hk hphase => exact absurd (h.phase.symm.trans hphase) (by simp)
    | refuse hk hphase =>
      exact ⟨h.locations, h.built, h.inv, h.kept,
        not_isUnderway_moved (fun j hj => absurd hj (h.settled j)) id⟩
    | scan _ hk => exact absurd (Startup.isUnderway_of_claimed hk) (h.settled k)
    | publish index hk => exact absurd (Startup.isUnderway_of_scanned hk) (h.settled k)
    | rollBack e hk => exact absurd (Startup.isUnderway_of_scanned hk) (h.settled k)

theorem Ready.run (h : s.Ready calls store settings ls index) (schedule : List (Turn ι κ)) :
    (run calls s schedule).Ready calls store settings ls index := by
  induction schedule generalizing s with
  | nil => exact h
  | cons turn schedule ih => exact ih (h.step turn)

omit [DecidableEq ι] in
theorem Situation.of_idle (hphase : s.log.phase = .uninitialized)
    (hwaiting : s.persists.Waiting store settings) (hsettled : ∀ k, ¬(s.startups k).IsUnderway)
    (outage : Outage) (k : κ) : (s.stepStartup outage k).Situation calls store settings := by
  have hstep := startStep_stepStartup outage s k
  generalize s.stepStartup outage k = s' at hstep
  cases hstep with
  | idle result hk => exact .idle hphase hwaiting hsettled
  | claim hk =>
    refine .starting k rfl (hwaiting.phase .initializing)
      (isUnderway_moved_iff (fun j hj => absurd hj (hsettled j)) trivial) fun index hr => ?_
    rw [startups_moved] at hr
    cases hr
  | refuse hk hne => exact absurd hphase hne
  | scan _ hk => exact absurd (Startup.isUnderway_of_claimed hk) (hsettled k)
  | publish index hk => exact absurd (Startup.isUnderway_of_scanned hk) (hsettled k)
  | rollBack e hk => exact absurd (Startup.isUnderway_of_scanned hk) (hsettled k)

omit [DecidableEq ι] in
theorem Situation.of_starting (hvalid : LawfulStore.Valid store) {k : κ}
    (hphase : s.log.phase = .initializing) (hwaiting : s.persists.Waiting store settings)
    (hunderway : ∀ j, (s.startups j).IsUnderway ↔ j = k)
    (hscanned : ∀ index, s.startups k = .scanned (.ok index) →
      Log.buildIndex store settings = .ok index) (outage : Outage) (j : κ) :
    (s.stepStartup outage j).Situation calls store settings := by
  have hstep := startStep_stepStartup outage s j
  generalize s.stepStartup outage j = s' at hstep
  have halone : ∀ i, (s.startups i).IsUnderway → i = k := fun i => (hunderway i).1
  cases hstep with
  | idle result hj => exact .starting k hphase hwaiting hunderway hscanned
  | claim hj hnone => exact absurd (hphase.symm.trans hnone) (by simp)
  | refuse hj hne =>
    have hjk : j ≠ k := by
      rintro rfl
      have := (hunderway j).2 rfl
      rw [hj] at this
      exact this
    refine .starting k hphase hwaiting (isUnderway_moved_of_ne hunderway hjk id)
      fun index hr => hscanned index ?_
    rwa [startups_moved_of_ne _ hjk.symm] at hr
  | scan _ hj =>
    obtain rfl := (hunderway j).1 (Startup.isUnderway_of_claimed hj)
    refine .starting j hphase hwaiting (isUnderway_moved_iff halone trivial) fun index hr => ?_
    rw [startups_moved] at hr
    have hindex := Log.buildIndex_of_scanDuring (Startup.scanned.inj hr)
    rwa [log, hwaiting.store, hwaiting.settings] at hindex
  | publish index hj =>
    obtain rfl := (hunderway j).1 (Startup.isUnderway_of_scanned hj)
    have hindex : Log.buildIndex store settings = .ok index := hscanned index hj
    obtain ⟨ls, hls⟩ := Log.exists_locations_of_buildIndex hindex
    have hready := hwaiting.phase (.ready index)
    exact .ready ls index ⟨hls, hindex, hready.inv rfl hvalid hls, hready.kept calls,
      not_isUnderway_moved halone id⟩
  | rollBack e hj =>
    obtain rfl := (hunderway j).1 (Startup.isUnderway_of_scanned hj)
    exact .idle rfl (hwaiting.phase .uninitialized) (not_isUnderway_moved halone id)

/-- **Each step leads from one situation to another.** -/
theorem Situation.step (hvalid : LawfulStore.Valid store)
    (h : s.Situation calls store settings) (turn : Turn ι κ) :
    (step calls s turn).Situation calls store settings := by
  cases h with
  | ready ls index h => exact .ready ls index (h.step turn)
  | idle hphase hwaiting hsettled =>
    obtain ⟨i | k, outage⟩ := turn
    · have hbusy : s.log.isReady = false := by rw [Log.isReady, hphase]
      obtain ⟨hwaiting', hlog⟩ := hwaiting.step hbusy outage i
      exact .idle ((congrArg Log.phase hlog).trans hphase) hwaiting' hsettled
    · exact .of_idle hphase hwaiting hsettled outage k
  | starting k hphase hwaiting hunderway hscanned =>
    obtain ⟨i | j, outage⟩ := turn
    · have hbusy : s.log.isReady = false := by rw [Log.isReady, hphase]
      obtain ⟨hwaiting', hlog⟩ := hwaiting.step hbusy outage i
      exact .starting k ((congrArg Log.phase hlog).trans hphase) hwaiting' hunderway hscanned
    · exact .of_starting hvalid hphase hwaiting hunderway hscanned outage j

theorem Situation.run (hvalid : LawfulStore.Valid store)
    (h : s.Situation calls store settings) (schedule : List (Turn ι κ)) :
    (run calls s schedule).Situation calls store settings := by
  induction schedule generalizing s with
  | nil => exact h
  | cons turn schedule ih => exact ih (h.step hvalid turn)

/-! ## Every schedule -/

/-- What holds at a point of the use of a log that had the store `store` at the beginning. -/
structure Safe (calls : ι → PersistCall) (store : σ) (s : Serving ι κ σ) : Prop where
  /-- No two calls are starting the log. -/
  alone : ∀ j k, (s.startups j).IsUnderway → (s.startups k).IsUnderway → j = k
  /-- A log that is ready is never anything else again. -/
  stays_ready : s.log.isReady = true → ∀ schedule, (run calls s schedule).log.isReady = true
  /-- Where the index lists a topic there is an entry, and a block with the topic was stored. -/
  listed : ∀ index, s.log.phase = .ready index → ∀ topic, ∀ l ∈ index.locations topic,
    (∃ stored, Store.read s.log.store l = .ok stored) ∧ s.persists.WasStored store l topic
  /-- If no two entries have one location, that block is the entry. -/
  has_topic : ∀ index ls, s.log.phase = .ready index → Store.locations store = .ok ls →
    s.persists.Distinct ls → ∀ topic, ∀ l ∈ index.locations topic,
      (∃ ls', Store.locations s.log.store = .ok ls' ∧ l ∈ ls') ∧ Log.HasTopic s.log.store l topic
  /-- The last step of persisting finds the log ready, and succeeds, even during an outage. -/
  recorded : ∀ i block a, s.persists.progress i = .appended block a → s.log.isReady = true ∧
    ∀ outage, (step calls s ⟨.inl i, outage⟩).persists.progress i
      = .returned ⟨a.location, a.details, block.topics⟩
  /-- A call that reports an error has written nothing. -/
  failed : ∀ i e, s.persists.progress i = .failed e → i ∉ s.persists.appends
  /-- The block of a call that returned is listed under all its topics. -/
  returned : ∀ i p, s.persists.progress i = .returned p → ∃ block index, (calls i).Makes block ∧
    p.topics = block.topics ∧ s.log.phase = .ready index ∧
    ∀ topic ∈ block.topics, p.location ∈ index.locations topic

omit [LawfulStore σ] in
theorem Safe.of_waiting (hphase : s.log.isReady = false)
    (hwaiting : s.persists.Waiting store settings)
    (halone : ∀ j k, (s.startups j).IsUnderway → (s.startups k).IsUnderway → j = k) :
    s.Safe calls store where
  alone := halone
  stays_ready h := by simp [hphase] at h
  listed index h := by simp [Log.isReady_ready h] at hphase
  has_topic index ls h := by simp [Log.isReady_ready h] at hphase
  recorded i block a h := by
    rcases hwaiting.progress i with hi | ⟨e, hi⟩ <;> rw [hi] at h <;> exact nomatch h
  failed i e _ hi := by
    rw [hwaiting.appends] at hi
    exact absurd hi List.not_mem_nil
  returned i p h := by
    rcases hwaiting.progress i with hi | ⟨e, hi⟩ <;> rw [hi] at h <;> exact nomatch h

theorem Ready.safe (h : s.Ready calls store settings ls index) : s.Safe calls store where
  alone j _ hj := absurd hj (h.settled j)
  stays_ready _ schedule := (h.run schedule).isReady
  listed current hcurrent topic l hl := by
    obtain rfl := Phase.ready.inj (h.phase.symm.trans hcurrent)
    have hstored := h.inv.wasStored h.built h.locations hl
    exact ⟨h.kept.exists_read hstored, hstored⟩
  has_topic current ls' hcurrent hls' hdistinct topic l hl := by
    obtain rfl := Phase.ready.inj (h.phase.symm.trans hcurrent)
    obtain rfl := Except.ok.inj (h.locations.symm.trans hls')
    obtain ⟨hmem, htopic⟩ := h.inv.hasTopic hdistinct h.built h.locations hl
    exact ⟨⟨_, (h.inv.grown hdistinct).locations, hmem⟩, htopic⟩
  recorded i block a hi := by
    refine ⟨h.isReady, fun outage => ?_⟩
    have hrecord := Log.record_ready h.inv.phase a.location block.topics
    have hunprepared : ∀ block, s.persists.progress i ≠ .prepared block := by
      intro block hp
      exact nomatch hi.symm.trans hp
    show (s.persists.stepDuring outage calls i).progress i = _
    rw [Persisting.stepDuring_eq hunprepared, Persisting.step_appended_ok hi hrecord]
    exact Function.update_self ..
  failed i e hi happended := by
    rw [h.inv.orders.mem_appends, hi] at happended
    exact happended
  returned i p hi := by
    have hrecorded : i ∈ s.persists.records := by
      rw [h.inv.orders.mem_records, hi]
      trivial
    obtain ⟨block, hmakes, htopics⟩ :=
      h.kept.made i (h.inv.orders.appended_of_recorded hrecorded)
    have hvalid := (Log.valid_of_buildIndex h.built h.locations).1
    have hlocation : s.persists.location i = p.location := by rw [Persisting.location, hi]; rfl
    have hown : s.persists.topics i = p.topics := by rw [Persisting.topics, hi]; rfl
    refine ⟨block, _, hmakes, hown.symm.trans htopics, h.phase, fun topic ht => ?_⟩
    rw [← htopics] at ht
    exact (TopicIndex.mem_locations_foldl_push hvalid).2 (.inr ⟨i, hrecorded, hlocation.symm, ht⟩)

/-- **A log is safe at every point of its use**, by any number of calls whose steps come in any
order, while the store may fail at any time. -/
theorem safe_at_every_point (calls : ι → PersistCall) {store : σ}
    (hvalid : LawfulStore.Valid store) (settings : LogSettings)
    (schedule : List (Turn ι κ)) :
    (run calls (start (Log.ofStore store settings)) schedule).Safe calls store := by
  have hsituation := (Situation.start calls store settings).run hvalid schedule
  generalize run calls (start (Log.ofStore store settings)) schedule = s at hsituation ⊢
  cases hsituation with
  | idle hphase hwaiting hsettled =>
    exact .of_waiting (by rw [Log.isReady, hphase]) hwaiting fun j _ hj => absurd hj (hsettled j)
  | starting k hphase hwaiting hunderway =>
    refine .of_waiting (by rw [Log.isReady, hphase]) hwaiting fun i j hi hj => ?_
    rw [(hunderway i).1 hi, (hunderway j).1 hj]
  | ready ls index h => exact h.safe

end

/-- A call starts a log whose store fails, and turns another one away meanwhile; a third one starts
it. Of two calls that persist on it one comes too early. -/
def hurried : List (Turn Bool (Fin 3)) :=
  [⟨.inr 0, none⟩, ⟨.inl true, none⟩, ⟨.inr 1, none⟩, ⟨.inr 0, some (.io "gone")⟩, ⟨.inr 0, none⟩]
    ++ startAlone 2 ++ [⟨.inl false, none⟩, ⟨.inl false, none⟩]

omit [DecidableEq κ] [DecidableEq ι] in
theorem run_hurried (calls : Bool → PersistCall) {store store' : σ} {settings : LogSettings}
    {index : TopicIndex} {block : Block} {a : Appended}
    (hindex : Log.buildIndex store settings = .ok index)
    (hprepare : (calls false).prepare ⟨store, settings, .ready index⟩
      = .ok block ⟨store, settings, .ready index⟩)
    (happend : Store.append store (calls false).now block.text = .ok (a, store')) :
    let s := run calls (start (Log.ofStore store settings)) hurried
    s.startups 0 = .ended (.error (.storage (.io "gone"))) ∧
    s.startups 1 = .ended (.error .alreadyInitialized) ∧
    s.startups 2 = .ended (.ok ()) ∧
    s.persists.progress true = .failed .notInitialized ∧
    s.persists.progress false = .appended block a := by
  have hearly : (calls true).prepare (⟨store, settings, .initializing⟩ : Log σ)
      = .error .notInitialized ⟨store, settings, .initializing⟩ := PersistCall.prepare_refused rfl _
  have happend' : Log.append (calls false).now block.text (⟨store, settings, .ready index⟩ : Log σ)
      = .ok a ⟨store', settings, .ready index⟩ := Log.append_ok happend
  have h01 : (0 : Fin 3) ≠ 1 := by decide
  have h02 : (0 : Fin 3) ≠ 2 := by decide
  have h12 : (1 : Fin 3) ≠ 2 := by decide
  simp only [run, hurried, startAlone, List.cons_append, List.nil_append, List.foldl_cons,
    List.foldl_nil, step, stepStartup, Log.scanDuring, Persisting.stepDuring, start,
    Persisting.start, Persisting.step, Log.ofStore, log, moved, Log.claim_uninitialized,
    Log.claim_refused, ne_eq, reduceCtorEq, not_false_eq_true, Function.update_self,
    Function.update_of_ne, Bool.true_eq_false, Bool.false_eq_true, h01, h01.symm, h02, h02.symm,
    h12, h12.symm, hindex, hearly, hprepare, happend', Log.settle_ok, Log.settle_error, and_self]

open Persisting (rivals rivalBlock rivalAppended)

theorem safe_hurried : ∃ s : Serving Bool (Fin 3) MemoryStore,
    s = run rivals (start (Log.ofStore .empty {})) hurried ∧
    s.startups 0 = .ended (.error (.storage (.io "gone"))) ∧
    s.startups 1 = .ended (.error .alreadyInitialized) ∧
    s.startups 2 = .ended (.ok ()) ∧
    s.persists.progress true = .failed .notInitialized ∧
    s.persists.progress false = .appended (rivalBlock false) (rivalAppended false) ∧
    s.Safe rivals MemoryStore.empty := by
  have hindex : Log.buildIndex MemoryStore.empty {} = .ok .empty := by
    rw [Log.buildIndex_eq]
    rfl
  have hready : Log.fresh.phase = .ready .empty := rfl
  obtain ⟨hfailed, hrefused, hstarted, hearly, happended⟩ := run_hurried rivals hindex
    (Persisting.prepare_rivals false hready) (Persisting.append_rivals false rfl)
  exact ⟨_, rfl, hfailed, hrefused, hstarted, hearly, happended,
    safe_at_every_point rivals trivial {} hurried⟩

end Serving

end ChannelLog
