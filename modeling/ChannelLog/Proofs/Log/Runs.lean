import ChannelLog.Proofs.Block.Single
import ChannelLog.Proofs.Log.Interleaving

/-!
# Calls one after the other

* `LogCall`, `Log.run`: any calls on a log, and the log after them. `Log.appended` says which blocks
  they appended, and where.
* `Log.Grown`: what became of a ready log that was given some blocks. The index has them pushed in the
  order of their appends, the store lists them last, and all else reads as before.
* `Log.grown_run`: **calls only make a log grow** by the blocks that they append, as long as no two
  appends have one location.
* `Log.Tracks.transactionsOf`: if a log listed nothing but locations of its store, what it serves of
  a topic when it has grown is what it served before, and then the new blocks.
-/

namespace ChannelLog

variable {σ : Type}

/-! ## Entries -/

/-- A block and where it is stored. -/
structure Entry where
  location : Location
  block : Block

/-- A block read from the store, without what is known of its text. -/
def LoadedBlock.entry (b : LoadedBlock) : Entry := ⟨b.location, b.block⟩

def LoadedBlock.found (topic : String) (b : LoadedBlock) : List Found :=
  (b.block.transactionsAt (b.block.positions topic)).map (⟨·, b.location, b.details⟩)

theorem LoadedBlock.found_single {t u : Transaction} {topics : List String} {topic : String}
    (h : topic ∈ (Block.empty.push t topics).topics) (location : Location)
    (details : StorageMeta) :
    found topic ⟨location, ⟨(Block.empty.push t topics).header, [u]⟩, details⟩
      = [⟨u, location, details⟩] := by
  rw [found, Block.transactionsAt_single t u h, List.map_cons, List.map_nil]

namespace Entry

/-- The entries whose blocks have a topic. -/
def under (topic : String) (entries : List Entry) : List Entry :=
  entries.filter (topic ∈ ·.block.topics)

/-- The block has one transaction, as those that are persisted. -/
def IsSingle (e : Entry) : Prop := ∃ t topics, e.block = Block.empty.push t topics

/-- The text of the block is in the store, where the entry says. -/
def IsStored [Store σ] (store : σ) (e : Entry) : Prop :=
  ∃ details, Store.read store e.location = .ok ⟨e.block.text, details⟩

theorem IsStored.of_readBlock [Store σ] {store : σ} {e : Entry} (h : e.IsStored store)
    (hsingle : e.IsSingle) {b : LoadedBlock} (hb : Log.readBlock store e.location = .ok b) :
    ∃ u, b.location = e.location ∧ b.block = ⟨e.block.header, [u]⟩ := by
  obtain ⟨details, hread⟩ := h
  obtain ⟨t, topics, he⟩ := hsingle
  have hcheck := Log.checkBlock_of_readBlock hread hb
  rw [he] at hcheck
  obtain ⟨u, hu⟩ := Log.exists_of_checkBlock_single hcheck
  exact ⟨u, Log.location_of_readBlock hb, by rw [he, hu]⟩

end Entry

def TopicIndex.pushEntries (index : TopicIndex) (entries : List Entry) : TopicIndex :=
  entries.foldl (fun index e => index.push e.location e.block.topics) index

theorem TopicIndex.pushEntries_append (index : TopicIndex) (xs ys : List Entry) :
    index.pushEntries (xs ++ ys) = (index.pushEntries xs).pushEntries ys :=
  List.foldl_append

theorem TopicIndex.locations_pushEntries {index : TopicIndex} (h : index.Valid)
    {entries : List Entry} {topic : String} (hnodup : (entries.map (·.location)).Nodup)
    (hnew : ∀ e ∈ entries, e.location ∉ index.locations topic) :
    (index.pushEntries entries).locations topic
      = index.locations topic ++ (Entry.under topic entries).map (·.location) :=
  TopicIndex.locations_foldl_push h hnodup hnew

/-! ## Calls -/

def PersistCall.block (c : PersistCall) : Except SigningError Block :=
  (Transaction.create c.content c.signer).map (Block.empty.push · c.topics)

/-- A call on a log. -/
inductive LogCall where
  | start
  | persist (c : PersistCall)
  | look (topic : String)

namespace LogCall

variable [Store σ]

/-- The log after a call, whatever the call returned. -/
def after (log : Log σ) : LogCall → Log σ
  | start => match Log.start log with
    | .ok _ log | .error _ log => log
  | persist c => match c.persist log with
    | .ok _ log | .error _ log => log
  | look _ => log

/-- The block that a call appended, if it did. -/
def appended (log : Log σ) : LogCall → List Entry
  | persist c => match c.persist log, c.block with
    | .ok p _, .ok block => [⟨p.location, block⟩]
    | _, _ => []
  | _ => []

end LogCall

namespace Log

variable [Store σ]

/-- The log after some calls. -/
def run (log : Log σ) : List LogCall → Log σ
  | [] => log
  | call :: calls => run (call.after log) calls

/-- The blocks that the calls appended. -/
def appended (log : Log σ) : List LogCall → List Entry
  | [] => []
  | call :: calls => call.appended log ++ appended (call.after log) calls

theorem run_append (log : Log σ) (xs ys : List LogCall) :
    log.run (xs ++ ys) = (log.run xs).run ys := by
  induction xs generalizing log with
  | nil => rfl
  | cons call xs ih => exact ih (call.after log)

theorem appended_append (log : Log σ) (xs ys : List LogCall) :
    log.appended (xs ++ ys) = log.appended xs ++ (log.run xs).appended ys := by
  induction xs generalizing log with
  | nil => rfl
  | cons call xs ih =>
    show call.appended log ++ (call.after log).appended (xs ++ ys) = _
    rw [ih, ← List.append_assoc]
    rfl

theorem start_ready {log : Log σ} {index : TopicIndex} (h : log.phase = .ready index) :
    start log = .error .alreadyInitialized log :=
  start_refused (by simp [h])

/-! ## Look-ups -/

theorem transactionsOf_eq {log : Log σ} {index : TopicIndex} (h : log.phase = .ready index)
    (topic : String) :
    log.transactionsOf topic = ((index.locations topic).mapM (readBlock log.store)).map
      (·.flatMap (·.found topic)) :=
  transactionsOf_ready h topic

theorem transactionsOf_eq_ok_iff {log : Log σ} {index : TopicIndex} (h : log.phase = .ready index)
    {topic : String} {found : List Found} : log.transactionsOf topic = .ok found ↔
      ∃ blocks, (index.locations topic).mapM (readBlock log.store) = .ok blocks ∧
        blocks.flatMap (·.found topic) = found := by
  rw [transactionsOf_eq h]
  cases (index.locations topic).mapM (readBlock log.store) <;> simp [Except.map]

theorem transactionsOf_settings (log : Log σ) (settings : LogSettings) (topic : String) :
    { log with settings }.transactionsOf topic = log.transactionsOf topic := by
  simp only [transactionsOf, readBlocks_eq_mapM]
  rfl

/-! ## Single calls -/

section

variable {log : Log σ} {index : TopicIndex} {c : PersistCall}

theorem call_persist_ok (hready : log.phase = .ready index) {t : Transaction} {a : Appended}
    {store : σ} (hc : Transaction.create c.content c.signer = .ok t)
    (ha : Store.append log.store c.now (Block.empty.push t c.topics).text = .ok (a, store)) :
    (LogCall.persist c).appended log = [⟨a.location, Block.empty.push t c.topics⟩] ∧
    (LogCall.persist c).after log = { log with
      store
      phase := .ready (index.push a.location (Block.empty.push t c.topics).topics) } := by
  have hpersist : c.persist log = _ := persist_ready hready c.now c.content c.signer c.topics
  simp only [hc, ha] at hpersist
  simp only [LogCall.appended, LogCall.after, PersistCall.block, hpersist, hc, Except.map, and_self]

theorem call_persist_error {e : LogError} (h : c.persist log = .error e log) :
    (LogCall.persist c).appended log = [] ∧ (LogCall.persist c).after log = log := by
  simp only [LogCall.appended, LogCall.after, h, and_self]

theorem call_look (log : Log σ) (topic : String) :
    (LogCall.look topic).appended log = [] ∧ (LogCall.look topic).after log = log :=
  ⟨rfl, rfl⟩

theorem call_start (hready : log.phase = .ready index) :
    LogCall.start.appended log = [] ∧ LogCall.start.after log = log := by
  refine ⟨rfl, ?_⟩
  simp only [LogCall.after, start_ready hready]

end

/-! ## Growing -/

variable [LawfulStore σ]

/-- What became of the log `log`, ready with `index` over a store with the locations `ls`, when it
was given the blocks `new`. -/
structure Grown (log : Log σ) (ls : List Location) (index : TopicIndex) (new : List Entry)
    (log' : Log σ) : Prop where
  phase : log'.phase = .ready (index.pushEntries new)
  valid : LawfulStore.Valid log'.store
  locations : Store.locations log'.store = .ok (ls ++ new.map (·.location))
  kept : ∀ l ∈ ls, Store.read log'.store l = Store.read log.store l
  single : ∀ e ∈ new, e.IsSingle
  stored : ∀ e ∈ new, e.IsStored log'.store

section

variable {log log₁ log₂ : Log σ} {ls : List Location} {index : TopicIndex} {new new' : List Entry}

theorem Grown.refl (hready : log.phase = .ready index) (hvalid : LawfulStore.Valid log.store)
    (hls : Store.locations log.store = .ok ls) : Grown log ls index [] log where
  phase := hready
  valid := hvalid
  locations := by simpa using hls
  kept _ _ := rfl
  single _ h := nomatch h
  stored _ h := nomatch h

theorem Grown.trans (h₁ : Grown log ls index new log₁)
    (h₂ : Grown log₁ (ls ++ new.map (·.location)) (index.pushEntries new) new' log₂) :
    Grown log ls index (new ++ new') log₂ where
  phase := by rw [TopicIndex.pushEntries_append, h₂.phase]
  valid := h₂.valid
  locations := by rw [h₂.locations, List.map_append, List.append_assoc]
  kept l hl := by rw [h₂.kept l (List.mem_append_left _ hl), h₁.kept l hl]
  single e he := (List.mem_append.1 he).elim (h₁.single e) (h₂.single e)
  stored e he := by
    rcases List.mem_append.1 he with he | he
    · obtain ⟨details, hread⟩ := h₁.stored e he
      have hmem : e.location ∈ ls ++ new.map (·.location) :=
        List.mem_append_right _ (List.mem_map_of_mem he)
      exact ⟨details, by rw [h₂.kept _ hmem, hread]⟩
    · exact h₂.stored e he

/-- **A block that is appended and recorded makes a log grow**, if its location is new. -/
theorem Grown.append (hvalid : LawfulStore.Valid log.store)
    (hls : Store.locations log.store = .ok ls) {now : UInt64} {t : Transaction}
    {topics : List String} {a : Appended} {store : σ}
    (ha : Store.append log.store now (Block.empty.push t topics).text = .ok (a, store))
    (hnew : a.location ∉ ls) :
    Grown log ls index [⟨a.location, Block.empty.push t topics⟩]
      { log with
        store
        phase := .ready (index.push a.location (Block.empty.push t topics).topics) } where
  phase := rfl
  valid := LawfulStore.valid_append hvalid ha
  locations := LawfulStore.locations_append hvalid ha hls hnew
  kept l hl := LawfulStore.read_append_other ha fun he => hnew (he ▸ hl)
  single e he := by
    obtain rfl := List.mem_singleton.1 he
    exact ⟨t, topics, rfl⟩
  stored e he := by
    obtain rfl := List.mem_singleton.1 he
    exact ⟨a.details, LawfulStore.read_append_self ha⟩

/-- **A call makes a ready log grow** by the block that it appended, if any. -/
theorem grown_call (hready : log.phase = .ready index) (hvalid : LawfulStore.Valid log.store)
    (hls : Store.locations log.store = .ok ls) (call : LogCall)
    (hnew : ∀ e ∈ call.appended log, e.location ∉ ls) :
    Grown log ls index (call.appended log) (call.after log) := by
  have hsame := Grown.refl hready hvalid hls
  cases call with
  | look topic => exact hsame
  | start =>
    rw [(call_start hready).1, (call_start hready).2]
    exact hsame
  | persist c =>
    rcases persist_ready_cases hready c.now c.content c.signer c.topics
      with ⟨e, he⟩ | ⟨t, a, store, hc, ha, -⟩
    · rw [(call_persist_error he).1, (call_persist_error he).2]
      exact hsame
    · obtain ⟨happended, hafter⟩ := call_persist_ok hready hc ha
      rw [happended, List.forall_mem_singleton] at hnew
      rw [happended, hafter]
      exact Grown.append hvalid hls ha hnew

/-- **Calls make a ready log grow** by the blocks that they appended, if no two appends had one
location. -/
theorem grown_run (hready : log.phase = .ready index) (hvalid : LawfulStore.Valid log.store)
    (hls : Store.locations log.store = .ok ls) {calls : List LogCall}
    (hdistinct : (ls ++ (log.appended calls).map (·.location)).Nodup) :
    Grown log ls index (log.appended calls) (log.run calls) := by
  induction calls generalizing log ls index with
  | nil => exact .refl hready hvalid hls
  | cons call calls ih =>
    have happended : log.appended (call :: calls)
        = call.appended log ++ (call.after log).appended calls := rfl
    rw [happended, List.map_append, ← List.append_assoc] at hdistinct
    have hnew : ∀ e ∈ call.appended log, e.location ∉ ls := fun e he hm =>
      (List.nodup_append.1 (List.nodup_append.1 hdistinct).1).2.2 _ hm _
        (List.mem_map_of_mem he) rfl
    have hcall := grown_call hready hvalid hls call hnew
    exact hcall.trans (ih hcall.phase hcall.valid hcall.locations hdistinct)

/-! ## What a grown log serves -/

/-- A ready log that lists nothing but locations of its store. -/
structure Tracks (log : Log σ) (ls : List Location) (index : TopicIndex) : Prop where
  phase : log.phase = .ready index
  valid : LawfulStore.Valid log.store
  locations : Store.locations log.store = .ok ls
  indexed : index.Valid
  listed : ∀ topic, ∀ l ∈ index.locations topic, l ∈ ls

theorem exists_tracks_of_start {store : σ} {settings : LogSettings}
    (hvalid : LawfulStore.Valid store) (hls : Store.locations store = .ok ls)
    (h : start (ofStore store settings) = .ok () log) : ∃ index, log.Tracks ls index := by
  obtain ⟨index, hindex, rfl⟩ := exists_of_start h
  obtain ⟨hi, hlisted⟩ := valid_of_buildIndex hindex hls
  exact ⟨index, rfl, hvalid, hls, hi, fun topic l hl => (hlisted topic l hl).1⟩

theorem Tracks.of_grown (h : log.Tracks ls index) (hgrown : Grown log ls index new log₁) :
    log₁.Tracks (ls ++ new.map (·.location)) (index.pushEntries new) where
  phase := hgrown.phase
  valid := hgrown.valid
  locations := hgrown.locations
  indexed := h.indexed.foldl_push new
  listed topic l hl := by
    rcases (TopicIndex.mem_locations_foldl_push h.indexed).1 hl with hl | ⟨e, he, rfl, -⟩
    · exact List.mem_append_left _ (h.listed topic l hl)
    · exact List.mem_append_right _ (List.mem_map_of_mem he)

theorem Tracks.grown_run (h : log.Tracks ls index) {calls : List LogCall}
    (hdistinct : (ls ++ (log.appended calls).map (·.location)).Nodup) :
    Grown log ls index (log.appended calls) (log.run calls) :=
  Log.grown_run h.phase h.valid h.locations hdistinct

/-- **A grown log serves what it served before, and then the transactions of the new blocks.** -/
theorem Tracks.transactionsOf (h : log.Tracks ls index) (hgrown : Grown log ls index new log₁)
    (hdistinct : (ls ++ new.map (·.location)).Nodup) (topic : String) :
    log₁.transactionsOf topic = (do
      let old ← log.transactionsOf topic
      let blocks ← ((Entry.under topic new).map (·.location)).mapM (readBlock log₁.store)
      return old ++ blocks.flatMap (·.found topic)) := by
  obtain ⟨-, hnodup, hfresh⟩ := List.nodup_append.1 hdistinct
  have hnew : ∀ e ∈ new, e.location ∉ index.locations topic := fun e he hm =>
    hfresh _ (h.listed topic _ hm) _ (List.mem_map_of_mem he) rfl
  rw [transactionsOf_eq h.phase, transactionsOf_eq hgrown.phase,
    TopicIndex.locations_pushEntries h.indexed hnodup hnew, List.mapM_append,
    mapM_congr fun l hl => readBlock_congr (hgrown.kept l (h.listed topic l hl))]
  cases (index.locations topic).mapM (readBlock log.store) with
  | error e => rfl
  | ok blocks =>
    cases ((Entry.under topic new).map (·.location)).mapM (readBlock log₁.store) with
    | error e => rfl
    | ok blocks' => exact congrArg Except.ok List.flatMap_append

theorem Tracks.prefix_of_transactionsOf (h : log.Tracks ls index)
    (hgrown : Grown log ls index new log₁) (hdistinct : (ls ++ new.map (·.location)).Nodup)
    {topic : String} {old found : List Found} (hold : log.transactionsOf topic = .ok old)
    (hfound : log₁.transactionsOf topic = .ok found) : ∃ more, found = old ++ more := by
  rw [h.transactionsOf hgrown hdistinct, hold] at hfound
  cases hm : ((Entry.under topic new).map (·.location)).mapM (readBlock log₁.store) with
  | error e =>
    rw [hm] at hfound
    exact nomatch hfound
  | ok blocks =>
    rw [hm] at hfound
    exact ⟨_, (Except.ok.inj hfound).symm⟩

end

end Log

end ChannelLog
