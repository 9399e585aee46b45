import ChannelLog.Proofs.Log.Readability
import ChannelLog.Proofs.Log.Runs

/-!
# The topic index is what the store says

* `Log.exists_entries_of_start`: the index of a log that was started is made of the entries read.
* `Log.Grown.phase_of_start`: a log started over the store of a grown log has the very index of the
  grown log.
* `Log.index_matches_store`: **whatever was called on a log, it lists under a topic the locations of
  the store whose blocks have the topic**, in the order of the store, and a new log over the store
  serves the same.
-/

namespace ChannelLog

/-- An index of nothing but the entries. -/
def TopicIndex.ofEntries (entries : List Entry) : TopicIndex := TopicIndex.empty.pushEntries entries

namespace TopicIndex

theorem ofEntries_append (xs ys : List Entry) :
    ofEntries (xs ++ ys) = (ofEntries xs).pushEntries ys :=
  pushEntries_append empty xs ys

theorem locations_ofEntries {entries : List Entry} (h : (entries.map (·.location)).Nodup)
    (topic : String) :
    (ofEntries entries).locations topic = (Entry.under topic entries).map (·.location) := by
  rw [ofEntries, locations_pushEntries valid_empty h fun _ _ => List.not_mem_nil]
  rfl

end TopicIndex

namespace Log

variable {σ : Type} [Store σ]

/-! ## Started logs -/

theorem locations_of_mapM_readBlock {store : σ} {ls : List Location} {loaded : List LoadedBlock}
    (h : ls.mapM (readBlock store) = .ok loaded) :
    (loaded.map LoadedBlock.entry).map (·.location) = ls := by
  have hall := mapM_eq_ok_iff.1 h
  clear h
  induction hall with
  | nil => rfl
  | cons hb _ ih =>
    rw [List.map_cons, List.map_cons, ih]
    exact congrArg (· :: _) (location_of_readBlock hb)

/-- **A log that was started has the index of the entries in its store.** -/
theorem exists_entries_of_start {store : σ} {settings : LogSettings} {ls : List Location}
    {log : Log σ} (h : start (ofStore store settings) = .ok () log)
    (hls : Store.locations store = .ok ls) :
    ∃ loaded, ls.mapM (readBlock store) = .ok loaded ∧
      log = ⟨store, settings, .ready (.ofEntries (loaded.map LoadedBlock.entry))⟩ := by
  obtain ⟨index, hindex, rfl⟩ := exists_of_start h
  obtain ⟨loaded, hloaded, rfl⟩ := exists_of_buildIndex hindex hls
  refine ⟨loaded, hloaded, ?_⟩
  rw [TopicIndex.ofEntries, TopicIndex.pushEntries, List.foldl_map]
  rfl

theorem pushEntries_of_stored {store : σ} {entries : List Entry} {loaded : List LoadedBlock}
    (hsingle : ∀ e ∈ entries, e.IsSingle) (hstored : ∀ e ∈ entries, e.IsStored store)
    (h : (entries.map (·.location)).mapM (readBlock store) = .ok loaded) (index : TopicIndex) :
    index.pushEntries (loaded.map LoadedBlock.entry) = index.pushEntries entries := by
  have hall := List.forall₂_map_left_iff.1 (mapM_eq_ok_iff.1 h)
  clear h
  induction hall generalizing index with
  | nil => rfl
  | @cons e b entries loaded hb _ ih =>
    obtain ⟨u, hlocation, hblock⟩ :=
      (hstored e List.mem_cons_self).of_readBlock (hsingle e List.mem_cons_self) hb
    have hpush : index.push b.location b.block.topics = index.push e.location e.block.topics := by
      rw [hlocation, hblock]
      rfl
    have hrest := ih (fun x hx => hsingle x (List.mem_cons_of_mem e hx))
      (fun x hx => hstored x (List.mem_cons_of_mem e hx)) (index.push e.location e.block.topics)
    rw [List.map_cons]
    show TopicIndex.pushEntries (index.push b.location b.block.topics) _ = _
    rw [hpush, hrest]
    rfl

variable [LawfulStore σ] {ls : List Location} {new : List Entry} {log after fresh : Log σ}

/-- **A log started over the store of a grown log has the index of the grown log.** -/
theorem Grown.phase_of_start {loaded : List LoadedBlock}
    (hloaded : ls.mapM (readBlock log.store) = .ok loaded)
    (hgrown : Grown log ls (.ofEntries (loaded.map LoadedBlock.entry)) new after)
    {settings : LogSettings} (hfresh : start (ofStore after.store settings) = .ok () fresh) :
    fresh = ⟨after.store, settings, after.phase⟩ := by
  obtain ⟨loaded', hloaded', rfl⟩ := exists_entries_of_start hfresh hgrown.locations
  have hold : ls.mapM (readBlock after.store) = .ok loaded := by
    rw [mapM_congr fun l hl => readBlock_congr (hgrown.kept l hl), hloaded]
  rw [List.mapM_append, hold] at hloaded'
  cases hnew : (new.map (·.location)).mapM (readBlock after.store) with
  | error e =>
    rw [hnew] at hloaded'
    exact nomatch hloaded'
  | ok blocks =>
    rw [hnew] at hloaded'
    obtain rfl : loaded ++ blocks = loaded' := Except.ok.inj hloaded'
    rw [hgrown.phase, List.map_append, TopicIndex.ofEntries_append,
      pushEntries_of_stored hgrown.single hgrown.stored hnew]

theorem Grown.transactionsOf_start {loaded : List LoadedBlock}
    (hloaded : ls.mapM (readBlock log.store) = .ok loaded)
    (hgrown : Grown log ls (.ofEntries (loaded.map LoadedBlock.entry)) new after)
    {settings : LogSettings} (hfresh : start (ofStore after.store settings) = .ok () fresh)
    (topic : String) : fresh.transactionsOf topic = after.transactionsOf topic := by
  rw [hgrown.phase_of_start hloaded hfresh]
  exact transactionsOf_settings after settings topic

theorem Grown.locationsOf {old : List Entry} (hgrown : Grown log ls (.ofEntries old) new after)
    (hdistinct : ((old ++ new).map (·.location)).Nodup) (topic : String) :
    after.locationsOf topic = .ok ((Entry.under topic (old ++ new)).map (·.location)) := by
  have hphase : after.phase = .ready (.ofEntries (old ++ new)) := by
    rw [hgrown.phase, TopicIndex.ofEntries_append]
  simp only [Log.locationsOf, hphase, TopicIndex.locations_ofEntries hdistinct]

/-- **A log that was started is made to grow by calls**, if no two appends have one location. -/
theorem grown_of_start {store : σ} {settings : LogSettings} (hvalid : LawfulStore.Valid store)
    (hls : Store.locations store = .ok ls) (hstart : start (ofStore store settings) = .ok () log)
    {calls : List LogCall} (hdistinct : (ls ++ (log.appended calls).map (·.location)).Nodup) :
    ∃ loaded, ls.mapM (readBlock log.store) = .ok loaded ∧ log.store = store ∧
      (loaded.map LoadedBlock.entry ++ log.appended calls).map (·.location)
        = ls ++ (log.appended calls).map (·.location) ∧
      Grown log ls (.ofEntries (loaded.map LoadedBlock.entry)) (log.appended calls)
        (log.run calls) := by
  obtain ⟨loaded, hloaded, hlog⟩ := exists_entries_of_start hstart hls
  have hready : log.phase = .ready (.ofEntries (loaded.map LoadedBlock.entry)) := by rw [hlog]
  have hstore : log.store = store := by rw [hlog]
  refine ⟨loaded, hstore.symm ▸ hloaded, hstore, ?_,
    grown_run hready (hstore.symm ▸ hvalid) (hstore.symm ▸ hls) hdistinct⟩
  rw [List.map_append, locations_of_mapM_readBlock hloaded]

/-! ## After any calls -/

/-- **The index of a log is what its store says, and starting anew changes nothing.** `entries` are
the blocks as they were read at the start, and then those that the calls appended, as they were made.
Locations are hashes, so that no append can be expected to have the location of another entry
(`hdistinct`). -/
theorem index_matches_store {store : σ} {settings : LogSettings}
    (hvalid : LawfulStore.Valid store) (hls : Store.locations store = .ok ls)
    (hstart : start (ofStore store settings) = .ok () log) (calls : List LogCall)
    (hdistinct : (ls ++ (log.appended calls).map (·.location)).Nodup) :
    ∃ loaded entries, ls.mapM (readBlock store) = .ok loaded ∧
      entries = loaded.map LoadedBlock.entry ++ log.appended calls ∧
      Store.locations (log.run calls).store = .ok (entries.map (·.location)) ∧
      (entries.map (·.location)).Nodup ∧
      (∀ topic, (log.run calls).locationsOf topic
        = .ok ((entries.filter (topic ∈ ·.block.topics)).map (·.location))) ∧
      ∀ settings' fresh, start (ofStore (log.run calls).store settings') = .ok () fresh →
        ∀ topic, fresh.transactionsOf topic = (log.run calls).transactionsOf topic := by
  obtain ⟨loaded, hloaded, hstore, hlocations, hgrown⟩ :=
    grown_of_start hvalid hls hstart hdistinct
  exact ⟨loaded, _, hstore ▸ hloaded, rfl, hlocations ▸ hgrown.locations, hlocations ▸ hdistinct,
    hgrown.locationsOf (hlocations ▸ hdistinct),
    fun settings' fresh hfresh => hgrown.transactionsOf_start hloaded hfresh⟩

/-! ## A store with a block without transactions -/

/-- A topic of which there is no transaction. -/
def archivedBlock : Block := ⟨⟨currentVersion, (∅ : Dict (List Nat)).insert "t" []⟩, []⟩

def archive : MemoryStore := (MemoryStore.empty.append 0 archivedBlock.text).2

def archived : Entry := ⟨(MemoryStore.empty.append 0 archivedBlock.text).1.location, archivedBlock⟩

def archiveLog : Log MemoryStore := ⟨archive, {}, .ready (.ofEntries [archived])⟩

theorem checkBlock_archived : checkBlock archivedBlock.text = .ok archivedBlock := by
  have hrange : archivedBlock.PositionsInRange := by
    have hnone : ∀ e ∈ archivedBlock.header.index.entries, e.2 = [] := by decide
    intro e he p hp
    rw [hnone e he] at hp
    exact absurd hp List.not_mem_nil
  have hvalid : archivedBlock.validate = .ok () := by decide
  have htext : Block.ofText? archivedBlock.text = some archivedBlock := by
    rw [Block.ofText?_text hrange]
    rfl
  simp only [checkBlock, htext, hvalid]

theorem append_archived : Store.append MemoryStore.empty 0 archivedBlock.text
    = .ok ((MemoryStore.empty.append 0 archivedBlock.text).1, archive) := rfl

theorem locations_archive : Store.locations archive = .ok [archived.location] :=
  LawfulStore.locations_append trivial append_archived rfl List.not_mem_nil

theorem start_archive : start (ofStore archive {}) = .ok () archiveLog := by
  obtain ⟨details, hblock⟩ : ∃ details,
      readBlock archive archived.location = .ok ⟨archived.location, archivedBlock, details⟩ := by
    have hread := readBlock_of_read (LawfulStore.read_append_self append_archived)
    rw [checkBlock_archived] at hread
    exact ⟨_, hread⟩
  have hlog : archiveLog
      = ⟨archive, {}, .ready (TopicIndex.empty.push archived.location archivedBlock.topics)⟩ := rfl
  rw [start_ofStore, buildIndex_eq, locations_archive, hlog]
  generalize archived.location = location at hblock ⊢
  simp only [List.mapM_cons, List.mapM_nil, hblock]
  rfl

/-- Calls of which the second is the only one to append something. -/
def someCalls : List LogCall :=
  [.start, .persist ⟨0, .clear .null, exampleSigner, ["t", "u"]⟩, .look "t",
    .persist ⟨1, .clear .null, ⟨.ecdsa, "no key"⟩, ["t"]⟩]

def lateBlock : Block := Block.empty.push signedNull.transaction ["t", "u"]

theorem appended_someCalls :
    archiveLog.appended someCalls = [⟨blockLocation 1 lateBlock.text, lateBlock⟩] := by
  have hready : archiveLog.phase = .ready (.ofEntries [archived]) := rfl
  have hlength : archive.order.length = 1 := by
    simp [archive, MemoryStore.append, MemoryStore.empty]
  obtain ⟨a, store, ha, hlocation⟩ : ∃ a store,
      Store.append archiveLog.store 0 lateBlock.text = .ok (a, store) ∧
        a.location = blockLocation 1 lateBlock.text :=
    ⟨_, _, rfl, by rw [← hlength]; rfl⟩
  obtain ⟨hlate, hafter⟩ := call_persist_ok (c := ⟨0, .clear .null, exampleSigner, ["t", "u"]⟩)
    hready signedNull.created ha
  -- the last call has no key
  have hkey : PrivateKey.ofHex "no key" = .error .invalidPrivateKey := by decide
  have hrefused (log : Log MemoryStore) {index : TopicIndex} (h : log.phase = .ready index) :
      (⟨1, .clear .null, ⟨.ecdsa, "no key"⟩, ["t"]⟩ : PersistCall).persist log
        = .error (.signing .invalidPrivateKey) log := by
    rw [PersistCall.persist, persist_ready h, Transaction.create_invalid hkey]
  rw [someCalls, appended, appended, appended, appended, appended, (call_start hready).1,
    (call_start hready).2, hlate, hafter, (call_look _ _).1, (call_look _ _).2,
    (call_persist_error (hrefused _ rfl)).1, hlocation]
  rfl

theorem locations_someCalls : blockLocation 1 lateBlock.text ≠ archived.location := by
  have harchived : archived.location = blockLocation 0 archivedBlock.text := rfl
  rw [harchived]
  simp only [blockLocation, Keccak.hash_eq, lateBlock, Block.text, Json.utf8_text, Block.push,
    signedNull.contentHash]
  decide +kernel

theorem distinct_someCalls :
    ([archived.location] ++ (archiveLog.appended someCalls).map (·.location)).Nodup ∧
      (archiveLog.appended someCalls).length = 1 := by
  rw [appended_someCalls]
  exact ⟨by simpa using locations_someCalls.symm, rfl⟩

/-- A log over a store that had a block already, started again after a few calls. -/
theorem archive_restarts :
    start (ofStore archive {}) = .ok () archiveLog ∧
    (archiveLog.appended someCalls).length = 1 ∧
    ∀ settings fresh, start (ofStore (archiveLog.run someCalls).store settings) = .ok () fresh →
      ∀ topic, fresh.transactionsOf topic = (archiveLog.run someCalls).transactionsOf topic := by
  obtain ⟨_, _, -, -, -, -, -, hrestart⟩ :=
    index_matches_store trivial locations_archive start_archive someCalls distinct_someCalls.1
  exact ⟨start_archive, distinct_someCalls.2, hrestart⟩

end Log

end ChannelLog
