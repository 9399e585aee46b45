import ChannelLog.Proofs.Keyring
import ChannelLog.Proofs.Ledger.Steps
import ChannelLog.Proofs.Log.Fidelity
import ChannelLog.Proofs.Log.StorageOrder

/-!
# Look-ups by topic are complete and exact

* `Log.accepted`: what the calls that succeeded stored and returned.
* `Log.Tracks.transactionsOf_run`: **a log that was used serves what it served before, and then the
  transactions of the calls that succeeded**, those of the topic, one by one, in their order.
* `Ledger.retrieval_complete_and_exact`: so over a store that was empty nothing is lost, and nothing
  is served but what was stored, with the places returned; and a replay of a channel keeps to these
  places entry by entry.
-/

namespace ChannelLog

variable {σ : Type} [Store σ]

/-! ## Calls that succeeded -/

/-- What a call that succeeded stored, where, and the topics that it was given. -/
structure Accepted where
  found : Found
  topics : List String

namespace Accepted

def block (a : Accepted) : Block := Block.empty.push a.found.transaction a.topics

def entry (a : Accepted) : Entry := ⟨a.found.location, a.block⟩

def loaded (a : Accepted) : LoadedBlock := ⟨a.found.location, a.block, a.found.details⟩

/-- The topic is one of those given, or the hash of the transaction. -/
def IsUnder (a : Accepted) (topic : String) : Prop :=
  topic ∈ a.topics ∨ topic = a.found.transaction.contentHash

instance (topic : String) : DecidablePred (IsUnder · topic) := fun a =>
  inferInstanceAs (Decidable (topic ∈ a.topics ∨ topic = a.found.transaction.contentHash))

theorem mem_topics_iff {a : Accepted} {topic : String} :
    topic ∈ a.block.topics ↔ a.IsUnder topic :=
  Block.mem_topics_single

theorem found_loaded {a : Accepted} {topic : String} (h : a.IsUnder topic) :
    a.loaded.found topic = [a.found] :=
  LoadedBlock.found_single (mem_topics_iff.2 h) _ _

end Accepted

/-- What a call stored and returned, if it stored a transaction. -/
def LogCall.accepted (log : Log σ) : LogCall → List Accepted
  | persist c => match c.persist log, Transaction.create c.content c.signer with
    | .ok p _, .ok t => [⟨⟨t, p.location, p.details⟩, c.topics⟩]
    | _, _ => []
  | _ => []

namespace Log

def accepted (log : Log σ) : List LogCall → List Accepted
  | [] => []
  | call :: calls => call.accepted log ++ accepted (call.after log) calls

theorem call_appended_eq (log : Log σ) (call : LogCall) :
    call.appended log = (call.accepted log).map (·.entry) := by
  cases call with
  | start => rfl
  | look topic => rfl
  | persist c =>
    cases hp : c.persist log with
    | error e after => simp only [LogCall.appended, LogCall.accepted, hp, List.map_nil]
    | ok p after =>
      cases hc : Transaction.create c.content c.signer with
      | error cause =>
        simp only [LogCall.appended, LogCall.accepted, PersistCall.block, hp, hc, Except.map,
          List.map_nil]
      | ok t =>
        simp only [LogCall.appended, LogCall.accepted, PersistCall.block, hp, hc, Except.map,
          List.map_cons, List.map_nil]
        rfl

theorem appended_eq (log : Log σ) (calls : List LogCall) :
    log.appended calls = (log.accepted calls).map (·.entry) := by
  induction calls generalizing log with
  | nil => rfl
  | cons call calls ih => rw [appended, accepted, List.map_append, call_appended_eq, ih]

theorem locations_accepted (log : Log σ) (calls : List LogCall) :
    (log.appended calls).map (·.location) = (log.accepted calls).map (·.found.location) := by
  rw [appended_eq, List.map_map]
  rfl

variable {log : Log σ} {ls : List Location} {index : TopicIndex}

theorem call_accepted_ok (hready : log.phase = .ready index) {c : PersistCall} {t : Transaction}
    {a : Appended} {store : σ} (hc : Transaction.create c.content c.signer = .ok t)
    (ha : Store.append log.store c.now (Block.empty.push t c.topics).text = .ok (a, store)) :
    (LogCall.persist c).accepted log = [⟨⟨t, a.location, a.details⟩, c.topics⟩] := by
  have hpersist : c.persist log = _ := persist_ready hready c.now c.content c.signer c.topics
  simp only [hc, ha] at hpersist
  simp only [LogCall.accepted, hpersist, hc]

theorem call_accepted_error {c : PersistCall} {e : LogError} (h : c.persist log = .error e log) :
    (LogCall.persist c).accepted log = [] := by
  simp only [LogCall.accepted, h]

/-! ## Stored and read -/

variable [LawfulStore σ]

/-- **A call that fails accepts nothing; one that succeeds accepts the transaction signed**, which is
in the store with the details returned. -/
theorem persist_cases (hready : log.phase = .ready index) (c : PersistCall) :
    (∃ e, c.persist log = .error e log ∧ (LogCall.persist c).accepted log = []) ∨
    ∃ p after t, c.persist log = .ok p after ∧ Transaction.create c.content c.signer = .ok t ∧
      (LogCall.persist c).accepted log = [⟨⟨t, p.location, p.details⟩, c.topics⟩] ∧
      Store.read after.store p.location
        = .ok ⟨(Block.empty.push t c.topics).text, p.details⟩ := by
  rcases persist_ready_cases hready c.now c.content c.signer c.topics
    with ⟨e, he⟩ | ⟨t, a, store, hc, happend, hpersist⟩
  · exact .inl ⟨e, he, call_accepted_error he⟩
  · have haccepted := call_accepted_ok hready hc happend
    exact .inr ⟨_, _, t, hpersist, hc, haccepted, LawfulStore.read_append_self happend⟩

theorem read_after_call (hready : log.phase = .ready index) {call : LogCall} {a : Accepted}
    (ha : a ∈ call.accepted log) :
    Store.read (call.after log).store a.found.location = .ok ⟨a.block.text, a.found.details⟩ := by
  cases call with
  | start => exact absurd ha List.not_mem_nil
  | look topic => exact absurd ha List.not_mem_nil
  | persist c =>
    rcases persist_cases hready c with ⟨e, -, hnone⟩ | ⟨p, after, t, hpersist, -, hone, hread⟩
    · rw [hnone] at ha
      exact absurd ha List.not_mem_nil
    · rw [hone] at ha
      obtain rfl := List.mem_singleton.1 ha
      simp only [LogCall.after, hpersist]
      exact hread

/-- **Everything accepted stays in the store**, with the details that were returned. -/
theorem Tracks.read_accepted (h : log.Tracks ls index) {calls : List LogCall}
    (hdistinct : (ls ++ (log.accepted calls).map (·.found.location)).Nodup) {a : Accepted}
    (ha : a ∈ log.accepted calls) :
    Store.read (log.run calls).store a.found.location = .ok ⟨a.block.text, a.found.details⟩ := by
  induction calls generalizing log ls index with
  | nil => exact absurd ha List.not_mem_nil
  | cons call calls ih =>
    rw [accepted, List.map_append, ← List.append_assoc] at hdistinct
    have hcall : (ls ++ (call.accepted log).map (·.found.location)).Nodup :=
      (List.nodup_append.1 hdistinct).1
    have hnew : ∀ e ∈ call.appended log, e.location ∉ ls := by
      intro e he hm
      rw [call_appended_eq] at he
      obtain ⟨a', ha', rfl⟩ := List.mem_map.1 he
      exact (List.nodup_append.1 hcall).2.2 _ hm _ (List.mem_map_of_mem ha') rfl
    have hafter := h.of_grown (grown_call h.phase h.valid h.locations call hnew)
    have hlocations : (call.appended log).map (·.location)
        = (call.accepted log).map (·.found.location) := by
      rw [call_appended_eq, List.map_map]
      rfl
    rw [hlocations] at hafter
    rcases List.mem_append.1 ha with ha | ha
    · -- what the calls that follow append has other locations
      rw [← locations_accepted] at hdistinct
      have hkept := (hafter.grown_run hdistinct).kept a.found.location
        (List.mem_append_right _ (List.mem_map_of_mem ha))
      exact hkept.trans (read_after_call h.phase ha)
    · exact ih hafter hdistinct ha

/-! ## Look-ups -/

/-- **A log that was used serves what it served before, and then the transactions of the calls that
succeeded**, those of the topic, one by one, in their order. -/
theorem Tracks.transactionsOf_run (h : log.Tracks ls index) {calls : List LogCall}
    (hdistinct : (ls ++ (log.accepted calls).map (·.found.location)).Nodup)
    (hread : ∀ a ∈ log.accepted calls, checkBlock a.block.text = .ok a.block) {topic : String}
    {old : List Found} (hold : log.transactionsOf topic = .ok old) :
    (log.run calls).transactionsOf topic
      = .ok (old ++ ((log.accepted calls).filter (·.IsUnder topic)).map (·.found)) := by
  have happended := hdistinct
  rw [← locations_accepted] at happended
  have hunder : Entry.under topic (log.appended calls)
      = ((log.accepted calls).filter (·.IsUnder topic)).map (·.entry) := by
    rw [Entry.under, appended_eq, List.filter_map]
    congr 1
    exact List.filter_congr fun a _ => decide_eq_decide.2 Accepted.mem_topics_iff
  have hblocks : ((Entry.under topic (log.appended calls)).map (·.location)).mapM
      (readBlock (log.run calls).store)
        = .ok (((log.accepted calls).filter (·.IsUnder topic)).map (·.loaded)) := by
    rw [hunder, List.map_map, mapM_eq_ok_iff, List.forall₂_map_left_iff, List.forall₂_map_right_iff,
      List.forall₂_same]
    intro a ha
    have hmem := (List.mem_filter.1 ha).1
    have hblock := readBlock_of_read (h.read_accepted hdistinct hmem)
    simp only [hread a hmem] at hblock
    exact hblock
  have hfound : (((log.accepted calls).filter (·.IsUnder topic)).map (·.loaded)).flatMap
      (·.found topic) = ((log.accepted calls).filter (·.IsUnder topic)).map (·.found) := by
    rw [List.flatMap_map, List.map_eq_flatMap]
    apply List.flatMap_congr
    intro a ha
    exact Accepted.found_loaded (of_decide_eq_true (List.mem_filter.1 ha).2)
  rw [h.transactionsOf (h.grown_run happended) happended, hold, hblocks, ← hfound]
  rfl

theorem Tracks.transactionsOf_nil (h : log.Tracks [] index) (topic : String) :
    log.transactionsOf topic = .ok [] := by
  have hnone : index.locations topic = [] :=
    List.eq_nil_iff_forall_not_mem.2 fun l hl => List.not_mem_nil (h.listed topic l hl)
  rw [transactionsOf_eq h.phase, hnone]
  rfl

end Log

namespace Ledger

variable [LawfulStore σ]

/-- **Look-ups are complete and exact.** Whatever was called on a log over a store that was empty, a
look-up serves the transactions of the calls that succeeded and were given the topic, or whose
transaction has it as its hash: each once, in the order of the calls, with the location and the
details that the call returned. A replay of a channel keeps to these places: its entry `i` is what
became of transaction `i`. All blocks have to be read as they were written (`hread`), and no append
can be expected to have the location of another entry (`hdistinct`), since locations are hashes. -/
theorem retrieval_complete_and_exact {origin : σ} {settings : LogSettings} {started : Log σ}
    (hvalid : LawfulStore.Valid origin) (hempty : Store.locations origin = .ok [])
    (hstart : Log.start (Log.ofStore origin settings) = .ok () started) {calls : List LogCall}
    (hdistinct : ((started.accepted calls).map (·.found.location)).Nodup)
    (hread : ∀ a ∈ started.accepted calls, Log.checkBlock a.block.text = .ok a.block) :
    (∀ topic, (started.run calls).transactionsOf topic
      = .ok (((started.accepted calls).filter (·.IsUnder topic)).map (·.found))) ∧
    ∀ {κ : Type} [KeyHolder κ] (holder : Option κ) (channelId : String),
      let id := normalizeId channelId
      let served := ((started.accepted calls).filter (·.IsUnder id)).map (·.found)
      ∃ view, channel holder (started.run calls) channelId = .ok view ∧
        view.places = served.map (fun f => (f.location, f.details)) ∧
        view.replay.entries.length = served.length ∧
        ∀ (i : Nat) f, served[i]? = some f →
          view.replay.entries[i]? = some (Replay.step holder id
            (Replay.ofHistory holder id ((served.take i).map (·.confirmed))).kind
            f.confirmed).1 := by
  obtain ⟨index, htracks⟩ := Log.exists_tracks_of_start hvalid hempty hstart
  have hserved : ∀ topic, (started.run calls).transactionsOf topic
      = .ok (((started.accepted calls).filter (·.IsUnder topic)).map (·.found)) := fun topic =>
    htracks.transactionsOf_run hdistinct hread (htracks.transactionsOf_nil topic)
  refine ⟨hserved, fun holder channelId => ?_⟩
  have hview := channel_eq holder (started.run calls) channelId
  simp only [hserved] at hview
  refine ⟨_, hview, rfl, ?_, ?_⟩
  · rw [Replay.ofHistory, Replay.length_entries_resume, List.length_map]
  · intro i f hf
    rw [List.map_take]
    exact Replay.entries_ofHistory (by rw [List.getElem?_map, hf, Option.map_some])

/-! ## A topic in memory -/

open Persisting (rivalAppended rivalBlock append_rivals locations_rivals)

/-- A topic that is given twice, a call without a key, and the topic once more. -/
def topicCalls : List LogCall :=
  [.persist ⟨0, .clear (.bool false), Log.exampleSigner, ["t", "t"]⟩,
    .persist ⟨0, .clear (.bool true), ⟨.ecdsa, "no key"⟩, ["t"]⟩,
    .persist ⟨0, .clear (.bool true), Log.exampleSigner, ["t"]⟩]

def topicAccepted (b : Bool) (topics : List String) : Accepted :=
  ⟨⟨(signedBool b).transaction, (rivalAppended b).location, (rivalAppended b).details⟩, topics⟩

theorem register_register (position : Nat) (index : Dict (List Nat)) (topic : String) :
    Block.register position (Block.register position index topic) topic
      = Block.register position index topic := by
  by_cases hlast : ((index.get? topic).getD []).getLast? = some position
  · have hsame : Block.register position index topic = index := if_pos hlast
    rw [hsame, hsame]
  · have hnew : Block.register position index topic
        = index.insert topic ((index.get? topic).getD [] ++ [position]) := if_neg hlast
    have hget : (((Block.register position index topic).get? topic).getD []).getLast?
        = some position := by
      rw [hnew, Dict.get?_insert, if_pos rfl, Option.getD_some, List.getLast?_concat]
    exact if_pos hget

theorem push_twice (t : Transaction) (topic : String) :
    Block.empty.push t [topic, topic] = Block.empty.push t [topic] := by
  simp only [Block.push, List.cons_append, List.nil_append, List.foldl_cons, register_register]

theorem accepted_topicCalls : Log.fresh.accepted topicCalls
    = [topicAccepted false ["t", "t"], topicAccepted true ["t"]] := by
  have hready : Log.fresh.phase = .ready .empty := rfl
  have hempty : Log.fresh.store.order.length = false.toNat := rfl
  have hfirst := append_rivals false hempty
  have hlength : (Log.fresh.store.append 0 (rivalBlock false).text).2.order.length = true.toNat := by
    simp [MemoryStore.append, Log.fresh, MemoryStore.empty]
  have hsecond := append_rivals true hlength
  have htwice : Block.empty.push (signedBool false).transaction ["t", "t"] = rivalBlock false :=
    push_twice _ "t"
  have hfirst' : Store.append Log.fresh.store 0
      (Block.empty.push (signedBool false).transaction ["t", "t"]).text
        = .ok (rivalAppended false, (Log.fresh.store.append 0 (rivalBlock false).text).2) := by
    rw [htwice]
    exact hfirst
  -- the call between has no key
  have hkey : PrivateKey.ofHex "no key" = .error .invalidPrivateKey := by decide
  have hrefused (log : Log MemoryStore) {index : TopicIndex} (h : log.phase = .ready index) :
      (⟨0, .clear (.bool true), ⟨.ecdsa, "no key"⟩, ["t"]⟩ : PersistCall).persist log
        = .error (.signing .invalidPrivateKey) log := by
    rw [PersistCall.persist, Log.persist_ready h, Transaction.create_invalid hkey]
  obtain ⟨-, hafter⟩ := Log.call_persist_ok
    (c := ⟨0, .clear (.bool false), Log.exampleSigner, ["t", "t"]⟩) hready
    (signedBool false).created hfirst'
  rw [topicCalls, Log.accepted, Log.accepted, Log.accepted, Log.accepted,
    Log.call_accepted_ok (c := ⟨0, .clear (.bool false), Log.exampleSigner, ["t", "t"]⟩) hready
      (signedBool false).created hfirst', hafter, Log.call_accepted_error (hrefused _ rfl),
    (Log.call_persist_error (hrefused _ rfl)).2,
    Log.call_accepted_ok (c := ⟨0, .clear (.bool true), Log.exampleSigner, ["t"]⟩) rfl
      (signedBool true).created hsecond]
  rfl

/-- Under the topic both transactions are served, each once. -/
theorem retrieval_topicCalls : ∃ view,
    (Log.fresh.run topicCalls).transactionsOf "t"
      = .ok [(topicAccepted false ["t", "t"]).found, (topicAccepted true ["t"]).found] ∧
    channel nobody (Log.fresh.run topicCalls) "t" = .ok view ∧
    view.places = [((rivalAppended false).location, (rivalAppended false).details),
      ((rivalAppended true).location, (rivalAppended true).details)] ∧
    view.replay.entries.length = 2 := by
  have hdistinct : ((Log.fresh.accepted topicCalls).map (·.found.location)).Nodup := by
    rw [accepted_topicCalls]
    exact List.nodup_cons.2 ⟨fun h => locations_rivals (List.mem_singleton.1 h),
      List.nodup_singleton _⟩
  have hread : ∀ a ∈ Log.fresh.accepted topicCalls,
      Log.checkBlock a.block.text = .ok a.block := by
    intro a ha
    rw [accepted_topicCalls] at ha
    rcases List.mem_cons.1 ha with rfl | ha
    · exact Log.checkBlock_faithful (Log.faithful_signedBool false) (by decide) _
    · obtain rfl := List.mem_singleton.1 ha
      exact Log.checkBlock_faithful (Log.faithful_signedBool true) (by decide) _
  obtain ⟨hserved, hviews⟩ :=
    retrieval_complete_and_exact trivial rfl Log.start_fresh hdistinct hread
  obtain ⟨view, hview, hplaces, hlength, -⟩ := hviews nobody "t"
  have hfilter : (Log.fresh.accepted topicCalls).filter (·.IsUnder "t")
      = [topicAccepted false ["t", "t"], topicAccepted true ["t"]] := by
    rw [accepted_topicCalls, List.filter_eq_self]
    intro a ha
    apply decide_eq_true
    rcases List.mem_cons.1 ha with rfl | ha
    · exact .inl List.mem_cons_self
    · obtain rfl := List.mem_singleton.1 ha
      exact .inl List.mem_cons_self
  have hid : normalizeId "t" = "t" := by decide
  rw [hid, hfilter] at hplaces hlength
  refine ⟨view, ?_, hview, hplaces, hlength⟩
  rw [hserved, hfilter]
  rfl

end Ledger

end ChannelLog
