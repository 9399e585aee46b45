import ChannelLog.Proofs.Ledger.Appending

/-!
# A write touches nothing but its own topics

A write may fail while its content is made, while it is signed and while it is appended, and all of
this comes before the first change (`Ledger.eq_of_persist_error`). If it succeeds, its block is listed
under the topics of the block, and a look-up of any other topic reads the blocks that it read before
(`Log.Tracks.transactionsOf_grown`). The topics of the block are those of the write and one more, the
content hash of the transaction. So all channels but those named by one of them are replayed as
before: `Ledger.write_touches_own_topics`.
-/

namespace ChannelLog

variable {σ : Type} [Store σ]

/-! ## Logs -/

namespace Log

section

variable {log after : Log σ} {now : UInt64} {content : Content} {signer : SignatureParameters}
  {topics : List String}

/-- **Persisting leaves the log as it was if it fails**, whether the log was ready or not. -/
theorem eq_of_persist_error {e : LogError}
    (h : persist now content signer topics log = .error e after) : after = log := by
  cases hphase : log.phase with
  | ready index =>
    rcases persist_ready_cases hphase now content signer topics
      with ⟨cause, he⟩ | ⟨t, a, store, -, -, hp⟩
    · rw [he] at h
      exact (EStateM.Result.error.inj h).2.symm
    · rw [hp] at h
      exact nomatch h
  | uninitialized | initializing =>
    have hrefused : ensureReady log = .error .notInitialized log := by
      rw [ensureReady_eq, isReady, hphase]
      rfl
    rw [persist, LogM.bind_error hrefused] at h
    exact (EStateM.Result.error.inj h).2.symm

variable [LawfulStore σ] {ls : List Location} {index : TopicIndex} {p : Persisted}

theorem Tracks.grown_persist (h : log.Tracks ls index)
    (hp : persist now content signer topics log = .ok p after) (hfresh : p.location ∉ ls) :
    ∃ t, Transaction.create content signer = .ok t ∧
      p.topics = (Block.empty.push t topics).topics ∧
      Store.read after.store p.location = .ok ⟨(Block.empty.push t topics).text, p.details⟩ ∧
      Grown log ls index [⟨p.location, Block.empty.push t topics⟩] after := by
  rcases persist_ready_cases h.phase now content signer topics
    with ⟨cause, he⟩ | ⟨t, a, store, hc, ha, hdone⟩
  · rw [he] at hp
    exact nomatch hp
  · rw [hdone] at hp
    obtain ⟨rfl, rfl⟩ := EStateM.Result.ok.inj hp
    exact ⟨t, hc, rfl, LawfulStore.read_append_self ha, Grown.append h.valid h.locations ha hfresh⟩

/-- **A block is not served under topics that it does not have**: what is found there stays. -/
theorem Tracks.transactionsOf_grown {e : Entry} (h : log.Tracks ls index)
    (hgrown : Grown log ls index [e] after) (hnodup : (ls ++ [e.location]).Nodup) {topic : String}
    (htopic : topic ∉ e.block.topics) : after.transactionsOf topic = log.transactionsOf topic := by
  have hnone : Entry.under topic [e] = [] := List.filter_eq_nil_iff.2 fun e' he' => by
    obtain rfl := List.mem_singleton.1 he'
    simpa using htopic
  rw [h.transactionsOf hgrown hnodup, hnone]
  cases log.transactionsOf topic with
  | error e => rfl
  | ok found =>
    show Except.ok (found ++ []) = _
    rw [List.append_nil]

end

end Log

/-! ## Ledgers -/

namespace Ledger

variable {κ : Type} [KeyHolder κ] {holder : Option κ} {log after : Log σ} {now : UInt64}
  {draw : ChannelDraw} {request : WriteRequest}

/-- **A write that fails leaves the log as it was.** -/
theorem eq_of_persist_error {e : LedgerError}
    (h : persist holder now draw request log = .error e after) : after = log := by
  rw [persist_eq] at h
  cases hc : contentFor holder log draw request (normalizeId request.channelId) with
  | error cause =>
    simp only [hc] at h
    exact (EStateM.Result.error.inj h).2.symm
  | ok r =>
    obtain ⟨content, method⟩ := r
    cases hp : Log.persist now content request.signer request.allTopics log with
    | ok p after => simp [hc, hp] at h
    | error cause after' =>
      simp only [hc, hp] at h
      obtain ⟨-, rfl⟩ := EStateM.Result.error.inj h
      exact Log.eq_of_persist_error hp

theorem channel_congr {channelId : String}
    (h : after.transactionsOf (normalizeId channelId) = log.transactionsOf (normalizeId channelId))
    (holder : Option κ) : channel holder after channelId = channel holder log channelId := by
  rw [channel_eq, channel_eq, h]

theorem mem_allTopics {topic : String} :
    topic ∈ request.allTopics ↔ topic = normalizeId request.channelId ∨ topic ∈ request.topics := by
  rw [WriteRequest.allTopics, List.mem_cons, List.mem_filter]
  by_cases h : topic = normalizeId request.channelId <;> simp [h]

variable [LawfulStore σ] {ls : List Location} {index : TopicIndex}

/-- **A write touches nothing but the topics of its block, and nothing at all if it fails.** The log
was started over a store and then used in any way. A write that fails leaves it as it is, with its
store and its index. One that succeeds has signed a content for the channel, and stored a block of
that one transaction. The block is listed under the topics of the receipt and the content hash of the
transaction, also as it is read back. A channel whose id, in small letters, is neither the one
written to, nor among the topics of the request, nor that hash, is replayed by everyone as before.
An append that succeeds is at a location of its own (`hdistinct`). -/
theorem write_touches_own_topics {origin : σ} {settings : LogSettings} {started : Log σ}
    (hvalid : LawfulStore.Valid origin) (hls : Store.locations origin = .ok ls)
    (hstart : Log.start (Log.ofStore origin settings) = .ok () started) {calls : List LedgerCall}
    (hdistinct : (ls ++ (appended holder started (calls ++ [.write now draw request])).map
      (·.location)).Nodup)
    (hlog : log = run holder started calls) :
    (∀ e after, persist holder now draw request log = .error e after → after = log) ∧
    ∀ receipt after, persist holder now draw request log = .ok receipt after →
      ∃ content method t, ∃ block : Block,
        contentFor holder log draw request (normalizeId request.channelId)
          = .ok (content, method) ∧
        Transaction.create content request.signer = .ok t ∧
        block.transactions = [t] ∧
        Store.read after.store receipt.location = .ok ⟨block.text, receipt.details⟩ ∧
        (∀ loaded, Log.readBlock after.store receipt.location = .ok loaded →
          loaded.block.header = block.header) ∧
        (∀ topic, topic ∈ block.topics ↔ topic ∈ receipt.topics ∨ topic = t.contentHash) ∧
        ∀ {κ' : Type} [KeyHolder κ'] (reader : Option κ') (channelId : String),
          normalizeId channelId ≠ normalizeId request.channelId →
          normalizeId channelId ∉ request.topics → normalizeId channelId ≠ t.contentHash →
          channel reader after channelId = channel reader log channelId := by
  refine ⟨fun e after => eq_of_persist_error, fun receipt after hwrite => ?_⟩
  obtain ⟨index, htracks⟩ := Log.exists_tracks_of_start hvalid hls hstart
  rw [appended_append, List.map_append, ← List.append_assoc] at hdistinct
  have hrun := tracks_run htracks (List.nodup_append.1 hdistinct).1
  rw [← hlog] at hrun hdistinct
  rw [locations_appended_write hrun.phase hwrite] at hdistinct
  have hfresh : receipt.location ∉ ls ++ (appended holder started calls).map (·.location) :=
    fun hmem => (List.nodup_append.1 hdistinct).2.2 _ hmem _ (List.mem_singleton_self _) rfl
  obtain ⟨content, method, p, hcontent, hp, rfl⟩ := exists_of_persist hwrite
  obtain ⟨t, hcreate, -, hread, hgrown⟩ := hrun.grown_persist hp hfresh
  have htopics : ∀ topic, topic ∈ (Block.empty.push t request.allTopics).topics
      ↔ topic ∈ request.allTopics ∨ topic = t.contentHash := fun topic => Block.mem_topics_single
  refine ⟨content, method, t, Block.empty.push t request.allTopics, hcontent, hcreate, rfl, hread,
    fun loaded hloaded => ?_, htopics, fun reader channelId hid hothers hhash => ?_⟩
  · obtain ⟨u, -, hblock⟩ := (hgrown.stored _ (List.mem_singleton_self _)).of_readBlock
      (hgrown.single _ (List.mem_singleton_self _)) hloaded
    rw [hblock]
  · refine channel_congr (hrun.transactionsOf_grown hgrown hdistinct ?_) reader
    rw [htopics, mem_allTopics]
    exact not_or.2 ⟨not_or.2 ⟨hid, hothers⟩, hhash⟩

/-! ## Two channels in memory -/

theorem exists_located_persist_memory {log : Log MemoryStore} (h : log.Tracks ls index)
    {content : Content} {method : Option String} {t : Transaction}
    (hcontent : contentFor holder log draw request (normalizeId request.channelId)
      = .ok (content, method)) (hcreate : Transaction.create content request.signer = .ok t)
    (now : UInt64) :
    ∃ receipt after, persist holder now draw request log = .ok receipt after ∧
      receipt.location = blockLocation ls.length (Block.empty.push t request.allTopics).text := by
  have horder : log.store.order = ls := Except.ok.inj h.locations
  have ha : Store.append log.store now (Block.empty.push t request.allTopics).text
      = .ok (log.store.append now (Block.empty.push t request.allTopics).text) := rfl
  have hp := Log.persist_ready h.phase now content request.signer request.allTopics
  simp only [hcreate, ha] at hp
  have hwrite := persist_eq holder now draw request log
  simp only [hcontent, hp] at hwrite
  exact ⟨_, _, hwrite, by rw [MemoryStore.append, horder]⟩

/-- The payload of `exampleReply`, for the channel that is named after it. -/
def otherRequest : WriteRequest :=
  { exampleReply with channelId := exampleReply.payload.fingerprint }

/-- The id of that channel, which is no topic of the first one. -/
def otherId : OpenedId exampleReply.payload Log.examplePayload where
  id := "0xba9154e0baa69c78e0ca563b867df81bae9d177c4ea1452c35c84386a70f0f7a"
  told := by
    rw [Json.fingerprint, Json.fingerprint, Json.digest_eq, Json.digest_eq]
    decide +kernel

theorem normalizeId_exampleRequest : normalizeId exampleRequest.channelId = exampleId.id :=
  (normalizeId_fingerprint Log.examplePayload).trans exampleId.told.1

theorem normalizeId_otherRequest : normalizeId otherRequest.channelId = otherId.id :=
  (normalizeId_fingerprint exampleReply.payload).trans otherId.told.1

theorem id_otherRequest : otherRequest.payload.fingerprint = normalizeId otherRequest.channelId :=
  otherId.told.1.trans normalizeId_otherRequest.symm

theorem otherLocation_ne :
    blockLocation 1 (Block.empty.push signedReply.transaction otherRequest.allTopics).text
      ≠ blockLocation 0 (Block.empty.push Log.signedObject.transaction exampleRequest.allTopics).text := by
  have htopics : otherRequest.allTopics = [otherId.id] := by
    rw [← normalizeId_otherRequest]
    rfl
  rw [htopics, allTopics_exampleRequest]
  simp only [blockLocation, Keccak.hash_eq, Block.text, Json.utf8_text, Block.push,
    Log.signedObject.contentHash, signedReply.contentHash]
  decide +kernel

/-- A channel is opened next to another one, which stays as it is. -/
theorem other_channel_stays : ∃ places receipt after,
    channel nobody (run nobody Log.fresh openingCalls) exampleRequest.channelId
      = .ok ⟨⟨.clear, [.valid exampleRequest.payload 0]⟩, places⟩ ∧
    persist nobody 1 exampleDraw otherRequest (run nobody Log.fresh openingCalls)
      = .ok receipt after ∧
    channel nobody after exampleRequest.channelId
      = .ok ⟨⟨.clear, [.valid exampleRequest.payload 0]⟩, places⟩ := by
  obtain ⟨places, hview, hlocations⟩ := channel_openingCalls
  have hopened : (([] : List Location)
      ++ (appended nobody Log.fresh openingCalls).map (·.location)).Nodup := by
    rw [List.nil_append, hlocations]
    exact List.nodup_singleton _
  have hrun := tracks_run tracks_fresh hopened
  have hcontent := contentFor_clear id_otherRequest rfl nobody (run nobody Log.fresh openingCalls)
    exampleDraw
  obtain ⟨receipt, after, hwrite, hlocation⟩ :=
    exists_located_persist_memory hrun hcontent create_exampleReply 1
  rw [List.nil_append, hlocations] at hlocation
  have hdistinct : (([] : List Location) ++ (appended nobody Log.fresh
      (openingCalls ++ [.write 1 exampleDraw otherRequest])).map (·.location)).Nodup := by
    rw [List.nil_append, appended_append, List.map_append,
      locations_appended_write hrun.phase hwrite, hlocations, hlocation]
    exact List.nodup_cons.2
      ⟨fun hmem => otherLocation_ne (List.mem_singleton.1 hmem).symm, List.nodup_singleton _⟩
  obtain ⟨-, hstays⟩ := write_touches_own_topics trivial rfl Log.start_fresh hdistinct rfl
  obtain ⟨content, method, t, block, hcontent', hcreate, -, -, -, -, hstays⟩ :=
    hstays receipt after hwrite
  obtain ⟨rfl, -⟩ := Prod.mk.inj (Except.ok.inj (hcontent.symm.trans hcontent'))
  obtain rfl : signedReply.transaction = t :=
    Except.ok.inj (create_exampleReply.symm.trans hcreate)
  refine ⟨places, receipt, after, hview, hwrite, ?_⟩
  rw [hstays nobody exampleRequest.channelId ?_ List.not_mem_nil ?_]
  · exact hview
  · rw [normalizeId_exampleRequest, normalizeId_otherRequest]
    decide
  · rw [normalizeId_exampleRequest, signedReply.contentHash]
    decide

end Ledger

end ChannelLog
