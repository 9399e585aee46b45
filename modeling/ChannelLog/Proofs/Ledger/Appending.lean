import ChannelLog.Proofs.Json.Bytes
import ChannelLog.Proofs.Ledger.Landing

/-!
# What a write adds to a channel that is there

* `Ledger.persist_existing`: what a write does that does not open its channel, by the kind of the
  channel, the recipients and the key.
* `Ledger.write_extends_replay`: **it leaves the log as it is, or adds one valid entry at the end of
  the replay of the channel**, whatever the history of the channel holds.
-/

namespace ChannelLog

variable {σ κ : Type} [Store σ] [KeyHolder κ]

/-! ## Transactions -/

/-- **What is written for a kind is valid in a channel of the kind**, which stays. -/
theorem Replay.step_contentOf (holder : Option κ) (id : String) (timestamp : UInt64)
    {kind : ChannelKind} {t : Transaction} {payload : Json} {nonce : Nonce} {address : String}
    (hk : kind ≠ .unknown) (ht : t.content = kind.contentOf payload nonce)
    (hsigner : t.signer = .ok address)
    (hread : Json.ofText? payload.canonicalText = some payload) :
    step holder id kind ⟨t, timestamp⟩ = (.valid payload timestamp, kind) := by
  refine Prod.ext (entry_step_valid_iff.2 ⟨rfl, ?_⟩) (kind_step hk)
  cases kind with
  | unknown => exact absurd rfl hk
  | clear => exact judge_clear_iff.2 (clearPayload_clear ht hsigner)
  | encrypted e => exact judge_encrypted_iff.2 (sealedPayload_encrypted ht hsigner hread)

namespace Ledger

/-! ## Writes into channels that are there -/

variable {holder : Option κ} {log : Log σ} {request : WriteRequest} {view : ChannelView}

theorem contentFor_existing (hid : request.payload.fingerprint ≠ normalizeId request.channelId)
    (hview : channel holder log request.channelId = .ok view) (draw : ChannelDraw) :
    contentFor holder log draw request (normalizeId request.channelId) =
      if view.replay.kind = .unknown then
        .error (.channelNotFound (normalizeId request.channelId))
      else if request.recipients ≠ [] then
        .error (.stakeholderChangeRejected (normalizeId request.channelId))
      else .ok (view.replay.kind.contentOf request.payload draw.nonce,
        view.replay.kind.writeMethod?) := by
  obtain ⟨found, hfound, rfl⟩ := exists_of_channel hview
  have hpast : history log (normalizeId request.channelId) = .ok (found.map (·.confirmed)) := by
    simp only [history, hfound]
  rw [contentFor, if_pos hid, contentForExisting_eq, hpast]

/-- **A write that does not open its channel** is refused if the kind of the channel is unknown or
recipients are given; otherwise the log persists what belongs into a channel of the kind. -/
theorem persist_existing (hid : request.payload.fingerprint ≠ normalizeId request.channelId)
    (hview : channel holder log request.channelId = .ok view) (now : UInt64)
    (draw : ChannelDraw) :
    persist holder now draw request log =
      if view.replay.kind = .unknown then
        .error (.channelNotFound (normalizeId request.channelId)) log
      else if request.recipients ≠ [] then
        .error (.stakeholderChangeRejected (normalizeId request.channelId)) log
      else match Log.persist now (view.replay.kind.contentOf request.payload draw.nonce)
          request.signer request.allTopics log with
        | .error e after => .error (.log e) after
        | .ok p after => .ok ⟨normalizeId request.channelId, p.location, p.details,
            view.replay.kind.writeMethod?, request.allTopics⟩ after := by
  rw [persist_eq, contentFor_existing hid hview]
  by_cases hk : view.replay.kind = .unknown
  · simp only [if_pos hk]
  · by_cases hr : request.recipients ≠ []
    · simp only [if_neg hk, if_pos hr]
    · cases hp : Log.persist now (view.replay.kind.contentOf request.payload draw.nonce)
        request.signer request.allTopics log <;> simp only [if_neg hk, if_neg hr, hp]

variable [LawfulStore σ] {ls : List Location} {index : TopicIndex} {now : UInt64}
  {draw : ChannelDraw} {t : Transaction} {a : Appended} {store : σ}

/-- **A write that lands adds a valid entry at the end of the replay**, and changes nothing else. -/
theorem Lands.extends
    (hlands : Lands log ls (view.replay.kind.contentOf request.payload draw.nonce) now request t a
      store) (h : log.Tracks ls index) (hnodup : ls.Nodup)
    (hid : request.payload.fingerprint ≠ normalizeId request.channelId)
    (hview : channel holder log request.channelId = .ok view)
    (hknown : view.replay.kind ≠ .unknown) (hnone : request.recipients = []) :
    ∃ after, persist holder now draw request log
        = .ok ⟨normalizeId request.channelId, a.location, a.details,
          view.replay.kind.writeMethod?, request.allTopics⟩ after ∧
      channel holder after request.channelId = .ok
        ⟨⟨view.replay.kind,
            view.replay.entries ++ [.valid request.payload a.details.timestamp]⟩,
          view.places ++ [(a.location, a.details)]⟩ := by
  have hcontent := contentFor_existing hid hview draw
  rw [if_neg hknown, if_neg (not_not.2 hnone)] at hcontent
  obtain ⟨address, hsigner⟩ := hlands.signed
  exact hlands.replayed h hnodup hview hcontent
    (Replay.step_contentOf holder _ a.details.timestamp hknown (content_create hlands.created)
      hsigner hlands.payload_read)

/-- **A write that does not open its channel leaves the log as it is, or adds one valid entry at the
end of the replay of the channel**: it is refused if no transaction opened the channel so far, if
recipients are given, or if the key is none; otherwise what was written is the next entry, and all
else stays. The history may hold whatever was persisted under the id before. Locations are hashes,
so that no append can be expected to have the location of another entry (`hdistinct`). -/
theorem write_extends_replay {origin : σ} {settings : LogSettings} {started : Log σ}
    (hvalid : LawfulStore.Valid origin) (hls : Store.locations origin = .ok ls)
    (hstart : Log.start (Log.ofStore origin settings) = .ok () started) {calls : List LedgerCall}
    (hdistinct : (ls ++ (appended holder started calls).map (·.location)).Nodup)
    (hlog : log = run holder started calls)
    (hid : request.payload.fingerprint ≠ normalizeId request.channelId)
    (hview : channel holder log request.channelId = .ok view) (now : UInt64)
    (draw : ChannelDraw) :
    (view.replay.kind = .unknown → persist holder now draw request log
      = .error (.channelNotFound (normalizeId request.channelId)) log) ∧
    (view.replay.kind ≠ .unknown → request.recipients ≠ [] → persist holder now draw request log
      = .error (.stakeholderChangeRejected (normalizeId request.channelId)) log) ∧
    (view.replay.kind ≠ .unknown → request.recipients = [] →
      (∀ cause, PrivateKey.ofHex request.signer.privateKey = .error cause →
        persist holder now draw request log = .error (.log (.signing .invalidPrivateKey)) log) ∧
      ∀ t a store, Lands log (ls ++ (appended holder started calls).map (·.location))
          (view.replay.kind.contentOf request.payload draw.nonce) now request t a store →
        ∃ after, persist holder now draw request log
            = .ok ⟨normalizeId request.channelId, a.location, a.details,
              view.replay.kind.writeMethod?, request.allTopics⟩ after ∧
          channel holder after request.channelId = .ok
            ⟨⟨view.replay.kind,
                view.replay.entries ++ [.valid request.payload a.details.timestamp]⟩,
              view.places ++ [(a.location, a.details)]⟩) := by
  obtain ⟨index, htracks⟩ := Log.exists_tracks_of_start hvalid hls hstart
  have hrun := tracks_run htracks hdistinct
  rw [← hlog] at hrun
  have hwrite := persist_existing hid hview now draw
  refine ⟨fun hk => ?_, fun hk hr => ?_, fun hk hr => ⟨fun cause hcause => ?_,
    fun t a store hlands => ?_⟩⟩
  · rw [hwrite, if_pos hk]
  · rw [hwrite, if_neg hk, if_pos hr]
  · rw [hwrite, if_neg hk, if_neg (not_not.2 hr), Log.persist_ready hrun.phase,
      Transaction.create_invalid hcause]
  · exact hlands.extends hrun hdistinct hid hview hk hr

/-! ## A clear channel in memory -/

/-- Another payload for the channel of `exampleRequest`. -/
def exampleReply : WriteRequest := { exampleRequest with payload := .bool false }

def signedReply : SignedContent (.clear exampleReply.payload) := signedBool false

theorem create_exampleReply : Transaction.create (.clear exampleReply.payload)
    exampleReply.signer = .ok signedReply.transaction :=
  signedReply.created

theorem faithful_signedReply : signedReply.transaction.content.Faithful :=
  Log.faithful_signedBool false

/-- The id of a channel, which its first payload has and another payload does not. -/
structure OpenedId (first other : Json) where
  id : String
  told : first.fingerprint = id ∧ other.fingerprint ≠ id

def exampleId : OpenedId Log.examplePayload exampleReply.payload where
  id := "0xff5a203c898c769b66859e1fd6fac736c218324958991daebe30b93fc927da34"
  told := by
    rw [Json.fingerprint, Json.fingerprint, Json.digest_eq, Json.digest_eq]
    decide +kernel

theorem id_exampleReply : exampleReply.payload.fingerprint ≠ normalizeId exampleReply.channelId := by
  show exampleReply.payload.fingerprint ≠ normalizeId Log.examplePayload.fingerprint
  rw [normalizeId_fingerprint, exampleId.told.1]
  exact exampleId.told.2

theorem allTopics_exampleRequest : exampleRequest.allTopics = [exampleId.id] := by
  show [normalizeId Log.examplePayload.fingerprint] = _
  rw [normalizeId_fingerprint, exampleId.told.1]

theorem locations_ne :
    blockLocation 1 (Block.empty.push signedReply.transaction exampleReply.allTopics).text
      ≠ blockLocation 0 (Block.empty.push Log.signedObject.transaction exampleRequest.allTopics).text := by
  have htopics : exampleReply.allTopics = exampleRequest.allTopics := rfl
  rw [htopics, allTopics_exampleRequest]
  simp only [blockLocation, Keccak.hash_eq, Block.text, Json.utf8_text, Block.push,
    Log.signedObject.contentHash, signedReply.contentHash]
  decide +kernel

def openingCalls : List LedgerCall := [.write 0 exampleDraw exampleRequest]

theorem channel_openingCalls : ∃ places,
    channel nobody (run nobody Log.fresh openingCalls) exampleReply.channelId
      = .ok ⟨⟨.clear, [.valid exampleRequest.payload 0]⟩, places⟩ ∧
    (appended nobody Log.fresh openingCalls).map (·.location) =
      [blockLocation 0 (Block.empty.push Log.signedObject.transaction exampleRequest.allTopics).text] := by
  have hopening : Lands Log.fresh [] (.clear exampleRequest.payload) 0 exampleRequest
      Log.signedObject.transaction _ _ :=
    Lands.of_memory tracks_fresh create_exampleRequest Log.signedObject.exists_signer
      List.not_mem_nil Log.faithful_signedObject (by decide) payload_exampleRequest 0
  obtain ⟨opened, hopened, hview⟩ := hopening.opens_clear tracks_fresh List.nodup_nil
    id_exampleRequest rfl (channel_fresh nobody _) rfl exampleDraw
  have hreply : exampleReply.channelId = exampleRequest.channelId := rfl
  rw [← run_write hopened] at hview
  rw [hreply]
  have hempty : Log.fresh.store.order.length = 0 := rfl
  refine ⟨_, hview, ?_⟩
  rw [openingCalls, locations_appended_write tracks_fresh.phase hopened, MemoryStore.append, hempty]

/-- A channel is opened, and written into once more. -/
theorem reply_extends_replay : ∃ places receipt after,
    channel nobody (run nobody Log.fresh openingCalls) exampleReply.channelId
      = .ok ⟨⟨.clear, [.valid exampleRequest.payload 0]⟩, places⟩ ∧
    persist nobody 1 exampleDraw exampleReply (run nobody Log.fresh openingCalls)
      = .ok receipt after ∧
    channel nobody after exampleReply.channelId
      = .ok ⟨⟨.clear, [.valid exampleRequest.payload 0, .valid exampleReply.payload 1]⟩,
        places ++ [(receipt.location, receipt.details)]⟩ := by
  obtain ⟨places, hview, hlocations⟩ := channel_openingCalls
  have hdistinct : (([] : List Location)
      ++ (appended nobody Log.fresh openingCalls).map (·.location)).Nodup := by
    rw [List.nil_append, hlocations]
    exact List.nodup_singleton _
  have hfresh : blockLocation
      (([] : List Location) ++ (appended nobody Log.fresh openingCalls).map (·.location)).length
      (Block.empty.push signedReply.transaction exampleReply.allTopics).text
        ∉ ([] : List Location) ++ (appended nobody Log.fresh openingCalls).map (·.location) := by
    rw [List.nil_append, hlocations, List.mem_singleton]
    exact locations_ne
  have hreply := Lands.of_memory (tracks_run tracks_fresh hdistinct) create_exampleReply
    signedReply.exists_signer hfresh faithful_signedReply (by decide)
    ⟨by decide, trivial⟩ 1
  obtain ⟨-, -, hlanded⟩ := write_extends_replay trivial rfl Log.start_fresh hdistinct rfl
    id_exampleReply hview 1 exampleDraw
  obtain ⟨after, hpersist, hnext⟩ := (hlanded (by simp) rfl).2 _ _ _ hreply
  exact ⟨places, _, after, hview, hpersist, hnext⟩

end Ledger

end ChannelLog
