import ChannelLog.Proofs.Channel.Recipients
import ChannelLog.Proofs.Ledger.Steps
import ChannelLog.Proofs.Log.Fidelity

/-!
# Writes that land

A write lands if its content is signed, stored and read back.

* `Lands`: what that takes.
* `Lands.replayed`: **what lands is the next transaction of its channel**, and all that came before
  it is replayed as before.
* `Lands.opens_clear`, `Lands.opens_encrypted`: so it is the first valid entry of a channel that it
  opens.
-/

namespace ChannelLog

variable {σ κ : Type} [Store σ] [KeyHolder κ]

namespace Ledger

/-- What it takes for a write of `content` to land in a log that has entries at `ls` already. -/
structure Lands (log : Log σ) (ls : List Location) (content : Content) (now : UInt64)
    (request : WriteRequest) (t : Transaction) (a : Appended) (store : σ) : Prop where
  /-- The key signs the content. -/
  created : Transaction.create content request.signer = .ok t
  /-- The signature leads to a signer. -/
  signed : ∃ address, t.signer = .ok address
  /-- The store takes the block, at a location that is new. -/
  appended : Store.append log.store now (Block.empty.push t request.allTopics).text = .ok (a, store)
  fresh : a.location ∉ ls
  /-- The block is read as it was written. -/
  block_read : Log.checkBlock (Block.empty.push t request.allTopics).text
    = .ok (Block.empty.push t request.allTopics)
  /-- So is the payload. -/
  payload_read : Json.ofText? request.payload.canonicalText = some request.payload

theorem normalizeId_mem_topics (t : Transaction) (request : WriteRequest) :
    normalizeId request.channelId ∈ (Block.empty.push t request.allTopics).topics :=
  Block.mem_topics_single.2 (.inl List.mem_cons_self)

variable [LawfulStore σ] {holder : Option κ} {log : Log σ} {ls : List Location}
  {index : TopicIndex} {content : Content} {now : UInt64} {draw : ChannelDraw}
  {request : WriteRequest} {t : Transaction} {a : Appended} {store : σ} {view : ChannelView}

/-- **What lands is the next transaction of its channel**, and all that came before it is replayed
as before. -/
theorem Lands.replayed (hlands : Lands log ls content now request t a store)
    (h : log.Tracks ls index) (hnodup : ls.Nodup)
    (hview : channel holder log request.channelId = .ok view) {method : Option String}
    (hcontent : contentFor holder log draw request (normalizeId request.channelId)
      = .ok (content, method)) {entry : ReplayEntry} {kind : ChannelKind}
    (hstep : Replay.step holder (normalizeId request.channelId) view.replay.kind
      ⟨t, a.details.timestamp⟩ = (entry, kind)) :
    ∃ after, persist holder now draw request log
        = .ok ⟨normalizeId request.channelId, a.location, a.details, method, request.allTopics⟩
          after ∧
      channel holder after request.channelId = .ok
        ⟨⟨kind, view.replay.entries ++ [entry]⟩, view.places ++ [(a.location, a.details)]⟩ := by
  obtain ⟨after, hpersist, hserved⟩ := h.persist_served hnodup hlands.created hlands.appended
    hlands.fresh hlands.block_read
  have hwrite := persist_eq holder now draw request log
  simp only [hcontent, hpersist] at hwrite
  have hnext := channel_append hview (hserved _ (normalizeId_mem_topics t request))
  simp only [Found.confirmed, hstep] at hnext
  exact ⟨after, hwrite, hnext⟩

/-! ## Writes that open a channel -/

/-- **The payload that a channel is named after opens a clear channel**, if there are no
recipients. -/
theorem Lands.opens_clear (hlands : Lands log ls (.clear request.payload) now request t a store)
    (h : log.Tracks ls index) (hnodup : ls.Nodup)
    (hid : request.payload.fingerprint = normalizeId request.channelId)
    (hnone : request.recipients = [])
    (hview : channel holder log request.channelId = .ok view)
    (hunknown : view.replay.kind = .unknown) (draw : ChannelDraw) :
    ∃ after, persist holder now draw request log
        = .ok ⟨normalizeId request.channelId, a.location, a.details, none, request.allTopics⟩
          after ∧
      channel holder after request.channelId = .ok
        ⟨⟨.clear, view.replay.entries ++ [.valid request.payload a.details.timestamp]⟩,
          view.places ++ [(a.location, a.details)]⟩ := by
  obtain ⟨address, hsigner⟩ := hlands.signed
  refine hlands.replayed h hnodup hview (contentFor_clear hid hnone holder log draw) ?_
  rw [hunknown, ← hid]
  exact Replay.step_opens (c := ⟨t, a.details.timestamp⟩)
    (ChannelLog.opens_clear (content_create hlands.created) hsigner)

/-- **With recipients it opens an encrypted channel**, for who gets the key out of the
envelopes. -/
theorem Lands.opens_encrypted (hlands : Lands log ls content now request t a store)
    (h : log.Tracks ls index) (hnodup : ls.Nodup)
    (hid : request.payload.fingerprint = normalizeId request.channelId)
    (hsome : request.recipients ≠ [])
    (hview : channel holder log request.channelId = .ok view)
    (hunknown : view.replay.kind = .unknown)
    (hcontent : Content.firstEncrypted request.payload request.recipients draw = .ok content)
    {keys : Dict String} (hkeys : content.keys = some keys)
    (hkey : decryptChannelKey holder keys = .ok draw.key) :
    ∃ after, persist holder now draw request log
        = .ok ⟨normalizeId request.channelId, a.location, a.details,
          some channelEncryptionMethod, request.allTopics⟩ after ∧
      channel holder after request.channelId = .ok
        ⟨⟨.encrypted ⟨draw.key, channelEncryptionMethod⟩,
            view.replay.entries ++ [.valid request.payload a.details.timestamp]⟩,
          view.places ++ [(a.location, a.details)]⟩ := by
  obtain ⟨address, hsigner⟩ := hlands.signed
  have hchoice := contentFor_sealed hid hsome hcontent holder log
  obtain rfl := content_create hlands.created
  refine hlands.replayed h hnodup hview hchoice ?_
  rw [hunknown, ← hid]
  exact Replay.step_opens (c := ⟨t, a.details.timestamp⟩)
    (opens_firstEncrypted hcontent hkeys hkey hsigner hlands.payload_read)

/-! ## In memory -/

theorem Lands.of_memory {log : Log MemoryStore} (h : log.Tracks ls index)
    (hcreate : Transaction.create content request.signer = .ok t) (hsigner : ∃ address, t.signer = .ok address)
    (hfresh : blockLocation ls.length (Block.empty.push t request.allTopics).text ∉ ls)
    (hfaithful : t.content.Faithful) (hdepth : t.content.payloadDepth ≤ Block.payloadLimit)
    (hpayload : request.payload.depth ≤ Json.depthLimit ∧ request.payload.ReadsBack)
    (now : UInt64) :
    Lands log ls content now request t
      (log.store.append now (Block.empty.push t request.allTopics).text).1
      (log.store.append now (Block.empty.push t request.allTopics).text).2 where
  created := hcreate
  signed := hsigner
  appended := rfl
  fresh := by
    have horder : log.store.order = ls := Except.ok.inj h.locations
    rw [MemoryStore.append, horder]
    exact hfresh
  block_read := Log.checkBlock_faithful hfaithful hdepth _
  payload_read := (Json.ofText?_canonicalText_iff _).2 hpayload

theorem exists_persist_memory {log : Log MemoryStore} (hready : log.phase = .ready index)
    {holder : Option κ} {method : Option String}
    (hcontent : contentFor holder log draw request (normalizeId request.channelId)
      = .ok (content, method)) (hcreate : Transaction.create content request.signer = .ok t)
    (now : UInt64) : ∃ receipt after, persist holder now draw request log = .ok receipt after := by
  obtain ⟨p, after, hp⟩ := Log.exists_persist_memory hready hcreate now request.allTopics
  rw [persist_eq, hcontent]
  simp only [hp]
  exact ⟨_, _, rfl⟩

theorem tracks_fresh : Log.fresh.Tracks [] .empty where
  phase := rfl
  valid := trivial
  locations := rfl
  indexed := TopicIndex.valid_empty
  listed _ _ hl := absurd hl List.not_mem_nil

theorem channel_fresh (holder : Option κ) (channelId : String) :
    channel holder Log.fresh channelId = .ok ⟨⟨.unknown, []⟩, []⟩ := by
  have hnone : Log.fresh.transactionsOf (normalizeId channelId) = .ok [] := by
    rw [Log.transactionsOf_ready tracks_fresh.phase]
    rfl
  rw [channel_eq, hnone]
  rfl

/-- A payload for the channel that is named after it, without recipients. -/
def exampleRequest : WriteRequest where
  payload := Log.examplePayload
  channelId := Log.examplePayload.fingerprint
  topics := []
  recipients := []
  signer := Log.exampleSigner

theorem id_exampleRequest :
    exampleRequest.payload.fingerprint = normalizeId exampleRequest.channelId :=
  (normalizeId_fingerprint Log.examplePayload).symm

theorem create_exampleRequest : Transaction.create (.clear exampleRequest.payload)
    exampleRequest.signer = .ok Log.signedObject.transaction :=
  Log.signedObject.created

theorem payload_exampleRequest :
    exampleRequest.payload.depth ≤ Json.depthLimit ∧ exampleRequest.payload.ReadsBack :=
  ⟨by decide, Log.readsBack_examplePayload⟩

end Ledger

end ChannelLog
