import ChannelLog.Proofs.Ledger.Appending
import ChannelLog.Proofs.Ledger.Secrecy

/-!
# Opening a channel over what is stored under its name

Anybody can store transactions under the name of a channel before it is opened. They are ignored as
long as none of them opens the channel, and do not keep a later one from it.

* `Ledger.Opened`: what becomes of a channel, and of the transaction that was to open it, by the
  recipients and by the keys held.
* `Ledger.step_opening`: that this is what the replay makes of the transaction.
* `Ledger.opening_extends_replay`: **a write of the payload that a channel is named after is signed
  and stored, and opens the channel**, whatever is stored under the name of the channel already.
-/

namespace ChannelLog

variable {σ : Type} [Store σ]

namespace Ledger

/-- What becomes of a channel, and of the transaction that was to open it: without recipients the
channel is clear; with recipients of which one's private key is held, encrypted; otherwise the
transaction is ignored for want of the key. -/
inductive Opened (keyring : Option Keyring) (draw : ChannelDraw) (request : WriteRequest)
    (c : Confirmed) : ChannelKind → ReplayEntry → Prop
  | clear (hnone : request.recipients = []) :
    Opened keyring draw request c .clear (.valid request.payload c.timestamp)
  | encrypted (hsome : request.recipients ≠ [])
    (hheld : ∃ k ∈ keyring, k.HoldsOneOf request.recipients) :
    Opened keyring draw request c (.encrypted ⟨draw.key, channelEncryptionMethod⟩)
      (.valid request.payload c.timestamp)
  | unknown (hsome : request.recipients ≠ [])
    (hheld : ¬ ∃ k ∈ keyring, k.HoldsOneOf request.recipients) (cause : ParseError)
    (hcause : cause = .noDecryptionProvider ∨ cause = .channelKeyDecryption .noRecipient) :
    Opened keyring draw request c .unknown (.ignored (.parse cause) c)

variable {keyring : Option Keyring} {draw : ChannelDraw} {request : WriteRequest}

/-! ## The transaction -/

/-- **What is written to open a channel becomes of it what it should**, by the recipients and the
keys held. -/
theorem step_opening (hid : request.payload.fingerprint = normalizeId request.channelId)
    (hpublic : ∀ r ∈ request.recipients, ∃ k, PublicKey.ofHex r.key = .ok k)
    (hkeyring : ∀ k ∈ keyring, k.Valid ∧ k.Agrees request.recipients draw.envelopes)
    (hread : Json.ofText? request.payload.canonicalText = some request.payload) (log : Log σ) :
    ∃ content method,
      contentFor keyring log draw request (normalizeId request.channelId) = .ok (content, method) ∧
      ∀ c : Confirmed, c.transaction.content = content →
        (∃ address, c.transaction.signer = .ok address) →
        ∃ kind entry, Opened keyring draw request c kind entry ∧
          Replay.step keyring (normalizeId request.channelId) .unknown c = (entry, kind) := by
  rw [← hid]
  by_cases hnone : request.recipients = []
  · refine ⟨_, _, contentFor_clear rfl hnone keyring log draw, ?_⟩
    rintro c hc ⟨address, hsigner⟩
    exact ⟨_, _, .clear hnone, Replay.step_opens (opens_clear hc hsigner)⟩
  · obtain ⟨content, keys, hcontent, hkeys, hwraps⟩ :=
      Content.exists_firstEncrypted hnone hpublic request.payload draw
    refine ⟨_, _, contentFor_sealed rfl hnone hcontent keyring log, ?_⟩
    rintro c rfl ⟨address, hsigner⟩
    by_cases hheld : ∃ k ∈ keyring, k.HoldsOneOf request.recipients
    · obtain ⟨k, hk, hholds⟩ := id hheld
      obtain ⟨hvalid, hagrees⟩ := hkeyring k hk
      have hkey := decryptChannelKey_wraps hwraps hvalid hagrees hholds
      rw [← Option.mem_def.1 hk] at hkey
      exact ⟨_, _, .encrypted hnone hheld,
        Replay.step_opens (opens_firstEncrypted hcontent hkeys hkey hsigner hread)⟩
    · obtain ⟨cause, hkey, hcause⟩ := exists_decryptChannelKey_error hwraps hkeyring hheld
      exact ⟨_, _, .unknown hnone hheld cause hcause,
        Replay.step_parse_error (parse_firstEncrypted_error hcontent hkeys hkey)⟩

/-! ## The channel -/

theorem ignored_of_unknown {log : Log σ} {channelId : String} {view : ChannelView}
    (hview : channel keyring log channelId = .ok view) (hunknown : view.replay.kind = .unknown) :
    ∀ e ∈ view.replay.entries, e.isValid = false := by
  obtain ⟨found, -, rfl⟩ := exists_of_channel hview
  exact Replay.ignored_of_unknown hunknown

variable [LawfulStore σ] {log : Log σ} {ls : List Location} {view : ChannelView}

/-- What is stored under the name of a channel is the next transaction of the channel, whoever stored
it. -/
theorem channel_persisted {index : TopicIndex} (h : log.Tracks ls index) (hnodup : ls.Nodup)
    {channelId : String} (hview : channel keyring log channelId = .ok view) {now : UInt64}
    {content : Content} {signer : SignatureParameters} {topics : List String} {t : Transaction}
    {a : Appended} {store : σ} (hcreate : Transaction.create content signer = .ok t)
    (happend : Store.append log.store now (Block.empty.push t topics).text = .ok (a, store))
    (hfresh : a.location ∉ ls)
    (hblock : Log.checkBlock (Block.empty.push t topics).text = .ok (Block.empty.push t topics))
    (htopic : normalizeId channelId ∈ topics) {entry : ReplayEntry} {kind : ChannelKind}
    (hstep : Replay.step keyring (normalizeId channelId) view.replay.kind
      ⟨t, a.details.timestamp⟩ = (entry, kind)) :
    let call := LogCall.persist ⟨now, content, signer, topics⟩
    call.appended log = [⟨a.location, Block.empty.push t topics⟩] ∧
    channel keyring (call.after log) channelId = .ok
      ⟨⟨kind, view.replay.entries ++ [entry]⟩, view.places ++ [(a.location, a.details)]⟩ := by
  obtain ⟨after, hpersist, hserved⟩ := h.persist_served hnodup hcreate happend hfresh hblock
  obtain ⟨hadded, -⟩ := Log.call_persist_ok (c := ⟨now, content, signer, topics⟩) h.phase hcreate
    happend
  have hafter : (LogCall.persist ⟨now, content, signer, topics⟩).after log = after := by
    simp only [LogCall.after, PersistCall.persist, hpersist]
  have hnext := channel_append hview (hserved _ (Block.mem_topics_single.2 (.inl htopic)))
  simp only [Found.confirmed, hstep] at hnext
  refine ⟨hadded, ?_⟩
  rw [hafter]
  exact hnext

/-- **A write of the payload that a channel is named after is signed and stored, and opens the
channel**, whatever is stored under the name of the channel already, as long as nothing opened it:
that is all ignored, stays so for the same reasons, and is followed by the transaction written. The
channel is clear if there are no recipients, and encrypted, for who holds the private key of one, if
there are. The key has to be valid and the signature to lead to a signer, the block and the payload
to be read as they were written, and no append can be expected to have the location of another
entry (`hdistinct`), since locations are hashes. -/
theorem opening_extends_replay {origin : σ} {settings : LogSettings} {started : Log σ}
    (hvalid : LawfulStore.Valid origin) (hls : Store.locations origin = .ok ls)
    (hstart : Log.start (Log.ofStore origin settings) = .ok () started) {calls : List LedgerCall}
    (hdistinct : (ls ++ (appended keyring started calls).map (·.location)).Nodup)
    (hlog : log = run keyring started calls)
    (hid : request.payload.fingerprint = normalizeId request.channelId)
    (hview : channel keyring log request.channelId = .ok view)
    (hunknown : view.replay.kind = .unknown)
    (hpublic : ∀ r ∈ request.recipients, ∃ k, PublicKey.ofHex r.key = .ok k)
    (hkeyring : ∀ k ∈ keyring, k.Valid ∧ k.Agrees request.recipients draw.envelopes)
    (hread : Json.ofText? request.payload.canonicalText = some request.payload) {key : PrivateKey}
    (hkey : PrivateKey.ofHex request.signer.privateKey = .ok key) (now : UInt64) :
    (∀ e ∈ view.replay.entries, e.isValid = false) ∧
    ∃ content method,
      contentFor keyring log draw request (normalizeId request.channelId) = .ok (content, method) ∧
      (key.Signs content.signingHash → ∃ t, Transaction.create content request.signer = .ok t ∧
        ∀ a store,
          Store.append log.store now (Block.empty.push t request.allTopics).text = .ok (a, store) →
          a.location ∉ ls ++ (appended keyring started calls).map (·.location) →
          Log.checkBlock (Block.empty.push t request.allTopics).text
            = .ok (Block.empty.push t request.allTopics) →
          ∃ after kind entry, persist keyring now draw request log
              = .ok ⟨normalizeId request.channelId, a.location, a.details, method,
                request.allTopics⟩ after ∧
            Opened keyring draw request ⟨t, a.details.timestamp⟩ kind entry ∧
            channel keyring after request.channelId = .ok
              ⟨⟨kind, view.replay.entries ++ [entry]⟩,
                view.places ++ [(a.location, a.details)]⟩) := by
  refine ⟨ignored_of_unknown hview hunknown, ?_⟩
  obtain ⟨index, htracks⟩ := Log.exists_tracks_of_start hvalid hls hstart
  have hrun := tracks_run htracks hdistinct
  rw [← hlog] at hrun
  obtain ⟨content, method, hcontent, hstep⟩ := step_opening hid hpublic hkeyring hread log
  refine ⟨content, method, hcontent, fun hsigns => ?_⟩
  obtain ⟨t, address, hcreate, hsigner⟩ := (Transaction.signs_iff hkey).1 hsigns
  refine ⟨t, hcreate, fun a store happend hfresh hblock => ?_⟩
  have hlands : Lands log _ content now request t a store :=
    ⟨hcreate, ⟨address, hsigner⟩, happend, hfresh, hblock, hread⟩
  obtain ⟨kind, entry, hopened, hentry⟩ :=
    hstep ⟨t, a.details.timestamp⟩ (content_create hcreate) ⟨address, hsigner⟩
  rw [← hunknown] at hentry
  obtain ⟨after, hpersist, hchannel⟩ := hlands.replayed hrun hdistinct hview hcontent hentry
  exact ⟨after, kind, entry, hpersist, hopened, hchannel⟩

/-! ## A channel in memory whose name is taken -/

theorem exists_append_memory (store : MemoryStore) (now : UInt64) (text : String) :
    ∃ a after, Store.append store now text = .ok (a, after) ∧
      a.location = blockLocation store.order.length text ∧ a.details.timestamp = now :=
  ⟨_, _, rfl, rfl, rfl⟩

/-- Another channel's payload is stored under the name of the channel. -/
def squattingCall : LogCall :=
  .persist ⟨0, .clear exampleReply.payload, exampleReply.signer, exampleReply.allTopics⟩

theorem channel_squattingCall (keyring : Option Keyring) : ∃ places,
    channel keyring (run keyring Log.fresh [.log squattingCall]) sealedRequest.channelId
      = .ok ⟨⟨.unknown, [.ignored .channelMismatch ⟨signedReply.transaction, 0⟩]⟩, places⟩ ∧
    (appended keyring Log.fresh [.log squattingCall]).map (·.location)
      = [blockLocation 0 (Block.empty.push signedReply.transaction exampleReply.allTopics).text] := by
  have hblock := Log.checkBlock_faithful faithful_signedReply (by decide) exampleReply.allTopics
  obtain ⟨address, hsigner⟩ := signedReply.exists_signer
  have hopens : Opens keyring exampleReply.payload.fingerprint signedReply.transaction _ _ :=
    opens_clear (content_create create_exampleReply) hsigner
  have hstep := Replay.step_mismatch (c := ⟨signedReply.transaction, 0⟩) hopens id_exampleReply
  obtain ⟨a, store, happend, hlocation, htime⟩ := exists_append_memory Log.fresh.store 0
    (Block.empty.push signedReply.transaction exampleReply.allTopics).text
  rw [← htime] at hstep
  obtain ⟨hadded, hview⟩ := channel_persisted tracks_fresh List.nodup_nil
    (channel_fresh keyring _) create_exampleReply happend List.not_mem_nil hblock List.mem_cons_self hstep
  rw [htime] at hview
  have hempty : Log.fresh.store.order.length = 0 := rfl
  refine ⟨_, hview, ?_⟩
  simp only [appended, logCalls, LedgerCall.logCalls, Log.appended, List.append_nil, squattingCall,
    hadded, List.map_singleton, hlocation, hempty]

theorem location_signedSealed_ne :
    blockLocation 1 (Block.empty.push signedSealed.transaction sealedRequest.allTopics).text
      ≠ blockLocation 0 (Block.empty.push signedReply.transaction exampleReply.allTopics).text := by
  have hreply : exampleReply.allTopics = exampleRequest.allTopics := rfl
  have hsealed : sealedRequest.allTopics = exampleRequest.allTopics := rfl
  rw [hreply, hsealed, allTopics_exampleRequest]
  simp only [blockLocation, Keccak.hash_eq, Block.text, Json.utf8_text, Block.push,
    signedSealed.contentHash, signedReply.contentHash]
  decide +kernel

theorem squatted_channel_opened : ∃ places receipt after,
    channel (some exampleKeyring) (run (some exampleKeyring) Log.fresh [.log squattingCall])
      sealedRequest.channelId
        = .ok ⟨⟨.unknown, [.ignored .channelMismatch ⟨signedReply.transaction, 0⟩]⟩, places⟩ ∧
    persist (some exampleKeyring) 1 exampleDraw sealedRequest
      (run (some exampleKeyring) Log.fresh [.log squattingCall]) = .ok receipt after ∧
    channel (some exampleKeyring) after sealedRequest.channelId
      = .ok ⟨⟨.encrypted ⟨exampleDraw.key, channelEncryptionMethod⟩,
          [.ignored .channelMismatch ⟨signedReply.transaction, 0⟩, .valid sealedRequest.payload 1]⟩,
        places ++ [(receipt.location, receipt.details)]⟩ := by
  obtain ⟨places, hview, hlocations⟩ := channel_squattingCall (some exampleKeyring)
  have hdistinct : (([] : List Location) ++ (appended (some exampleKeyring) Log.fresh
      [.log squattingCall]).map (·.location)).Nodup := by
    rw [List.nil_append, hlocations]
    exact List.nodup_singleton _
  have hkeyring : ∀ k ∈ some exampleKeyring,
      k.Valid ∧ k.Agrees sealedRequest.recipients exampleDraw.envelopes := by
    rintro k hk
    obtain rfl := Option.some.inj hk
    exact ⟨valid_exampleKeyring, agrees_exampleKeyring publicKey_sealedRequest⟩
  have hread : Json.ofText? sealedRequest.payload.canonicalText = some sealedRequest.payload :=
    (Json.ofText?_canonicalText_iff _).2 payload_exampleRequest
  obtain ⟨key, hkey⟩ : ∃ key, PrivateKey.ofHex sealedRequest.signer.privateKey = .ok key := by
    cases hk : PrivateKey.ofHex sealedRequest.signer.privateKey with
    | error cause => exact nomatch (Transaction.create_invalid hk).symm.trans create_sealedRequest
    | ok key => exact ⟨key, rfl⟩
  obtain ⟨-, content, method, hcontent, hopening⟩ :=
    opening_extends_replay trivial rfl Log.start_fresh hdistinct rfl id_sealedRequest hview rfl
      (fun r hr => ⟨_, publicKey_sealedRequest r hr⟩) hkeyring hread hkey 1
  have hsealed := contentFor_sealed id_sealedRequest recipients_sealedRequest
    firstEncrypted_sealedRequest (some exampleKeyring)
    (run (some exampleKeyring) Log.fresh [.log squattingCall])
  obtain ⟨rfl, rfl⟩ := Prod.mk.inj (Except.ok.inj (hcontent.symm.trans hsealed))
  obtain ⟨address, hsigner⟩ := signedSealed.exists_signer
  obtain ⟨t, hcreate, hwritten⟩ :=
    hopening ((Transaction.signs_iff hkey).2 ⟨_, address, create_sealedRequest, hsigner⟩)
  obtain rfl := Except.ok.inj (create_sealedRequest.symm.trans hcreate)
  obtain ⟨a, store, happend, hlocation, htime⟩ := exists_append_memory
    (run (some exampleKeyring) Log.fresh [.log squattingCall]).store 1
    (Block.empty.push signedSealed.transaction sealedRequest.allTopics).text
  have hone : (run (some exampleKeyring) Log.fresh [.log squattingCall]).store.order.length = 1 := by
    have horder := Except.ok.inj (tracks_run tracks_fresh hdistinct).locations
    show ((run (some exampleKeyring) Log.fresh [.log squattingCall]).store.order).length = 1
    rw [horder, List.nil_append, hlocations, List.length_singleton]
  have hfresh : a.location ∉ ([] : List Location) ++ (appended (some exampleKeyring) Log.fresh
      [.log squattingCall]).map (·.location) := by
    rw [List.nil_append, hlocations, List.mem_singleton, hlocation, hone]
    exact location_signedSealed_ne
  have hblock := Log.checkBlock_faithful (t := signedSealed.transaction)
    (Content.faithful_of_data_eq_none rfl) (by decide) sealedRequest.allTopics
  obtain ⟨after, kind, entry, hpersist, hopened, hnext⟩ := hwritten a store happend hfresh hblock
  have hheld : ∃ k ∈ some exampleKeyring, k.HoldsOneOf sealedRequest.recipients :=
    ⟨exampleKeyring, rfl, exampleRecipient, List.mem_cons_self, exampleHolder,
      has_exampleKeyring.2 rfl, exampleKey.recipient_eq⟩
  cases hopened with
  | clear hnone => exact absurd hnone recipients_sealedRequest
  | unknown hsome hnot => exact absurd hheld hnot
  | encrypted hsome _ =>
    rw [htime] at hnext
    exact ⟨places, _, after, hview, hpersist, hnext⟩

end Ledger

end ChannelLog
