import ChannelLog.Proofs.Json.Bytes
import ChannelLog.Proofs.Ledger.Landing

/-!
# What is stored in the clear in an encrypted channel

A write looks at the history of its channel only if the payload is not the one that the channel is
named after.

* `Ledger.data_iff_of_encrypted`: **what is written into a channel that was found to be encrypted is
  stored in the clear exactly if it is the channel's first payload once more, without recipients.**
* `Ledger.first_payload_stored_clear`: such a write.
-/

namespace ChannelLog

variable {σ κ : Type} [Store σ] [KeyHolder κ]

namespace Ledger

/-- The payload of the request is sealed in the content, under some key. -/
def Seals (request : WriteRequest) (draw : ChannelDraw) (content : Content) : Prop :=
  ∃ key : ChannelKey, content.encryptedData = some (Hex.encode
    (Sealed.encrypt key draw.nonce (Bytes.utf8 request.payload.canonicalText)))

theorem content_of_encrypted {holder : Option κ} {log : Log σ} {draw : ChannelDraw}
    {request : WriteRequest} {id : String} {content : Content} {method : Option String}
    (h : contentFor holder log draw request id = .ok (content, method))
    (hencrypted : ∀ past, history log id = .ok past →
      (Replay.ofHistory holder id past).kind.type = .encrypted) :
    if request.payload.fingerprint = id ∧ request.recipients = [] then
      content = .clear request.payload
    else content.data = none ∧ Seals request draw content := by
  rcases contentFor_cases h with ⟨hid, hnone, hc⟩ | ⟨hid, hsome, hc⟩ |
    ⟨hid, past, kind, hpast, hkind, -, hc⟩
  · rw [if_pos ⟨hid, hnone⟩]
    exact hc
  · rw [if_neg fun hr => hsome hr.2]
    obtain ⟨keys, -, rfl⟩ := Content.exists_of_firstEncrypted hc
    exact ⟨rfl, draw.key, rfl⟩
  · rw [if_neg fun hr => hid hr.1]
    have htype := hencrypted past hpast
    rw [← hkind] at htype
    cases kind with
    | encrypted e =>
      rw [hc]
      exact ⟨rfl, e.key, rfl⟩
    | unknown | clear => exact nomatch htype

variable [LawfulStore σ]

/-- **What is written into a channel that was found to be encrypted is stored in the clear exactly
if it is the channel's first payload once more, without recipients.** Otherwise it is stored with its
payload sealed only. What happens between the look at the channel and the write does not matter.
Locations are hashes, so that no append can be expected to have the location of another entry
(`hdistinct`). -/
theorem data_iff_of_encrypted {holder : Option κ} {store : σ} {settings : LogSettings}
    {ls : List Location} {log : Log σ} (hvalid : LawfulStore.Valid store)
    (hls : Store.locations store = .ok ls)
    (hstart : Log.start (Log.ofStore store settings) = .ok () log) {before between : List LedgerCall}
    (hdistinct : (ls ++ (appended holder log (before ++ between)).map (·.location)).Nodup)
    {request : WriteRequest} {view : ChannelView}
    (hview : channel holder (run holder log before) request.channelId = .ok view)
    (hencrypted : view.replay.kind.type = .encrypted) {now : UInt64} {draw : ChannelDraw}
    {receipt : WriteReceipt} {after : Log σ}
    (h : persist holder now draw request (run holder log (before ++ between))
      = .ok receipt after) :
    ∃ t, Store.read after.store receipt.location
        = .ok ⟨(Block.empty.push t receipt.topics).text, receipt.details⟩ ∧
      (t.content.data.isSome ↔
        request.payload.fingerprint = normalizeId request.channelId ∧ request.recipients = []) ∧
      (t.content.data = none → Seals request draw t.content) := by
  obtain ⟨index, htracks⟩ := Log.exists_tracks_of_start hvalid hls hstart
  rw [appended_append, List.map_append, ← List.append_assoc] at hdistinct
  have hbefore := tracks_run htracks (List.nodup_append.1 hdistinct).1
  have hknown : view.replay.kind ≠ .unknown := fun hk => by rw [hk] at hencrypted; exact nomatch hencrypted
  rw [run_append] at h
  -- the channel is still encrypted
  have hkind : ∀ past, history (run holder (run holder log before) between)
        (normalizeId request.channelId) = .ok past →
      (Replay.ofHistory holder (normalizeId request.channelId) past).kind.type = .encrypted := by
    intro past hpast
    unfold history at hpast
    cases hfound : (run holder (run holder log before) between).transactionsOf
        (normalizeId request.channelId) with
    | error e => simp [hfound] at hpast
    | ok found =>
      simp only [hfound] at hpast
      obtain rfl := Except.ok.inj hpast
      have hview' := channel_eq holder (run holder (run holder log before) between)
        request.channelId
      simp only [hfound] at hview'
      have hsame := kind_of_run hbefore hdistinct hview hview' hknown
      rw [← hencrypted, ← hsame]
  obtain ⟨content, method, p, hcontent, hp, rfl⟩ := exists_of_persist h
  obtain ⟨index', hready⟩ : ∃ index', (run holder (run holder log before) between).phase
      = .ready index' := ⟨_, (tracks_run hbefore hdistinct).phase⟩
  obtain ⟨t, hcreate, -, -, hread⟩ := Log.exists_of_persist hready hp
  obtain rfl := content_create hcreate
  have hcases := content_of_encrypted hcontent hkind
  refine ⟨t, hread, ?_⟩
  split at hcases
  · next hclear =>
    rw [hcases]
    exact ⟨⟨fun _ => hclear, fun _ => rfl⟩, fun hnone => nomatch hnone⟩
  · next hsealed =>
    obtain ⟨hnone, hseals⟩ := hcases
    refine ⟨⟨fun hsome => ?_, fun hclear => absurd hclear hsealed⟩, fun _ => hseals⟩
    rw [hnone] at hsome
    exact nomatch hsome

/-! ## An encrypted channel in memory -/

/-- The first payload of the channel, for a recipient. -/
def sealedRequest : WriteRequest := { exampleRequest with recipients := [exampleRecipient] }

def sealedContent : Content where
  encryptedData := some ("0202020202020202020202027cf4a8242522af89f1f691f97085b6dd808f8a819edde12c"
    ++ "a018145d113bcdaaf6ef346217669e71dc")
  encryptionMethod := some channelEncryptionMethod
  keys := some (.insert ∅ "0x7e5f4552091a69125d5dfcb7b8c2659029395bdf"
    ("0279be667ef9dcbbac55a06295ce870b07029bfcdb2dce28d959f2815b16f81798"
      ++ "04040404040404040404040440b7b104f49095b0010141bc7884c9f444bfdbc7646dd7167f6a9364cfff"
      ++ "d7cd5d24211d6a55c3630d841a5b742303fa"))
  hash := some "0xff5a203c898c769b66859e1fd6fac736c218324958991daebe30b93fc927da34"

theorem firstEncrypted_sealedRequest :
    Content.firstEncrypted sealedRequest.payload sealedRequest.recipients exampleDraw
      = .ok sealedContent := by
  decide +kernel

def signedSealed : SignedContent sealedContent where
  transaction := ⟨sealedContent, .ecdsa,
    "0x757297be807ce3143fc7c3943e0ff2a28153f1837d54ff297d79eeb61f794fff"
      ++ "740471d21018db89cb927b0906135da052a22c9108abc2e3ee8b4df2fc83d5051b"⟩
  hash := "0xc0ee9d99229a091234cdd5d068507db9993eb046aed8771c3c5d2389fb5a2e5e"
  signed := by
    rw [Transaction.create_eq, Transaction.contentHash, Json.fingerprint, Transaction.signer,
      Content.signingHash, Json.digest_eq, Json.digest_eq]
    decide +kernel

theorem create_sealedRequest :
    Transaction.create sealedContent sealedRequest.signer = .ok signedSealed.transaction :=
  signedSealed.created

theorem publicKey_sealedRequest : ∀ r ∈ sealedRequest.recipients,
    PublicKey.ofHex r.key = .ok exampleHolder.publicKey := by
  intro r hr
  obtain rfl := List.mem_singleton.1 hr
  exact exampleKey.recipient_eq

theorem decryptChannelKey_sealedContent : ∃ keys, sealedContent.keys = some keys ∧
    decryptChannelKey (some exampleKeyring) keys = .ok exampleDraw.key := by
  obtain ⟨content, keys, hcontent, hkeys, hwraps⟩ := Content.exists_firstEncrypted
    (List.cons_ne_nil exampleRecipient []) (fun r hr => ⟨_, publicKey_sealedRequest r hr⟩)
    sealedRequest.payload exampleDraw
  obtain rfl := Except.ok.inj (hcontent.symm.trans firstEncrypted_sealedRequest)
  have hheld : exampleKeyring.HoldsOneOf sealedRequest.recipients :=
    ⟨exampleRecipient, List.mem_cons_self, exampleHolder, has_exampleKeyring.2 rfl,
      exampleKey.recipient_eq⟩
  exact ⟨keys, hkeys, decryptChannelKey_wraps hwraps valid_exampleKeyring
    (agrees_exampleKeyring publicKey_sealedRequest) hheld⟩

theorem id_sealedRequest :
    sealedRequest.payload.fingerprint = normalizeId sealedRequest.channelId := id_exampleRequest

theorem recipients_sealedRequest : sealedRequest.recipients ≠ [] := by
  simp [sealedRequest]

def sealedCalls : List LedgerCall := [.write 0 exampleDraw sealedRequest]

theorem channel_sealedCalls : ∃ view,
    channel (some exampleKeyring) (run (some exampleKeyring) Log.fresh sealedCalls)
      sealedRequest.channelId = .ok view ∧ view.replay.kind.type = .encrypted ∧
    ((appended (some exampleKeyring) Log.fresh sealedCalls).map (·.location)).Nodup := by
  have hnodata : sealedContent.data = none := rfl
  have hlands : Lands Log.fresh [] sealedContent 0 sealedRequest
      signedSealed.transaction _ _ :=
    Lands.of_memory tracks_fresh create_sealedRequest signedSealed.exists_signer
      List.not_mem_nil (Content.faithful_of_data_eq_none hnodata) (by decide)
      payload_exampleRequest 0
  obtain ⟨keys, hkeys, hkey⟩ := decryptChannelKey_sealedContent
  obtain ⟨after, hpersist, hview⟩ := hlands.opens_encrypted tracks_fresh List.nodup_nil
    id_sealedRequest recipients_sealedRequest (channel_fresh _ _) rfl firstEncrypted_sealedRequest
    hkeys hkey
  have hlocations := locations_appended_write tracks_fresh.phase hpersist
  rw [← run_write hpersist] at hview
  refine ⟨_, hview, rfl, ?_⟩
  rw [sealedCalls, hlocations]
  exact List.nodup_singleton _

/-- The first payload is sealed once more for recipients. -/
theorem first_payload_sealed : ∃ receipt after t,
    persist (some exampleKeyring) 0 exampleDraw sealedRequest
      (run (some exampleKeyring) Log.fresh (sealedCalls ++ [])) = .ok receipt after ∧
    Store.read after.store receipt.location
      = .ok ⟨(Block.empty.push t receipt.topics).text, receipt.details⟩ ∧
    t.content.data = none ∧ Seals sealedRequest exampleDraw t.content := by
  obtain ⟨view, hview, hencrypted, hdistinct⟩ := channel_sealedCalls
  have hcontent := contentFor_sealed id_sealedRequest recipients_sealedRequest
    firstEncrypted_sealedRequest (some exampleKeyring)
    (run (some exampleKeyring) Log.fresh (sealedCalls ++ []))
  rw [← List.nil_append (List.map _ _), ← List.append_nil sealedCalls] at hdistinct
  have hready := (tracks_run tracks_fresh hdistinct).phase
  obtain ⟨receipt, after, h⟩ := exists_persist_memory hready hcontent create_sealedRequest 0
  obtain ⟨t, hread, hdata, hseals⟩ :=
    data_iff_of_encrypted trivial rfl Log.start_fresh hdistinct hview hencrypted h
  have hnone : t.content.data = none := by
    rw [← Option.not_isSome_iff_eq_none, hdata]
    exact fun hclear => recipients_sealedRequest hclear.2
  exact ⟨receipt, after, t, h, hread, hnone, hseals hnone⟩

/-- **The first payload of an encrypted channel is stored in the clear** if it is written once more
without recipients. -/
theorem first_payload_stored_clear : ∃ view receipt after t,
    Log.start (Log.ofStore MemoryStore.empty {}) = .ok () Log.fresh ∧
    channel (some exampleKeyring) (run (some exampleKeyring) Log.fresh sealedCalls)
      sealedRequest.channelId = .ok view ∧
    view.replay.kind.type = .encrypted ∧
    exampleRequest.channelId = sealedRequest.channelId ∧
    persist (some exampleKeyring) 0 exampleDraw exampleRequest
      (run (some exampleKeyring) Log.fresh sealedCalls) = .ok receipt after ∧
    Store.read after.store receipt.location
      = .ok ⟨(Block.empty.push t receipt.topics).text, receipt.details⟩ ∧
    t.content.data = some exampleRequest.payload := by
  obtain ⟨view, hview, hencrypted, hdistinct⟩ := channel_sealedCalls
  have hcontent := contentFor_clear id_exampleRequest rfl (some exampleKeyring)
    (run (some exampleKeyring) Log.fresh sealedCalls) exampleDraw
  rw [← List.nil_append (List.map _ _)] at hdistinct
  have hready := (tracks_run tracks_fresh hdistinct).phase
  obtain ⟨receipt, after, h⟩ := exists_persist_memory hready hcontent create_exampleRequest 0
  obtain ⟨content, method, p, hchosen, hp, rfl⟩ := exists_of_persist h
  obtain ⟨t, hcreate, -, -, hread⟩ := Log.exists_of_persist hready hp
  obtain ⟨rfl, -⟩ := Prod.mk.inj (Except.ok.inj (hcontent.symm.trans hchosen))
  refine ⟨view, _, after, t, Log.start_fresh, hview, hencrypted, rfl, h, hread, ?_⟩
  rw [content_create hcreate]
  rfl

end Ledger

end ChannelLog
