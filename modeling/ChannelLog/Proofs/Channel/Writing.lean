import ChannelLog.Channel.Writing
import ChannelLog.Proofs.Bytes.Hex
import ChannelLog.Proofs.Channel.Acceptance

/-!
# What is written into a channel is accepted there

As long as its signature leads to a signer, and, if it is sealed, its payload is read from its
canonical text as itself:

* `clearPayload_clear`, `sealedPayload_encrypted`: a later transaction has the payload that was
  written.
* `opens_clear`: a clear transaction opens the channel of its payload.
* `Content.exists_of_firstEncrypted`, `parse_firstEncrypted`, `opens_firstEncrypted`: the first
  transaction of an encrypted channel opens it with the channel's key, if the key comes out of its
  envelopes.
-/

namespace ChannelLog

theorem openSealed_encrypt (key : ChannelKey) (nonce : Nonce) (plaintext : Bytes) :
    openSealed key (Hex.encode (Sealed.encrypt key nonce plaintext)) = .ok plaintext := by
  rw [openSealed_eq_ok]
  refine ⟨Sealed.encrypt key nonce plaintext, ?_, Sealed.decrypt_encrypt key nonce plaintext⟩
  rw [Hex.dropMarks_encode, Hex.decode_encode]

theorem sameUpToAsciiCase_self (s : String) : Text.sameUpToAsciiCase s s = true :=
  beq_self_eq_true _

variable {κ : Type} [KeyHolder κ] {t : Transaction} {payload : Json} {address : String}

/-! ## Later transactions -/

theorem clearPayload_clear (ht : t.content = .clear payload) (hsigner : t.signer = .ok address) :
    ClearPayload t payload where
  data := by rw [ht]; rfl
  encryptedData := by rw [ht]; rfl
  encryptionMethod := by rw [ht]; rfl
  keys := by rw [ht]; rfl
  hash := by rw [ht]; rfl
  signed := ⟨address, hsigner⟩

theorem sealedPayload_encrypted {key : ChannelKey} {nonce : Nonce}
    (ht : t.content = .encrypted payload key nonce) (hsigner : t.signer = .ok address)
    (hread : Json.ofText? payload.canonicalText = some payload) : SealedPayload key t payload where
  data := by rw [ht]; rfl
  encryptionMethod := by rw [ht]; rfl
  keys := by rw [ht]; rfl
  signed := ⟨address, hsigner⟩
  opens := by
    obtain ⟨bytes, hhex, hopen⟩ :=
      openSealed_eq_ok.1 (openSealed_encrypt key nonce (Bytes.utf8 payload.canonicalText))
    refine ⟨_, payload.fingerprint, bytes, Bytes.utf8 payload.canonicalText, by rw [ht]; rfl,
      by rw [ht]; rfl, hhex, hopen, ?_, sameUpToAsciiCase_self _⟩
    rw [Bytes.text?_utf8, Option.bind_some, hread]

/-! ## First transactions -/

/-- **A clear transaction opens the channel of its payload.** -/
theorem opens_clear {holder : Option κ} (ht : t.content = .clear payload)
    (hsigner : t.signer = .ok address) :
    Opens holder payload.fingerprint t ⟨t, .clear payload, none⟩
      ⟨payload, payload.fingerprint, address⟩ := by
  have h := clearPayload_clear ht hsigner
  exact {
    parse := (parse_data_iff h.data).2
      ⟨by simp, h.encryptedData, h.encryptionMethod, h.keys, h.hash, rfl⟩
    validate := Parsed.validate_iff.2 ⟨hsigner, rfl, rfl⟩
    hash := rfl }

namespace Content

variable {recipients : List Recipient} {draw : ChannelDraw} {content : Content} {key : ChannelKey}

theorem firstEncrypted_eq_ok
    (h : firstEncryptedWithKey payload recipients draw = .ok (content, key)) :
    firstEncrypted payload recipients draw = .ok content := by
  rw [firstEncrypted, h]
  rfl

/-- The first content of an encrypted channel has the payload sealed under the key that is drawn, and
brings this key. -/
theorem exists_of_firstEncryptedWithKey
    (h : firstEncryptedWithKey payload recipients draw = .ok (content, key)) :
    key = draw.key ∧ ∃ keys, wrapFor draw.key draw.envelopes 0 ∅ recipients = .ok keys ∧
      content = { encrypted payload draw.key draw.nonce with
        encryptionMethod := some channelEncryptionMethod
        keys := some keys } := by
  unfold firstEncryptedWithKey at h
  split at h
  · exact nomatch h
  · obtain ⟨keys, hkeys, h⟩ := bind_eq_ok.1 h
    obtain ⟨rfl, rfl⟩ := Prod.mk.inj (Except.ok.inj h)
    exact ⟨rfl, keys, hkeys, rfl⟩

theorem exists_of_firstEncrypted (h : firstEncrypted payload recipients draw = .ok content) :
    ∃ keys, wrapFor draw.key draw.envelopes 0 ∅ recipients = .ok keys ∧
      content = { encrypted payload draw.key draw.nonce with
        encryptionMethod := some channelEncryptionMethod
        keys := some keys } := by
  cases hfirst : firstEncryptedWithKey payload recipients draw with
  | error e =>
    rw [firstEncrypted, hfirst] at h
    exact nomatch h
  | ok first =>
    rw [firstEncrypted, hfirst] at h
    obtain rfl := Except.ok.inj h
    exact (exists_of_firstEncryptedWithKey hfirst).2

end Content

theorem payload_encrypted (hread : Json.ofText? payload.canonicalText = some payload) :
    (ParsedBody.encrypted (Bytes.utf8 payload.canonicalText) payload.fingerprint).payload
      = .ok payload := by
  rw [ParsedBody.payload_encrypted_iff, Bytes.text?_utf8, Option.bind_some]
  exact ⟨hread, sameUpToAsciiCase_self _⟩

theorem parse_firstEncrypted_eq {holder : Option κ} {recipients : List Recipient}
    {draw : ChannelDraw} {keys : Dict String}
    (h : Content.firstEncrypted payload recipients draw = .ok t.content)
    (hkeys : t.content.keys = some keys) :
    parse holder .unknown none t = (do
      let key ← decryptChannelKey holder keys
      let plaintext ← openSealed key
        (Hex.encode (Sealed.encrypt draw.key draw.nonce (Bytes.utf8 payload.canonicalText)))
      return ⟨t, .encrypted plaintext payload.fingerprint,
        some ⟨key, channelEncryptionMethod⟩⟩) := by
  obtain ⟨keys', -, hc⟩ := Content.exists_of_firstEncrypted h
  have hdata : t.content.data = none := by rw [hc]; rfl
  have hsealed : t.content.encryptedData = some (Hex.encode
      (Sealed.encrypt draw.key draw.nonce (Bytes.utf8 payload.canonicalText))) := by rw [hc]; rfl
  have hhash : t.content.hash = some payload.fingerprint := by rw [hc]; rfl
  have hmethod : t.content.encryptionMethod = some channelEncryptionMethod := by rw [hc]
  have hbrought : bringEncryption holder t.content
      = (decryptChannelKey holder keys).map (⟨·, channelEncryptionMethod⟩) := by
    simp only [bringEncryption, hkeys, hmethod, if_pos]
  simp only [parse, hdata, hsealed, hhash, parseEncrypted, hbrought, reduceCtorEq, if_false]
  cases decryptChannelKey holder keys <;> rfl

/-- **The first transaction of an encrypted channel brings the key**, for who gets the key out of
the envelopes. -/
theorem parse_firstEncrypted {holder : Option κ} {recipients : List Recipient}
    {draw : ChannelDraw} {keys : Dict String}
    (h : Content.firstEncrypted payload recipients draw = .ok t.content)
    (hkeys : t.content.keys = some keys) (hkey : decryptChannelKey holder keys = .ok draw.key) :
    parse holder .unknown none t
      = .ok ⟨t, .encrypted (Bytes.utf8 payload.canonicalText) payload.fingerprint,
        some ⟨draw.key, channelEncryptionMethod⟩⟩ := by
  rw [parse_firstEncrypted_eq h hkeys, hkey]
  exact bind_eq_ok.2 ⟨_, rfl, bind_eq_ok.2 ⟨_, openSealed_encrypt _ _ _, rfl⟩⟩

theorem parse_firstEncrypted_error {holder : Option κ} {recipients : List Recipient}
    {draw : ChannelDraw} {keys : Dict String} {cause : ParseError}
    (h : Content.firstEncrypted payload recipients draw = .ok t.content)
    (hkeys : t.content.keys = some keys) (hkey : decryptChannelKey holder keys = .error cause) :
    parse holder .unknown none t = .error cause := by
  rw [parse_firstEncrypted_eq h hkeys, hkey]
  rfl

/-- **The first transaction opens its channel**, if its signature leads to a signer. -/
theorem opens_firstEncrypted {holder : Option κ} {recipients : List Recipient}
    {draw : ChannelDraw} {keys : Dict String}
    (h : Content.firstEncrypted payload recipients draw = .ok t.content)
    (hkeys : t.content.keys = some keys) (hkey : decryptChannelKey holder keys = .ok draw.key)
    (hsigner : t.signer = .ok address)
    (hread : Json.ofText? payload.canonicalText = some payload) :
    Opens holder payload.fingerprint t
      ⟨t, .encrypted (Bytes.utf8 payload.canonicalText) payload.fingerprint,
        some ⟨draw.key, channelEncryptionMethod⟩⟩
      ⟨payload, payload.fingerprint, address⟩ where
  parse := parse_firstEncrypted h hkeys hkey
  validate := Parsed.validate_iff.2 ⟨hsigner, payload_encrypted hread, rfl⟩
  hash := rfl

end ChannelLog
