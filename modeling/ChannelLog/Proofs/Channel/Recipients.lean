import ChannelLog.Proofs.Channel.Wrapping
import ChannelLog.Proofs.Channel.Writing
import ChannelLog.Proofs.Json.ReadBack

/-!
# Every recipient can open an encrypted channel

* `Content.Delivers`: what a content comes to when a signed transaction with it is parsed and
  validated.
* `Content.delivers_encrypted`, `Content.delivers_firstEncrypted`: later and first contents of an
  encrypted channel deliver their payload.
* `Content.firstEncrypted_delivers`: **the first content delivers its payload and the key of the
  channel to every keyring that holds the private key of a recipient**, and with that key so does
  every later content.
-/

namespace ChannelLog

namespace Content

variable {κ : Type} [KeyHolder κ]

/-- A transaction with the content is parsed in a channel of type `type` with the key `key`, if it is
known, and brings an encryption into the channel, or none. If its signature leads to a signer it is
valid, and has the payload `payload` with its fingerprint. -/
def Delivers (c : Content) (holder : Option κ) (type : ChannelType) (key : Option ChannelKey)
    (payload : Json) (brought : Option Encryption) : Prop :=
  ∀ t : Transaction, t.content = c → ∃ p, parse holder type key t = .ok p ∧ p.brought = brought ∧
    ∀ address, t.signer = .ok address → p.validate = .ok ⟨payload, payload.fingerprint, address⟩

variable {payload : Json} {recipients : List Recipient} {draw : ChannelDraw} {content : Content}

/-- **A later content delivers its payload** to who knows the key, and brings none. -/
theorem delivers_encrypted (hread : Json.ofText? payload.canonicalText = some payload)
    (holder : Option κ) (key : ChannelKey) (nonce : Nonce) :
    (encrypted payload key nonce).Delivers holder .encrypted (some key) payload none := by
  intro t ht
  have hdata : t.content.data = none := by rw [ht]; rfl
  have hkeys : t.content.keys = none := by rw [ht]; rfl
  have hmethod : t.content.encryptionMethod = none := by rw [ht]; rfl
  have hsealed : t.content.encryptedData = some (Hex.encode
      (Sealed.encrypt key nonce (Bytes.utf8 payload.canonicalText))) := by rw [ht]; rfl
  have hhash : t.content.hash = some payload.fingerprint := by rw [ht]; rfl
  refine ⟨⟨t, .encrypted (Bytes.utf8 payload.canonicalText) payload.fingerprint, none⟩, ?_, rfl, ?_⟩
  · rw [parse_sealed_iff hdata]
    refine ⟨by simp, _, _, hsealed, hhash, ?_⟩
    rw [parseEncrypted_some_iff]
    exact ⟨hkeys, hmethod, _, openSealed_encrypt _ _ _, rfl⟩
  · intro address hsigner
    exact Parsed.validate_iff.2 ⟨hsigner, payload_encrypted hread, rfl⟩

/-- **The first content delivers its payload and the key** to who gets the key out of the
envelopes. -/
theorem delivers_firstEncrypted {holder : Option κ} {keys : Dict String}
    (hread : Json.ofText? payload.canonicalText = some payload)
    (h : firstEncrypted payload recipients draw = .ok content) (hkeys : content.keys = some keys)
    (hkey : decryptChannelKey holder keys = .ok draw.key) :
    content.Delivers holder .unknown none payload
      (some ⟨draw.key, channelEncryptionMethod⟩) := by
  rintro t rfl
  refine ⟨_, parse_firstEncrypted h hkeys hkey, rfl, ?_⟩
  intro address hsigner
  exact (opens_firstEncrypted h hkeys hkey hsigner hread).validate

theorem exists_firstEncryptedWithKey (hsome : recipients ≠ [])
    (hpublic : ∀ r ∈ recipients, ∃ k, PublicKey.ofHex r.key = .ok k) (payload : Json)
    (draw : ChannelDraw) : ∃ content keys,
      firstEncryptedWithKey payload recipients draw = .ok (content, draw.key) ∧
      content.keys = some keys ∧ Wraps draw.key draw.envelopes recipients keys := by
  obtain ⟨keys, hkeys, hwraps⟩ : ∃ keys,
      wrapFor draw.key draw.envelopes 0 ∅ recipients = .ok keys ∧
      Wraps draw.key draw.envelopes recipients keys := exists_wrapFor hpublic
  have hnot : ¬ recipients.isEmpty = true := fun he => hsome (List.isEmpty_iff.1 he)
  refine ⟨{ encrypted payload draw.key draw.nonce with
    encryptionMethod := some channelEncryptionMethod, keys := some keys }, keys, ?_, rfl, hwraps⟩
  rw [firstEncryptedWithKey, if_neg hnot, hkeys]
  rfl

theorem exists_firstEncrypted (hsome : recipients ≠ [])
    (hpublic : ∀ r ∈ recipients, ∃ k, PublicKey.ofHex r.key = .ok k) (payload : Json)
    (draw : ChannelDraw) : ∃ content keys,
      firstEncrypted payload recipients draw = .ok content ∧ content.keys = some keys ∧
      Wraps draw.key draw.envelopes recipients keys := by
  obtain ⟨content, keys, hfirst, hrest⟩ :=
    exists_firstEncryptedWithKey hsome hpublic payload draw
  exact ⟨content, keys, firstEncrypted_eq_ok hfirst, hrest⟩

/-- **Every recipient can open the channel, with the same key.** Whatever is drawn, the first content
of a channel has one wrapped key for each address among its recipients, and delivers its payload and
the key that it was made with, which is the one drawn, to every keyring that holds the private key of
a recipient, whichever other keys it holds. With that key every later content delivers its payload,
and brings no key. -/
theorem firstEncrypted_delivers (hsome : recipients ≠ [])
    (hpublic : ∀ r ∈ recipients, ∃ k, PublicKey.ofHex r.key = .ok k)
    (hread : Json.ofText? payload.canonicalText = some payload) (draw : ChannelDraw) :
    ∃ content key keys, firstEncryptedWithKey payload recipients draw = .ok (content, key) ∧
      firstEncrypted payload recipients draw = .ok content ∧ key = draw.key ∧
      content.keys = some keys ∧ keys.keys.Nodup ∧
      (∀ address, address ∈ keys.keys ↔
        ∃ r ∈ recipients, ∃ k, PublicKey.ofHex r.key = .ok k ∧ k.address = address) ∧
      ∀ keyring : Keyring, keyring.Valid → keyring.HoldsOneOf recipients →
        keyring.Agrees recipients draw.envelopes →
        content.Delivers (some keyring) .unknown none payload
          (some ⟨key, channelEncryptionMethod⟩) ∧
        ∀ next nonce, Json.ofText? next.canonicalText = some next →
          (encrypted next key nonce).Delivers (some keyring) .encrypted (some key) next none := by
  obtain ⟨content, keys, hfirst, hkeys, hwraps⟩ :=
    exists_firstEncryptedWithKey hsome hpublic payload draw
  have hcontent := firstEncrypted_eq_ok hfirst
  refine ⟨content, draw.key, keys, hfirst, hcontent, rfl, hkeys, keys.nodup_keys,
    hwraps.mem_keys_iff, ?_⟩
  intro keyring hvalid hheld hagrees
  refine ⟨?_, fun next nonce hnext => delivers_encrypted hnext _ _ _⟩
  have hkey := decryptChannelKey_wraps hwraps hvalid hagrees hheld
  exact delivers_firstEncrypted hread hcontent hkeys hkey

end Content

/-! ## One recipient, twice -/

namespace Ledger

/-- The holder of the smallest private key. -/
def exampleHolder : PrivateKey := ⟨1, by decide, by decide⟩

def exampleDraw : ChannelDraw where
  key := ⟨List.replicate 32 1, rfl⟩
  nonce := ⟨List.replicate 12 2, rfl⟩
  envelopes _ := ⟨exampleHolder, ⟨List.replicate 12 4, rfl⟩⟩

def exampleKeyring : Keyring :=
  ⟨.insert ∅ "0x7e5f4552091a69125d5dfcb7b8c2659029395bdf" exampleHolder⟩

def exampleRecipient : Recipient :=
  ⟨.ecies, "0279be667ef9dcbbac55a06295ce870b07029bfcdb2dce28d959f2815b16f81798"⟩

/-- The same recipient, with the public key written out in full. -/
def exampleRecipientInFull : Recipient :=
  ⟨.ecies, "0479be667ef9dcbbac55a06295ce870b07029bfcdb2dce28d959f2815b16f81798"
    ++ "483ada7726a3c4655da4fbfc0e1108a8fd17b448a68554199c47d08ffb10d4b8"⟩

/-- A private key, with the texts of its address and of its public key. -/
structure WrittenKey (secret : PrivateKey) (recipient inFull : Recipient) where
  address : String
  address_eq : secret.publicKey.address = address
  fresh_eq : PublicKey.ofBytes? secret.publicKey.compressed = some secret.publicKey
  recipient_eq : PublicKey.ofHex recipient.key = .ok secret.publicKey
  inFull_eq : PublicKey.ofHex inFull.key = .ok secret.publicKey

def exampleKey : WrittenKey exampleHolder exampleRecipient exampleRecipientInFull where
  address := "0x7e5f4552091a69125d5dfcb7b8c2659029395bdf"
  address_eq := by decide +kernel
  fresh_eq := by decide +kernel
  recipient_eq := by decide +kernel
  inFull_eq := by decide +kernel

theorem has_exampleKeyring {secret : PrivateKey} :
    exampleKeyring.Has secret ↔ secret = exampleHolder := by
  unfold Keyring.Has exampleKeyring
  constructor
  · rintro ⟨address, hget⟩
    rw [Dict.get?_insert] at hget
    split at hget
    · exact (Option.some.inj hget).symm
    · exact nomatch hget
  · rintro rfl
    exact ⟨_, by rw [Dict.get?_insert, if_pos rfl]⟩

theorem valid_exampleKeyring : exampleKeyring.Valid := by
  intro address secret hget
  rw [exampleKeyring, Dict.get?_insert] at hget
  split at hget
  · next heq =>
    obtain rfl := Option.some.inj hget
    rw [heq]
    exact exampleKey.address_eq.symm
  · exact nomatch hget

theorem agrees_exampleKeyring {recipients : List Recipient}
    (hpublic : ∀ r ∈ recipients, PublicKey.ofHex r.key = .ok exampleHolder.publicKey) :
    exampleKeyring.Agrees recipients exampleDraw.envelopes where
  shared i _ secret hhas := by
    obtain rfl := has_exampleKeyring.1 hhas
    have hfresh : (exampleDraw.envelopes i).fresh = exampleHolder := rfl
    refine ⟨exampleHolder.publicKey, ?_, ?_⟩
    · rw [hfresh]
      exact exampleKey.fresh_eq
    · rw [hfresh]
  address_inj r hr k hk secret hhas _ := by
    obtain rfl := has_exampleKeyring.1 hhas
    exact Except.ok.inj ((hpublic r hr).symm.trans hk)

/-- Both spellings of a public key have one wrapped key, which the holder gets out. -/
theorem delivers_exampleRecipients : ∃ content key keys,
    Content.firstEncryptedWithKey (.bool true) [exampleRecipient, exampleRecipientInFull] exampleDraw
      = .ok (content, key) ∧
    content.keys = some keys ∧ keys.keys = [exampleHolder.address] ∧
    content.Delivers (some exampleKeyring) .unknown none (.bool true)
      (some ⟨key, channelEncryptionMethod⟩) ∧
    (Content.encrypted (.bool false) key exampleDraw.nonce).Delivers
      (some exampleKeyring) .encrypted (some key) (.bool false) none := by
  have hpublic : ∀ r ∈ [exampleRecipient, exampleRecipientInFull],
      PublicKey.ofHex r.key = .ok exampleHolder.publicKey := by
    simp only [List.mem_cons, List.not_mem_nil, or_false, forall_eq_or_imp, forall_eq]
    exact ⟨exampleKey.recipient_eq, exampleKey.inFull_eq⟩
  have hread (b : Bool) : Json.ofText? (Json.bool b).canonicalText = some (.bool b) :=
    (Json.ofText?_canonicalText_iff _).2 ⟨by simp [Json.depth], trivial⟩
  obtain ⟨content, key, keys, hcontent, -, -, hkeys, hnodup, hmem, hdelivers⟩ :=
    Content.firstEncrypted_delivers (List.cons_ne_nil _ _)
      (fun r hr => ⟨_, hpublic r hr⟩) (hread true) exampleDraw
  have hone : ∀ address, address ∈ keys.keys ↔ address ∈ [exampleHolder.address] := by
    intro address
    rw [hmem, List.mem_singleton]
    constructor
    · rintro ⟨r, hr, k, hk, rfl⟩
      rw [← Except.ok.inj ((hpublic r hr).symm.trans hk)]
      rfl
    · rintro rfl
      exact ⟨exampleRecipient, List.mem_cons_self, _, exampleKey.recipient_eq, rfl⟩
  have hkeysOf : keys.keys = [exampleHolder.address] :=
    List.perm_singleton.1 ((List.perm_ext_iff_of_nodup hnodup (List.nodup_singleton _)).2 hone)
  have hheld : exampleKeyring.HoldsOneOf [exampleRecipient, exampleRecipientInFull] :=
    ⟨exampleRecipient, List.mem_cons_self, exampleHolder, has_exampleKeyring.2 rfl,
      exampleKey.recipient_eq⟩
  obtain ⟨hfirst, hlater⟩ := hdelivers exampleKeyring valid_exampleKeyring hheld
    (agrees_exampleKeyring hpublic)
  exact ⟨content, key, keys, hcontent, hkeys, hkeysOf, hfirst, hlater _ _ (hread false)⟩

end Ledger

end ChannelLog
