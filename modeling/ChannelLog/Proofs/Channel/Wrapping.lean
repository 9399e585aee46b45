import ChannelLog.Channel.Parsing
import ChannelLog.Channel.Writing
import ChannelLog.Proofs.Keyring

/-!
# Wrapped keys come out of their envelopes

The key of a channel is wrapped once for each address among its recipients, and every keyring that
holds the private key of a recipient gets it back.

* `Envelope.disclose_close`, `Keyring.unwrap_close`: the content and the key in an envelope.
* `KeyHolder.unwrapFirst_eq`: only the first address held is looked at.
* `Content.Wraps`: what the wrapped keys are for a list of recipients; `Wraps.insert` enters one more
  recipient, and so `Content.exists_wrapFor` all of them.
* `decryptChannelKey_wraps`: **the key comes out for every keyring that holds the private key of a
  recipient**; `decryptChannelKey_not_held`: for no other does it.
-/

namespace ChannelLog

theorem PublicKey.length_compressed (k : PublicKey) : k.compressed.length = 33 := by
  simp [compressed]

/-! ## One envelope -/

/-- The holder of `secret` computes from the fresh public key, as an envelope shows it, the point
that was computed from the public key of `secret`. -/
def Envelope.Draw.Agrees (draw : Envelope.Draw) (secret : PrivateKey) : Prop :=
  ∃ fresh, PublicKey.ofBytes? draw.fresh.publicKey.compressed = some fresh ∧
    secret.multiply fresh = draw.fresh.multiply secret.publicKey

/-- **An envelope discloses its content** to whoever computes the point with which it was closed. -/
theorem Envelope.disclose_close {secret : PrivateKey} {draw : Draw} (h : draw.Agrees secret)
    (content : Bytes) : disclose secret (close secret.publicKey draw content) = .ok content := by
  obtain ⟨fresh, hfresh, hshared⟩ := h
  have hheader := draw.fresh.publicKey.length_compressed
  have hlong : ¬ (close secret.publicKey draw content).length < 33 := by
    simp only [close, List.length_append, hheader]
    omega
  have htake : (close secret.publicKey draw content).take 33
      = draw.fresh.publicKey.compressed := List.take_left' hheader
  have hdrop : (close secret.publicKey draw content).drop 33
      = Sealed.encrypt (sharedKey draw.fresh.publicKey.compressed
          (draw.fresh.multiply secret.publicKey)) draw.nonce content := List.drop_left' hheader
  simp only [disclose, if_neg hlong, htake, hfresh, hdrop, hshared]
  exact Sealed.decrypt_encrypt _ _ _

theorem Keyring.unwrap_close {keyring : Keyring} {secret : PrivateKey} {identity : Identity}
    {draw : Envelope.Draw} (hheld : keyring.key? identity = some secret) (h : draw.Agrees secret)
    (key : ChannelKey) :
    KeyHolder.unwrap keyring identity
      (Hex.encode (Envelope.close secret.publicKey draw key.bytes)) = .ok key := by
  have hdecrypt : keyring.decrypt identity (Envelope.close secret.publicKey draw key.bytes)
      = .ok key.bytes := by
    simp only [decrypt, hheld, Envelope.disclose_close h]
  have hkey : SymmetricKey.ofBytes key.bytes = .ok key := dif_pos key.length_eq
  rw [KeyHolder.unwrap, Hex.dropMarks_encode, Hex.decode_encode]
  show (keyring.decrypt identity _).mapError _ >>= _ = _
  rw [hdecrypt]
  show (SymmetricKey.ofBytes key.bytes).mapError _ = _
  rw [hkey]
  rfl

/-! ## Envelopes for recipients -/

namespace Content

variable {key : ChannelKey} {envelopes : Nat → Envelope.Draw} {recipients done rest : List Recipient}
  {keys : Dict String}

/-- The wrapped keys are those for the recipients: there is one for each address of a recipient, in
an envelope that was closed for a recipient with that address. -/
structure Wraps (key : ChannelKey) (envelopes : Nat → Envelope.Draw) (recipients : List Recipient)
    (keys : Dict String) : Prop where
  mem_keys_iff : ∀ address, address ∈ keys.keys ↔
    ∃ r ∈ recipients, ∃ k, PublicKey.ofHex r.key = .ok k ∧ k.address = address
  closed : ∀ address wrapped, keys.get? address = some wrapped → ∃ i r k,
    recipients[i]? = some r ∧ PublicKey.ofHex r.key = .ok k ∧ k.address = address ∧
      wrapped = Hex.encode (Envelope.close k (envelopes i) key.bytes)

theorem wraps_nil : Wraps key envelopes [] ∅ where
  mem_keys_iff _ := iff_of_false List.not_mem_nil fun ⟨_, hr, _⟩ => List.not_mem_nil hr
  closed _ _ h := nomatch h

/-- **One more recipient is entered**, in place of an earlier one with the same address. -/
theorem Wraps.insert (h : Wraps key envelopes done keys) {r : Recipient} {k : PublicKey}
    (hk : PublicKey.ofHex r.key = .ok k) :
    Wraps key envelopes (done ++ [r]) (keys.insert k.address
      (Hex.encode (Envelope.close k (envelopes done.length) key.bytes))) where
  mem_keys_iff address := by
    have hold := h.mem_keys_iff address
    rw [Dict.mem_keys_iff] at hold
    rw [Dict.mem_keys_iff, Dict.get?_insert]
    split
    · next heq =>
      refine iff_of_true rfl ⟨r, List.mem_append_right _ List.mem_cons_self, k, hk, heq.symm⟩
    · next hne =>
      rw [hold]
      constructor
      · rintro ⟨r', hr', hex⟩
        exact ⟨r', List.mem_append_left _ hr', hex⟩
      · rintro ⟨r', hr', k', hk', haddress⟩
        rcases List.mem_append.1 hr' with hr' | hr'
        · exact ⟨r', hr', k', hk', haddress⟩
        · obtain rfl := List.mem_singleton.1 hr'
          obtain rfl := Except.ok.inj (hk.symm.trans hk')
          exact absurd haddress.symm hne
  closed address wrapped hget := by
    rw [Dict.get?_insert] at hget
    split at hget
    · next heq =>
      exact ⟨done.length, r, k, List.getElem?_concat_length, hk, heq.symm,
        (Option.some.inj hget).symm⟩
    · obtain ⟨i, r', k', hi, hrest⟩ := h.closed address wrapped hget
      have hlt : i < done.length := (List.getElem?_eq_some_iff.1 hi).1
      exact ⟨i, r', k', by rw [List.getElem?_append_left hlt, hi], hrest⟩

theorem exists_wrapFor_append (hpublic : ∀ r ∈ rest, ∃ k, PublicKey.ofHex r.key = .ok k)
    (h : Wraps key envelopes done keys) : ∃ keys',
      wrapFor key envelopes done.length keys rest = .ok keys' ∧
      Wraps key envelopes (done ++ rest) keys' := by
  induction rest generalizing done keys with
  | nil =>
    rw [List.append_nil]
    exact ⟨keys, rfl, h⟩
  | cons r rest ih =>
    obtain ⟨k, hk⟩ := hpublic r List.mem_cons_self
    obtain ⟨keys', hkeys', hwraps⟩ := ih (fun r' hr' => hpublic r' (List.mem_cons_of_mem r hr'))
      (h.insert hk)
    rw [List.length_append, List.length_singleton] at hkeys'
    rw [List.append_assoc, List.singleton_append] at hwraps
    exact ⟨keys', by simp only [wrapFor, hk, hkeys'], hwraps⟩

theorem exists_wrapFor (hpublic : ∀ r ∈ recipients, ∃ k, PublicKey.ofHex r.key = .ok k) :
    ∃ keys, wrapFor key envelopes 0 ∅ recipients = .ok keys ∧
      Wraps key envelopes recipients keys :=
  exists_wrapFor_append hpublic wraps_nil

end Content

/-! ## The first address held -/

namespace KeyHolder

variable {κ : Type} [KeyHolder κ] {holder : κ} {key : ChannelKey} {entries : List (String × String)}

theorem unwrapFirst_eq (holder : κ) (entries : List (String × String)) :
    unwrapFirst holder entries =
      match entries.find? fun e => holds holder (Identity.ofAddress e.1) with
      | some e => unwrap holder (Identity.ofAddress e.1) e.2
      | none => .error .noRecipient := by
  induction entries with
  | nil => rfl
  | cons e rest ih =>
    rw [unwrapFirst, List.find?_cons, ih]
    cases holds holder (Identity.ofAddress e.1) <;> rfl

theorem unwrapFirst_eq_ok
    (hall : ∀ e ∈ entries, holds holder (Identity.ofAddress e.1) = true →
      unwrap holder (Identity.ofAddress e.1) e.2 = .ok key)
    (hsome : ∃ e ∈ entries, holds holder (Identity.ofAddress e.1) = true) :
    unwrapFirst holder entries = .ok key := by
  obtain ⟨e, hfind⟩ := Option.isSome_iff_exists.1 (List.find?_isSome.2 hsome)
  have hheld := List.find?_some hfind
  rw [unwrapFirst_eq, hfind]
  exact hall e (List.mem_of_find?_eq_some hfind) hheld

theorem unwrapFirst_not_held
    (h : ∀ e ∈ entries, ¬ holds holder (Identity.ofAddress e.1) = true) :
    unwrapFirst holder entries = .error .noRecipient := by
  rw [unwrapFirst_eq, List.find?_eq_none.2 h]

end KeyHolder

/-! ## Keyrings of recipients -/

namespace Keyring

/-- The keyring holds the private key of one of the recipients. -/
def HoldsOneOf (keyring : Keyring) (recipients : List Recipient) : Prop :=
  ∃ r ∈ recipients, ∃ secret, keyring.Has secret ∧ PublicKey.ofHex r.key = .ok secret.publicKey

/-- What is taken for granted of the keys held, those of recipients, and those drawn. -/
structure Agrees (keyring : Keyring) (recipients : List Recipient)
    (envelopes : Nat → Envelope.Draw) : Prop where
  /-- Both sides of an envelope compute one point. -/
  shared : ∀ i < recipients.length, ∀ secret, keyring.Has secret → (envelopes i).Agrees secret
  /-- Equal addresses are those of equal public keys. -/
  address_inj : ∀ r ∈ recipients, ∀ k, PublicKey.ofHex r.key = .ok k →
    ∀ secret, keyring.Has secret → secret.address = k.address → secret.publicKey = k

end Keyring

variable {keyring : Keyring} {key : ChannelKey} {envelopes : Nat → Envelope.Draw}
  {recipients : List Recipient} {keys : Dict String}

theorem Content.Wraps.exists_held (h : Content.Wraps key envelopes recipients keys)
    (hvalid : keyring.Valid) (hheld : keyring.HoldsOneOf recipients) :
    ∃ e ∈ keys.entries, keyring.holds (Identity.ofAddress e.1) = true := by
  obtain ⟨r, hr, secret, hhas, hpublic⟩ := hheld
  have hmem : secret.address ∈ keys.keys :=
    (h.mem_keys_iff _).2 ⟨r, hr, secret.publicKey, hpublic, rfl⟩
  obtain ⟨e, he, haddress⟩ := List.mem_map.1 hmem
  refine ⟨e, he, ?_⟩
  rw [haddress]
  exact hvalid.holds_iff.2 ⟨secret, hhas, rfl⟩

theorem Content.Wraps.exists_secret (h : Content.Wraps key envelopes recipients keys)
    (hvalid : keyring.Valid) (hagrees : keyring.Agrees recipients envelopes) {e : String × String}
    (he : e ∈ keys.entries) (hheld : keyring.holds (Identity.ofAddress e.1) = true) :
    ∃ i r secret, recipients[i]? = some r ∧ PublicKey.ofHex r.key = .ok secret.publicKey ∧
      keyring.Has secret ∧ keyring.key? (Identity.ofAddress e.1) = some secret ∧
      e.2 = Hex.encode (Envelope.close secret.publicKey (envelopes i) key.bytes) := by
  obtain ⟨address, wrapped⟩ := e
  obtain ⟨i, r, k, hi, hk, rfl, rfl⟩ := h.closed address wrapped (Dict.get?_eq_some_iff.2 he)
  obtain ⟨secret, hhas, haddress⟩ := hvalid.holds_iff.1 hheld
  have hr : r ∈ recipients := List.mem_of_getElem? hi
  obtain rfl := hagrees.address_inj r hr k hk secret hhas haddress
  exact ⟨i, r, secret, hi, hk, hhas, hvalid.key?_eq_some_iff.2 ⟨hhas, rfl⟩, rfl⟩

/-- **The key comes out for every keyring that holds the private key of a recipient**, whichever
other keys it holds. -/
theorem decryptChannelKey_wraps (h : Content.Wraps key envelopes recipients keys)
    (hvalid : keyring.Valid) (hagrees : keyring.Agrees recipients envelopes)
    (hheld : keyring.HoldsOneOf recipients) : decryptChannelKey (some keyring) keys = .ok key := by
  have hfirst : KeyHolder.unwrapFirst keyring keys.entries = .ok key := by
    apply KeyHolder.unwrapFirst_eq_ok
    · intro e he hholds
      obtain ⟨i, r, secret, hi, -, hhas, hkey, hwrapped⟩ := h.exists_secret hvalid hagrees he hholds
      have hlt : i < recipients.length := (List.getElem?_eq_some_iff.1 hi).1
      rw [hwrapped]
      exact Keyring.unwrap_close hkey (hagrees.shared i hlt secret hhas) key
    · exact h.exists_held hvalid hheld
  simp only [decryptChannelKey, hfirst]
  rfl

theorem decryptChannelKey_not_held (h : Content.Wraps key envelopes recipients keys)
    (hvalid : keyring.Valid) (hagrees : keyring.Agrees recipients envelopes)
    (hheld : ¬ keyring.HoldsOneOf recipients) :
    decryptChannelKey (some keyring) keys = .error (.channelKeyDecryption .noRecipient) := by
  have hfirst : KeyHolder.unwrapFirst keyring keys.entries = .error .noRecipient := by
    apply KeyHolder.unwrapFirst_not_held
    intro e he hholds
    obtain ⟨i, r, secret, hi, hpublic, hhas, -⟩ := h.exists_secret hvalid hagrees he hholds
    exact hheld ⟨r, List.mem_of_getElem? hi, secret, hhas, hpublic⟩
  simp only [decryptChannelKey, hfirst]
  rfl

theorem exists_decryptChannelKey_error {keyring : Option Keyring}
    (h : Content.Wraps key envelopes recipients keys)
    (hkeyring : ∀ k ∈ keyring, k.Valid ∧ k.Agrees recipients envelopes)
    (hheld : ¬ ∃ k ∈ keyring, k.HoldsOneOf recipients) : ∃ cause,
      decryptChannelKey keyring keys = .error cause ∧
      (cause = .noDecryptionProvider ∨ cause = .channelKeyDecryption .noRecipient) := by
  cases keyring with
  | none => exact ⟨_, rfl, .inl rfl⟩
  | some k =>
    obtain ⟨hvalid, hagrees⟩ := hkeyring k rfl
    have hnot : ¬ k.HoldsOneOf recipients := fun hk => hheld ⟨k, rfl, hk⟩
    exact ⟨_, decryptChannelKey_not_held h hvalid hagrees hnot, .inr rfl⟩

end ChannelLog
