import ChannelLog.Channel.Replay

/-!
# Which transactions a channel accepts

* `ClearPayload`, `SealedPayload`: a transaction is well formed in a clear channel, or in an
  encrypted one with the key given, and has the payload given.
* `judge_clear_iff`, `judge_encrypted_iff`: in a channel of known kind these are the transactions
  accepted.
* `judge_unknown_iff`: in a channel of unknown kind these are the transactions that open it
  (`Opens`), and `Opens.brought` says what kind the channel has then.
-/

namespace ChannelLog

/-- A signed transaction with the clear payload `v` and nothing else. -/
structure ClearPayload (t : Transaction) (v : Json) : Prop where
  data : t.content.data = some v
  encryptedData : t.content.encryptedData = none
  encryptionMethod : t.content.encryptionMethod = none
  keys : t.content.keys = none
  hash : t.content.hash = none
  signed : ∃ signer, t.signer = .ok signer

/-- A signed transaction that brings no key and has the payload `v` sealed under `key`, with its
fingerprint. -/
structure SealedPayload (key : ChannelKey) (t : Transaction) (v : Json) : Prop where
  data : t.content.data = none
  encryptionMethod : t.content.encryptionMethod = none
  keys : t.content.keys = none
  signed : ∃ signer, t.signer = .ok signer
  opens : ∃ encryptedData hash bytes plaintext,
    t.content.encryptedData = some encryptedData ∧ t.content.hash = some hash ∧
    Hex.decode (Hex.dropMarks encryptedData) = .ok bytes ∧
    Sealed.decrypt key bytes = .ok plaintext ∧
    (Bytes.text? plaintext).bind Json.ofText? = some v ∧
    Text.sameUpToAsciiCase v.fingerprint hash = true

/-! ## Validating -/

theorem mapError_eq_ok {ε ε' α : Type} {f : ε → ε'} {r : Except ε α} {a : α} :
    r.mapError f = .ok a ↔ r = .ok a := by
  cases r with
  | error e => constructor <;> (intro h; cases h)
  | ok b => constructor <;> (intro h; cases h; rfl)

theorem bind_eq_ok {ε α β : Type} {r : Except ε α} {f : α → Except ε β} {b : β} :
    (r >>= f) = .ok b ↔ ∃ a, r = .ok a ∧ f a = .ok b := by
  cases r <;> simp [bind, Except.bind]

theorem Parsed.validate_iff {p : Parsed} {v : Validated} :
    p.validate = .ok v ↔ p.transaction.signer = .ok v.signer ∧ p.body.payload = .ok v.data ∧
      v.hash = v.data.fingerprint := by
  rw [validate, bind_eq_ok]
  constructor
  · rintro ⟨signer, hs, h⟩
    obtain ⟨data, hd, h⟩ := bind_eq_ok.1 h
    obtain rfl := Except.ok.inj h
    exact ⟨mapError_eq_ok.1 hs, hd, rfl⟩
  · rintro ⟨hs, hd, hh⟩
    refine ⟨v.signer, mapError_eq_ok.2 hs, bind_eq_ok.2 ⟨v.data, hd, ?_⟩⟩
    rw [← hh]
    rfl

theorem ParsedBody.payload_encrypted_iff {plaintext : Bytes} {hash : String} {v : Json} :
    (encrypted plaintext hash).payload = .ok v ↔
      (Bytes.text? plaintext).bind Json.ofText? = some v ∧
        Text.sameUpToAsciiCase v.fingerprint hash = true := by
  rw [payload]
  generalize (Bytes.text? plaintext).bind Json.ofText? = read
  cases read with
  | none => exact ⟨fun h => (nomatch h), fun h => (nomatch h.1)⟩
  | some data =>
    by_cases hs : Text.sameUpToAsciiCase data.fingerprint hash = true
    · simp only [hs, if_true]
      constructor
      · intro h
        obtain rfl := Except.ok.inj h
        exact ⟨rfl, hs⟩
      · exact fun h => congrArg _ (Option.some.inj h.1)
    · simp only [hs]
      constructor
      · exact fun h => nomatch h
      · intro h
        obtain rfl := Option.some.inj h.1
        exact absurd h.2 hs

theorem openSealed_eq_ok {key : ChannelKey} {encryptedData : String} {plaintext : Bytes} :
    openSealed key encryptedData = .ok plaintext ↔
      ∃ bytes, Hex.decode (Hex.dropMarks encryptedData) = .ok bytes ∧
        Sealed.decrypt key bytes = .ok plaintext := by
  rw [openSealed, bind_eq_ok]
  simp only [mapError_eq_ok]

/-! ## Parsing -/

variable {κ : Type} [KeyHolder κ] {holder : Option κ} {t : Transaction} {p : Parsed}

theorem parse_data_iff {type : ChannelType} {key : Option ChannelKey} {data : Json}
    (hd : t.content.data = some data) :
    parse holder type key t = .ok p ↔ type ≠ .encrypted ∧ t.content.encryptedData = none ∧
      t.content.encryptionMethod = none ∧ t.content.keys = none ∧ t.content.hash = none ∧
      p = ⟨t, .clear data, none⟩ := by
  simp only [parse, hd]
  by_cases ht : type = .encrypted
  · rw [if_pos ht]
    exact ⟨fun h => (nomatch h), fun h => absurd ht h.1⟩
  rw [if_neg ht]
  by_cases hn : t.content.encryptedData = none ∧ t.content.encryptionMethod = none ∧
      t.content.keys = none ∧ t.content.hash = none
  · obtain ⟨h₁, h₂, h₃, h₄⟩ := hn
    simp [ht, h₁, h₂, h₃, h₄, eq_comm]
  · rw [if_pos]
    · refine ⟨fun h => (nomatch h), fun ⟨_, h₁, h₂, h₃, h₄, _⟩ => absurd ⟨h₁, h₂, h₃, h₄⟩ hn⟩
    · simp only [Bool.or_eq_true, Option.isSome_iff_ne_none]
      grind

theorem parse_sealed_iff {type : ChannelType} {key : Option ChannelKey}
    (hd : t.content.data = none) :
    parse holder type key t = .ok p ↔ type ≠ .clear ∧ ∃ encryptedData hash,
      t.content.encryptedData = some encryptedData ∧ t.content.hash = some hash ∧
      parseEncrypted holder key t encryptedData hash = .ok p := by
  simp only [parse, hd]
  cases he : t.content.encryptedData with
  | none => simp
  | some encryptedData =>
    by_cases ht : type = .clear
    · simp [ht]
    · cases hh : t.content.hash with
      | none => simp [ht]
      | some hash => simp [ht]

theorem parseEncrypted_some_iff {key : ChannelKey} {encryptedData hash : String} :
    parseEncrypted holder (some key) t encryptedData hash = .ok p ↔
      t.content.keys = none ∧ t.content.encryptionMethod = none ∧
      ∃ plaintext, openSealed key encryptedData = .ok plaintext ∧
        p = ⟨t, .encrypted plaintext hash, none⟩ := by
  simp only [parseEncrypted]
  by_cases hn : t.content.keys = none ∧ t.content.encryptionMethod = none
  · obtain ⟨h₁, h₂⟩ := hn
    simp only [h₁, h₂, Option.isSome_none, Bool.or_self, Bool.false_eq_true, if_false, bind_eq_ok,
      true_and]
    simp [pure, Except.pure, eq_comm]
  · rw [if_pos]
    · exact ⟨fun h => (nomatch h), fun ⟨h₁, h₂, _⟩ => absurd ⟨h₁, h₂⟩ hn⟩
    · simp only [Bool.or_eq_true, Option.isSome_iff_ne_none]
      grind

theorem parseEncrypted_none_iff {encryptedData hash : String} :
    parseEncrypted holder none t encryptedData hash = .ok p ↔
      ∃ encryption plaintext, bringEncryption holder t.content = .ok encryption ∧
        openSealed encryption.key encryptedData = .ok plaintext ∧
        p = ⟨t, .encrypted plaintext hash, some encryption⟩ := by
  simp only [parseEncrypted, bind_eq_ok]
  simp [pure, Except.pure, eq_comm]

theorem bringEncryption_iff {c : Content} {e : Encryption} :
    bringEncryption holder c = .ok e ↔ ∃ keys, c.keys = some keys ∧
      c.encryptionMethod = some e.method ∧ e.method = channelEncryptionMethod ∧
      decryptChannelKey holder keys = .ok e.key := by
  unfold bringEncryption
  cases hk : c.keys with
  | none => simp
  | some keys =>
    cases hm : c.encryptionMethod with
    | none => simp
    | some method =>
      by_cases hc : method = channelEncryptionMethod
      · simp only [if_pos hc]
        cases hd : decryptChannelKey holder keys with
        | error cause => simp [Except.map, hd]
        | ok key =>
          obtain ⟨key', method'⟩ := e
          simp only [Except.map, Except.ok.injEq, Encryption.mk.injEq, Option.some.injEq]
          constructor
          · rintro ⟨rfl, rfl⟩
            exact ⟨keys, rfl, rfl, hc, hd⟩
          · rintro ⟨keys', rfl, rfl, -, hd'⟩
            rw [hd] at hd'
            exact ⟨Except.ok.inj hd', rfl⟩
      · simp only [if_neg hc]
        refine ⟨fun h => (nomatch h), fun ⟨_, _, he, hc', _⟩ => absurd ?_ hc⟩
        rw [← hc', Option.some.inj he]

/-! ## Judging -/

variable {id : String} {v : Json} {w : Validated} {kind : ChannelKind}

theorem judge_known_iff {kind' : ChannelKind} (hk : kind ≠ .unknown) :
    Replay.judge holder id kind t = .ok (w, kind') ↔ kind' = kind ∧
      ∃ p, parse holder kind.type kind.key? t = .ok p ∧ p.validate = .ok w := by
  simp only [Replay.judge, bind_eq_ok, mapError_eq_ok]
  cases kind with
  | unknown => exact absurd rfl hk
  | clear | encrypted =>
    constructor
    · rintro ⟨p, hp, w', hv, he⟩
      obtain ⟨rfl, rfl⟩ := Prod.mk.inj (Except.ok.inj he)
      exact ⟨rfl, p, hp, hv⟩
    · rintro ⟨rfl, p, hp, hv⟩
      exact ⟨p, hp, w, hv, rfl⟩

/-- The transaction, of which `p` and `w` are what it says, opens the channel `id`. -/
structure Opens (holder : Option κ) (id : String) (t : Transaction) (p : Parsed)
    (w : Validated) : Prop where
  parse : parse holder .unknown none t = .ok p
  validate : p.validate = .ok w
  hash : w.hash = id

theorem judge_unknown_iff :
    Replay.judge holder id .unknown t = .ok (w, kind) ↔
      ∃ p, Opens holder id t p w ∧ kind = .ofOrigin p.brought := by
  simp only [Replay.judge, bind_eq_ok, mapError_eq_ok]
  constructor
  · rintro ⟨p, hp, w', hv, he⟩
    split at he
    · next hid =>
      obtain ⟨rfl, rfl⟩ := Prod.mk.inj (Except.ok.inj he)
      exact ⟨p, ⟨hp, hv, hid⟩, rfl⟩
    · exact nomatch he
  · rintro ⟨p, ⟨hp, hv, hid⟩, rfl⟩
    exact ⟨p, hp, w, hv, if_pos hid⟩

/-- **A clear channel accepts the clear payloads**, as they are. -/
theorem judge_clear_iff :
    (∃ w kind, Replay.judge holder id .clear t = .ok (w, kind) ∧ w.data = v)
      ↔ ClearPayload t v := by
  have hjudge : ∀ w kind, Replay.judge holder id .clear t = .ok (w, kind) ↔ kind = .clear ∧
      ∃ p, parse holder .clear none t = .ok p ∧ p.validate = .ok w :=
    fun w kind => judge_known_iff (by simp)
  simp only [hjudge]
  constructor
  · rintro ⟨w, _, ⟨-, p, hp, hv⟩, rfl⟩
    cases hd : t.content.data with
    | none => exact absurd rfl ((parse_sealed_iff hd).1 hp).1
    | some data =>
      obtain ⟨-, h₁, h₂, h₃, h₄, rfl⟩ := (parse_data_iff hd).1 hp
      obtain ⟨hs, hb, -⟩ := Parsed.validate_iff.1 hv
      obtain rfl : data = w.data := Except.ok.inj hb
      exact ⟨hd, h₁, h₂, h₃, h₄, _, hs⟩
  · rintro ⟨hd, h₁, h₂, h₃, h₄, signer, hs⟩
    exact ⟨⟨v, v.fingerprint, signer⟩, .clear, ⟨rfl, _,
      (parse_data_iff hd).2 ⟨by simp, h₁, h₂, h₃, h₄, rfl⟩,
      Parsed.validate_iff.2 ⟨hs, rfl, rfl⟩⟩, rfl⟩

/-- **An encrypted channel accepts the payloads sealed under its key.** -/
theorem judge_encrypted_iff {e : Encryption} :
    (∃ w kind, Replay.judge holder id (.encrypted e) t = .ok (w, kind) ∧ w.data = v)
      ↔ SealedPayload e.key t v := by
  have hjudge : ∀ w kind, Replay.judge holder id (.encrypted e) t = .ok (w, kind) ↔
      kind = .encrypted e ∧
        ∃ p, parse holder .encrypted (some e.key) t = .ok p ∧ p.validate = .ok w :=
    fun w kind => judge_known_iff (by simp)
  simp only [hjudge]
  constructor
  · rintro ⟨w, _, ⟨-, p, hp, hv⟩, rfl⟩
    cases hd : t.content.data with
    | some data => exact absurd rfl ((parse_data_iff hd).1 hp).1
    | none =>
      obtain ⟨-, encryptedData, hash, he, hh, hp⟩ := (parse_sealed_iff hd).1 hp
      obtain ⟨hk, hm, plaintext, ho, rfl⟩ := parseEncrypted_some_iff.1 hp
      obtain ⟨hs, hb, -⟩ := Parsed.validate_iff.1 hv
      obtain ⟨bytes, hx, ho⟩ := openSealed_eq_ok.1 ho
      obtain ⟨hj, hf⟩ := ParsedBody.payload_encrypted_iff.1 hb
      exact ⟨hd, hm, hk, ⟨_, hs⟩, encryptedData, hash, bytes, plaintext, he, hh, hx, ho, hj, hf⟩
  · rintro ⟨hd, hm, hk, ⟨signer, hs⟩, encryptedData, hash, bytes, plaintext, he, hh, hx, ho, hj, hf⟩
    have hp : parse holder .encrypted (some e.key) t = .ok ⟨t, .encrypted plaintext hash, none⟩ :=
      (parse_sealed_iff hd).2 ⟨by simp, encryptedData, hash, he, hh,
        parseEncrypted_some_iff.2 ⟨hk, hm, plaintext, openSealed_eq_ok.2 ⟨bytes, hx, ho⟩, rfl⟩⟩
    exact ⟨⟨v, v.fingerprint, signer⟩, .encrypted e, ⟨rfl, _, hp,
      Parsed.validate_iff.2 ⟨hs, ParsedBody.payload_encrypted_iff.2 ⟨hj, hf⟩, rfl⟩⟩, rfl⟩

/-- **What a transaction that opens a channel says of it**: an encrypted one brings the key that its
keys are decrypted to and the method that it names, a clear one brings nothing. -/
theorem Opens.brought (h : Opens holder id t p w) :
    (t.content.isEncrypted = false ∧ p.brought = none) ∨
      t.content.isEncrypted = true ∧ ∃ keys key method, t.content.keys = some keys ∧
        t.content.encryptionMethod = some method ∧ decryptChannelKey holder keys = .ok key ∧
        p.brought = some ⟨key, method⟩ := by
  cases hd : t.content.data with
  | some data =>
    obtain ⟨-, h₁, -, -, -, rfl⟩ := (parse_data_iff hd).1 h.parse
    exact .inl ⟨by simp [Content.isEncrypted, h₁], rfl⟩
  | none =>
    obtain ⟨-, encryptedData, hash, he, -, hp⟩ := (parse_sealed_iff hd).1 h.parse
    obtain ⟨e, plaintext, hb, -, rfl⟩ := parseEncrypted_none_iff.1 hp
    obtain ⟨keys, hk, hm, -, hkey⟩ := bringEncryption_iff.1 hb
    exact .inr ⟨by simp [Content.isEncrypted, he], keys, e.key, e.method, hk, hm, hkey, rfl⟩

end ChannelLog
