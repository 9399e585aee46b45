import ChannelLog.Proofs.Channel.Origin
import ChannelLog.Proofs.Json.Fingerprints
import ChannelLog.Proofs.Ledger.Secrecy

/-!
# What two readers of a history agree on

The private keys of a reader decide which transactions the reader can parse, and so which one is the
origin.

* `Commits`: what a transaction says of its payload to every reader; `Commits.unique`: it says so of
  one payload only, but for collisions of the hash.
* `Opens.of_clear`, `Opens.of_key`: a clear transaction opens its channel for every reader, an
  encrypted one for every reader who gets the same key out of it.
* `Replay.readers_agree`: **two readers see the same data**, wherever both accept a transaction,
  **and give the channel the same type, except if the history is divided** (`Replay.Divided`): one
  of them reads an origin for which the other one has no key, and that one finds a clear origin
  later.
-/

namespace ChannelLog

variable {κ κ' : Type} [KeyHolder κ] [KeyHolder κ'] {holder : Option κ} {holder' : Option κ'}
  {id : String} {t : Transaction} {p : Parsed} {w : Validated} {v : Json}

/-! ## Payloads -/

/-- The transaction says that its payload is `v`: it has it in the clear, or it has the fingerprint
of `v`, which was read from some text. -/
inductive Commits (t : Transaction) (v : Json) : Prop where
  | clear (data : t.content.data = some v)
  | sealed (hash text : String) (data : t.content.data = none)
      (declared : t.content.hash = some hash) (read : Json.ofText? text = some v)
      (same : Text.sameUpToAsciiCase v.fingerprint hash = true)

theorem Json.fingerprint_eq_of_same {v w : Json} {hash : String}
    (hv : Text.sameUpToAsciiCase v.fingerprint hash = true)
    (hw : Text.sameUpToAsciiCase w.fingerprint hash = true) : v.fingerprint = w.fingerprint := by
  have hsmall : ∀ u : Json, Text.sameUpToAsciiCase u.fingerprint hash = true →
      u.fingerprint = Text.asciiLowerCase hash := by
    intro u hu
    rw [← eq_of_beq hu, Json.fingerprint, Hex.asciiLowerCase_encodeMarked]
  rw [hsmall v hv, hsmall w hw]

/-- **A transaction says so of one payload only**, but for collisions. -/
theorem Commits.unique {v' : Json} (h : Commits t v) (h' : Commits t v') :
    v = v' ∨ Json.Collide v.canonicalText v'.canonicalText := by
  cases h with
  | clear hdata =>
    cases h' with
    | clear hdata' => exact .inl (Option.some.inj (hdata.symm.trans hdata'))
    | sealed _ _ hnone => exact nomatch hdata.symm.trans hnone
  | sealed hash text hnone hdeclared hread hsame =>
    cases h' with
    | clear hdata' => exact nomatch hnone.symm.trans hdata'
    | sealed hash' text' _ hdeclared' hread' hsame' =>
      obtain rfl := Option.some.inj (hdeclared.symm.trans hdeclared')
      exact Json.eq_or_collide_of_fingerprint_eq hread hread'
        (Json.fingerprint_eq_of_same hsame hsame')

theorem exists_of_parseEncrypted {key : Option ChannelKey} {encryptedData hash : String}
    (h : parseEncrypted holder key t encryptedData hash = .ok p) :
    ∃ plaintext, p.body = .encrypted plaintext hash := by
  cases key with
  | some key =>
    obtain ⟨-, -, plaintext, -, rfl⟩ := parseEncrypted_some_iff.1 h
    exact ⟨plaintext, rfl⟩
  | none =>
    obtain ⟨e, plaintext, -, -, rfl⟩ := parseEncrypted_none_iff.1 h
    exact ⟨plaintext, rfl⟩

/-- **A valid transaction has the payload that it says it has**, however it was parsed. -/
theorem commits_of_valid {type : ChannelType} {key : Option ChannelKey}
    (hparse : parse holder type key t = .ok p) (hvalid : p.validate = .ok w) :
    Commits t w.data := by
  obtain ⟨-, hpayload, -⟩ := Parsed.validate_iff.1 hvalid
  cases hdata : t.content.data with
  | some data =>
    obtain ⟨-, -, -, -, -, rfl⟩ := (parse_data_iff hdata).1 hparse
    obtain rfl : data = w.data := Except.ok.inj hpayload
    exact .clear hdata
  | none =>
    obtain ⟨-, encryptedData, hash, -, hdeclared, hencrypted⟩ := (parse_sealed_iff hdata).1 hparse
    obtain ⟨plaintext, hbody⟩ := exists_of_parseEncrypted hencrypted
    rw [hbody, ParsedBody.payload_encrypted_iff] at hpayload
    obtain ⟨hread, hsame⟩ := hpayload
    obtain ⟨text, -, htext⟩ := Option.bind_eq_some_iff.1 hread
    exact .sealed hash text hdata hdeclared htext hsame

/-! ## Opening -/

theorem Opens.of_clear (h : Opens holder id t p w) (hclear : p.brought = none) :
    Opens holder' id t p w := by
  cases hdata : t.content.data with
  | some data =>
    have hparse := (parse_data_iff hdata).1 h.parse
    exact ⟨(parse_data_iff hdata).2 hparse, h.validate, h.hash⟩
  | none =>
    obtain ⟨-, encryptedData, hash, -, -, hencrypted⟩ := (parse_sealed_iff hdata).1 h.parse
    obtain ⟨e, plaintext, -, -, rfl⟩ := parseEncrypted_none_iff.1 hencrypted
    exact nomatch hclear

/-- **An encrypted transaction that opens a channel opens it for everybody who gets the same key**
out of it. -/
theorem Opens.of_key {e : Encryption} (h : Opens holder id t p w) (he : p.brought = some e) :
    ∃ keys, t.content.keys = some keys ∧ decryptChannelKey holder keys = .ok e.key ∧
      ∀ {κ' : Type} [KeyHolder κ'] (holder' : Option κ'),
        decryptChannelKey holder' keys = .ok e.key → Opens holder' id t p w := by
  cases hdata : t.content.data with
  | some data =>
    obtain ⟨-, -, -, -, -, rfl⟩ := (parse_data_iff hdata).1 h.parse
    exact nomatch he
  | none =>
    obtain ⟨htype, encryptedData, hash, hsealed, hdeclared, hencrypted⟩ :=
      (parse_sealed_iff hdata).1 h.parse
    obtain ⟨e', plaintext, hbrought, hopen, rfl⟩ := parseEncrypted_none_iff.1 hencrypted
    obtain rfl : e' = e := Option.some.inj he
    obtain ⟨keys, hkeys, hmethod, hsupported, hkey⟩ := bringEncryption_iff.1 hbrought
    refine ⟨keys, hkeys, hkey, fun holder' hkey' => ⟨?_, h.validate, h.hash⟩⟩
    have hbrought' : bringEncryption holder' t.content = .ok e' :=
      bringEncryption_iff.2 ⟨keys, hkeys, hmethod, hsupported, hkey'⟩
    exact (parse_sealed_iff hdata).2 ⟨htype, encryptedData, hash, hsealed, hdeclared,
      parseEncrypted_none_iff.2 ⟨e', plaintext, hbrought', hopen, rfl⟩⟩

theorem ChannelType.clear_or_encrypted {a b : ChannelType} (ha : a ≠ .unknown) (hb : b ≠ .unknown)
    (h : a ≠ b) : (a = .encrypted ∧ b = .clear) ∨ (b = .encrypted ∧ a = .clear) := by
  cases a <;> cases b <;> simp_all

namespace Replay

variable {history : List Confirmed}

/-! ## Two readers -/

theorem commits_of_validEntries {i : Nat} {ts : UInt64}
    (h : (ofHistory holder id history).validEntries[i]? = some (some (v, ts))) :
    ∃ c, history[i]? = some c ∧ ts = c.timestamp ∧ Commits c.transaction v := by
  have hentry := validEntries_eq_some_iff.1 h
  obtain ⟨hlt, -⟩ := List.getElem?_eq_some_iff.1 hentry
  rw [ofHistory, length_entries_resume] at hlt
  have hat := List.getElem?_eq_getElem hlt
  rw [entries_ofHistory hat, Option.some.injEq, entry_step_valid_iff] at hentry
  obtain ⟨hts, w, kind', hjudge, rfl⟩ := hentry
  refine ⟨_, hat, hts, ?_⟩
  cases hkind : (ofHistory holder id (history.take i)).kind with
  | unknown =>
    rw [hkind] at hjudge
    obtain ⟨p, hopens, -⟩ := judge_unknown_iff.1 hjudge
    exact commits_of_valid hopens.parse hopens.validate
  | clear | encrypted =>
    rw [hkind] at hjudge
    obtain ⟨-, p, hparse, hvalid⟩ := (judge_known_iff (by simp)).1 hjudge
    exact commits_of_valid hparse hvalid

theorem exists_isOrigin_of_known (h : (ofHistory holder id history).kind ≠ .unknown) :
    ∃ o c p w, IsOrigin holder id history o c p w := by
  apply exists_isOrigin
  by_contra hnone
  apply h
  rw [ofHistory, resume_unopened]
  intro c hc p w hopens
  exact hnone ⟨c, hc, p, w, hopens⟩

theorem exists_clear_origin (h : (ofHistory holder id history).kind.type = .clear) :
    ∃ o c p w, IsOrigin holder id history o c p w ∧ p.brought = none := by
  obtain ⟨o, c, p, w, horigin⟩ := exists_isOrigin_of_known fun hk => by
    rw [hk] at h
    exact nomatch h
  refine ⟨o, c, p, w, horigin, ?_⟩
  rw [kind_ofHistory horigin] at h
  cases hbrought : p.brought with
  | none => rfl
  | some e =>
    rw [hbrought] at h
    exact nomatch h

theorem exists_encrypted_origin (h : (ofHistory holder id history).kind.type = .encrypted) :
    ∃ o c p w e, IsOrigin holder id history o c p w ∧ p.brought = some e := by
  obtain ⟨o, c, p, w, horigin⟩ := exists_isOrigin_of_known fun hk => by
    rw [hk] at h
    exact nomatch h
  rw [kind_ofHistory horigin] at h
  cases hbrought : p.brought with
  | none =>
    rw [hbrought] at h
    exact nomatch h
  | some e => exact ⟨o, c, p, w, e, horigin, hbrought⟩

theorem IsOrigin.lt_of_clear {o o' : Nat} {c c' : Confirmed} {p p' : Parsed} {w w' : Validated}
    {e : Encryption} (h : IsOrigin holder id history o c p w) (he : p.brought = some e)
    (h' : IsOrigin holder' id history o' c' p' w') (hclear : p'.brought = none) : o < o' := by
  have hopens : Opens holder id c'.transaction p' w' := h'.opens.of_clear hclear
  rcases Nat.lt_trichotomy o o' with hlt | rfl | hlt
  · exact hlt
  · obtain rfl := Option.some.inj (h.at_o.symm.trans h'.at_o)
    obtain rfl := Except.ok.inj (h.opens.parse.symm.trans hopens.parse)
    exact nomatch he.symm.trans hclear
  · exact absurd hopens (h.least o' hlt c' h'.at_o p' w')

/-- What the first reader takes for the origin is encrypted under a key that the second one does not
get out of it; the second one reads a clear transaction that comes later as the origin. -/
structure Divided (holder : Option κ) (holder' : Option κ') (id : String) (history : List Confirmed)
    (o o' : Nat) : Prop where
  encrypted : ∃ c p w e keys, IsOrigin holder id history o c p w ∧ p.brought = some e ∧
    c.transaction.content.keys = some keys ∧ decryptChannelKey holder' keys ≠ .ok e.key
  clear : ∃ c p w, IsOrigin holder' id history o' c p w ∧ p.brought = none
  before : o < o'

theorem Divided.types {o o' : Nat} (h : Divided holder holder' id history o o') :
    (ofHistory holder id history).kind.type = .encrypted ∧
    (ofHistory holder' id history).kind.type = .clear := by
  obtain ⟨c, p, w, e, keys, horigin, he, -, -⟩ := h.encrypted
  obtain ⟨c', p', w', horigin', hnone⟩ := h.clear
  rw [kind_ofHistory horigin, he, kind_ofHistory horigin', hnone]
  exact ⟨rfl, rfl⟩

/-- **Only a divided history is encrypted for one reader and clear for another.** -/
theorem exists_divided (hencrypted : (ofHistory holder id history).kind.type = .encrypted)
    (hclear : (ofHistory holder' id history).kind.type = .clear) :
    ∃ o o', Divided holder holder' id history o o' := by
  obtain ⟨o, c, p, w, e, horigin, he⟩ := exists_encrypted_origin hencrypted
  obtain ⟨o', c', p', w', horigin', hnone⟩ := exists_clear_origin hclear
  obtain ⟨keys, hkeys, -, hothers⟩ := horigin.opens.of_key he
  have hlt : o < o' := horigin.lt_of_clear he horigin' hnone
  -- with the key the second reader would have taken the encrypted transaction for the origin
  have hlocked : decryptChannelKey holder' keys ≠ .ok e.key := fun hkey =>
    horigin'.least o hlt c horigin.at_o p w (hothers holder' hkey)
  exact ⟨o, o', ⟨c, p, w, e, keys, horigin, he, hkeys, hlocked⟩, ⟨c', p', w', horigin', hnone⟩,
    hlt⟩

/-- **Two readers see the same data and give the channel the same type, except if the history is
divided.** Wherever both accept a transaction they see the same data, or two values whose canonical
texts collide. If both know the type of the channel it is the same, unless one of them reads an
encrypted origin for which the other one has no key, and the other one a clear origin later; then
the channel is encrypted for the one and clear for the other. -/
theorem readers_agree (holder : Option κ) (holder' : Option κ') (id : String)
    (history : List Confirmed) :
    let r := ofHistory holder id history
    let r' := ofHistory holder' id history
    (∀ (i : Nat) (v v' : Json) (ts ts' : UInt64), r.validEntries[i]? = some (some (v, ts)) →
      r'.validEntries[i]? = some (some (v', ts')) →
      ts = ts' ∧ (v = v' ∨ Json.Collide v.canonicalText v'.canonicalText)) ∧
    (r.kind.type ≠ .unknown → r'.kind.type ≠ .unknown →
      (r.kind.type = r'.kind.type ↔ ∀ o o', ¬ Divided holder holder' id history o o' ∧
        ¬ Divided holder' holder id history o o')) ∧
    ∀ o o', (Divided holder holder' id history o o' →
        r.kind.type = .encrypted ∧ r'.kind.type = .clear) ∧
      (Divided holder' holder id history o o' →
        r'.kind.type = .encrypted ∧ r.kind.type = .clear) := by
  intro r r'
  refine ⟨?_, ?_, fun o o' => ⟨fun h => h.types, fun h => h.types⟩⟩
  · intro i v v' ts ts' h h'
    obtain ⟨c, hc, rfl, hcommits⟩ := commits_of_validEntries h
    obtain ⟨c', hc', rfl, hcommits'⟩ := commits_of_validEntries h'
    obtain rfl := Option.some.inj (hc.symm.trans hc')
    exact ⟨rfl, hcommits.unique hcommits'⟩
  · intro hknown hknown'
    constructor
    · intro hsame o o'
      refine ⟨fun hdivided => ?_, fun hdivided => ?_⟩
      · obtain ⟨he, hc⟩ := hdivided.types
        exact nomatch he.symm.trans (hsame.trans hc)
      · obtain ⟨he, hc⟩ := hdivided.types
        exact nomatch he.symm.trans (hsame.symm.trans hc)
    · intro hundivided
      by_contra hdiffer
      rcases ChannelType.clear_or_encrypted hknown hknown' hdiffer with ⟨ht, ht'⟩ | ⟨ht', ht⟩
      · obtain ⟨o, o', hdivided⟩ := exists_divided ht ht'
        exact (hundivided o o').1 hdivided
      · obtain ⟨o, o', hdivided⟩ := exists_divided ht' ht
        exact (hundivided o o').2 hdivided

/-- The first payload of a channel, sealed for the holder of `exampleKeyring` and then once more in
the clear. -/
def twiceOpened : List Confirmed :=
  [⟨Ledger.signedSealed.transaction, 0⟩, ⟨Log.signedObject.transaction, 1⟩]

/-- **The channel is encrypted for one reader and clear for another**, who holds no key. -/
theorem readers_disagree :
    (ofHistory (some Ledger.exampleKeyring) Ledger.sealedRequest.payload.fingerprint
      twiceOpened).kind.type = .encrypted ∧
    (ofHistory (some Keyring.empty) Ledger.sealedRequest.payload.fingerprint
      twiceOpened).kind.type = .clear := by
  obtain ⟨keys, hkeys, hkey⟩ := Ledger.decryptChannelKey_sealedContent
  obtain ⟨address, hsigner⟩ := Ledger.signedSealed.exists_signer
  obtain ⟨address', hsigner'⟩ := Log.signedObject.exists_signer
  have hread : Json.ofText? Ledger.sealedRequest.payload.canonicalText
      = some Ledger.sealedRequest.payload :=
    (Json.ofText?_canonicalText_iff _).2 Ledger.payload_exampleRequest
  constructor
  · have hopens := opens_firstEncrypted (t := Ledger.signedSealed.transaction)
      Ledger.firstEncrypted_sealedRequest hkeys hkey hsigner hread
    have horigin : IsOrigin _ _ twiceOpened 0 _ _ _ :=
      ⟨rfl, hopens, fun i hi => absurd hi (Nat.not_lt_zero i)⟩
    rw [kind_ofHistory horigin]
    rfl
  · have hlocked : decryptChannelKey (some Keyring.empty) keys
        = .error (.channelKeyDecryption .noRecipient) := by
      have hnone : ∀ e ∈ keys.entries, ¬ Keyring.empty.holds (Identity.ofAddress e.1) = true :=
        fun e _ => Bool.false_ne_true
      rw [decryptChannelKey, KeyHolder.unwrapFirst_not_held hnone]
      rfl
    have hfirst := parse_firstEncrypted_error (t := Ledger.signedSealed.transaction)
      Ledger.firstEncrypted_sealedRequest hkeys hlocked
    have hsecond : Opens (some Keyring.empty) Ledger.sealedRequest.payload.fingerprint
        Log.signedObject.transaction _ _ := opens_clear rfl hsigner'
    rw [ofHistory, twiceOpened, resume_cons, step_parse_error hfirst, resume_cons,
      step_opens hsecond]
    rfl

end Replay

end ChannelLog
