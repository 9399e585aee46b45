import ChannelLog.Proofs.Ledger.Secrecy
import ChannelLog.Proofs.Text.SmallLetters

/-!
# The first recipient held decides alone

Of the wrapped keys that a transaction brings, only the one is looked at whose address comes first
among those held. What stands in the others cannot keep a recipient out, nor can recipients that are
entered or left out.

* `Keyring.HoldsAddress`, `Keyring.FirstHeld`: an address is held, and its entry is the first such.
* `Ascending.find?_eq_some_iff`, `Keyring.find?_held_iff`: the entry that is looked at is the first
  one held.
* `Keyring.decryptChannelKey_noRecipient_iff`, `Keyring.eq_noRecipient_of_message`: the want of a
  recipient is told exactly if none is held, also for who only sees the message.
* `Keyring.Alike`: two dictionaries differ in entries only that do not matter; `Alike.firstHeld`: they
  have the same first entry held.
* `parse_congr`: parsing looks at the wrapped keys through the key that comes out of them.
* `Keyring.firstHeld_decides`: **the first entry held is unwrapped, whatever comes of it**, and
  transactions that differ in other entries are parsed alike.
-/

namespace ChannelLog

/-! ## The first entry -/

theorem Ascending.find?_eq_some_iff {α : Type} {entries : List (String × α)} (h : Ascending entries)
    {p : String × α → Bool} {e : String × α} :
    entries.find? p = some e ↔ e ∈ entries ∧ p e = true ∧
      ∀ e' ∈ entries, p e' = true → e.1 ≤ e'.1 := by
  induction entries with
  | nil => simp
  | cons x rest ih =>
    obtain ⟨hlt, hrest⟩ := List.pairwise_cons.1 h
    rw [List.find?_cons]
    cases hx : p x with
    | true =>
      constructor
      · intro he
        obtain rfl := Option.some.inj he
        refine ⟨List.mem_cons_self, hx, fun e' he' _ => ?_⟩
        rcases List.mem_cons.1 he' with rfl | he'
        · exact String.le_refl _
        · exact Std.le_of_lt (hlt e' he')
      · rintro ⟨he, -, hleast⟩
        rcases List.mem_cons.1 he with rfl | he
        · rfl
        · exact absurd (hlt e he) (String.not_lt.2 (hleast x List.mem_cons_self hx))
    | false =>
      show rest.find? p = some e ↔ _
      rw [ih hrest]
      constructor
      · rintro ⟨he, hp, hleast⟩
        refine ⟨List.mem_cons_of_mem x he, hp, fun e' he' hp' => ?_⟩
        rcases List.mem_cons.1 he' with rfl | he'
        · exact absurd hp' (Bool.eq_false_iff.1 hx)
        · exact hleast e' he' hp'
      · rintro ⟨he, hp, hleast⟩
        rcases List.mem_cons.1 he with rfl | he
        · exact absurd hp (Bool.eq_false_iff.1 hx)
        · exact ⟨he, hp, fun e' he' => hleast e' (List.mem_cons_of_mem x he')⟩

namespace Keyring

variable {keyring : Keyring} {keys others : Dict String} {address wrapped : String}

/-- A key is held under the small form of the address. -/
def HoldsAddress (keyring : Keyring) (address : String) : Prop :=
  (keyring.keys.get? (Text.lowerCase address)).isSome = true

theorem holds_ofAddress_iff :
    keyring.holds (Identity.ofAddress address) = true ↔ keyring.HoldsAddress address := by
  rw [holds, key?, Identity.key, Identity.ofAddress, Text.lowerCase_lowerCase]
  rfl

/-- The entry of the address comes first among those whose address is held. -/
structure FirstHeld (keyring : Keyring) (keys : Dict String) (address wrapped : String) : Prop where
  entry : keys.get? address = some wrapped
  held : keyring.HoldsAddress address
  least : ∀ other ∈ keys.keys, keyring.HoldsAddress other → address ≤ other

/-- **The entry that is looked at is the first one held.** -/
theorem find?_held_iff :
    keys.entries.find? (fun e => keyring.holds (Identity.ofAddress e.1)) = some (address, wrapped)
      ↔ keyring.FirstHeld keys address wrapped := by
  rw [keys.ascending.find?_eq_some_iff, ← Dict.get?_eq_some_iff, holds_ofAddress_iff]
  constructor
  · rintro ⟨hentry, hheld, hleast⟩
    refine ⟨hentry, hheld, fun other hother hholds => ?_⟩
    obtain ⟨e, he, rfl⟩ := List.mem_map.1 hother
    exact hleast e he (holds_ofAddress_iff.2 hholds)
  · rintro ⟨hentry, hheld, hleast⟩
    exact ⟨hentry, hheld, fun e he hholds =>
      hleast e.1 (List.mem_map_of_mem he) (holds_ofAddress_iff.1 hholds)⟩

theorem exists_firstHeld (keyring : Keyring) (keys : Dict String) :
    (∀ address ∈ keys.keys, ¬ keyring.HoldsAddress address) ∨
      ∃ address wrapped, keyring.FirstHeld keys address wrapped := by
  cases hfind : keys.entries.find? fun e => keyring.holds (Identity.ofAddress e.1) with
  | some e => exact .inr ⟨e.1, e.2, find?_held_iff.1 hfind⟩
  | none =>
    refine .inl fun address haddress hholds => ?_
    obtain ⟨e, he, rfl⟩ := List.mem_map.1 haddress
    exact List.find?_eq_none.1 hfind e he (holds_ofAddress_iff.2 hholds)

theorem FirstHeld.decryptChannelKey_eq (h : keyring.FirstHeld keys address wrapped) :
    decryptChannelKey (some keyring) keys
      = (KeyHolder.unwrap keyring (Identity.ofAddress address) wrapped).mapError
        .channelKeyDecryption := by
  simp only [decryptChannelKey, KeyHolder.unwrapFirst_eq, keyHolder_holds, find?_held_iff.2 h]

theorem decryptChannelKey_of_none_held (h : ∀ address ∈ keys.keys, ¬ keyring.HoldsAddress address) :
    decryptChannelKey (some keyring) keys = .error (.channelKeyDecryption .noRecipient) := by
  rw [decryptChannelKey, KeyHolder.unwrapFirst_not_held fun e he hholds =>
    h e.1 (List.mem_map_of_mem he) (holds_ofAddress_iff.1 hholds)]
  rfl

theorem unwrap_ne_noRecipient {identity : Identity} :
    KeyHolder.unwrap keyring identity wrapped ≠ .error .noRecipient := by
  unfold KeyHolder.unwrap
  cases Hex.decode (Hex.dropMarks wrapped) with
  | error cause => exact nofun
  | ok envelope =>
    show (keyring.decrypt identity envelope).mapError UnwrapError.decryption >>= _ ≠ _
    cases keyring.decrypt identity envelope with
    | error cause => exact nofun
    | ok bytes =>
      show (SymmetricKey.ofBytes bytes).mapError UnwrapError.keyLength ≠ _
      cases SymmetricKey.ofBytes bytes <;> exact nofun

theorem decryptChannelKey_noRecipient_iff :
    decryptChannelKey (some keyring) keys = .error (.channelKeyDecryption .noRecipient) ↔
      ∀ address ∈ keys.keys, ¬ keyring.HoldsAddress address := by
  refine ⟨fun h => ?_, decryptChannelKey_of_none_held⟩
  rcases exists_firstHeld keyring keys with hnone | ⟨address, wrapped, hfirst⟩
  · exact hnone
  · rw [hfirst.decryptChannelKey_eq] at h
    cases hunwrap : KeyHolder.unwrap keyring (Identity.ofAddress address) wrapped with
    | ok key =>
      rw [hunwrap] at h
      cases h
    | error cause =>
      rw [hunwrap] at h
      obtain rfl := ParseError.channelKeyDecryption.inj (Except.error.inj h)
      exact absurd hunwrap unwrap_ne_noRecipient

end Keyring

/-! ## Messages -/

/-- The text begins with a capital letter. -/
def Capitalized (s : String) : Prop := ∃ c, s.toList.head? = some c ∧ c.isUpper = true

theorem Capitalized.append {s : String} (h : Capitalized s) (t : String) : Capitalized (s ++ t) := by
  obtain ⟨c, hhead, hupper⟩ := h
  refine ⟨c, ?_, hupper⟩
  rw [String.toList_append, List.head?_append, hhead]
  rfl

theorem Hex.HexError.capitalized_message (cause : HexError) : Capitalized cause.message := by
  cases cause with
  | oddLength => exact ⟨'O', rfl, rfl⟩
  | badDigit byte position => exact .append (.append (.append ⟨'I', rfl, rfl⟩ _) _) _

theorem CryptoError.capitalized_message (cause : CryptoError) : Capitalized cause.message := by
  cases cause with
  | decryptionFailed => exact ⟨'D', rfl, rfl⟩
  | invalidKeyLength actual => exact .append ⟨'I', rfl, rfl⟩ _
  | ciphertextTooShort least actual => exact .append (.append (.append ⟨'C', rfl, rfl⟩ _) _) _
  | invalidHex cause => exact .append ⟨'I', rfl, rfl⟩ _
  | invalidSignatureFormat => exact ⟨'I', rfl, rfl⟩
  | invalidRecoveryId id => exact .append ⟨'I', rfl, rfl⟩ _
  | recoveryFailed => exact ⟨'P', rfl, rfl⟩
  | invalidPublicKey => exact ⟨'I', rfl, rfl⟩
  | invalidPrivateKey => exact ⟨'I', rfl, rfl⟩
  | signingFailed => exact ⟨'S', rfl, rfl⟩

theorem DecryptionError.capitalized_message (cause : DecryptionError) :
    Capitalized cause.message := by
  cases cause with
  | identityNotRegistered identity => exact .append ⟨'I', rfl, rfl⟩ _
  | invalidPrivateKey => exact ⟨'I', rfl, rfl⟩
  | crypto cause => exact .append ⟨'D', rfl, rfl⟩ _

theorem UnwrapError.eq_noRecipient {cause : UnwrapError}
    (h : cause.message = noRecipient.message) : cause = noRecipient := by
  have hsmall : ¬ Capitalized cause.message := by
    rintro ⟨c, hhead, hupper⟩
    rw [h] at hhead
    obtain rfl : 'n' = c := Option.some.inj hhead
    exact nomatch hupper
  cases cause with
  | hex cause => exact absurd cause.capitalized_message hsmall
  | decryption cause => exact absurd cause.capitalized_message hsmall
  | keyLength cause => exact absurd cause.capitalized_message hsmall
  | noRecipient => rfl

theorem Keyring.eq_noRecipient_of_message {keyring : Keyring} {keys : Dict String}
    {cause : ParseError} (h : decryptChannelKey (some keyring) keys = .error cause)
    (hmessage : cause.message = (ParseError.channelKeyDecryption .noRecipient).message) :
    cause = .channelKeyDecryption .noRecipient := by
  rw [decryptChannelKey] at h
  cases hunwrap : KeyHolder.unwrapFirst keyring keys.entries with
  | ok key =>
    rw [hunwrap] at h
    cases h
  | error reason =>
    rw [hunwrap] at h
    obtain rfl := Except.error.inj h
    have hreason := (String.append_right_inj _).1 ((String.append_left_inj _).1 hmessage)
    rw [UnwrapError.eq_noRecipient hreason]

namespace Keyring

variable {keyring : Keyring} {keys others : Dict String} {address wrapped : String}

/-! ## Entries that do not matter -/

/-- The dictionaries differ at most in entries whose address is not held, and in entries that come
after one of `keys` that is. -/
def Alike (keyring : Keyring) (keys others : Dict String) : Prop :=
  ∀ address, keys.get? address = others.get? address ∨ ¬ keyring.HoldsAddress address ∨
    ∃ first ∈ keys.keys, keyring.HoldsAddress first ∧ first < address

theorem Alike.firstHeld (h : keyring.Alike keys others)
    (hfirst : keyring.FirstHeld keys address wrapped) :
    keyring.FirstHeld others address wrapped where
  entry := by
    rcases h address with heq | hnot | ⟨first, hmem, hheld, hlt⟩
    · rw [← heq, hfirst.entry]
    · exact absurd hfirst.held hnot
    · exact absurd hlt (String.not_lt.2 (hfirst.least first hmem hheld))
  held := hfirst.held
  least other hother hheld := by
    rcases h other with heq | hnot | ⟨first, hmem, hheld', hlt⟩
    · refine hfirst.least other ?_ hheld
      rwa [Dict.mem_keys_iff, heq, ← Dict.mem_keys_iff]
    · exact absurd hheld hnot
    · exact String.le_trans (hfirst.least first hmem hheld') (Std.le_of_lt hlt)

theorem Alike.decryptChannelKey_eq (h : keyring.Alike keys others) :
    decryptChannelKey (some keyring) others = decryptChannelKey (some keyring) keys := by
  rcases exists_firstHeld keyring keys with hnone | ⟨address, wrapped, hfirst⟩
  · have hnone' : ∀ address ∈ others.keys, ¬ keyring.HoldsAddress address := by
      intro address haddress hheld
      rcases h address with heq | hnot | ⟨first, hmem, hheld', -⟩
      · rw [Dict.mem_keys_iff, ← heq, ← Dict.mem_keys_iff] at haddress
        exact hnone address haddress hheld
      · exact hnot hheld
      · exact hnone first hmem hheld'
    rw [decryptChannelKey_of_none_held hnone, decryptChannelKey_of_none_held hnone']
  · rw [hfirst.decryptChannelKey_eq, (h.firstHeld hfirst).decryptChannelKey_eq]

end Keyring

/-! ## Parsing -/

section Parsing

variable {κ : Type} [KeyHolder κ] {holder : Option κ} {t u : Transaction}
  {keys others : Dict String}

theorem bringEncryption_congr (hkeys : t.content.keys = some keys)
    (hu : u.content = { t.content with keys := some others })
    (h : decryptChannelKey holder others = decryptChannelKey holder keys) :
    bringEncryption holder u.content = bringEncryption holder t.content := by
  simp only [bringEncryption, hu, hkeys]
  cases t.content.encryptionMethod with
  | none => rfl
  | some method => simp only [h]

theorem parseEncrypted_congr (hkeys : t.content.keys = some keys)
    (hu : u.content = { t.content with keys := some others })
    (h : decryptChannelKey holder others = decryptChannelKey holder keys)
    (key : Option ChannelKey) (encryptedData declaredHash : String) :
    parseEncrypted holder key u encryptedData declaredHash
      = (parseEncrypted holder key t encryptedData declaredHash).map
        fun p => { p with transaction := u } := by
  cases key with
  | some key =>
    have hgiven : t.content.keys.isSome = true ∧ u.content.keys.isSome = true := by simp [hkeys, hu]
    simp only [parseEncrypted, hgiven, Bool.true_or, if_true]
    rfl
  | none =>
    simp only [parseEncrypted, bringEncryption_congr hkeys hu h]
    cases bringEncryption holder t.content with
    | error cause => rfl
    | ok encryption =>
      show (openSealed encryption.key encryptedData >>= _)
        = (openSealed encryption.key encryptedData >>= _).map _
      cases openSealed encryption.key encryptedData <;> rfl

/-- **Parsing looks at the wrapped keys through the key that comes out of them.** -/
theorem parse_congr (hkeys : t.content.keys = some keys)
    (hu : u.content = { t.content with keys := some others })
    (h : decryptChannelKey holder others = decryptChannelKey holder keys) (type : ChannelType)
    (key : Option ChannelKey) :
    parse holder type key u
      = (parse holder type key t).map fun p => { p with transaction := u } := by
  have hdata : u.content.data = t.content.data := by rw [hu]
  have hsealed : u.content.encryptedData = t.content.encryptedData := by rw [hu]
  have hhash : u.content.hash = t.content.hash := by rw [hu]
  have hgiven : t.content.keys.isSome = true ∧ u.content.keys.isSome = true := by simp [hkeys, hu]
  simp only [parse, hdata, hsealed, hhash, hgiven, Bool.or_true, Bool.true_or, if_true]
  cases t.content.data with
  | some data => cases type <;> rfl
  | none =>
    cases t.content.encryptedData with
    | none => rfl
    | some encryptedData =>
      cases t.content.hash with
      | none => cases type <;> rfl
      | some declaredHash =>
        simp only [parseEncrypted_congr hkeys hu h]
        cases type <;> rfl

end Parsing

/-- **The first recipient held decides alone.** Whatever keys are held and whatever stands in the
entries, the first entry whose address is held is unwrapped, and what comes of that is what comes of
all; if no address is held that is told, and in no other case. So transactions that differ only in
entries that are not held, or that come after one that is, are parsed alike, but for the transaction
that is carried along. -/
theorem Keyring.firstHeld_decides (keyring : Keyring) :
    (∀ keys : Dict String,
      ((∀ address ∈ keys.keys, ¬ keyring.HoldsAddress address) ∨
        ∃ address wrapped, keyring.FirstHeld keys address wrapped) ∧
      (∀ address wrapped, keyring.FirstHeld keys address wrapped →
        decryptChannelKey (some keyring) keys
          = (KeyHolder.unwrap keyring (Identity.ofAddress address) wrapped).mapError
            .channelKeyDecryption) ∧
      (decryptChannelKey (some keyring) keys = .error (.channelKeyDecryption .noRecipient) ↔
        ∀ address ∈ keys.keys, ¬ keyring.HoldsAddress address) ∧
      ∀ cause, decryptChannelKey (some keyring) keys = .error cause →
        cause.message = (ParseError.channelKeyDecryption .noRecipient).message →
        cause = .channelKeyDecryption .noRecipient) ∧
    ∀ keys others : Dict String, keyring.Alike keys others →
      ∀ t u : Transaction, t.content.keys = some keys →
        u.content = { t.content with keys := some others } →
        ∀ type key, parse (some keyring) type key u
          = (parse (some keyring) type key t).map fun p => { p with transaction := u } := by
  refine ⟨fun keys => ⟨exists_firstHeld keyring keys, fun _ _ h => h.decryptChannelKey_eq,
    decryptChannelKey_noRecipient_iff, fun _ => eq_noRecipient_of_message⟩, ?_⟩
  intro keys others halike t u hkeys hu type key
  exact parse_congr hkeys hu halike.decryptChannelKey_eq type key

/-- Whoever writes the address of a recipient in capitals before it does lock the recipient out. -/
example : decryptChannelKey (some Ledger.exampleKeyring) (.ofList [
      ("0x7E5F4552091A69125D5DFCB7B8C2659029395BDF", "no hex"),
      ("0x7e5f4552091a69125d5dfcb7b8c2659029395bdf", "00")])
    = .error (.channelKeyDecryption (.hex (.badDigit 0x6e 0))) := by
  decide +kernel

/-! ## A stranger among the recipients -/

namespace Ledger

theorem not_holdsAddress_stranger : ¬ exampleKeyring.HoldsAddress "0x00" := by
  unfold Keyring.HoldsAddress
  decide +kernel

/-- The dictionary with a stranger before all others, for whom nothing is wrapped. -/
def withStranger (keys : Dict String) : Dict String := keys.insert "0x00" "no hex"

theorem alike_withStranger (keys : Dict String) :
    exampleKeyring.Alike keys (withStranger keys) := by
  intro address
  rw [withStranger, Dict.get?_insert]
  split
  · next heq =>
    rw [heq]
    exact .inr (.inl not_holdsAddress_stranger)
  · exact .inl rfl

/-- The stranger does not keep the recipient from the key, and alone leads to none. -/
theorem firstHeld_decides_withStranger : ∃ keys address wrapped,
    sealedContent.keys = some keys ∧ exampleKeyring.FirstHeld (withStranger keys) address wrapped ∧
    (KeyHolder.unwrap exampleKeyring (Identity.ofAddress address) wrapped).mapError
      ParseError.channelKeyDecryption = .ok exampleDraw.key ∧
    decryptChannelKey (some exampleKeyring) (withStranger ∅)
      = .error (.channelKeyDecryption .noRecipient) ∧
    ∃ u : Transaction,
      u.content = { sealedContent with keys := some (withStranger keys) } ∧
      parse (some exampleKeyring) .unknown none u
        = .ok ⟨u, .encrypted (Bytes.utf8 sealedRequest.payload.canonicalText)
            sealedRequest.payload.fingerprint, some ⟨exampleDraw.key, channelEncryptionMethod⟩⟩ := by
  obtain ⟨hfirst, hparse⟩ := Keyring.firstHeld_decides exampleKeyring
  obtain ⟨keys, hkeys, hkey⟩ := decryptChannelKey_sealedContent
  have halike := alike_withStranger keys
  have hsame := halike.decryptChannelKey_eq
  obtain ⟨hsome, hunwrap, -⟩ := hfirst (withStranger keys)
  obtain ⟨-, -, hnone, -⟩ := hfirst (withStranger ∅)
  rcases hsome with hno | ⟨address, wrapped, hheld⟩
  · rw [Keyring.decryptChannelKey_of_none_held hno, hkey] at hsame
    exact nomatch hsame
  refine ⟨keys, address, wrapped, hkeys, hheld, ?_, ?_,
    { signedSealed.transaction with
      content := { sealedContent with keys := some (withStranger keys) } }, rfl, ?_⟩
  · rw [← hunwrap address wrapped hheld, hsame, hkey]
  · refine hnone.2 fun address haddress => ?_
    obtain rfl := List.mem_singleton.1 haddress
    exact not_holdsAddress_stranger
  · rw [hparse keys (withStranger keys) halike signedSealed.transaction _ hkeys rfl .unknown none,
      parse_firstEncrypted firstEncrypted_sealedRequest hkeys hkey]
    rfl

end Ledger

end ChannelLog
