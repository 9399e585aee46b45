import ChannelLog.Proofs.Transaction

/-!
# A signed transaction leads to its signer

Signing and recovering meet in a text only: the hash of the content is signed, the signature is
written in hexadecimal digits behind a mark, and whoever looks for the signer reads it again.

* `RecoverableSignature.ofHex_of_spells`: every text that writes the bytes of a signature is read as
  that signature.
* `PrivateKey.SignsRecoverably`: what is taken for granted of the curve, for a key and a hash.
* `Transaction.leads_to_signer`: **a transaction that was created leads to the address of its key**,
  however key and signature are spelled.
-/

namespace ChannelLog

/-! ## Signatures as texts -/

/-- **Every text that writes the bytes of a signature is read as that signature.** -/
theorem RecoverableSignature.ofHex_of_spells {text : String} {sig : RecoverableSignature}
    (h : Hex.Spells text sig.toBytes) : ofHex text = .ok sig := by
  simp only [ofHex, Hex.decodeMarked_eq_ok_iff.2 h, ofBytes?_toBytes]

/-! ## Keys as texts -/

theorem PrivateKey.ofHex_of_spells {text : String} {bs : Bytes} (h : Hex.Spells text bs) :
    ofHex text = ofBytes bs := by
  simp only [ofHex, Hex.decodeMarked_eq_ok_iff.2 h]

theorem PrivateKey.exists_spells {text : String} {key : PrivateKey} (h : ofHex text = .ok key) :
    ∃ bs, Hex.Spells text bs := by
  unfold ofHex at h
  split at h
  · exact nomatch h
  · next bs hbs => exact ⟨bs, Hex.decodeMarked_eq_ok_iff.1 hbs⟩

/-! ## Signing and recovering -/

/-- What is taken for granted of the curve: the key signs the hash, with a recovery id that is zero or
one, and from the hash, the signature and that id its public key is recovered. -/
def PrivateKey.SignsRecoverably (key : PrivateKey) (hash : Bytes) : Prop :=
  ∃ sig id, EcdsaSignature.sign? key hash = some (sig, id) ∧ (id.toByte = 0 ∨ id.toByte = 1) ∧
    sig.recover? hash id = some key.publicKey

namespace Transaction

theorem create_of_sign {content : Content} {signer : SignatureParameters} {key : PrivateKey}
    {sig : RecoverableSignature} (hkey : PrivateKey.ofHex signer.privateKey = .ok key)
    (hsign : RecoverableSignature.sign key content.signingHash = .ok sig) :
    create content signer = .ok ⟨content, signer.method, sig.toHex⟩ := by
  rw [create, hkey]
  show ofSignature content signer.method (RecoverableSignature.sign key content.signingHash) = _
  rw [hsign, ofSignature]

theorem signer_of_spells {t : Transaction} {sig : RecoverableSignature} {publicKey : PublicKey}
    (hspells : Hex.Spells t.signature.value sig.toBytes)
    (hrecover : sig.recover t.content.signingHash = .ok publicKey) :
    t.signer = .ok publicKey.address := by
  rw [signer, RecoverableSignature.ofHex_of_spells hspells]
  show sig.recoverAddress t.content.signingHash = _
  rw [RecoverableSignature.recoverAddress, hrecover]
  rfl

/-- **A transaction that was created leads to its signer.** Whatever the content and however the
private key is spelled, the transaction is created, with the content as it was given and a signature
that is written in 130 small digits behind the mark. It is read as the signature that was made, and
leads to the address of the key. So does every other spelling of it: in digits of either case, with
the mark or without, and with or without 27 added to the recovery id. -/
theorem leads_to_signer {content : Content} {signer : SignatureParameters} {key : PrivateKey}
    (hkey : PrivateKey.ofHex signer.privateKey = .ok key)
    (hsigns : key.SignsRecoverably content.signingHash) :
    ∃ (t : Transaction) (sig : RecoverableSignature) (digits : String),
      create content signer = .ok t ∧
      (∃ bs, Hex.Spells signer.privateKey bs ∧ ∀ text, Hex.Spells text bs →
        create content ⟨signer.method, text⟩ = .ok t) ∧
      t.content = content ∧ t.signature = ⟨signer.method, "0x" ++ digits⟩ ∧
      digits.length = 130 ∧
      (∀ c ∈ digits.toList, c.isDigit = true ∨ ('a' ≤ c ∧ c ≤ 'f')) ∧
      RecoverableSignature.sign key content.signingHash = .ok sig ∧ sig.toBytes.length = 65 ∧
      RecoverableSignature.ofHex t.signature.value = .ok sig ∧
      t.signer = .ok key.address ∧
      ∀ text, Hex.Spells text sig.toBytes ∨ Hex.Spells text sig.lowered.toBytes →
        Transaction.signer ⟨content, signer.method, text⟩ = .ok key.address := by
  obtain ⟨numbers, id, hnumbers, hid, hrecover⟩ := hsigns
  obtain ⟨bs, hspells⟩ := PrivateKey.exists_spells hkey
  let sig : RecoverableSignature := .ofEcdsa numbers id
  have hsign : RecoverableSignature.sign key content.signingHash = .ok sig := by
    rw [RecoverableSignature.sign, hnumbers, RecoverableSignature.ofSigned]
  have hraised : sig.recover content.signingHash = .ok key.publicKey :=
    RecoverableSignature.recover_ofEcdsa hid hrecover
  have hlowered : sig.lowered.recover content.signingHash = .ok key.publicKey :=
    RecoverableSignature.recover_lowered hid hrecover
  have hself : Hex.Spells sig.toHex sig.toBytes :=
    Hex.decodeMarked_eq_ok_iff.1 (Hex.decodeMarked_encodeMarked _)
  refine ⟨_, sig, Hex.encode sig.toBytes, create_of_sign hkey hsign,
    ⟨bs, hspells, fun text htext => ?_⟩, rfl, rfl, ?_, ?_, hsign, sig.length_toBytes,
    RecoverableSignature.ofHex_of_spells hself, signer_of_spells hself hraised, ?_⟩
  · have hsame : PrivateKey.ofHex text = .ok key := by
      rw [PrivateKey.ofHex_of_spells htext, ← PrivateKey.ofHex_of_spells hspells, hkey]
    exact create_of_sign hsame hsign
  · rw [← String.length_toList, Hex.encode, String.toList_ofList, Hex.length_flatMap_byteDigits,
      sig.length_toBytes]
  · intro c hc
    rw [Hex.encode, String.toList_ofList] at hc
    obtain ⟨n, hn, rfl⟩ := Hex.exists_digitChar hc
    exact Hex.isHexDigit_digitChar n hn
  · rintro text (h | h)
    · exact signer_of_spells h hraised
    · exact signer_of_spells h hlowered

/-! ## An encrypted content, and a key in capital letters -/

def sealedContent : Content where
  encryptedData := some "00ff"
  encryptionMethod := some "ecies-aes256-gcm"
  keys := some (Dict.ofList [("0xabc", "beef")])
  hash := some "0x1234"

/-- The key of the examples, without a mark. -/
def capitalSigner : SignatureParameters :=
  ⟨.ecdsa, "AC0974BEC39A17E36BA4A6B4D238FF944BACB478CBED5EFCAE784D7BF4F2FF80"⟩

def capitalKey : PrivateKey :=
  ⟨0xac0974bec39a17e36ba4a6b4d238ff944bacb478cbed5efcae784d7bf4f2ff80, by decide, by decide⟩

theorem publicKey_capital : capitalKey.publicKey =
    ⟨0x8318535b54105d4a7aae60c08fc45f9687181b4fdfc625bd1a753fa7397fed75,
      0x3547f11ca8696646f2f3acb08e31016afac23e630c5d11f59f61fef57b0d2aa5⟩ := by
  decide +kernel

def sealedNumbers : EcdsaSignature where
  r := 0xb6ae5a0f487703e6086475384dc9d1e29b3ae1d5260c8b92f5bdfe1f5fde987f
  s := 0x187948ed1ccb40d028d4dc80b6f27581ad15139ffca6a61412fe01afc76796fb
  r_ne_zero := by decide +kernel
  s_ne_zero := by decide +kernel

def sealedId : RecoveryId := ⟨true, false⟩

theorem sign?_sealed : EcdsaSignature.sign? capitalKey sealedContent.signingHash
    = some (sealedNumbers, sealedId) := by
  rw [Content.signingHash, Json.digest_eq, EcdsaSignature.sign?_eq]
  decide +kernel

theorem signsRecoverably_sealed : capitalKey.SignsRecoverably sealedContent.signingHash := by
  refine ⟨sealedNumbers, sealedId, sign?_sealed, .inr rfl, ?_⟩
  rw [publicKey_capital, Content.signingHash, Json.digest_eq]
  decide +kernel

theorem sign_sealed : RecoverableSignature.sign capitalKey sealedContent.signingHash
    = .ok (.ofEcdsa sealedNumbers sealedId) := by
  rw [RecoverableSignature.sign, sign?_sealed, RecoverableSignature.ofSigned]

/-- The signature is found from its bytes in capital digits, and with a recovery id of one. -/
theorem leads_to_signer_sealed : ∃ t,
    PrivateKey.ofHex capitalSigner.privateKey = .ok capitalKey ∧
    create sealedContent capitalSigner = .ok t ∧ t.signer = .ok capitalKey.address ∧
    capitalKey.address = "0xf39fd6e51aad88f6f4ce6ab8827279cfffb92266" ∧
    Transaction.signer ⟨sealedContent, .ecdsa,
      "0x" ++ ("B6AE5A0F487703E6086475384DC9D1E29B3AE1D5260C8B92F5BDFE1F5FDE987F"
        ++ "187948ED1CCB40D028D4DC80B6F27581AD15139FFCA6A61412FE01AFC76796FB1C")⟩
      = .ok capitalKey.address ∧
    Transaction.signer ⟨sealedContent, .ecdsa,
      "b6ae5a0f487703e6086475384dc9d1e29b3ae1d5260c8b92f5bdfe1f5fde987f"
        ++ "187948ed1ccb40d028d4dc80b6f27581ad15139ffca6a61412fe01afc76796fb01"⟩
      = .ok capitalKey.address := by
  have hkey : PrivateKey.ofHex capitalSigner.privateKey = .ok capitalKey := by decide +kernel
  obtain ⟨t, sig, -, hcreate, -, -, -, -, -, hsign, -, -, hsigner, hspelled⟩ :=
    leads_to_signer hkey signsRecoverably_sealed
  obtain rfl := Except.ok.inj (hsign.symm.trans sign_sealed)
  refine ⟨t, hkey, hcreate, hsigner, by decide +kernel, hspelled _ (.inl ?_), hspelled _ (.inr ?_)⟩
  · exact ⟨_, .inr rfl, by decide +kernel⟩
  · exact ⟨_, .inl rfl, by decide +kernel⟩

end Transaction

end ChannelLog
