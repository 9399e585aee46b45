import ChannelLog.Proofs.Crypto.RecoverableSignature
import ChannelLog.Proofs.Json.Bytes
import ChannelLog.Transaction
import Mathlib.Data.List.Basic

/-!
# Signed transactions

* `Transaction.signs_iff`: a key signs a content if it makes a transaction of it that leads to a
  signer.
* `Transaction.create_eq`: **signing, with hashes computed on numbers and byte by byte**, which is how
  the signatures of examples are found.
* `SignedContent`: a content that is signed, for examples.
-/

namespace ChannelLog

/-- The key makes a signature of the hash, and the signature leads to a signer. -/
def PrivateKey.Signs (key : PrivateKey) (hash : Bytes) : Prop :=
  ∃ sig, RecoverableSignature.sign key hash = .ok sig ∧
    ∃ address, sig.recoverAddress hash = .ok address

namespace Transaction

/-- **A key signs a content if it makes a transaction of it that leads to a signer.** -/
theorem signs_iff {content : Content} {signer : SignatureParameters} {key : PrivateKey}
    (hkey : PrivateKey.ofHex signer.privateKey = .ok key) :
    key.Signs content.signingHash ↔
      ∃ t address, create content signer = .ok t ∧ t.signer = .ok address := by
  simp only [create, hkey, PrivateKey.Signs]
  cases RecoverableSignature.sign key content.signingHash with
  | error cause => simp [ofSignature]
  | ok sig =>
    have hsigner : Transaction.signer ⟨content, signer.method, sig.toHex⟩
        = sig.recoverAddress content.signingHash := by
      rw [Transaction.signer, RecoverableSignature.ofHex_toHex]
      rfl
    constructor
    · rintro ⟨_, hsig, address, haddress⟩
      obtain rfl := Except.ok.inj hsig
      exact ⟨_, address, rfl, hsigner.trans haddress⟩
    · rintro ⟨_, address, ht, haddress⟩
      obtain rfl := Except.ok.inj ht
      exact ⟨sig, rfl, address, hsigner.symm.trans haddress⟩

theorem exists_signer_of_isSome {t : Transaction} (h : t.signer.toOption.isSome) :
    ∃ address, t.signer = .ok address := by
  cases hs : t.signer with
  | error cause => simp [hs, Except.toOption] at h
  | ok address => exact ⟨address, rfl⟩

theorem create_invalid {content : Content} {signer : SignatureParameters} {cause : CryptoError}
    (h : PrivateKey.ofHex signer.privateKey = .error cause) :
    create content signer = .error .invalidPrivateKey := by
  rw [create, h]

/-- Signs a content that is written as `bytes`, with hashes computed on numbers. -/
def createNumbers (bytes : Bytes) (content : Content) (signer : SignatureParameters) :
    Except SigningError Transaction :=
  match PrivateKey.ofHex signer.privateKey with
  | .error _ => .error .invalidPrivateKey
  | .ok key =>
    let hash := Keccak.hashNumbers bytes
    ofSignature content signer.method <| RecoverableSignature.ofSigned <|
      EcdsaSignature.ofMultiplier? key hash (EcdsaSignature.multiplierNumbers? key hash)

theorem create_eq (content : Content) (signer : SignatureParameters) :
    create content signer = createNumbers content.toJson.canonical.writeBytes content signer := by
  have hhash : content.signingHash = Keccak.hashNumbers content.toJson.canonical.writeBytes :=
    Json.digest_eq _
  rw [create, createNumbers]
  cases PrivateKey.ofHex signer.privateKey with
  | error cause => rfl
  | ok key => simp only [hhash, RecoverableSignature.sign_eq]

end Transaction

/-! ## Examples -/

def Log.exampleSigner : SignatureParameters :=
  ⟨.ecdsa, "0xac0974bec39a17e36ba4a6b4d238ff944bacb478cbed5efcae784d7bf4f2ff80"⟩

/-- A content signed with the key of the examples, and the hash of the transaction. -/
structure SignedContent (content : Content) where
  transaction : Transaction
  hash : String
  signed : Transaction.create content Log.exampleSigner = .ok transaction ∧
    transaction.contentHash = hash ∧ transaction.signer.toOption.isSome

namespace SignedContent

variable {content : Content} (s : SignedContent content)

theorem created : Transaction.create content Log.exampleSigner = .ok s.transaction := s.signed.1

theorem contentHash : s.transaction.contentHash = s.hash := s.signed.2.1

theorem exists_signer : ∃ address, s.transaction.signer = .ok address :=
  Transaction.exists_signer_of_isSome s.signed.2.2

end SignedContent

def signedNull : SignedContent (.clear .null) where
  transaction := ⟨.clear .null, .ecdsa,
    "0x7eada3fd1adcda0cc64c5fc6dba4440ddd357712c09d96c4471371b7da148773"
      ++ "757aeeb8ad281d831d5a49ac8c01df9f9e6c649ec609c588240ede484fd56e791b"⟩
  hash := "0x633241993c0bba1fca8a4427b9dfe6e14000d0161464f19e2beadb8a8bd803cd"
  signed := by
    rw [Transaction.create_eq, Transaction.contentHash, Json.fingerprint, Transaction.signer,
      Content.signingHash, Json.digest_eq, Json.digest_eq]
    decide +kernel

def signedBool : (b : Bool) → SignedContent (.clear (.bool b))
  | false => {
    transaction := ⟨.clear (.bool false), .ecdsa,
      "0xd1e58267ef01c6630accdd55b5c5120890450c7dbe821615c912ab569894719d"
        ++ "1c5f42193641f88d4c476a692c0f522b80359328e016dbdcca91939fa981022e1b"⟩
    hash := "0xe12e23f5221010ad7ba6be4ff3a0a89095f183d2e6194a7d4a5fed707778ed81"
    signed := by
      rw [Transaction.create_eq, Transaction.contentHash, Json.fingerprint, Transaction.signer,
        Content.signingHash, Json.digest_eq, Json.digest_eq]
      decide +kernel }
  | true => {
    transaction := ⟨.clear (.bool true), .ecdsa,
      "0xd1ba467594da68b1f651764deb4a815c07f03e04c4414e10752f0820398caf78"
        ++ "4c7719b802ef7a9c652a085df0c56162158f4a74fbd42f02803e6a59669b441c1b"⟩
    hash := "0xd154ff90866c4f64e5334f9041c444bbd7c7e13f8b9c78457a5560cd1ef3e83d"
    signed := by
      rw [Transaction.create_eq, Transaction.contentHash, Json.fingerprint, Transaction.signer,
        Content.signingHash, Json.digest_eq, Json.digest_eq]
      decide +kernel }

end ChannelLog
