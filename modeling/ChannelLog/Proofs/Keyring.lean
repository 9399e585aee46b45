import ChannelLog.Keyring
import ChannelLog.Proofs.Bytes.Hex

/-!
# Keyrings hold each key under its own address

* `PublicKey.lowerCase_address`: addresses are written in small letters.
* `Keyring.Valid`: every key is held under its own address. It holds of every keyring that is put
  together and taken apart key by key (`Valid.add`, `Valid.remove`, `valid_ofKeys`).
* `Keyring.Valid.key?_eq_some_iff`: **the key found for an address is one held that has the
  address.**
-/

namespace ChannelLog

theorem PublicKey.lowerCase_address (k : PublicKey) : Text.lowerCase k.address = k.address :=
  Hex.lowerCase_encodeMarked _

theorem PublicKey.key_ofAddress (k : PublicKey) : (Identity.ofAddress k.address).key = k.address := by
  simp only [Identity.ofAddress, Identity.key, lowerCase_address]

/-- A reader without a keyring. -/
def nobody : Option Keyring := none

namespace Keyring

variable {k k' : Keyring} {secret : PrivateKey} {identity : Identity}

/-- The keyring holds a private key. -/
def Has (k : Keyring) (secret : PrivateKey) : Prop := ∃ address, k.keys.get? address = some secret

/-- Every key is held under its own address. -/
def Valid (k : Keyring) : Prop :=
  ∀ address secret, k.keys.get? address = some secret → address = secret.address

/-! ## Changes -/

theorem valid_empty : empty.Valid := fun _ _ h => nomatch h

theorem Valid.add (h : k.Valid) {text : String} (hadd : k.add text = .ok (identity, k')) :
    k'.Valid := by
  unfold Keyring.add at hadd
  split at hadd
  · exact nomatch hadd
  · next key _ =>
    obtain ⟨rfl, rfl⟩ := Prod.mk.inj (Except.ok.inj hadd)
    have hvalue : (Identity.ofAddress key.address).value = key.address :=
      key.publicKey.lowerCase_address
    intro address secret hget
    rw [hvalue, Dict.get?_insert] at hget
    split at hget
    · next heq =>
      obtain rfl := Option.some.inj hget
      exact heq
    · exact h address secret hget

theorem Valid.remove (h : k.Valid) (identity : Identity) : (k.remove identity).Valid := by
  intro address secret hget
  rw [Keyring.remove, Dict.get?_erase] at hget
  split at hget
  · exact nomatch hget
  · exact h address secret hget

/-- **A keyring put together from private keys holds each under its own address.** -/
theorem valid_ofKeys {privateKeys : List String} (h : ofKeys privateKeys = .ok k) : k.Valid := by
  suffices hs : ∀ (k₀ : Keyring), k₀.Valid →
      privateKeys.foldlM (fun k key => (k.add key).map Prod.snd) k₀ = .ok k → k.Valid from
    hs empty valid_empty h
  clear h
  induction privateKeys with
  | nil =>
    intro k₀ h₀ hk
    obtain rfl := Except.ok.inj hk
    exact h₀
  | cons text rest ih =>
    intro k₀ h₀ hk
    rw [List.foldlM_cons] at hk
    cases hadd : k₀.add text with
    | error cause => simp [hadd, Except.map, bind, Except.bind] at hk
    | ok r =>
      obtain ⟨identity, k₁⟩ := r
      simp only [hadd, Except.map, bind, Except.bind] at hk
      exact ih k₁ (h₀.add hadd) hk

/-! ## Look-ups -/

theorem Valid.get?_address (h : k.Valid) (hhas : k.Has secret) :
    k.keys.get? secret.address = some secret := by
  obtain ⟨address, hget⟩ := hhas
  rwa [← h address secret hget]

theorem Valid.key?_eq_some_iff (h : k.Valid) {publicKey : PublicKey} :
    k.key? (Identity.ofAddress publicKey.address) = some secret ↔
      k.Has secret ∧ secret.address = publicKey.address := by
  rw [key?, publicKey.key_ofAddress]
  constructor
  · intro hget
    exact ⟨⟨_, hget⟩, (h _ secret hget).symm⟩
  · rintro ⟨hhas, haddress⟩
    rw [← haddress]
    exact h.get?_address hhas

theorem Valid.holds_iff (h : k.Valid) {publicKey : PublicKey} :
    k.holds (Identity.ofAddress publicKey.address) = true ↔
      ∃ secret, k.Has secret ∧ secret.address = publicKey.address := by
  rw [holds, Option.isSome_iff_exists]
  exact exists_congr fun secret => h.key?_eq_some_iff

end Keyring

end ChannelLog
