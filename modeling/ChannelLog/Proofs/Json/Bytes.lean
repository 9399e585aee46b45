import ChannelLog.Json.Fingerprint
import ChannelLog.Proofs.Bytes.Hex
import ChannelLog.Proofs.Crypto.Keccak
import Mathlib.Data.List.Basic

/-!
# Written values, byte by byte

Hashes are taken of bytes. Escaping only looks at characters of one byte, so that the bytes of a
written value follow from the bytes of its strings.

* `utf8_text`: **a value is written byte by byte** (`writeBytes`).
* `digest_eq`: so that its hash can be computed on numbers, without a text in between.
-/

namespace ChannelLog.Json

/-! ## Characters -/

/-- One byte of a string. -/
def escapeByte (b : UInt8) : Bytes :=
  if b < 0x20 ∨ b = 0x22 ∨ b = 0x5c then
    (escape (Char.ofNat b.toNat)).flatMap String.utf8EncodeChar
  else [b]

theorem escapeByte_wide {b : UInt8} (h : 0x80 ≤ b.toNat) : escapeByte b = [b] := by
  refine if_neg fun hlow => ?_
  simp only [UInt8.lt_iff_toNat_lt, ← UInt8.toNat_inj, UInt8.reduceToNat] at hlow
  omega

theorem utf8_escape_ascii : ∀ n < 0x80,
    (escape (Char.ofNat n)).flatMap String.utf8EncodeChar
      = (String.utf8EncodeChar (Char.ofNat n)).flatMap escapeByte := by
  decide +kernel

theorem utf8_escape_wide {c : Char} (h : 0x80 ≤ c.toNat) :
    (escape c).flatMap String.utf8EncodeChar
      = (String.utf8EncodeChar c).flatMap escapeByte := by
  have hplain : escape c = [c] := by
    unfold escape
    split
    case h_8 => exact if_neg (by omega)
    all_goals exact absurd h (by decide)
  have hbytes : ∀ b ∈ String.utf8EncodeChar c, escapeByte b = [b] := fun b hb =>
    escapeByte_wide (Bytes.le_of_mem_wide h b hb)
  rw [hplain, List.flatMap_singleton, List.flatMap_congr hbytes, List.flatMap_singleton']

/-- **A character is escaped byte by byte.** -/
theorem utf8_escape (c : Char) : (escape c).flatMap String.utf8EncodeChar
    = (String.utf8EncodeChar c).flatMap escapeByte := by
  by_cases h : 0x80 ≤ c.toNat
  · exact utf8_escape_wide h
  · have hascii := utf8_escape_ascii c.toNat (by omega)
    rwa [Char.ofNat_toNat] at hascii

/-! ## Values -/

def stringBytes (s : String) : Bytes := 0x22 :: (Bytes.utf8 s).flatMap escapeByte ++ [0x22]

mutual

def writeBytes : Json → Bytes
  | null => [0x6e, 0x75, 0x6c, 0x6c]
  | bool true => [0x74, 0x72, 0x75, 0x65]
  | bool false => [0x66, 0x61, 0x6c, 0x73, 0x65]
  | number n => n.text.flatMap String.utf8EncodeChar
  | string s => stringBytes s
  | array [] => [0x5b, 0x5d]
  | array (v :: items) => 0x5b :: writeBytes v ++ itemsBytes items ++ [0x5d]
  | object [] => [0x7b, 0x7d]
  | object ((key, v) :: members) =>
    0x7b :: stringBytes key ++ 0x3a :: writeBytes v ++ membersBytes members ++ [0x7d]

def itemsBytes : List Json → Bytes
  | [] => []
  | v :: items => 0x2c :: writeBytes v ++ itemsBytes items

def membersBytes : List (String × Json) → Bytes
  | [] => []
  | (key, v) :: members =>
    0x2c :: stringBytes key ++ 0x3a :: writeBytes v ++ membersBytes members

end

theorem utf8_writeString (s : String) :
    (writeString s).flatMap String.utf8EncodeChar = stringBytes s := by
  rw [writeString, stringBytes, Bytes.utf8_eq, List.flatMap_append, List.flatMap_cons, List.flatMap_assoc,
    List.flatMap_assoc]
  simp only [utf8_escape]
  rfl

mutual

theorem utf8_write : ∀ v : Json, (write v).flatMap String.utf8EncodeChar = writeBytes v
  | null | bool true | bool false | array [] | object [] => rfl
  | number _ => rfl
  | string s => utf8_writeString s
  | array (v :: items) => by
    simp only [write, writeBytes, List.flatMap_append, List.flatMap_cons, List.flatMap_nil,
      utf8_write v, utf8_writeItems items]
    rfl
  | object ((key, v) :: members) => by
    simp only [write, writeBytes, List.flatMap_append, List.flatMap_cons, List.flatMap_nil,
      utf8_writeString, utf8_write v, utf8_writeMembers members]
    rfl

theorem utf8_writeItems :
    ∀ items, (writeItems items).flatMap String.utf8EncodeChar = itemsBytes items
  | [] => rfl
  | v :: items => by
    simp only [writeItems, itemsBytes, List.flatMap_append, List.flatMap_cons, utf8_write v,
      utf8_writeItems items]
    rfl

theorem utf8_writeMembers :
    ∀ members, (writeMembers members).flatMap String.utf8EncodeChar = membersBytes members
  | [] => rfl
  | (key, v) :: members => by
    simp only [writeMembers, membersBytes, List.flatMap_append, List.flatMap_cons,
      utf8_writeString, utf8_write v, utf8_writeMembers members]
    rfl

end

/-- **A value is written byte by byte.** -/
theorem utf8_text (v : Json) : Bytes.utf8 v.text = v.writeBytes := by
  rw [text, Bytes.utf8_ofList, utf8_write]

theorem digest_eq (v : Json) : v.digest = Keccak.hashNumbers v.canonical.writeBytes := by
  rw [digest, canonicalText, utf8_text, Keccak.hash_eq]

end ChannelLog.Json
