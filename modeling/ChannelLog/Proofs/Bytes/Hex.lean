import ChannelLog.Bytes.Hex
import ChannelLog.Text.LowerCase

/-!
# Which hexadecimal texts write given bytes

Reading takes digits of either case, and the mark or none. Nothing else is read.

* `Bytes.utf8_asciiLowerCase`: making the letters `A` to `Z` small is a matter of single bytes.
* `Hex.decode_eq_ok_iff`: **a text is read as some bytes exactly if its small form is how they are
  written**; so bytes come back from their digits (`decode_encode`).
* `Hex.Spells`, `Hex.decodeMarked_eq_ok_iff`: the same where a mark is allowed.
* `dropMarks_encode`: digits carry no mark, so that they are the same with all marks dropped.
* `asciiLowerCase_encodeMarked`, `lowerCase_encodeMarked`: written digits are small already.
-/

namespace ChannelLog

/-! ## Letters and bytes -/

namespace Bytes

theorem utf8_ofList (cs : List Char) :
    utf8 (String.ofList cs) = cs.flatMap String.utf8EncodeChar := by
  unfold utf8
  show (String.ofList cs).toByteArray.data.toList = _
  rw [String.toByteArray_ofList, List.utf8Encode]
  simp

theorem utf8_eq (s : String) : utf8 s = s.toList.flatMap String.utf8EncodeChar := by
  rw [← utf8_ofList, String.ofList_toList]

theorem utf8_inj {s t : String} : utf8 s = utf8 t ↔ s = t := by
  refine ⟨fun h => ?_, fun h => h ▸ rfl⟩
  have htext := congrArg text? h
  rw [text?_utf8, text?_utf8] at htext
  exact Option.some.inj htext

/-- The small form of a byte that is a letter from `A` to `Z`. -/
def lower (b : UInt8) : UInt8 := if 0x41 ≤ b ∧ b ≤ 0x5a then b + 32 else b

theorem le_of_mem_wide {c : Char} (h : 0x80 ≤ c.toNat) :
    ∀ b ∈ String.utf8EncodeChar c, 0x80 ≤ b.toNat := by
  have hc : ¬ c.val.toNat ≤ 127 := Nat.not_le.2 h
  rw [String.utf8EncodeChar]
  simp only [if_neg hc]
  split
  · simp only [List.forall_mem_cons, UInt8.toNat_ofNat']
    exact ⟨by omega, by omega, by simp⟩
  · split
    · simp only [List.forall_mem_cons, UInt8.toNat_ofNat']
      exact ⟨by omega, by omega, by omega, by simp⟩
    · simp only [List.forall_mem_cons, UInt8.toNat_ofNat']
      exact ⟨by omega, by omega, by omega, by omega, by simp⟩

theorem lower_wide {c : Char} (h : 0x80 ≤ c.toNat) :
    ∀ b ∈ String.utf8EncodeChar c, lower b = b := by
  intro b hb
  refine if_neg fun hletter => ?_
  have hlast := UInt8.le_iff_toNat_le.1 hletter.2
  have := le_of_mem_wide h b hb
  simp only [UInt8.reduceToNat] at hlast
  omega

theorem toLower_wide {c : Char} (h : 0x80 ≤ c.toNat) : c.toLower = c := by
  refine dif_neg fun hletter => ?_
  have hlast : c.toNat ≤ 90 := UInt32.le_iff_toNat_le.1 hletter.2
  omega

theorem utf8_toLower_ascii : ∀ n < 0x80, String.utf8EncodeChar (Char.ofNat n).toLower
    = (String.utf8EncodeChar (Char.ofNat n)).map lower := by
  decide +kernel

theorem utf8_toLower (c : Char) :
    String.utf8EncodeChar c.toLower = (String.utf8EncodeChar c).map lower := by
  by_cases h : 0x80 ≤ c.toNat
  · rw [toLower_wide h]
    exact (List.map_id _).symm.trans (List.map_congr_left fun b hb => (lower_wide h b hb).symm)
  · have hascii := utf8_toLower_ascii c.toNat (by omega)
    rwa [Char.ofNat_toNat] at hascii

/-- **Letters are made small byte by byte.** -/
theorem utf8_asciiLowerCase (s : String) : utf8 (Text.asciiLowerCase s) = (utf8 s).map lower := by
  rw [Text.asciiLowerCase, utf8_ofList, utf8_eq, List.map_flatMap, List.flatMap_map]
  simp only [utf8_toLower]

end Bytes

theorem Text.smallFrom_eq_self {cs : List Char} (h : ∀ c ∈ cs, c ≠ 'Σ' ∧ smallChar c = [c])
    (before : List Char) : smallFrom before cs = cs := by
  induction cs generalizing before with
  | nil => rfl
  | cons c cs ih =>
    obtain ⟨hsigma, hsmall⟩ := h c List.mem_cons_self
    rw [smallFrom, if_neg hsigma, hsmall, ih fun d hd => h d (List.mem_cons_of_mem c hd)]
    rfl

namespace Hex

/-! ## Written digits -/

theorem utf8EncodeChar_digitChar : ∀ n < 16,
    String.utf8EncodeChar (Nat.digitChar n) = [(Nat.digitChar n).toUInt8] := by
  decide

theorem digitChar_ne_x : ∀ n < 16, Nat.digitChar n ≠ 'x' := by
  decide

theorem isHexDigit_digitChar : ∀ n < 16, (Nat.digitChar n).isDigit = true ∨
    ('a' ≤ Nat.digitChar n ∧ Nat.digitChar n ≤ 'f') := by
  decide

theorem exists_digitChar {bs : Bytes} {c : Char} (h : c ∈ bs.flatMap byteDigits) :
    ∃ n < 16, c = Nat.digitChar n := by
  obtain ⟨b, -, hc⟩ := List.mem_flatMap.1 h
  have hb : b.toNat < 256 := b.toNat_lt
  rcases List.mem_cons.1 hc with rfl | hc
  · exact ⟨_, by omega, rfl⟩
  · exact ⟨_, Nat.mod_lt _ (by decide), List.mem_singleton.1 hc⟩

theorem length_flatMap_byteDigits (bs : Bytes) :
    (bs.flatMap byteDigits).length = 2 * bs.length := by
  induction bs with
  | nil => rfl
  | cons b bs ih =>
    rw [List.flatMap_cons, List.length_append, ih, List.length_cons]
    show 2 + 2 * bs.length = _
    omega

theorem flatMap_byteDigits (b : UInt8) : (byteDigits b).flatMap String.utf8EncodeChar
    = [(Nat.digitChar (b.toNat / 16)).toUInt8, (Nat.digitChar (b.toNat % 16)).toUInt8] := by
  have hb : b.toNat < 256 := b.toNat_lt
  simp only [byteDigits, List.flatMap_cons, List.flatMap_nil,
    utf8EncodeChar_digitChar _ (show b.toNat / 16 < 16 by omega),
    utf8EncodeChar_digitChar _ (Nat.mod_lt b.toNat (show 0 < 16 by decide))]
  rfl

theorem utf8_encode_cons (b : UInt8) (bs : Bytes) : Bytes.utf8 (encode (b :: bs))
    = (Nat.digitChar (b.toNat / 16)).toUInt8 :: (Nat.digitChar (b.toNat % 16)).toUInt8
      :: Bytes.utf8 (encode bs) := by
  rw [encode, encode, Bytes.utf8_ofList, Bytes.utf8_ofList, List.flatMap_cons, List.flatMap_append,
    flatMap_byteDigits]
  rfl

theorem length_utf8_encode (bs : Bytes) : (Bytes.utf8 (encode bs)).length = 2 * bs.length := by
  induction bs with
  | nil => rfl
  | cons b bs ih =>
    rw [utf8_encode_cons, List.length_cons, List.length_cons, ih, List.length_cons]
    omega

theorem toList_encodeMarked (bs : Bytes) :
    (encodeMarked bs).toList = '0' :: 'x' :: bs.flatMap byteDigits := by
  simp [encodeMarked, encode]

/-! ## Small letters -/

theorem toLower_digitChar : ∀ n < 16, (Nat.digitChar n).toLower = Nat.digitChar n := by
  decide

theorem map_toLower_byteDigits (bs : Bytes) :
    (bs.flatMap byteDigits).map Char.toLower = bs.flatMap byteDigits := by
  refine (List.map_congr_left fun c hc => ?_).trans (List.map_id _)
  obtain ⟨n, hn, rfl⟩ := exists_digitChar hc
  exact toLower_digitChar n hn

theorem asciiLowerCase_encode (bs : Bytes) : Text.asciiLowerCase (encode bs) = encode bs := by
  rw [Text.asciiLowerCase, encode, String.toList_ofList, map_toLower_byteDigits]

theorem asciiLowerCase_encodeMarked (bs : Bytes) :
    Text.asciiLowerCase (encodeMarked bs) = encodeMarked bs := by
  rw [Text.asciiLowerCase, toList_encodeMarked, List.map_cons, List.map_cons,
    map_toLower_byteDigits]
  apply String.toList_inj.1
  rw [String.toList_ofList, toList_encodeMarked]
  rfl

theorem smallChar_marked : ('x' ≠ 'Σ' ∧ Text.smallChar 'x' = ['x']) ∧ ∀ n < 16,
    Nat.digitChar n ≠ 'Σ' ∧ Text.smallChar (Nat.digitChar n) = [Nat.digitChar n] := by
  decide +kernel

theorem lowerCase_encodeMarked (bs : Bytes) :
    Text.lowerCase (encodeMarked bs) = encodeMarked bs := by
  have hsmall : ∀ c ∈ (encodeMarked bs).toList, c ≠ 'Σ' ∧ Text.smallChar c = [c] := by
    rw [toList_encodeMarked]
    intro c hc
    rcases List.mem_cons.1 hc with rfl | hc
    · exact smallChar_marked.2 0 (by decide)
    rcases List.mem_cons.1 hc with rfl | hc
    · exact smallChar_marked.1
    obtain ⟨n, hn, rfl⟩ := exists_digitChar hc
    exact smallChar_marked.2 n hn
  rw [Text.lowerCase, Text.smallFrom_eq_self hsmall, String.ofList_toList]

/-! ## Reading digits -/

theorem digit?_eq_ofNat_iff : ∀ n < 256, ∀ m < 16,
    digit? (UInt8.ofNat n) = some (UInt8.ofNat m)
      ↔ Bytes.lower (UInt8.ofNat n) = (Nat.digitChar m).toUInt8 := by
  decide +kernel

theorem digit?_lt : ∀ n < 256, ∀ d ∈ digit? (UInt8.ofNat n), d.toNat < 16 := by
  decide +kernel

/-- **The value of a digit** of either case. -/
theorem digit?_eq_some_iff {b d : UInt8} : digit? b = some d
    ↔ d.toNat < 16 ∧ Bytes.lower b = (Nat.digitChar d.toNat).toUInt8 := by
  have hb : digit? b = digit? (UInt8.ofNat b.toNat) := by rw [UInt8.ofNat_toNat]
  have hvalue (hd : d.toNat < 16) := digit?_eq_ofNat_iff b.toNat b.toNat_lt d.toNat hd
  simp only [UInt8.ofNat_toNat] at hvalue
  constructor
  · intro h
    have hd := digit?_lt b.toNat b.toNat_lt d (hb ▸ h)
    exact ⟨hd, (hvalue hd).1 h⟩
  · rintro ⟨hd, h⟩
    exact (hvalue hd).2 h

theorem decodePairs_cons_cons {position : Nat} {high low : UInt8} {rest bs : Bytes} :
    decodePairs position (high :: low :: rest) = .ok bs ↔ ∃ h l bs', digit? high = some h ∧
      digit? low = some l ∧ decodePairs (position + 2) rest = .ok bs' ∧
      bs = (h * 16 + l) :: bs' := by
  rw [decodePairs, digitAt, digitAt]
  cases digit? high <;> cases digit? low <;> cases decodePairs (position + 2) rest <;>
    simp [bind, Except.bind, pure, Except.pure, eq_comm]

theorem eq_halves_iff {b h l : UInt8} (hh : h.toNat < 16) (hl : l.toNat < 16) :
    b = h * 16 + l ↔ b.toNat / 16 = h.toNat ∧ b.toNat % 16 = l.toNat := by
  rw [← UInt8.toNat_inj]
  simp only [UInt8.toNat_add, UInt8.toNat_mul, UInt8.reduceToNat]
  omega

theorem exists_halves (b : UInt8) : ∃ h l : UInt8, h.toNat < 16 ∧ l.toNat < 16 ∧
    b.toNat / 16 = h.toNat ∧ b.toNat % 16 = l.toNat := by
  have hb : b.toNat < 256 := b.toNat_lt
  refine ⟨UInt8.ofNat (b.toNat / 16), UInt8.ofNat (b.toNat % 16), ?_⟩
  simp only [UInt8.toNat_ofNat']
  omega

/-- **Digits are read as the bytes that their small form writes.** -/
theorem decodePairs_eq_ok_iff {position : Nat} {digits bs : Bytes} :
    decodePairs position digits = .ok bs
      ↔ digits.map Bytes.lower = Bytes.utf8 (encode bs) := by
  induction position, digits using decodePairs.induct generalizing bs with
  | case1 position high low rest ih =>
    rw [decodePairs_cons_cons, List.map_cons, List.map_cons]
    constructor
    · rintro ⟨h, l, bs, hh, hl, hrest, rfl⟩
      obtain ⟨hh, hhigh⟩ := digit?_eq_some_iff.1 hh
      obtain ⟨hl, hlow⟩ := digit?_eq_some_iff.1 hl
      obtain ⟨hdiv, hmod⟩ := (eq_halves_iff hh hl).1 rfl
      rw [utf8_encode_cons, hdiv, hmod, hhigh, hlow, ih.1 hrest]
    · intro h
      cases bs with
      | nil => exact nomatch h
      | cons b bs =>
        obtain ⟨high', low', hh, hl, hdiv, hmod⟩ := exists_halves b
        rw [utf8_encode_cons, hdiv, hmod] at h
        obtain ⟨hhigh, h⟩ := List.cons.inj h
        obtain ⟨hlow, hrest⟩ := List.cons.inj h
        exact ⟨high', low', bs, digit?_eq_some_iff.2 ⟨hh, hhigh⟩, digit?_eq_some_iff.2 ⟨hl, hlow⟩,
          ih.2 hrest, congrArg (· :: bs) ((eq_halves_iff hh hl).2 ⟨hdiv, hmod⟩)⟩
  | case2 position b =>
    refine iff_of_false (fun h => nomatch h) fun h => ?_
    cases bs with
    | nil => exact nomatch h
    | cons b bs => simp [utf8_encode_cons] at h
  | case3 =>
    cases bs with
    | nil => exact iff_of_true rfl rfl
    | cons b bs => exact iff_of_false (fun h => nomatch h) (by simp [utf8_encode_cons])

/-- **A text is read as some bytes exactly if its small form is how they are written.** -/
theorem decode_eq_ok_iff {s : String} {bs : Bytes} :
    decode s = .ok bs ↔ Text.asciiLowerCase s = encode bs := by
  have hpairs : decodePairs 0 (Bytes.utf8 s) = .ok bs ↔ Text.asciiLowerCase s = encode bs := by
    rw [decodePairs_eq_ok_iff, ← Bytes.utf8_asciiLowerCase, Bytes.utf8_inj]
  rw [← hpairs, decode]
  split
  · next hodd =>
    refine iff_of_false (fun h => nomatch h) fun h => ?_
    have hlength := congrArg List.length (decodePairs_eq_ok_iff.1 h)
    rw [List.length_map, length_utf8_encode] at hlength
    omega
  · rfl

theorem decode_encode (bs : Bytes) : decode (encode bs) = .ok bs :=
  decode_eq_ok_iff.2 (asciiLowerCase_encode bs)

/-! ## Marks -/

theorem map_toLower_ne_marked {rest : List Char} {bs : Bytes} :
    ('0' :: 'x' :: rest).map Char.toLower ≠ bs.flatMap byteDigits := by
  intro h
  cases bs with
  | nil => exact nomatch h
  | cons b bs =>
    have hx := (List.cons.inj (List.cons.inj h).2).1
    exact digitChar_ne_x _ (Nat.mod_lt b.toNat (by decide)) hx.symm

theorem dropMarks_encode (bs : Bytes) : dropMarks (encode bs) = encode bs := by
  rw [dropMarks, encode, String.toList_ofList, afterMarks.eq_def]
  split
  · next rest he =>
    have hdigits := (congrArg (List.map Char.toLower) he).symm.trans (map_toLower_byteDigits bs)
    exact absurd hdigits map_toLower_ne_marked
  · rfl

theorem dropMark_of_digits {s : String} {bs : Bytes} (h : Text.asciiLowerCase s = encode bs) :
    dropMark s = s := by
  unfold dropMark
  split
  · next rest hs =>
    have hdigits := congrArg String.toList h
    rw [Text.asciiLowerCase, hs, encode, String.toList_ofList, String.toList_ofList] at hdigits
    exact absurd hdigits map_toLower_ne_marked
  · rfl

theorem toList_marked (digits : String) : ("0x" ++ digits).toList = '0' :: 'x' :: digits.toList :=
  String.toList_append

theorem dropMark_marked (digits : String) : dropMark ("0x" ++ digits) = digits := by
  rw [dropMark, toList_marked]
  exact String.ofList_toList

/-- The text writes the bytes: two digits for each, of either case, with the mark or without. -/
def Spells (text : String) (bs : Bytes) : Prop :=
  ∃ digits, (text = digits ∨ text = "0x" ++ digits) ∧ Text.asciiLowerCase digits = encode bs

/-- **The texts that are read as some bytes are those that write them.** -/
theorem decodeMarked_eq_ok_iff {text : String} {bs : Bytes} :
    decodeMarked text = .ok bs ↔ Spells text bs := by
  rw [decodeMarked, decode_eq_ok_iff]
  constructor
  · intro h
    refine ⟨dropMark text, ?_, h⟩
    unfold dropMark
    split
    · next rest hs =>
      right
      rw [← String.toList_inj, hs, toList_marked, String.toList_ofList]
    · exact .inl rfl
  · rintro ⟨digits, rfl | rfl, h⟩
    · rwa [dropMark_of_digits h]
    · rwa [dropMark_marked]

theorem decodeMarked_encodeMarked (bs : Bytes) : decodeMarked (encodeMarked bs) = .ok bs :=
  decodeMarked_eq_ok_iff.2 ⟨encode bs, .inr rfl, asciiLowerCase_encode bs⟩

end Hex

end ChannelLog
