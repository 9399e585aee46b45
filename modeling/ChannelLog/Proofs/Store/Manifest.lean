import Mathlib.Data.List.Forall2
import Mathlib.Data.List.TakeWhile
import ChannelLog.Proofs.Store.Laws
import ChannelLog.Proofs.Bytes.Hex

/-!
# A written manifest is loaded as it was recorded

A manifest is written line by line, one for each entry recorded, and loaded from the whole text.

* `Manifest.IsEntry`: what the lines of entries look like. A line is read as the entry that it is
  (`Manifest.entryOf?_eq_some_iff`), and so as the one that it was written for.
* `Manifest.loadLines_append`: lines that say some entries, with blank lines in between, are loaded as
  these entries, before what follows them.
* `Text.lines_flatMap`: the text is cut into the lines it was put together from.
* `Manifest.ofText_listing`: **so loading gives the manifest of the entries, in the order in which they
  were recorded**, if they have locations.
-/

namespace ChannelLog

namespace Text

theorem toNat_of_plain {c : Char} (h : c.isDigit = true ∨ ('a' ≤ c ∧ c ≤ 'f')) :
    (48 ≤ c.toNat ∧ c.toNat ≤ 57) ∨ (97 ≤ c.toNat ∧ c.toNat ≤ 102) := by
  rcases h with h | h
  · exact .inl (by simpa [Char.isDigit, UInt32.le_iff_toNat_le] using h)
  · exact .inr h

theorem isBlank_of_plain {c : Char} (h : c.isDigit = true ∨ ('a' ≤ c ∧ c ≤ 'f')) :
    isBlank c = false := by
  have hrange := toNat_of_plain h
  rw [← Bool.not_eq_true, isBlank, inRanges_iff]
  rintro ⟨r, hr, hle⟩
  simp only [blankRanges, List.mem_cons, List.not_mem_nil, or_false] at hr
  rcases hr with rfl | rfl | rfl | rfl | rfl | rfl | rfl | rfl | rfl | rfl <;>
    simp only at hle <;> omega

theorem trim_eq_self {cs : List Char} (h : ∀ c ∈ cs, isBlank c = false) : trim cs = cs := by
  have hdrop : ∀ {ds : List Char}, (∀ c ∈ ds, isBlank c = false) → ds.dropWhile isBlank = ds := by
    intro ds hds
    cases ds with
    | nil => rfl
    | cons d ds => simp [hds d List.mem_cons_self]
  rw [trim, hdrop h, hdrop fun c hc => h c (List.mem_reverse.1 hc), List.reverse_reverse]

theorem lines_flatMap_append {ls : List (List Char)}
    (h : ∀ l ∈ ls, '\n' ∉ l ∧ l.getLast? ≠ some '\r') (rest : List Char) :
    lines (ls.flatMap (· ++ ['\n']) ++ rest) = ls ++ lines rest := by
  induction ls with
  | nil => rfl
  | cons l ls ih =>
    obtain ⟨hfeed, hreturn⟩ := h l List.mem_cons_self
    have hl : dropReturn l = l := if_neg hreturn
    rw [List.flatMap_cons, List.append_assoc, List.append_assoc, List.singleton_append,
      lines_append_newline hfeed, hl, ih fun k hk => h k (List.mem_cons_of_mem l hk)]
    rfl

/-- **Lines that are put together are found again.** -/
theorem lines_flatMap {ls : List (List Char)} (h : ∀ l ∈ ls, '\n' ∉ l ∧ l.getLast? ≠ some '\r') :
    lines (ls.flatMap (· ++ ['\n'])) = ls := by
  simpa [lines, lines.go] using lines_flatMap_append h []

end Text

namespace Manifest

abbrev Record := Location × UInt64

/-- The line of an entry, without its line feed. -/
def entryLine (r : Record) : List Char := r.1.toList ++ ' ' :: Text.digits r.2.toNat

theorem toList_line (r : Record) : (line r.1 r.2).toList = entryLine r ++ ['\n'] := by
  simp [line, entryLine]

/-! ## One line -/

theorem plain_of_isLocation {cs : List Char} (h : isLocation cs = true) :
    cs.length = 64 ∧ ∀ c ∈ cs, c.isDigit = true ∨ ('a' ≤ c ∧ c ≤ 'f') := by
  simpa [isLocation] using h

theorem entryOf?_append {location : List Char} (h : ' ' ∉ location) (time : List Char) :
    entryOf? (location ++ ' ' :: time)
      = if isLocation location then
          (Text.readNatural? UInt64.size (Text.trim time)).map fun n =>
            (String.ofList location, UInt64.ofNat n)
        else none := by
  have hall : ∀ c ∈ location, decide (c ≠ ' ') = true := by
    intro c hc
    refine decide_eq_true ?_
    rintro rfl
    exact h hc
  rw [entryOf?, List.dropWhile_append_of_pos hall, List.dropWhile_cons_of_neg (by decide),
    List.takeWhile_append_of_pos hall, List.takeWhile_cons_of_neg (by decide), List.append_nil]

theorem entryOf?_of_not_mem {line : List Char} (h : ' ' ∉ line) : entryOf? line = none := by
  have hdrop : line.dropWhile (· ≠ ' ') = [] := by
    rw [List.dropWhile_eq_nil_iff]
    intro c hc
    refine decide_eq_true ?_
    rintro rfl
    exact h hc
  rw [entryOf?, hdrop]

/-- `line` is the entry `r`: a location, one space, and a time, around which there may be blanks. -/
def IsEntry (line : List Char) (r : Record) : Prop :=
  isLocation r.1.toList = true ∧
    ∃ time, line = r.1.toList ++ ' ' :: time ∧ Text.Writes (Text.trim time) r.2.toNat

section

variable {r : Record} (h : isLocation r.1.toList = true)

include h

theorem isBlank_of_mem_location {c : Char} (hc : c ∈ r.1.toList) : Text.isBlank c = false :=
  Text.isBlank_of_plain ((plain_of_isLocation h).2 c hc)

theorem ne_space_of_mem_location {c : Char} (hc : c ∈ r.1.toList) : c ≠ ' ' := by
  rintro rfl
  exact absurd (isBlank_of_mem_location h hc) (by decide)

omit h in
theorem isBlank_of_mem_digits {n : Nat} {c : Char} (hc : c ∈ Text.digits n) :
    Text.isBlank c = false :=
  Text.isBlank_of_plain (.inl (Text.isDigit_of_mem_digits hc))

omit h in
/-- **A line is read as the entry that it is.** -/
theorem entryOf?_eq_some_iff {line : List Char} : entryOf? line = some r ↔ IsEntry line r := by
  constructor
  · intro h
    by_cases hspace : ' ' ∈ line
    · obtain ⟨location, time, rfl, hfirst⟩ := List.eq_append_cons_of_mem hspace
      rw [entryOf?_append hfirst] at h
      split at h
      · next hlocation =>
        obtain ⟨n, hn, rfl⟩ := Option.map_eq_some_iff.1 h
        obtain ⟨hwrites, hlt⟩ := Text.readNatural?_eq_some_iff.1 hn
        have htime : (UInt64.ofNat n).toNat = n := UInt64.toNat_ofNat_of_lt' hlt
        refine ⟨by rwa [String.toList_ofList], time, by rw [String.toList_ofList], ?_⟩
        rwa [htime]
      · cases h
    · rw [entryOf?_of_not_mem hspace] at h
      cases h
  · rintro ⟨hlocation, time, rfl, hwrites⟩
    have hspace : ' ' ∉ r.1.toList := fun hc => ne_space_of_mem_location hlocation hc rfl
    have hread := Text.readNatural?_eq_some_iff.2 ⟨hwrites, r.2.toNat_lt_size⟩
    rw [entryOf?_append hspace, if_pos hlocation, hread, Option.map_some, String.ofList_toList,
      UInt64.ofNat_toNat]

theorem isEntry_entryLine : IsEntry (entryLine r) r := by
  refine ⟨h, Text.digits r.2.toNat, rfl, ?_⟩
  rw [Text.trim_eq_self fun c => isBlank_of_mem_digits]
  exact Text.writes_digits _

theorem entryOf?_entryLine : entryOf? (entryLine r) = some r :=
  entryOf?_eq_some_iff.2 (isEntry_entryLine h)

omit h in
theorem IsEntry.not_all_isBlank {line : List Char} (h : IsEntry line r) :
    line.all Text.isBlank = false := by
  obtain ⟨hlocation, time, rfl, -⟩ := h
  obtain ⟨hlength, -⟩ := plain_of_isLocation hlocation
  obtain ⟨c, hc⟩ := List.exists_mem_of_length_pos (by omega : 0 < r.1.toList.length)
  rw [List.all_eq_false]
  exact ⟨c, List.mem_append_left _ hc, by simp [isBlank_of_mem_location hlocation hc]⟩

theorem not_all_isBlank_entryLine : (entryLine r).all Text.isBlank = false :=
  (isEntry_entryLine h).not_all_isBlank

theorem entryLine_unbroken : '\n' ∉ entryLine r ∧ (entryLine r).getLast? ≠ some '\r' := by
  have hmem : ∀ c ∈ entryLine r, c = ' ' ∨ Text.isBlank c = false := by
    intro c hc
    rcases List.mem_append.1 hc with hc | hc
    · exact .inr (isBlank_of_mem_location h hc)
    · exact (List.mem_cons.1 hc).imp_right isBlank_of_mem_digits
  refine ⟨fun hfeed => ?_, fun hreturn => ?_⟩
  · exact absurd (hmem _ hfeed) (by decide)
  · exact absurd (hmem _ (List.mem_of_getLast? hreturn)) (by decide)

end

/-! ## Lines -/

/-- The lines that are not blank are the entries `records`, in order. -/
def Says (lines : List (List Char)) (records : List Record) : Prop :=
  List.Forall₂ IsEntry (lines.filter fun line => !line.all Text.isBlank) records

theorem says_blank_cons {line : List Char} (h : line.all Text.isBlank = true)
    {lines : List (List Char)} {records : List Record} :
    Says (line :: lines) records ↔ Says lines records := by
  rw [Says, List.filter_cons_of_neg (by simp [h]), Says]

theorem says_entry_cons {line : List Char} (h : line.all Text.isBlank = false)
    {lines : List (List Char)} {records : List Record} :
    Says (line :: lines) records
      ↔ ∃ r others, IsEntry line r ∧ Says lines others ∧ records = r :: others := by
  rw [Says, List.filter_cons_of_pos (by simp [h])]
  exact List.forall₂_cons_left_iff

theorem says_entryLines {records : List Record} (h : ∀ r ∈ records, isLocation r.1.toList = true) :
    Says (records.map entryLine) records := by
  induction records with
  | nil => exact .nil
  | cons r records ih =>
    obtain ⟨hr, hrest⟩ := List.forall_mem_cons.1 h
    rw [List.map_cons, says_entry_cons (not_all_isBlank_entryLine hr)]
    exact ⟨r, records, isEntry_entryLine hr, ih hrest, rfl⟩

theorem loadLines_append (m : Manifest) (number : Nat) {before : List (List Char)}
    {records : List Record} (h : Says before records) (rest : List (List Char)) :
    m.loadLines number (before ++ rest)
      = (records.foldl (fun m r => m.record r.1 r.2) m).loadLines (number + before.length)
          rest := by
  induction before generalizing m number records with
  | nil =>
    cases h
    rfl
  | cons line before ih =>
    rw [List.cons_append, loadLines, List.length_cons, Nat.add_comm before.length, ← Nat.add_assoc]
    -- a blank line counts among the numbers of the lines, and for nothing else
    cases hblank : line.all Text.isBlank with
    | true =>
      rw [says_blank_cons hblank] at h
      exact ih _ _ h
    | false =>
      rw [says_entry_cons hblank] at h
      obtain ⟨r, others, hline, hothers, rfl⟩ := h
      rw [entryOf?_eq_some_iff.2 hline]
      exact ih _ _ hothers

/-! ## The whole text -/

/-- The text that is written when entries are recorded one after the other. -/
def listing (records : List Record) : String :=
  String.ofList ((records.map entryLine).flatMap (· ++ ['\n']))

/-- The manifest of some entries. -/
def ofRecords (records : List Record) : Manifest :=
  records.foldl (fun m r => m.record r.1 r.2) empty

theorem ofRecords_append (records : List Record) (r : Record) :
    ofRecords (records ++ [r]) = (ofRecords records).record r.1 r.2 := by
  rw [ofRecords, List.foldl_append]
  rfl

theorem utf8_listing_append (records : List Record) (r : Record) :
    Bytes.utf8 (listing (records ++ [r]))
      = Bytes.utf8 (listing records) ++ Bytes.utf8 (line r.1 r.2) := by
  have hline : line r.1 r.2 = String.ofList (entryLine r ++ ['\n']) := by
    rw [← toList_line, String.ofList_toList]
  simp only [listing, hline, Bytes.utf8_ofList, List.map_append, List.flatMap_append, List.map_cons,
    List.map_nil, List.flatMap_cons, List.flatMap_nil, List.append_nil]

theorem loadLines_entryLines_append (m : Manifest) (number : Nat) {records : List Record}
    (h : ∀ r ∈ records, isLocation r.1.toList = true) (rest : List (List Char)) :
    m.loadLines number (records.map entryLine ++ rest)
      = (records.foldl (fun m r => m.record r.1 r.2) m).loadLines (number + records.length)
          rest := by
  rw [loadLines_append m number (says_entryLines h) rest, List.length_map]

theorem loadLines_entryLines (m : Manifest) (number : Nat) {records : List Record}
    (h : ∀ r ∈ records, isLocation r.1.toList = true) :
    m.loadLines number (records.map entryLine)
      = .ok (records.foldl (fun m r => m.record r.1 r.2) m) := by
  rw [← List.append_nil (records.map entryLine), loadLines_entryLines_append m number h, loadLines]

theorem unbroken_entryLines {records : List Record}
    (h : ∀ r ∈ records, isLocation r.1.toList = true) :
    ∀ l ∈ records.map entryLine, '\n' ∉ l ∧ l.getLast? ≠ some '\r' := by
  intro l hl
  obtain ⟨r, hr, rfl⟩ := List.mem_map.1 hl
  exact entryLine_unbroken (h r hr)

/-- **What was written for some entries is loaded as their manifest.** -/
theorem ofText_listing {records : List Record} (h : ∀ r ∈ records, isLocation r.1.toList = true) :
    ofText (listing records) = .ok (ofRecords records) := by
  rw [ofText, listing, String.toList_ofList, Text.lines_flatMap (unbroken_entryLines h)]
  exact loadLines_entryLines empty 1 h

end Manifest

end ChannelLog
