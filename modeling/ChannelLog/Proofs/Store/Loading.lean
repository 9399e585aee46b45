import ChannelLog.Proofs.Store.FirstListed
import ChannelLog.Proofs.Store.Reopening

/-!
# What is loaded from a manifest

Any text may stand in a manifest file. It is loaded line by line, up to the first line that says
nothing, and what is loaded is kept in two halves: the order of the locations, and a dictionary of
their times.

* `Manifest.ofText_eq_ok_iff`, `Manifest.ofText_eq_error_iff`: a text is loaded exactly if each of its
  lines is blank or an entry (`Manifest.Readable`), and otherwise the first other line is named.
* `Manifest.InStep`: the halves hold the same locations, each where it was entered first and with the
  time that was entered last. This holds of the empty manifest and is kept by every record.
* `Manifest.InStep.ofText_text_iff`: such a manifest, written out with one line for each location, is
  loaded again as it was, exactly if these are locations.
* `Manifest.loaded_in_step`: **so the halves of whatever is loaded agree, and go on agreeing.**
-/

namespace ChannelLog

namespace Manifest

/-! ## Which texts are loaded -/

/-- A line that can be loaded: nothing but blanks, or an entry. -/
def Readable (line : List Char) : Prop :=
  (∀ c ∈ line, Text.isBlank c = true) ∨ ∃ r, IsEntry line r

theorem readable_iff_of_not_blank {line : List Char} (h : line.all Text.isBlank = false) :
    Readable line ↔ ∃ r, IsEntry line r := by
  refine or_iff_right fun hblank => ?_
  rw [List.all_eq_true.2 hblank] at h
  cases h

theorem exists_says_iff {lines : List (List Char)} :
    (∃ records, Says lines records) ↔ ∀ line ∈ lines, Readable line := by
  induction lines with
  | nil => exact iff_of_true ⟨[], .nil⟩ (by simp)
  | cons line lines ih =>
    rw [List.forall_mem_cons, ← ih]
    cases hblank : line.all Text.isBlank with
    | true =>
      have hline : Readable line := .inl (List.all_eq_true.1 hblank)
      simp only [says_blank_cons hblank, hline, true_and]
    | false =>
      simp only [says_entry_cons hblank, readable_iff_of_not_blank hblank]
      constructor
      · rintro ⟨_, r, others, hline, hothers, rfl⟩
        exact ⟨⟨r, hline⟩, others, hothers⟩
      · rintro ⟨⟨r, hline⟩, others, hothers⟩
        exact ⟨r :: others, r, others, hline, hothers, rfl⟩

theorem exists_first_unreadable {lines : List (List Char)} (h : ¬ ∀ line ∈ lines, Readable line) :
    ∃ before line after, lines = before ++ line :: after ∧ (∀ l ∈ before, Readable l) ∧
      ¬ Readable line := by
  induction lines with
  | nil => exact absurd (by simp) h
  | cons line lines ih =>
    -- if this line can be loaded, the first that cannot is one of the others
    by_cases hline : Readable line
    · rw [List.forall_mem_cons, not_and] at h
      obtain ⟨before, other, after, rfl, hbefore, hother⟩ := ih (h hline)
      exact ⟨line :: before, other, after, rfl, List.forall_mem_cons.2 ⟨hline, hbefore⟩, hother⟩
    · exact ⟨[], line, lines, rfl, by simp, hline⟩

theorem loadLines_unreadable (m : Manifest) (number : Nat) {line : List Char} (h : ¬ Readable line)
    (rest : List (List Char)) :
    m.loadLines number (line :: rest) = .error (.malformedLine number (String.ofList line)) := by
  rw [Readable, not_or] at h
  obtain ⟨hblank, hentry⟩ := h
  have hnone : entryOf? line = none := by
    rw [Option.eq_none_iff_forall_ne_some]
    intro r hr
    exact hentry ⟨r, entryOf?_eq_some_iff.1 hr⟩
  rw [loadLines, if_neg fun hall => hblank (List.all_eq_true.1 hall), hnone]

section

variable {text : String}

theorem ofText_of_entries {records : List Record} (h : Says (Text.lines text.toList) records) :
    ofText text = .ok (ofRecords records) := by
  rw [ofText, ← List.append_nil (Text.lines text.toList), loadLines_append empty 1 h, loadLines]
  rfl

theorem ofText_of_unreadable {before after : List (List Char)} {line : List Char}
    (hlines : Text.lines text.toList = before ++ line :: after)
    (hbefore : ∀ l ∈ before, Readable l) (hline : ¬ Readable line) :
    ofText text = .error (.malformedLine (before.length + 1) (String.ofList line)) := by
  obtain ⟨records, hrecords⟩ := exists_says_iff.2 hbefore
  rw [ofText, hlines, loadLines_append empty 1 hrecords, loadLines_unreadable _ _ hline,
    Nat.add_comm]

/-- **What is loaded is the manifest of what the lines say.** -/
theorem ofText_eq_ok_iff {m : Manifest} :
    ofText text = .ok m
      ↔ ∃ records, Says (Text.lines text.toList) records ∧ m = ofRecords records := by
  constructor
  · intro h
    by_cases hall : ∀ line ∈ Text.lines text.toList, Readable line
    · obtain ⟨records, hrecords⟩ := exists_says_iff.2 hall
      rw [ofText_of_entries hrecords] at h
      exact ⟨records, hrecords, (Except.ok.inj h).symm⟩
    · obtain ⟨before, line, after, hlines, hbefore, hline⟩ := exists_first_unreadable hall
      rw [ofText_of_unreadable hlines hbefore hline] at h
      cases h
  · rintro ⟨records, hrecords, rfl⟩
    exact ofText_of_entries hrecords

theorem exists_ofText_iff :
    (∃ m, ofText text = .ok m) ↔ ∀ line ∈ Text.lines text.toList, Readable line := by
  rw [← exists_says_iff]
  constructor
  · rintro ⟨m, hm⟩
    obtain ⟨records, hrecords, -⟩ := ofText_eq_ok_iff.1 hm
    exact ⟨records, hrecords⟩
  · rintro ⟨records, hrecords⟩
    exact ⟨_, ofText_of_entries hrecords⟩

/-- **The first line that is neither blank nor an entry is named.** -/
theorem ofText_eq_error_iff {e : StorageError} :
    ofText text = .error e
      ↔ ∃ before line after, Text.lines text.toList = before ++ line :: after ∧
          (∀ l ∈ before, Readable l) ∧ ¬ Readable line ∧
          e = .malformedLine (before.length + 1) (String.ofList line) := by
  constructor
  · intro h
    have hnot : ¬ ∀ line ∈ Text.lines text.toList, Readable line := by
      intro hall
      obtain ⟨m, hm⟩ := exists_ofText_iff.2 hall
      rw [h] at hm
      cases hm
    obtain ⟨before, line, after, hlines, hbefore, hline⟩ := exists_first_unreadable hnot
    rw [ofText_of_unreadable hlines hbefore hline] at h
    exact ⟨before, line, after, hlines, hbefore, hline, (Except.error.inj h).symm⟩
  · rintro ⟨before, line, after, hlines, hbefore, hline, rfl⟩
    exact ofText_of_unreadable hlines hbefore hline

end

theorem Says.isLocation {lines : List (List Char)} {records : List Record}
    (h : Says lines records) : ∀ r ∈ records, isLocation r.1.toList = true := by
  unfold Says at h
  generalize lines.filter (fun line => !line.all Text.isBlank) = written at h
  induction h with
  | nil => simp
  | cons hline _ ih => exact List.forall_mem_cons.2 ⟨hline.1, ih⟩

/-! ## The two halves -/

/-- What the halves of a manifest have to do with each other, and with the entries `records` that were
made in it. -/
structure InStep (m : Manifest) (records : List Record) : Prop where
  /-- No location is listed twice. -/
  nodup : m.order.Nodup
  /-- There is a time for exactly the locations that are listed. -/
  valid : m.Valid
  /-- They are listed where they occur first. -/
  firsts : m.order = (records.map (·.1)).eraseDups
  /-- Each has the time of its last entry, the first that is found from behind. -/
  lasts : ∀ l, m.timestamps.get? l = records.reverse.lookup l

theorem inStep_empty : empty.InStep [] where
  nodup := List.nodup_nil
  valid := valid_empty
  firsts := rfl
  lasts _ := rfl

/-- **A record keeps the halves in step.** -/
theorem InStep.record {m : Manifest} {records : List Record} (h : m.InStep records) (r : Record) :
    (m.record r.1 r.2).InStep (records ++ [r]) := by
  have horder : (m.record r.1 r.2).order = listLast m.order r.1 := by
    unfold Manifest.record listLast
    simp only [h.valid r.1]
  refine ⟨?nodup, h.valid.record r.1 r.2, ?firsts, fun l => ?lasts⟩
  case nodup =>
    rw [horder]
    exact nodup_listLast h.nodup r.1
  case firsts =>
    rw [horder, List.map_append, h.firsts]
    exact (eraseDups_concat _ _).symm
  case lasts =>
    rw [List.reverse_append, List.reverse_singleton, List.singleton_append, List.lookup_cons,
      ← h.lasts, Manifest.record, Dict.get?_insert]
    by_cases hl : l = r.1
    · rw [if_pos hl, beq_iff_eq.2 hl]
    · rw [if_neg hl, beq_eq_false_iff_ne.2 hl]

theorem inStep_ofRecords (records : List Record) : (ofRecords records).InStep records := by
  induction records using List.reverseRecOn with
  | nil => exact inStep_empty
  | append_singleton records r ih =>
    rw [ofRecords_append]
    exact ih.record r

/-- The manifest after some more entries. -/
def recordAll (m : Manifest) (records : List Record) : Manifest :=
  records.foldl (fun m r => m.record r.1 r.2) m

theorem recordAll_ofRecords (records further : List Record) :
    (ofRecords records).recordAll further = ofRecords (records ++ further) :=
  List.foldl_append.symm

/-! ## Writing a manifest out -/

/-- The locations of a manifest with their times, in order. -/
def entries (m : Manifest) : List Record :=
  m.order.map fun l => (l, (m.timestamps.get? l).getD 0)

/-- A manifest written out, with one line for each location. -/
def text (m : Manifest) : String := listing m.entries

theorem map_fst_entries (m : Manifest) : m.entries.map (·.1) = m.order := by
  rw [entries, List.map_map]
  exact List.map_id m.order

namespace InStep

variable {m : Manifest} {records : List Record} (h : m.InStep records)

include h

theorem mem_order_iff {l : Location} : l ∈ m.order ↔ ∃ r ∈ records, r.1 = l := by
  rw [h.firsts, List.mem_eraseDups, List.mem_map]

theorem lookup_entries (l : Location) : m.entries.reverse.lookup l = m.timestamps.get? l := by
  rw [entries, ← List.map_reverse]
  by_cases hl : l ∈ m.order
  · rw [List.lookup_graph _ (List.mem_reverse.2 hl)]
    obtain ⟨t, ht⟩ := Option.isSome_iff_exists.1 ((h.valid l).2 hl)
    rw [ht, Option.getD_some]
  · have hnone : m.timestamps.get? l = none := by
      rw [← Option.not_isSome_iff_eq_none]
      exact fun hsome => hl ((h.valid l).1 hsome)
    rw [hnone, List.lookup_eq_none_iff]
    intro p hp
    obtain ⟨k, hk, rfl⟩ := List.mem_map.1 hp
    rw [List.mem_reverse] at hk
    rw [bne_iff_ne]
    rintro rfl
    exact hl hk

/-- **The entries of a manifest make up the manifest.** -/
theorem ofRecords_entries : ofRecords m.entries = m := by
  have hentries := inStep_ofRecords m.entries
  have horder : (ofRecords m.entries).order = m.order := by
    rw [hentries.firsts, map_fst_entries, eraseDups_eq_self h.nodup]
  have htimes : (ofRecords m.entries).timestamps = m.timestamps := by
    refine Dict.ext_get? fun l => ?_
    rw [hentries.lasts, h.lookup_entries]
  calc ofRecords m.entries
      = ⟨(ofRecords m.entries).order, (ofRecords m.entries).timestamps⟩ := rfl
    _ = m := by rw [horder, htimes]

/-- **A manifest that is written out is loaded as it was**, if it lists nothing but locations. -/
theorem ofText_text_iff :
    ofText m.text = .ok m ↔ ∀ r ∈ records, isLocation r.1.toList = true := by
  constructor
  · -- a text that is loaded as `m` says entries of its own, and these have all locations of `m`
    intro hload r hr
    obtain ⟨loaded, hsaid, hm⟩ := ofText_eq_ok_iff.1 hload
    have hloaded : m.InStep loaded := by
      rw [hm]
      exact inStep_ofRecords loaded
    obtain ⟨e, he, hl⟩ := hloaded.mem_order_iff.1 (h.mem_order_iff.2 ⟨r, hr, rfl⟩)
    rw [← hl]
    exact hsaid.isLocation e he
  · intro hlocations
    have hentries : ∀ e ∈ m.entries, isLocation e.1.toList = true := by
      intro e he
      have hl : e.1 ∈ m.order := by
        rw [← map_fst_entries]
        exact List.mem_map_of_mem he
      obtain ⟨r, hr, heq⟩ := h.mem_order_iff.1 hl
      rw [← heq]
      exact hlocations r hr
    rw [text, ofText_listing hentries, h.ofRecords_entries]

end InStep

end Manifest

/-! ## The manifest of a store -/

/-- The store after the texts `ds` were appended. -/
def FolderStore.appendAll (s : FolderStore) (ds : List Draft) : FolderStore :=
  ds.foldl (fun s d => (s.append d.now d.content).2) s

theorem FolderStore.exists_manifest_appendAll (s : FolderStore) (ds : List Draft) :
    ∃ further, (∀ r ∈ further, isLocation r.1.toList = true) ∧
      (s.appendAll ds).manifest = s.manifest.recordAll further := by
  induction ds generalizing s with
  | nil => exact ⟨[], by simp, rfl⟩
  | cons d ds ih =>
    obtain ⟨further, hfurther, hmanifest⟩ := ih (s.append d.now d.content).2
    refine ⟨((s.append d.now d.content).1.location, d.now) :: further, ?_, hmanifest⟩
    exact List.forall_mem_cons.2 ⟨isLocation_blockLocation _ _, hfurther⟩

namespace Manifest

/-- **The two halves of a manifest stay in step.** Any text is loaded exactly if each of its lines is
blank or an entry, and otherwise loading fails with the number of the first other line. What is
loaded, and whatever is recorded after it, lists no location twice and has times for exactly the
locations that it lists; they stand in the order of their first entries and have the times of their
last ones. Written out with one line for each location, it is loaded again as it was, as long as
only locations were recorded, which is all that a store records. -/
theorem loaded_in_step (text : String) :
    ((∃ m, ofText text = .ok m) ↔ ∀ line ∈ Text.lines text.toList, Readable line) ∧
    (∀ e, ofText text = .error e
      ↔ ∃ before line after, Text.lines text.toList = before ++ line :: after ∧
          (∀ l ∈ before, Readable l) ∧ ¬ Readable line ∧
          e = .malformedLine (before.length + 1) (String.ofList line)) ∧
    ∀ m, ofText text = .ok m →
      ∃ records, Says (Text.lines text.toList) records ∧
        (∀ further, (m.recordAll further).InStep (records ++ further) ∧
          (ofText (m.recordAll further).text = .ok (m.recordAll further)
            ↔ ∀ r ∈ further, isLocation r.1.toList = true)) ∧
        ∀ s : FolderStore, s.manifest = m → ∀ ds,
          ofText (s.appendAll ds).manifest.text = .ok (s.appendAll ds).manifest := by
  refine ⟨exists_ofText_iff, fun e => ofText_eq_error_iff, fun m hm => ?_⟩
  obtain ⟨records, hsaid, rfl⟩ := ofText_eq_ok_iff.1 hm
  have hstep : ∀ further, ((ofRecords records).recordAll further).InStep (records ++ further) := by
    intro further
    rw [recordAll_ofRecords]
    exact inStep_ofRecords _
  have hwritten : ∀ further, ofText ((ofRecords records).recordAll further).text
      = .ok ((ofRecords records).recordAll further)
        ↔ ∀ r ∈ further, isLocation r.1.toList = true := by
    intro further
    rw [(hstep further).ofText_text_iff, List.forall_mem_append]
    exact and_iff_right hsaid.isLocation
  refine ⟨records, hsaid, fun further => ⟨hstep further, hwritten further⟩, ?_⟩
  intro s hs ds
  obtain ⟨further, hfurther, hmanifest⟩ := s.exists_manifest_appendAll ds
  rw [hmanifest, hs]
  exact (hwritten further).2 hfurther

def examplePlace (digit : Char) : List Char := List.replicate 64 digit

/-- A blank line, a time among blanks and with a plus sign, an empty line, and a location that is
listed again on a line without an end. -/
def exampleText : String :=
  String.ofList (['\t', ' ', '\r', '\n']
    ++ examplePlace 'a' ++ [' ', ' ', ' ', '+', '0', '7', ' ', '\r', '\n']
    ++ examplePlace '0' ++ [' ', '5', '\n', '\n']
    ++ examplePlace 'a' ++ [' ', '1', '2'])

def exampleManifest : Manifest :=
  ofRecords [(String.ofList (examplePlace 'a'), 7), (String.ofList (examplePlace '0'), 5),
    (String.ofList (examplePlace 'a'), 12)]

theorem ofText_exampleText : ofText exampleText = .ok exampleManifest := by
  rw [ofText, exampleText, String.toList_ofList]
  rfl

/-- An entry for a location that the example has twice already. -/
def exampleEntry : Record := (String.ofList (examplePlace 'a'), 9)

/-- The location that is listed twice has its first place and its last time, and keeps its place when
it is recorded once more. -/
theorem loaded_in_step_exampleText :
    exampleManifest.order = [String.ofList (examplePlace 'a'), String.ofList (examplePlace '0')] ∧
    exampleManifest.timestamps.get? (String.ofList (examplePlace 'a')) = some 12 ∧
    (exampleManifest.recordAll [exampleEntry]).order
      = [String.ofList (examplePlace 'a'), String.ofList (examplePlace '0')] ∧
    ∃ records, Says (Text.lines exampleText.toList) records ∧
      (exampleManifest.recordAll [exampleEntry]).InStep (records ++ [exampleEntry]) ∧
      ofText (exampleManifest.recordAll [exampleEntry]).text
        = .ok (exampleManifest.recordAll [exampleEntry]) ∧
      ofText ((⟨∅, exampleManifest⟩ : FolderStore).appendAll [⟨9, "[]"⟩]).manifest.text
        = .ok ((⟨∅, exampleManifest⟩ : FolderStore).appendAll [⟨9, "[]"⟩]).manifest := by
  obtain ⟨-, -, hloaded⟩ := loaded_in_step exampleText
  obtain ⟨records, hsaid, hrecorded, happended⟩ := hloaded _ ofText_exampleText
  obtain ⟨hstep, hwritten⟩ := hrecorded [exampleEntry]
  refine ⟨rfl, rfl, rfl, records, hsaid, hstep, hwritten.2 ?_, happended ⟨∅, exampleManifest⟩ rfl _⟩
  rw [List.forall_mem_singleton, exampleEntry, String.toList_ofList]
  decide

end Manifest

end ChannelLog
