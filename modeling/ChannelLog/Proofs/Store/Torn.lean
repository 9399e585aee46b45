import Mathlib.Algebra.Ring.Nat
import Mathlib.Data.List.Induction
import ChannelLog.Proofs.Store.Loading

/-!
# A manifest that is cut off

A crash while the manifest is written leaves some beginning of its text. A cut between two lines, or
just before a line feed, loses whole entries; one inside a location, or before the first digit of a
time, leaves a line that is no entry. But nothing marks the end of a time, and its first digits are
a number too.

* `Text.exists_digits_of_prefix`: the first digits of a number are the digits of a quotient.
* `Manifest.Cut`: where a cut can fall; it falls nowhere else (`Manifest.cut_of_prefix`).
* `Manifest.ofText_cut_early`, `Manifest.ofText_cut_late`: a line without digits is refused, and one
  with some digits is loaded.
* `FolderStore.misread_iff_cutsTime`: **a cut is misread exactly if it falls between two digits of a
  time**, which is then read without its last digits. Any other cut is refused, or all that is
  loaded was appended.
-/

namespace ChannelLog

/-! ## Some of the characters of a text -/

theorem Text.prefix_append_cases {cs ds es : List Char} (h : cs <+: ds ++ es) :
    cs <+: ds ∨ ∃ fs, fs <+: es ∧ cs = ds ++ fs := by
  rcases List.prefix_or_prefix_of_prefix h (List.prefix_append _ _) with hds | ⟨fs, rfl⟩
  · exact .inl hds
  · exact .inr ⟨fs, (List.prefix_append_right_inj _).1 h, rfl⟩

theorem Bytes.exists_utf8_of_prefix {cs : List Char} (h : ∀ c ∈ cs, c.val ≤ 127) {bs : Bytes}
    (hbs : bs <+: utf8 (String.ofList cs)) : ∃ ds, ds <+: cs ∧ bs = utf8 (String.ofList ds) := by
  rw [utf8_ofList] at hbs
  simp only [utf8_ofList]
  induction cs generalizing bs with
  | nil => exact ⟨[], List.prefix_rfl, by simpa using hbs⟩
  | cons c cs ih =>
    obtain ⟨hc, hcs⟩ := List.forall_mem_cons.1 h
    obtain ⟨b, hb⟩ : ∃ b, String.utf8EncodeChar c = [b] := by
      rw [← List.length_eq_one_iff, String.length_utf8EncodeChar, Char.utf8Size_eq_one_iff]
      exact hc
    rw [List.flatMap_cons, hb, List.singleton_append, List.prefix_cons_iff] at hbs
    rcases hbs with rfl | ⟨bs, rfl, hbs⟩
    · exact ⟨[], List.nil_prefix, rfl⟩
    · obtain ⟨ds, hds, rfl⟩ := ih hcs hbs
      exact ⟨c :: ds, List.cons_prefix_cons.2 ⟨rfl, hds⟩, by rw [List.flatMap_cons, hb]; rfl⟩

theorem Bytes.utf8_prefix {cs ds : List Char} (h : cs <+: ds) :
    utf8 (String.ofList cs) <+: utf8 (String.ofList ds) := by
  obtain ⟨es, rfl⟩ := h
  rw [utf8_ofList, utf8_ofList, List.flatMap_append]
  exact List.prefix_append _ _

namespace Text

/-- **The first digits of a number are the digits of a quotient.** -/
theorem exists_digits_of_prefix {n : Nat} {cs : List Char} (hne : cs ≠ []) (h : cs <+: digits n) :
    ∃ k, cs = digits (n / 10 ^ k) ∧ (0 < k → 10 ^ k ≤ n) := by
  -- the last digit is there or not; if not, the others are those of a tenth
  induction n using Nat.strongRecOn with
  | ind n ih =>
    rcases Nat.lt_or_ge n 10 with hn | hn
    · rw [digits, Nat.toDigits_of_lt_base hn, List.prefix_cons_iff] at h
      obtain ⟨cs', rfl, hcs'⟩ := h.resolve_left hne
      refine ⟨0, ?_, fun h => absurd h (Nat.lt_irrefl 0)⟩
      rw [List.prefix_nil.1 hcs', Nat.pow_zero, Nat.div_one, digits, Nat.toDigits_of_lt_base hn]
    · rw [digits, Nat.toDigits_of_base_le (by decide) hn, List.prefix_concat_iff] at h
      rcases h with rfl | h
      · refine ⟨0, ?_, fun h => absurd h (Nat.lt_irrefl 0)⟩
        rw [Nat.pow_zero, Nat.div_one, digits, ← Nat.toDigits_of_base_le (by decide) hn]
      · obtain ⟨k, rfl, hk⟩ := ih (n / 10) (by omega) h
        refine ⟨k + 1, ?_, fun _ => ?_⟩
        · rw [Nat.pow_succ', Nat.div_div_eq_div_mul]
        · rcases Nat.eq_zero_or_pos k with rfl | hpos
          · simpa using hn
          · have := hk hpos
            rw [Nat.pow_succ]
            omega

theorem lines.go_of_not_mem {line cs : List Char} (hne : line.reverse ++ cs ≠ []) (h : '\n' ∉ cs) :
    lines.go line cs = [line.reverse ++ cs] := by
  induction cs generalizing line with
  | nil =>
    rw [List.append_nil] at hne ⊢
    rw [lines.go, if_neg (by simpa using hne)]
  | cons c cs ih =>
    rw [List.mem_cons, not_or] at h
    rw [lines.go]
    · rw [ih (by simp) h.2, List.reverse_cons, List.append_assoc, List.singleton_append]
    · exact fun hc => h.1 hc.symm

theorem lines_eq_singleton {cs : List Char} (hne : cs ≠ []) (h : '\n' ∉ cs) : lines cs = [cs] := by
  show lines.go [] cs = [cs]
  exact lines.go_of_not_mem hne h

end Text

namespace Manifest

/-! ## Where a cut can fall -/

/-- The text of some whole lines and of the beginning `tail` of another one. -/
def cutText (records : List Record) (tail : List Char) : List Char :=
  (records.map entryLine).flatMap (· ++ ['\n']) ++ tail

/-- An entry with a time whose last `k` digits are missing. -/
def shorten (k : Nat) (r : Record) : Record := (r.1, UInt64.ofNat (r.2.toNat / 10 ^ k))

/-- What a cut leaves of the text of `records`. -/
inductive Cut (records : List Record) : List Char → Prop
  /-- Nothing is left of the next line. -/
  | between (before : List Record) {after : List Record} (split : records = before ++ after) :
    Cut records (cutText before [])
  /-- No digit is left of the time on the last line. -/
  | early (before : List Record) {after : List Record} {r : Record} {tail : List Char}
    (split : records = before ++ r :: after) (hne : tail ≠ []) (h : tail <+: r.1.toList ++ [' ']) :
    Cut records (cutText before tail)
  /-- Some digits are left of it, and `k` are missing, or none is and only the line feed is. -/
  | late (before : List Record) {after : List Record} {r : Record} (k : Nat)
    (split : records = before ++ r :: after) (h : 0 < k → 10 ^ k ≤ r.2.toNat) :
    Cut records (cutText before (entryLine (shorten k r)))

theorem toNat_shorten (k : Nat) (r : Record) : (shorten k r).2.toNat = r.2.toNat / 10 ^ k :=
  UInt64.toNat_ofNat_of_lt' (Nat.lt_of_le_of_lt (Nat.div_le_self _ _) r.2.toNat_lt_size)

theorem entryLine_shorten (k : Nat) (r : Record) :
    entryLine (shorten k r) = r.1.toList ++ ' ' :: Text.digits (r.2.toNat / 10 ^ k) := by
  rw [entryLine, toNat_shorten]
  rfl

theorem cutText_cons (r : Record) (records : List Record) (tail : List Char) :
    cutText (r :: records) tail = entryLine r ++ ['\n'] ++ cutText records tail := by
  simp [cutText]

theorem Cut.cons {records : List Record} {cs : List Char} (h : Cut records cs) (r : Record) :
    Cut (r :: records) (entryLine r ++ ['\n'] ++ cs) := by
  cases h with
  | between before split =>
    rw [← cutText_cons, split]
    exact .between (r :: before) rfl
  | early before split hne h =>
    rw [← cutText_cons, split]
    exact .early (r :: before) rfl hne h
  | late before k split h =>
    rw [← cutText_cons, split]
    exact .late (r :: before) k rfl h

theorem cut_of_prefix_entryLine {r : Record} {cs : List Char} (h : cs <+: entryLine r)
    (after : List Record) : Cut (r :: after) cs := by
  rcases eq_or_ne cs [] with rfl | hne
  · exact .between [] rfl
  have hline : entryLine r = r.1.toList ++ [' '] ++ Text.digits r.2.toNat := by simp [entryLine]
  rw [hline] at h
  rcases Text.prefix_append_cases h with hearly | ⟨ds, hprefix, rfl⟩
  · exact .early [] rfl hne hearly
  rcases eq_or_ne ds [] with rfl | hds
  · exact .early [] rfl hne (by simp)
  obtain ⟨k, rfl, hk⟩ := Text.exists_digits_of_prefix hds hprefix
  have hlate : r.1.toList ++ [' '] ++ Text.digits (r.2.toNat / 10 ^ k)
      = cutText [] (entryLine (shorten k r)) := by
    simp [cutText, entryLine_shorten]
  rw [hlate]
  exact .late [] k rfl hk

/-- **A cut falls between lines, before the digits of a line, or after some of them.** -/
theorem cut_of_prefix {records : List Record} {cs : List Char} (h : cs <+: cutText records []) :
    Cut records cs := by
  induction records generalizing cs with
  | nil =>
    obtain rfl := List.prefix_nil.1 h
    exact .between [] rfl
  | cons r records ih =>
    rw [cutText_cons] at h
    rcases Text.prefix_append_cases h with hline | ⟨cs, hrest, rfl⟩
    · rcases List.prefix_concat_iff.1 hline with rfl | hline
      · have hnext : entryLine r ++ ['\n'] = cutText [r] [] := by simp [cutText]
        rw [hnext]
        exact .between [r] rfl
      · exact cut_of_prefix_entryLine hline records
    · exact (ih hrest).cons r

theorem ascii_of_mem_cutText {records : List Record}
    (h : ∀ r ∈ records, isLocation r.1.toList = true) : ∀ c ∈ cutText records [], c.val ≤ 127 := by
  have hplain : ∀ c : Char, c.isDigit = true ∨ ('a' ≤ c ∧ c ≤ 'f') → c.val ≤ 127 := by
    intro c hc
    show c.toNat ≤ 127
    have := Text.toNat_of_plain hc
    omega
  intro c hc
  rw [cutText, List.append_nil, List.mem_flatMap] at hc
  obtain ⟨l, hl, hc⟩ := hc
  obtain ⟨r, hr, rfl⟩ := List.mem_map.1 hl
  rw [entryLine, List.append_assoc, List.cons_append, List.mem_append, List.mem_cons,
    List.mem_append, List.mem_singleton] at hc
  rcases hc with hc | rfl | hc | rfl
  · exact hplain c ((plain_of_isLocation (h r hr)).2 c hc)
  · decide
  · exact hplain c (.inl (Text.isDigit_of_mem_digits hc))
  · decide

/-! ## What is loaded after a cut -/

section

variable {before : List Record} (h : ∀ r ∈ before, isLocation r.1.toList = true)

include h

theorem ofText_cutText {tail : List Char} (hne : tail ≠ []) (hfeed : '\n' ∉ tail) :
    ofText (String.ofList (cutText before tail))
      = (ofRecords before).loadLines (1 + before.length) [tail] := by
  rw [ofText, String.toList_ofList, cutText, Text.lines_flatMap_append (unbroken_entryLines h),
    Text.lines_eq_singleton hne hfeed, loadLines_entryLines_append _ _ h]
  rfl

variable {r : Record} (hr : isLocation r.1.toList = true)

include hr

theorem ofText_cut_early {tail : List Char} (hne : tail ≠ [])
    (htail : tail <+: r.1.toList ++ [' ']) :
    ofText (String.ofList (cutText before tail))
      = .error (.malformedLine (before.length + 1) (String.ofList tail)) := by
  have hmem : ∀ c ∈ tail, c ∈ r.1.toList ∨ c = ' ' := fun c hc => by
    simpa using htail.subset hc
  have hfeed : '\n' ∉ tail := fun hc => (hmem _ hc).elim
    (fun hc => absurd (isBlank_of_mem_location hr hc) (by decide)) (by decide)
  have hentry : entryOf? tail = none := by
    have hspace : ' ' ∉ r.1.toList := fun hc => ne_space_of_mem_location hr hc rfl
    rcases List.prefix_concat_iff.1 htail with rfl | htail
    · rw [entryOf?_append hspace]
      simp [Text.trim, Text.readNatural?]
    · exact entryOf?_of_not_mem fun hc => hspace (htail.subset hc)
  have hblank : tail.all Text.isBlank = false := by
    obtain ⟨c, cs, hcs⟩ : ∃ c cs, r.1.toList = c :: cs := by
      refine List.exists_cons_of_length_pos ?_
      rw [(plain_of_isLocation hr).1]
      decide
    obtain ⟨d, ds, rfl⟩ := List.exists_cons_of_ne_nil hne
    rw [hcs, List.cons_append, List.cons_prefix_cons] at htail
    have hc := isBlank_of_mem_location hr (hcs ▸ List.mem_cons_self)
    rw [List.all_cons, htail.1, hc, Bool.false_and]
  rw [ofText_cutText h hne hfeed, loadLines, hblank, hentry, Nat.add_comm 1]
  rfl

theorem ofText_cut_late :
    ofText (String.ofList (cutText before (entryLine r))) = .ok (ofRecords (before ++ [r])) := by
  have hne : entryLine r ≠ [] := by simp [entryLine]
  rw [ofText_cutText h hne (entryLine_unbroken hr).1, ofRecords_append, loadLines,
    not_all_isBlank_entryLine hr, entryOf?_entryLine hr]
  rfl

end

/-! ## What a manifest says -/

theorem order_ofRecords_sublist (records : List Record) :
    (ofRecords records).order.Sublist (records.map (·.1)) := by
  induction records using List.reverseRecOn with
  | nil => exact List.Sublist.refl _
  | append_singleton records r ih =>
    rw [ofRecords_append, List.map_append, record]
    split
    · exact ih.trans (List.sublist_append_left _ _)
    · exact ih.append_right _

theorem mem_of_timestamp_ofRecords {records : List Record} {l : Location} {t : UInt64}
    (h : (ofRecords records).timestamps.get? l = some t) : (l, t) ∈ records := by
  rw [(inStep_ofRecords records).lasts, List.lookup_eq_some_iff] at h
  obtain ⟨later, earlier, hrecords, -⟩ := h
  rw [← List.mem_reverse, hrecords]
  exact List.mem_append_right _ List.mem_cons_self

theorem timestamp_ofRecords_append (records : List Record) (r : Record) :
    (ofRecords (records ++ [r])).timestamps.get? r.1 = some r.2 := by
  rw [ofRecords_append, record, Dict.get?_insert, if_pos rfl]

/-- What was recorded of an append. -/
def recordOf (a : Appended) : Record := (a.location, a.details.timestamp)

/-- All that the manifest lists was appended, at the time that the manifest has for it, and in the
order of the appends. -/
structure Faithful (m : Manifest) (as : List Appended) : Prop where
  in_order : m.order.Sublist (as.map (·.location))
  timed : ∀ l ∈ m.order, ∃ a ∈ as, a.location = l ∧ m.timestamps.get? l = some a.details.timestamp

theorem faithful_ofRecords {as : List Appended} {records : List Record}
    (horder : (records.map (·.1)).Sublist ((as.map recordOf).map (·.1)))
    (hmem : ∀ r ∈ records, r ∈ as.map recordOf) : (ofRecords records).Faithful as where
  in_order := by
    rw [List.map_map] at horder
    exact (order_ofRecords_sublist records).trans horder
  timed l hl := by
    have hcontains := ((inStep_ofRecords records).valid l).2 hl
    obtain ⟨t, ht⟩ := Option.isSome_iff_exists.1 hcontains
    obtain ⟨a, ha, he⟩ := List.mem_map.1 (hmem _ (mem_of_timestamp_ofRecords ht))
    obtain ⟨rfl, rfl⟩ := Prod.mk.inj he
    exact ⟨a, ha, rfl, ht⟩

theorem not_faithful_ofRecords {as : List Appended} {records : List Record} {r : Record}
    (hr : ∀ a ∈ as, a.location = r.1 → a.details.timestamp ≠ r.2) :
    ¬ (ofRecords (records ++ [r])).Faithful as := by
  intro hfaithful
  have ht := timestamp_ofRecords_append records r
  have hvalid := (inStep_ofRecords (records ++ [r])).valid
  have hlisted := (hvalid r.1).1 (Option.isSome_iff_exists.2 ⟨_, ht⟩)
  obtain ⟨a, ha, hl, hta⟩ := hfaithful.timed r.1 hlisted
  exact hr a ha hl (Option.some.inj (hta.symm.trans ht))

/-- **What is loaded after a cut was appended, or the last time is a wrong one.** -/
theorem Cut.faithful_or {as : List Appended}
    (hlocations : ∀ r ∈ as.map recordOf, isLocation r.1.toList = true) {cs : List Char}
    (hcut : Cut (as.map recordOf) cs) {m : Manifest} (hm : ofText (String.ofList cs) = .ok m) :
    m.Faithful as ∨ ∃ before r after k, as.map recordOf = before ++ r :: after ∧
      (0 < k → 10 ^ k ≤ r.2.toNat) ∧ cs = cutText before (entryLine (shorten k r)) ∧
      shorten k r ∉ as.map recordOf := by
  cases hcut with
  | @between before after split =>
    rw [split, List.forall_mem_append] at hlocations
    rw [cutText, List.append_nil, ← listing, ofText_listing hlocations.1] at hm
    obtain rfl := Except.ok.inj hm
    refine .inl (faithful_ofRecords ?_ fun r hr => ?_) <;> rw [split]
    · rw [List.map_append]
      exact List.sublist_append_left _ _
    · exact List.mem_append_left _ hr
  | @early before after r tail split hne htail =>
    rw [split, List.forall_mem_append, List.forall_mem_cons] at hlocations
    rw [ofText_cut_early hlocations.1 hlocations.2.1 hne htail] at hm
    cases hm
  | @late before after r k split hk =>
    by_cases hmem : shorten k r ∈ as.map recordOf
    · rw [split, List.forall_mem_append, List.forall_mem_cons] at hlocations
      rw [ofText_cut_late hlocations.1 (r := shorten k r) hlocations.2.1] at hm
      obtain rfl := Except.ok.inj hm
      refine .inl (faithful_ofRecords ?_ fun e he => ?_)
      · rw [split, List.map_append, List.map_append, List.map_cons, List.map_cons, List.map_nil]
        exact ((List.nil_sublist _).cons_cons r.1).append_left _
      · rcases List.mem_append.1 he with he | he
        · rw [split]
          exact List.mem_append_left _ he
        · rwa [List.mem_singleton.1 he]
    · exact .inr ⟨before, r, after, k, split, hk, rfl, hmem⟩

end Manifest

/-! ## A folder with a torn manifest -/

namespace FolderStore

open Manifest (recordOf cutText shorten entryLine ofRecords Cut)

/-- What is in the manifest file, if it is there. -/
def manifestFile (s : FolderStore) : Bytes := (s.folder.get? manifestName).getD []

/-- The folder with only `cut` left in the manifest file. -/
def torn (s : FolderStore) (cut : Bytes) : Folder := s.folder.insert manifestName cut

/-- The cut falls between two digits of the time of `a`: the last `k` are missing, and the others
are a time at which nothing was appended there. (One location has several times only if hashes
collide.) -/
def CutsTime (as : List Appended) (cut : Bytes) : Prop :=
  ∃ before a after k, as = before ++ a :: after ∧ 0 < k ∧ 10 ^ k ≤ a.details.timestamp.toNat ∧
    cut = Bytes.utf8 (String.ofList (cutText (before.map recordOf)
      (a.location.toList ++ ' ' :: Text.digits (a.details.timestamp.toNat / 10 ^ k)))) ∧
    ∀ b ∈ as, b.location = a.location →
      b.details.timestamp.toNat ≠ a.details.timestamp.toNat / 10 ^ k

theorem exists_runStore_lists (calls : List StoreCall) {s : FolderStore}
    {records : List Manifest.Record} (h : s.Lists records) :
    ∃ as s', runStore reopen s calls = .ok (as, s') ∧
      as.map (·.details) = (StoreCall.drafts calls).map (Draft.details .file) ∧
      s'.Lists (records ++ as.map recordOf) := by
  induction calls generalizing s records with
  | nil => exact ⟨[], s, rfl, rfl, by rwa [List.map_nil, List.append_nil]⟩
  | cons call calls ih =>
    cases call with
    | reopen =>
      obtain ⟨as, s', hrun, hdetails, hs'⟩ := ih h
      exact ⟨as, s', by rw [runStore, h.reopen]; exact hrun, hdetails, hs'⟩
    | append d =>
      obtain ⟨as, s', hrun, hdetails, hs'⟩ := ih (h.append d.now d.content)
      refine ⟨(s.append d.now d.content).1 :: as, s', ?_, ?_, ?_⟩
      · rw [runStore]
        simp only [Store.append, bind, Except.bind, hrun]
        rfl
      · rw [List.map_cons, hdetails]
        rfl
      · rwa [List.append_assoc, List.singleton_append] at hs'

section

variable {s : FolderStore} {records : List Manifest.Record} (h : s.Lists records)

include h

theorem Lists.manifestFile_eq :
    s.manifestFile = Bytes.utf8 (String.ofList (cutText records [])) := by
  rw [cutText, List.append_nil, manifestFile]
  rcases h.file with hfile | ⟨hfile, rfl⟩ <;> rw [hfile]
  · rfl
  · rfl

theorem Lists.exists_cut {cut : Bytes} (hcut : cut <+: s.manifestFile) :
    ∃ cs, Cut records cs ∧ cut = Bytes.utf8 (String.ofList cs) := by
  rw [h.manifestFile_eq] at hcut
  have hascii := Manifest.ascii_of_mem_cutText h.isLocation
  obtain ⟨cs, hcs, rfl⟩ := Bytes.exists_utf8_of_prefix hascii hcut
  exact ⟨cs, Manifest.cut_of_prefix hcs, rfl⟩

end

/-- **A torn folder is opened with what is left of its manifest**, if that can be loaded. -/
theorem ofFolder_torn_eq_ok {s opened : FolderStore} {text : String} :
    ofFolder (s.torn (Bytes.utf8 text)) = .ok opened
      ↔ Manifest.ofText text = .ok opened.manifest
        ∧ opened.folder = s.torn (Bytes.utf8 text) := by
  obtain ⟨folder, manifest⟩ := opened
  have hfile : (s.torn (Bytes.utf8 text)).get? manifestName = some (Bytes.utf8 text) := by
    rw [torn, Dict.get?_insert, if_pos rfl]
  rw [ofFolder, Folder.readText?, hfile]
  simp only [Bytes.text?_utf8, bind, Except.bind]
  cases Manifest.ofText text with
  | error e => simp
  | ok m => simp [pure, Except.pure, eq_comm, and_comm]

section

variable {s : FolderStore} {as : List Appended} (h : s.Lists (as.map recordOf)) {cut : Bytes}

include h

theorem Lists.cutsTime_of_misread (hcut : cut <+: s.manifestFile) {opened : FolderStore}
    (hopen : ofFolder (s.torn cut) = .ok opened) (hmisread : ¬ opened.manifest.Faithful as) :
    CutsTime as cut := by
  obtain ⟨cs, hcs, rfl⟩ := h.exists_cut hcut
  obtain ⟨htext, -⟩ := ofFolder_torn_eq_ok.1 hopen
  obtain ⟨_, _, _, k, split, hk, rfl, hother⟩ :=
    (hcs.faithful_or h.isLocation htext).resolve_left hmisread
  obtain ⟨before, _, rfl, rfl, hrest⟩ := List.map_eq_append_iff.1 split
  obtain ⟨a, after, rfl, rfl, rfl⟩ := List.map_eq_cons_iff.1 hrest
  have hpos : 0 < k := by
    rcases Nat.eq_zero_or_pos k with rfl | hpos
    · refine absurd ?_ hother
      simp [shorten]
    · exact hpos
  refine ⟨before, a, after, k, rfl, hpos, hk hpos, by rw [Manifest.entryLine_shorten]; rfl, ?_⟩
  intro b hb hl ht
  refine hother (List.mem_map.2 ⟨b, hb, ?_⟩)
  rw [recordOf, hl, ← UInt64.ofNat_toNat (x := b.details.timestamp), ht]
  rfl

theorem Lists.misread_of_cutsTime (hcut : CutsTime as cut) :
    ∃ opened, ofFolder (s.torn cut) = .ok opened ∧ ¬ opened.manifest.Faithful as := by
  obtain ⟨before, a, after, k, rfl, -, -, rfl, hother⟩ := hcut
  have hlocations := h.isLocation
  rw [List.map_append, List.map_cons, List.forall_mem_append, List.forall_mem_cons] at hlocations
  have htext := Manifest.ofText_cut_late hlocations.1 (r := shorten k (recordOf a)) hlocations.2.1
  rw [Manifest.entryLine_shorten] at htext
  refine ⟨⟨_, _⟩, ofFolder_torn_eq_ok.2 ⟨htext, rfl⟩, Manifest.not_faithful_ofRecords ?_⟩
  intro b hb hl ht
  refine hother b hb hl ?_
  rw [ht, Manifest.toNat_shorten]
  rfl

end

/-- **A torn manifest is misread exactly if it was torn between two digits of a time.** Any texts
are appended at any times, with the folder closed and opened in between; no append fails. Then any
number of bytes may be missing at the end of the manifest file. Unless what is left of it ends with
some digits of a time, but not all, opening fails or lists what was appended, in order and with the
times of the appends. -/
theorem misread_iff_cutsTime {folder : Folder} (hnew : folder.get? manifestName = none)
    (calls : List StoreCall) :
    ∃ as s, runStore reopen ⟨folder, .empty⟩ calls = .ok (as, s) ∧
      as.map (·.details) = (StoreCall.drafts calls).map (Draft.details .file) ∧
      s.manifestFile = Bytes.utf8 (Manifest.listing (as.map recordOf)) ∧
      ∀ cut, cut <+: s.manifestFile →
        ((∃ opened, ofFolder (s.torn cut) = .ok opened ∧ ¬ opened.manifest.Faithful as)
          ↔ CutsTime as cut) := by
  have hnone : Lists ⟨folder, .empty⟩ [] := ⟨by simp, .inr ⟨hnew, rfl⟩, rfl⟩
  obtain ⟨as, s, hrun, hdetails, hlists⟩ := exists_runStore_lists calls hnone
  rw [List.nil_append] at hlists
  refine ⟨as, s, hrun, hdetails, ?_, fun cut hcut => ⟨?_, hlists.misread_of_cutsTime⟩⟩
  · rw [hlists.manifestFile_eq, cutText, List.append_nil, Manifest.listing]
  · rintro ⟨opened, hopen, hmisread⟩
    exact hlists.cutsTime_of_misread hcut hopen hmisread

theorem misread_year :
    ∃ a b s opened, runStore reopen ⟨∅, .empty⟩ [.append ⟨7, "{}"⟩, .reopen, .append ⟨1999, "[]"⟩]
        = .ok ([a, b], s) ∧
      Bytes.utf8 (a.location ++ " 7\n" ++ b.location ++ " 19") <+: s.manifestFile ∧
      ofFolder (s.torn (Bytes.utf8 (a.location ++ " 7\n" ++ b.location ++ " 19"))) = .ok opened ∧
      ¬ opened.manifest.Faithful [a, b] := by
  obtain ⟨as, s, hrun, hdetails, hfile, hiff⟩ := misread_iff_cutsTime (Dict.get?_empty manifestName)
    [.append ⟨7, "{}"⟩, .reopen, .append ⟨1999, "[]"⟩]
  obtain ⟨a, as, rfl, ha, hrest⟩ := List.map_eq_cons_iff.1 hdetails
  obtain ⟨b, as, rfl, hb, hrest⟩ := List.map_eq_cons_iff.1 hrest
  obtain rfl := List.map_eq_nil_iff.1 hrest
  have hta : a.details.timestamp = 7 := congrArg StorageMeta.timestamp ha
  have htb : b.details.timestamp = 1999 := congrArg StorageMeta.timestamp hb
  have hcut : a.location ++ " 7\n" ++ b.location ++ " 19"
      = String.ofList (cutText [recordOf a] (b.location.toList ++ ' ' :: Text.digits 19)) := by
    apply String.toList_inj.1
    simp [cutText, entryLine, recordOf, hta]
    rfl
  have hprefix : Bytes.utf8 (a.location ++ " 7\n" ++ b.location ++ " 19") <+: s.manifestFile := by
    rw [hfile, hcut]
    refine Bytes.utf8_prefix ⟨['9', '9', '\n'], ?_⟩
    simp [cutText, entryLine, recordOf, htb]
    decide
  obtain ⟨opened, hopen, hmisread⟩ := (hiff _ hprefix).2
    ⟨[a], b, [], 2, rfl, by decide, by rw [htb]; decide, by rw [hcut, htb]; rfl, by simp [hta, htb]⟩
  exact ⟨a, b, s, opened, hrun, hprefix, hopen, hmisread⟩

theorem read_eq_ok {s : FolderStore} {l : Location} {t : UInt64} {content : String}
    (hl : isLocation l.toList = true) (ht : s.manifest.timestamps.get? l = some t)
    (hblock : s.folder.get? (blockName l) = some (Bytes.utf8 content)) :
    s.read l = .ok ⟨content, .file, content.utf8ByteSize, t⟩ := by
  rw [read, hl, ht, Folder.readText?, hblock]
  simp only [Bytes.text?_utf8]
  rfl

/-- **An entry that was appended at 123 is read as one of 12**, if the manifest is torn before the
last digit. -/
theorem torn_time_misread :
    ∃ a s opened, runStore reopen ⟨∅, .empty⟩ [.append ⟨123, "{}"⟩] = .ok ([a], s) ∧
      a.details.timestamp = 123 ∧
      Bytes.utf8 (a.location ++ " 12") <+: s.manifestFile ∧
      ofFolder (s.torn (Bytes.utf8 (a.location ++ " 12"))) = .ok opened ∧
      ¬ opened.manifest.Faithful [a] ∧
      opened.read a.location = .ok ⟨"{}", .file, 2, 12⟩ := by
  let new : FolderStore := ⟨∅, .empty⟩
  let a := (new.append 123 "{}").1
  let s := (new.append 123 "{}").2
  have hnew : new.Lists [] := ⟨by simp, .inr ⟨Dict.get?_empty _, rfl⟩, rfl⟩
  have hlists : s.Lists ([a].map recordOf) := hnew.append 123 "{}"
  have hcut : a.location ++ " 12" = String.ofList (cutText [] (entryLine (a.location, 12))) := by
    apply String.toList_inj.1
    simp [cutText, entryLine]
    rfl
  have hprefix : Bytes.utf8 (a.location ++ " 12") <+: s.manifestFile := by
    rw [hlists.manifestFile_eq, hcut]
    refine Bytes.utf8_prefix ⟨['3', '\n'], ?_⟩
    simp [cutText, entryLine, recordOf, show a.details.timestamp = 123 from rfl]
    rfl
  have hlocation : isLocation a.location.toList = true := isLocation_blockLocation _ _
  have htext : Manifest.ofText (String.ofList (cutText [] (entryLine (a.location, 12))))
      = .ok (ofRecords ([] ++ [(a.location, 12)])) :=
    Manifest.ofText_cut_late (by simp) hlocation
  rw [← hcut] at htext
  refine ⟨a, s, ⟨s.torn (Bytes.utf8 (a.location ++ " 12")), ofRecords ([] ++ [(a.location, 12)])⟩,
    rfl, rfl, hprefix, ofFolder_torn_eq_ok.2 ⟨htext, rfl⟩, Manifest.not_faithful_ofRecords ?_,
    read_eq_ok hlocation (Manifest.timestamp_ofRecords_append _ _) ?_⟩
  · rw [List.forall_mem_singleton]
    exact fun _ => (by decide : (123 : UInt64) ≠ 12)
  · rw [torn, Dict.get?_insert, if_neg (blockName_ne_manifestName _), get?_append, if_pos rfl]

end FolderStore

end ChannelLog
