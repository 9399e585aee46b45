import ChannelLog.Proofs.Channel.Origin
import ChannelLog.Proofs.Channel.Writing
import ChannelLog.Proofs.Keyring
import ChannelLog.Proofs.Transaction
import Mathlib.Data.Finset.Filter
import Mathlib.Data.Finset.Range

/-!
# What a replay does not depend on

A transaction changes the kind of its channel only if it opens the channel, and it opens the channel
only if it is valid and the kind was unknown.

* `Replay.append_only`: **what comes later changes nothing of what was replayed**, and neither the
  kind once it is known.
* `Replay.kindOf_determined`: **following a history up to its origin gives the kind of the whole
  replay**, whatever comes after the origin.
* `Replay.step_ignored` for one transaction, `Replay.resume_withoutFrom` for a history and from it
  `Replay.ignored_inert`: **an ignored transaction changes nothing**; with any of them left out, all
  others are replayed as before.
-/

namespace ChannelLog

/-! ## Lists without some positions -/

/-- The list without the entries at the positions in `removed`; its first entry is at `start`. -/
def withoutFrom {α : Type} (removed : Finset Nat) (start : Nat) (xs : List α) : List α :=
  ((xs.zipIdx start).filter (·.2 ∉ removed)).map (·.1)

/-- The list without the entries at the positions in `removed`. -/
def without {α : Type} (removed : Finset Nat) (xs : List α) : List α := withoutFrom removed 0 xs

section

variable {α β : Type} {removed : Finset Nat} {start : Nat}

theorem withoutFrom_cons (x : α) (xs : List α) :
    withoutFrom removed start (x :: xs)
      = if start ∈ removed then withoutFrom removed (start + 1) xs
        else x :: withoutFrom removed (start + 1) xs := by
  by_cases h : start ∈ removed <;> simp [withoutFrom, List.zipIdx_cons, h]

theorem without_map (removed : Finset Nat) (f : α → β) (xs : List α) :
    without removed (xs.map f) = (without removed xs).map f := by
  suffices h : ∀ start, withoutFrom removed start (xs.map f)
      = (withoutFrom removed start xs).map f from h 0
  induction xs with
  | nil => exact fun _ => rfl
  | cons x xs ih =>
    intro start
    rw [List.map_cons, withoutFrom_cons, withoutFrom_cons, ih]
    split <;> rfl

theorem without_eq_filter {p : α → Bool} {xs : List α}
    (h : ∀ i x, xs[i]? = some x → (i ∈ removed ↔ p x = false)) :
    without removed xs = xs.filter p := by
  have hkept : ∀ e ∈ xs.zipIdx, decide (e.2 ∉ removed) = p e.1 := by
    intro e he
    have hat := h e.2 e.1 (List.mem_zipIdx_iff_getElem?.1 he)
    cases hp : p e.1 <;> simp [hat, hp]
  rw [without, withoutFrom, List.filter_congr hkept, ← Function.comp_def p, ← List.filter_map,
    List.zipIdx_map_fst]

end

namespace Replay

variable {κ : Type} [KeyHolder κ] {holder : Option κ} {id : String} {kind : ChannelKind}
  {c : Confirmed} {p : Parsed} {w : Validated} {history : List Confirmed}

/-! ## More transactions -/

/-- **What comes later changes nothing of what was replayed**: neither the entries, nor, once the
kind is known, the type of the channel, its key and its method. -/
theorem append_only (holder : Option κ) (id : String) (history more : List Confirmed) :
    let r := ofHistory holder id history
    let r' := ofHistory holder id (history ++ more)
    r'.validEntries.take history.length = r.validEntries ∧
    r'.ignoredEntries.take history.length = r.ignoredEntries ∧
    (r.kind.type ≠ .unknown → r'.kind.type = r.kind.type ∧ r'.kind.key? = r.kind.key? ∧
      r'.kind.method? = r.kind.method?) := by
  intro r r'
  have hlength : r.entries.length = history.length := length_entries_resume history
  have hentries : r'.entries.take history.length = r.entries := by
    have hr' : r' = _ := resume_append holder id .unknown history more
    rw [hr', ← hlength]
    exact List.take_left
  refine ⟨?_, ?_, fun hknown => ?_⟩
  · rw [validEntries, ← List.map_take, hentries, validEntries]
  · rw [ignoredEntries, ← List.map_take, hentries, ignoredEntries]
  · have hne : r.kind ≠ .unknown := by
      intro hk
      exact hknown (by rw [hk]; rfl)
    have hkind : r'.kind = r.kind := congrArg (·.kind) (ofHistory_append hne more)
    rw [hkind]
    exact ⟨rfl, rfl, rfl⟩

/-! ## Up to the origin -/

theorem IsOrigin.of_take_eq {history' : List Confirmed} {o : Nat}
    (h : IsOrigin holder id history o c p w)
    (hsame : history'.take (o + 1) = history.take (o + 1)) :
    IsOrigin holder id history' o c p w := by
  have hat : ∀ i ≤ o, history'[i]? = history[i]? := by
    intro i hi
    rw [← List.getElem?_take_of_lt (Nat.lt_succ_of_le hi), hsame,
      List.getElem?_take_of_lt (Nat.lt_succ_of_le hi)]
  exact {
    at_o := (hat o (Nat.le_refl o)).trans h.at_o
    opens := h.opens
    least := fun i hi d hd => h.least i hi d ((hat i (Nat.le_of_lt hi)).symm.trans hd) }

/-- **Following a history up to its origin gives the type and the key of the whole replay**, and
whatever comes after the origin leaves them as they are. -/
theorem kindOf_determined (holder : Option κ) (id : String) (history : List Confirmed) :
    (kindOf holder id history).type = (ofHistory holder id history).kind.type ∧
    (kindOf holder id history).key? = (ofHistory holder id history).kind.key? ∧
    ∀ o c p w, IsOrigin holder id history o c p w → ∀ more,
      kindOf holder id (history.take (o + 1) ++ more) = kindOf holder id history := by
  refine ⟨by rw [kindOf_eq], by rw [kindOf_eq], fun o c p w horigin more => ?_⟩
  obtain ⟨hlt, -⟩ := List.getElem?_eq_some_iff.1 horigin.at_o
  have hlength : (history.take (o + 1)).length = o + 1 := by
    rw [List.length_take]
    omega
  have horigin' : IsOrigin holder id (history.take (o + 1) ++ more) o c p w :=
    horigin.of_take_eq (List.take_left' hlength)
  rw [kindOf_eq, kindOf_eq, kind_ofHistory horigin, kind_ofHistory horigin']

/-! ## Without ignored transactions -/

theorem step_ignored (h : (step holder id kind c).1.isValid = false) :
    (step holder id kind c).2 = kind := by
  cases hj : judge holder id kind c.transaction with
  | error reason => rw [step, hj]
  | ok r =>
    rw [step, hj] at h
    cases h

theorem resume_withoutFrom {removed : Finset Nat} {start : Nat}
    (h : ∀ i e, (resume holder id kind history).entries[i]? = some e → start + i ∈ removed →
      e.isValid = false) :
    resume holder id kind (withoutFrom removed start history)
      = ⟨(resume holder id kind history).kind,
        withoutFrom removed start (resume holder id kind history).entries⟩ := by
  induction history generalizing kind start with
  | nil => rfl
  | cons c rest ih =>
    have hrest : resume holder id (step holder id kind c).2 (withoutFrom removed (start + 1) rest)
        = ⟨(resume holder id (step holder id kind c).2 rest).kind, withoutFrom removed (start + 1)
          (resume holder id (step holder id kind c).2 rest).entries⟩ :=
      ih fun i e he hi => h (i + 1) e he (by rwa [Nat.add_right_comm] at hi)
    rw [resume_cons, withoutFrom_cons, withoutFrom_cons]
    split
    · next hremoved =>
      have hsame : (step holder id kind c).2 = kind := step_ignored (h 0 _ rfl hremoved)
      rw [hsame] at hrest ⊢
      exact hrest
    · rw [resume_cons, hrest]

/-- The positions of the transactions that are reported as ignored. -/
def ignoredPositions (r : Replay) : Finset Nat :=
  (Finset.range r.ignoredEntries.length).filter fun i => (r.ignoredEntries[i]?.join).isSome

theorem mem_ignoredPositions_iff {r : Replay} {i : Nat} {e : ReplayEntry}
    (he : r.entries[i]? = some e) : i ∈ r.ignoredPositions ↔ e.isValid = false := by
  obtain ⟨hlt, -⟩ := List.getElem?_eq_some_iff.1 he
  rw [ignoredPositions, Finset.mem_filter, Finset.mem_range, ignoredEntries, List.length_map,
    List.getElem?_map, he]
  cases e with
  | valid data timestamp => simp [ReplayEntry.isValid]
  | ignored reason c => simp [ReplayEntry.isValid, hlt]

theorem without_ignoredPositions (r : Replay) :
    without r.ignoredPositions r.entries = r.entries.filter (·.isValid) :=
  without_eq_filter fun _ _ he => mem_ignoredPositions_iff he

theorem ofHistory_without {removed : Finset Nat}
    (h : removed ⊆ (ofHistory holder id history).ignoredPositions) :
    ofHistory holder id (without removed history)
      = ⟨(ofHistory holder id history).kind,
        without removed (ofHistory holder id history).entries⟩ := by
  apply resume_withoutFrom
  intro i e he hi
  rw [Nat.zero_add] at hi
  exact (mem_ignoredPositions_iff he).1 (h hi)

/-- **An ignored transaction changes nothing.** With any of them left out the replay has the same
kind, and every other transaction the same entry; with all of them left out every transaction is
valid, with the same data. -/
theorem ignored_inert {removed : Finset Nat}
    (h : removed ⊆ (ofHistory holder id history).ignoredPositions) :
    let r := ofHistory holder id history
    let r' := ofHistory holder id (without removed history)
    let cleaned := ofHistory holder id (without r.ignoredPositions history)
    (r'.kind = r.kind ∧ r'.validEntries = without removed r.validEntries ∧
      r'.ignoredEntries = without removed r.ignoredEntries) ∧
    (cleaned.kind = r.kind ∧ cleaned.validEntries = r.validEntries.filter (·.isSome) ∧
      ∀ e ∈ cleaned.ignoredEntries, e = none) := by
  intro r r' cleaned
  have hr' : r' = ⟨r.kind, without removed r.entries⟩ := ofHistory_without h
  have hcleaned : cleaned = ⟨r.kind, r.entries.filter (·.isValid)⟩ := by
    rw [← without_ignoredPositions]
    exact ofHistory_without (Finset.Subset.refl _)
  refine ⟨⟨?_, ?_, ?_⟩, ?_, ?_, ?_⟩
  · rw [hr']
  · rw [hr', validEntries, validEntries, without_map]
  · rw [hr', ignoredEntries, ignoredEntries, without_map]
  · rw [hcleaned]
  · rw [hcleaned, validEntries, validEntries, List.filter_map]
    refine congrArg _ (List.filter_congr fun e _ => ?_)
    cases e <;> rfl
  · rw [hcleaned, ignoredEntries]
    intro e he
    obtain ⟨entry, hentry, rfl⟩ := List.mem_map.1 he
    have hvalid := (List.mem_filter.1 hentry).2
    cases entry with
    | valid data timestamp => rfl
    | ignored reason c => cases hvalid

/-- A transaction of another channel, then the origin of the channel of `true`. -/
def strayHistory : List Confirmed :=
  [⟨(signedBool false).transaction, 0⟩, ⟨(signedBool true).transaction, 1⟩]

theorem stray_ignored :
    {0} ⊆ (ofHistory nobody (Json.bool true).fingerprint strayHistory).ignoredPositions := by
  obtain ⟨address, hsigner⟩ := (signedBool false).exists_signer
  have hopens : Opens nobody (Json.bool false).fingerprint (signedBool false).transaction _ _ :=
    opens_clear rfl hsigner
  have hne : (Json.bool false).fingerprint ≠ (Json.bool true).fingerprint := by
    rw [Json.fingerprint, Json.fingerprint, Json.digest_eq, Json.digest_eq]
    decide +kernel
  have hfirst : (ofHistory nobody (Json.bool true).fingerprint strayHistory).entries[0]?
      = some (.ignored .channelMismatch ⟨(signedBool false).transaction, 0⟩) := by
    rw [ofHistory, strayHistory, resume_cons, step_mismatch hopens hne]
    rfl
  rw [Finset.singleton_subset_iff, mem_ignoredPositions_iff hfirst]
  rfl

/-- Without the stray transaction the channel is as it was. -/
theorem stray_inert :
    {0} ⊆ (ofHistory nobody (Json.bool true).fingerprint strayHistory).ignoredPositions ∧
    (ofHistory nobody (Json.bool true).fingerprint [⟨(signedBool true).transaction, 1⟩]).kind
      = (ofHistory nobody (Json.bool true).fingerprint strayHistory).kind :=
  ⟨stray_ignored, (ignored_inert stray_ignored).1.1⟩

end Replay

end ChannelLog
