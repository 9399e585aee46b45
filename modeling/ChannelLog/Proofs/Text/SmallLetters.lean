import ChannelLog.Proofs.Bytes.Hex

/-!
# Making letters small changes nothing the second time

A character is small if it is no capital letter. Small forms consist of small characters: for the
letters of the table this is a comparison of its runs, two at a time, since the small forms of a run
lie between those of its ends (`CaseRun.misses`).

* `isSmall_of_mem_smallChar`: the small form of a character has small characters only.
* `lowerCase_lowerCase`: **a text in small letters is its own small form.**
-/

namespace ChannelLog.Text

/-- The character is no capital letter. -/
def IsSmall (c : Char) : Prop := c ≠ 'İ' ∧ ∀ r ∈ capitalRuns, r.covers c = false

instance (c : Char) : Decidable (IsSmall c) := inferInstanceAs (Decidable (_ ∧ _))

theorem IsSmall.smallChar_eq {c : Char} (h : IsSmall c) : smallChar c = [c] := by
  have hfind : capitalRuns.find? (·.covers c) = none :=
    List.find?_eq_none.2 fun r hr => Bool.not_eq_true _ ▸ h.2 r hr
  rw [smallChar, if_neg h.1, hfind]

theorem IsSmall.ne_sigma {c : Char} (h : IsSmall c) : c ≠ 'Σ' := by
  rintro rfl
  exact absurd h (by decide +kernel)

/-! ## Runs of the table -/

namespace CaseRun

/-- The first and the last of the small forms of a run. -/
def smallFirst (r : CaseRun) : Nat := (r.first + r.shift).toNat

def smallLast (r : CaseRun) : Nat := (r.last + r.shift).toNat

/-- The small forms of `r` are no letters of `q`: they lie before or behind it, or between every two
of its letters. -/
def misses (r q : CaseRun) : Bool :=
  Nat.blt r.smallLast q.first || Nat.blt q.last r.smallFirst ||
    (r.first.beq r.last || (r.step % 2).beq 0) && q.step.beq 2 &&
      ((r.smallFirst + q.first) % 2).beq 1

/-- The small forms of a run are characters. -/
def Shifts (r : CaseRun) : Prop :=
  0 ≤ r.first + r.shift ∧ (r.smallLast < 0xd800 ∨ 0xdfff < r.smallFirst ∧ r.smallLast < 0x110000)

instance (r : CaseRun) : Decidable r.Shifts := inferInstanceAs (Decidable (_ ∧ _))

theorem covers_iff {r : CaseRun} {c : Char} : r.covers c = true ↔
    r.first ≤ c.toNat ∧ c.toNat ≤ r.last ∧ (c.toNat - r.first) % r.step = 0 := by
  simp [covers, and_assoc]

theorem Shifts.toNat_small {r : CaseRun} (h : r.Shifts) {c : Char} (hc : r.covers c = true) :
    (Char.ofNat (c.toNat + r.shift).toNat).toNat = (c.toNat + r.shift).toNat := by
  obtain ⟨hfirst, hlast, -⟩ := covers_iff.1 hc
  obtain ⟨-, hrange⟩ := h
  have hvalid : (c.toNat + r.shift).toNat.isValidChar := by
    unfold Nat.isValidChar
    unfold smallFirst smallLast at hrange
    omega
  rw [Char.ofNat, dif_pos hvalid]
  exact UInt32.toNat_ofNatLT ..

theorem not_covers_of_misses {r q : CaseRun} (h : r.Shifts) (hmiss : r.misses q = true) {c : Char}
    (hc : r.covers c = true) : q.covers (Char.ofNat (c.toNat + r.shift).toNat) = false := by
  rw [Bool.eq_false_iff]
  intro hq
  have hsmall := h.toNat_small hc
  obtain ⟨hfirst, hlast, hstep⟩ := covers_iff.1 hc
  obtain ⟨hfirst', hlast', hstep'⟩ := covers_iff.1 hq
  rw [hsmall] at hfirst' hlast' hstep'
  obtain ⟨hnonneg, -⟩ := h
  simp only [misses, smallFirst, smallLast, Bool.or_eq_true, Bool.and_eq_true, Nat.blt_eq,
    Nat.beq_eq] at hmiss
  rcases hmiss with (hbefore | hbehind) | ⟨⟨heven, htwo⟩, hodd⟩
  · omega
  · omega
  · -- every second letter: the letters of `q` have the other parity
    have hparity : (c.toNat - r.first) % 2 = 0 := by
      rcases heven with hone | heven
      · omega
      · exact Nat.mod_eq_zero_of_dvd
          (Nat.dvd_trans (Nat.dvd_of_mod_eq_zero heven) (Nat.dvd_of_mod_eq_zero hstep))
    rw [htwo] at hstep'
    omega

end CaseRun

/-- The table against itself and against `İ`, which is no letter of it. -/
theorem capitalRuns_misses :
    (capitalRuns.all fun r => (⟨0x130, 0x130, 1, 0⟩ :: capitalRuns).all r.misses) = true := by
  decide +kernel

theorem capitalRuns_shifts : ∀ r ∈ capitalRuns, r.Shifts := by
  decide +kernel

/-! ## Texts -/

/-- **The small form of a character has small characters only.** -/
theorem isSmall_of_mem_smallChar {c d : Char} (h : d ∈ smallChar c) : IsSmall d := by
  unfold smallChar at h
  split at h
  · have hdotted : IsSmall 'i' ∧ IsSmall '\u0307' := by decide +kernel
    rcases List.mem_cons.1 h with rfl | h
    · exact hdotted.1
    · exact List.mem_singleton.1 h ▸ hdotted.2
  next hne =>
  split at h
  · next r hfind =>
    obtain rfl := List.mem_singleton.1 h
    have hr := List.mem_of_find?_eq_some hfind
    have hc : r.covers c = true := List.find?_some (p := (CaseRun.covers · c)) hfind
    have hmisses : ∀ q ∈ ⟨0x130, 0x130, 1, 0⟩ :: capitalRuns, r.misses q = true :=
      List.all_eq_true.1 (List.all_eq_true.1 capitalRuns_misses r hr)
    have hcovers {q : CaseRun} (hq : q ∈ ⟨0x130, 0x130, 1, 0⟩ :: capitalRuns) :=
      CaseRun.not_covers_of_misses (capitalRuns_shifts r hr) (hmisses q hq) hc
    refine ⟨fun he => ?_, fun q hq => hcovers (List.mem_cons_of_mem _ hq)⟩
    have hdotted := hcovers List.mem_cons_self
    rw [he] at hdotted
    exact absurd hdotted (by decide)
  · next hfind =>
    obtain rfl := List.mem_singleton.1 h
    exact ⟨hne, fun r hr => Bool.eq_false_iff.2 (List.find?_eq_none.1 hfind r hr)⟩

theorem isSmall_of_mem_smallFrom {cs before : List Char} {d : Char}
    (h : d ∈ smallFrom before cs) : IsSmall d := by
  induction cs generalizing before with
  | nil => exact nomatch h
  | cons c cs ih =>
    rw [smallFrom] at h
    rcases List.mem_append.1 h with h | h
    · have hsigmas : IsSmall 'ς' ∧ IsSmall 'σ' := by decide +kernel
      split at h
      · obtain rfl := List.mem_singleton.1 h
        split
        · exact hsigmas.1
        · exact hsigmas.2
      · exact isSmall_of_mem_smallChar h
    · exact ih h

/-- **A text in small letters is its own small form.** -/
theorem lowerCase_lowerCase (s : String) : lowerCase (lowerCase s) = lowerCase s := by
  have hsmall : ∀ c ∈ smallFrom [] s.toList, c ≠ 'Σ' ∧ smallChar c = [c] := fun c hc =>
    have h := isSmall_of_mem_smallFrom hc
    ⟨h.ne_sigma, h.smallChar_eq⟩
  rw [lowerCase, lowerCase, String.toList_ofList, smallFrom_eq_self hsmall]

end ChannelLog.Text
