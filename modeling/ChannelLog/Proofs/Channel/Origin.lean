import ChannelLog.Proofs.Channel.Acceptance

/-!
# The origin of a channel

The origin is the first transaction of a history that opens the channel (`IsOrigin`). Replaying the
history ignores everything before it and takes the kind of the channel from it; afterwards the kind
stays, and each transaction is judged by itself (`ofHistory_origin`).

* `origin_decides`: **the origin decides what a replay says of the channel**, and the entries of the
  replay are those of the history, one by one.
* `valid_after_origin_iff`: **after the origin the valid transactions are the well-formed ones** of
  the channel's kind.
-/

namespace ChannelLog.Replay

variable {κ : Type} [KeyHolder κ] {holder : Option κ} {id : String} {kind : ChannelKind}
  {c : Confirmed} {p : Parsed} {w : Validated}

/-! ## One transaction -/

theorem step_opens (h : Opens holder id c.transaction p w) :
    step holder id .unknown c = (.valid w.data c.timestamp, .ofOrigin p.brought) := by
  rw [step, judge_unknown_iff.2 ⟨p, h, rfl⟩]

theorem step_not_opens (h : ∀ p w, ¬ Opens holder id c.transaction p w) :
    ∃ reason, step holder id .unknown c = (.ignored reason c, .unknown) := by
  cases hj : judge holder id .unknown c.transaction with
  | error reason => exact ⟨reason, by rw [step, hj]⟩
  | ok r =>
    obtain ⟨p, ho, -⟩ := judge_unknown_iff.1 hj
    exact absurd ho (h p _)

theorem step_mismatch {other : String} (h : Opens holder other c.transaction p w)
    (hne : other ≠ id) :
    step holder id .unknown c = (.ignored .channelMismatch c, .unknown) := by
  have hhash : w.hash ≠ id := by
    rw [h.hash]
    exact hne
  have hjudge : judge holder id .unknown c.transaction = .error .channelMismatch := by
    have hparse : parse holder ChannelKind.unknown.type ChannelKind.unknown.key? c.transaction
        = .ok p := h.parse
    rw [judge, hparse]
    show (p.validate.mapError IgnoreReason.validation >>= _) = _
    rw [h.validate]
    exact if_neg hhash
  rw [step, hjudge]

theorem step_parse_error {cause : ParseError}
    (h : parse holder .unknown none c.transaction = .error cause) :
    step holder id .unknown c = (.ignored (.parse cause) c, .unknown) := by
  have hjudge : judge holder id .unknown c.transaction = .error (.parse cause) := by
    have hparse : parse holder ChannelKind.unknown.type ChannelKind.unknown.key? c.transaction
        = .error cause := h
    rw [judge, hparse]
    rfl
  rw [step, hjudge]

theorem kind_step (hk : kind ≠ .unknown) : (step holder id kind c).2 = kind := by
  cases hj : judge holder id kind c.transaction with
  | error reason => rw [step, hj]
  | ok r =>
    rw [step, hj]
    exact ((judge_known_iff hk).1 hj).1

theorem entry_step (holder : Option κ) (id : String) (kind : ChannelKind) (c : Confirmed) :
    (∃ data, (step holder id kind c).1 = .valid data c.timestamp) ∨
    ∃ reason, (step holder id kind c).1 = .ignored reason c := by
  cases hj : judge holder id kind c.transaction with
  | error reason => exact .inr ⟨reason, by rw [step, hj]⟩
  | ok r => exact .inl ⟨r.1.data, by rw [step, hj]⟩

theorem entry_step_valid_iff {v : Json} {ts : UInt64} :
    (step holder id kind c).1 = .valid v ts ↔ ts = c.timestamp ∧
      ∃ w kind', judge holder id kind c.transaction = .ok (w, kind') ∧ w.data = v := by
  cases hj : judge holder id kind c.transaction with
  | error reason => simp [step, hj]
  | ok r =>
    obtain ⟨w, kind'⟩ := r
    simp only [step, hj, ReplayEntry.valid.injEq, Except.ok.injEq, Prod.mk.injEq]
    constructor
    · rintro ⟨rfl, rfl⟩
      exact ⟨rfl, w, kind', ⟨rfl, rfl⟩, rfl⟩
    · rintro ⟨rfl, _, _, ⟨rfl, -⟩, rfl⟩
      exact ⟨rfl, rfl⟩

/-! ## Histories -/

theorem resume_cons (c : Confirmed) (rest : List Confirmed) :
    resume holder id kind (c :: rest)
      = ⟨(resume holder id (step holder id kind c).2 rest).kind,
        (step holder id kind c).1 :: (resume holder id (step holder id kind c).2 rest).entries⟩ :=
  rfl

/-- Replaying can stop anywhere and go on from there. -/
theorem resume_append (holder : Option κ) (id : String) (kind : ChannelKind)
    (xs ys : List Confirmed) :
    resume holder id kind (xs ++ ys)
      = ⟨(resume holder id (resume holder id kind xs).kind ys).kind,
        (resume holder id kind xs).entries
          ++ (resume holder id (resume holder id kind xs).kind ys).entries⟩ := by
  induction xs generalizing kind with
  | nil => rfl
  | cons c xs ih => rw [List.cons_append, resume_cons, ih, resume_cons, List.cons_append]

/-- In a channel of known kind each transaction is judged by itself. -/
theorem resume_known (hk : kind ≠ .unknown) (history : List Confirmed) :
    resume holder id kind history
      = ⟨kind, history.map fun c => (step holder id kind c).1⟩ := by
  induction history with
  | nil => rfl
  | cons c rest ih => rw [resume_cons, kind_step hk, ih, List.map_cons]

theorem ofHistory_append {history : List Confirmed}
    (hk : (ofHistory holder id history).kind ≠ .unknown) (more : List Confirmed) :
    ofHistory holder id (history ++ more)
      = ⟨(ofHistory holder id history).kind, (ofHistory holder id history).entries
        ++ more.map fun c => (step holder id (ofHistory holder id history).kind c).1⟩ := by
  have hmore : resume holder id (ofHistory holder id history).kind more = _ :=
    resume_known hk more
  unfold ofHistory at hmore ⊢
  rw [resume_append, hmore]

theorem resume_unopened {history : List Confirmed}
    (h : ∀ c ∈ history, ∀ p w, ¬ Opens holder id c.transaction p w) :
    resume holder id .unknown history
      = ⟨.unknown, history.map fun c => (step holder id .unknown c).1⟩ := by
  induction history with
  | nil => rfl
  | cons c rest ih =>
    obtain ⟨reason, hs⟩ := step_not_opens (h c List.mem_cons_self)
    rw [resume_cons, hs, ih fun d hd => h d (List.mem_cons_of_mem c hd), List.map_cons, hs]

theorem kindOf_eq (holder : Option κ) (id : String) (history : List Confirmed) :
    kindOf holder id history = (ofHistory holder id history).kind := by
  induction history with
  | nil => rfl
  | cons c rest ih =>
    rw [kindOf, ofHistory, resume_cons]
    cases hk : (step holder id .unknown c).2 with
    | unknown => exact ih
    | clear | encrypted => exact (congrArg Replay.kind (resume_known (by simp) rest)).symm

theorem ofOrigin_ne_unknown (e : Option Encryption) : ChannelKind.ofOrigin e ≠ .unknown := by
  cases e <;> simp [ChannelKind.ofOrigin]

/-! ## The origin -/

/-- The transaction at `o` is the first of the history that opens the channel. -/
structure IsOrigin (holder : Option κ) (id : String) (history : List Confirmed) (o : Nat)
    (c : Confirmed) (p : Parsed) (w : Validated) : Prop where
  at_o : history[o]? = some c
  opens : Opens holder id c.transaction p w
  least : ∀ i < o, ∀ d, history[i]? = some d → ∀ p w, ¬ Opens holder id d.transaction p w

theorem exists_isOrigin {history : List Confirmed}
    (h : ∃ d ∈ history, ∃ p w, Opens holder id d.transaction p w) :
    ∃ o c p w, IsOrigin holder id history o c p w := by
  induction history with
  | nil => simp at h
  | cons c rest ih =>
    by_cases hc : ∃ p w, Opens holder id c.transaction p w
    · obtain ⟨p, w, ho⟩ := hc
      exact ⟨0, c, p, w, rfl, ho, fun i hi => absurd hi (Nat.not_lt_zero i)⟩
    · obtain ⟨d, hd, p, w, ho⟩ := h
      rcases List.mem_cons.1 hd with rfl | hd
      · exact absurd ⟨p, w, ho⟩ hc
      · obtain ⟨o, c', p', w', hat, ho', hl⟩ := ih ⟨d, hd, p, w, ho⟩
        refine ⟨o + 1, c', p', w', hat, ho', fun i hi e he p w hop => ?_⟩
        cases i with
        | zero =>
          obtain rfl : c = e := Option.some.inj he
          exact hc ⟨p, w, hop⟩
        | succ i => exact hl i (by omega) e he p w hop

/-- **A replay before, at and after the origin.** -/
theorem ofHistory_origin {history : List Confirmed} {o : Nat}
    (h : IsOrigin holder id history o c p w) :
    ofHistory holder id history
      = ⟨.ofOrigin p.brought,
        (history.take o).map (fun d => (step holder id .unknown d).1)
          ++ .valid w.data c.timestamp
            :: (history.drop (o + 1)).map fun d => (step holder id (.ofOrigin p.brought) d).1⟩ := by
  obtain ⟨hlt, hc⟩ := List.getElem?_eq_some_iff.1 h.at_o
  have hsplit : history = history.take o ++ c :: history.drop (o + 1) := by
    rw [← hc, ← List.drop_eq_getElem_cons hlt, List.take_append_drop]
  have hbefore : ∀ d ∈ history.take o, ∀ p w, ¬ Opens holder id d.transaction p w := by
    intro d hd
    obtain ⟨i, hi, rfl⟩ := List.mem_take_iff_getElem.1 hd
    exact h.least i (by omega) _ (List.getElem?_eq_getElem _)
  have hreplay := resume_append holder id .unknown (history.take o) (c :: history.drop (o + 1))
  rw [← hsplit, resume_unopened hbefore, resume_cons, step_opens h.opens,
    resume_known (ofOrigin_ne_unknown p.brought)] at hreplay
  exact hreplay

theorem kind_ofHistory {history : List Confirmed} {o : Nat}
    (h : IsOrigin holder id history o c p w) :
    (ofHistory holder id history).kind = .ofOrigin p.brought := by
  rw [ofHistory_origin h]

theorem ignored_of_unknown {history : List Confirmed}
    (h : (ofHistory holder id history).kind = .unknown) :
    ∀ e ∈ (ofHistory holder id history).entries, e.isValid = false := by
  have hnone : ∀ c ∈ history, ∀ p w, ¬ Opens holder id c.transaction p w := by
    intro c hc p w hopens
    obtain ⟨o, d, p', w', horigin⟩ := exists_isOrigin ⟨c, hc, p, w, hopens⟩
    rw [kind_ofHistory horigin] at h
    exact ofOrigin_ne_unknown _ h
  intro e he
  rw [ofHistory, resume_unopened hnone] at he
  obtain ⟨c, hc, rfl⟩ := List.mem_map.1 he
  obtain ⟨reason, hstep⟩ := step_not_opens (hnone c hc)
  rw [hstep]
  rfl

theorem IsOrigin.length_before {history : List Confirmed} {o : Nat}
    (h : IsOrigin holder id history o c p w) :
    ((history.take o).map fun d => (step holder id .unknown d).1).length = o := by
  obtain ⟨hlt, -⟩ := List.getElem?_eq_some_iff.1 h.at_o
  rw [List.length_map, List.length_take]
  omega

theorem entries_after_origin {history : List Confirmed} {o j : Nat} {d : Confirmed}
    (h : IsOrigin holder id history o c p w) (hj : o < j) (hd : history[j]? = some d) :
    (ofHistory holder id history).entries[j]?
      = some (step holder id (.ofOrigin p.brought) d).1 := by
  have hlen := h.length_before
  obtain ⟨k, rfl⟩ : ∃ k, j = o + (k + 1) := ⟨j - o - 1, by omega⟩
  have hk : (history.drop (o + 1))[k]? = some d := by
    rw [List.getElem?_drop, ← hd]
    congr 1
    omega
  rw [ofHistory_origin h, List.getElem?_append_right (by omega), hlen, Nat.add_sub_cancel_left,
    List.getElem?_cons_succ, List.getElem?_map, hk, Option.map_some]

theorem entries_at_origin {history : List Confirmed} {o : Nat}
    (h : IsOrigin holder id history o c p w) :
    (ofHistory holder id history).entries[o]? = some (.valid w.data c.timestamp) := by
  have hlen := h.length_before
  rw [ofHistory_origin h, List.getElem?_append_right (by omega), hlen, Nat.sub_self,
    List.getElem?_cons_zero]

theorem entries_before_origin {history : List Confirmed} {o i : Nat} {d : Confirmed}
    (h : IsOrigin holder id history o c p w) (hi : i < o) (hd : history[i]? = some d) :
    ∃ reason, (ofHistory holder id history).entries[i]? = some (.ignored reason d) := by
  have hlen := h.length_before
  obtain ⟨reason, hs⟩ := step_not_opens (h.least i hi d hd)
  refine ⟨reason, ?_⟩
  rw [ofHistory_origin h, List.getElem?_append_left (by omega), List.getElem?_map,
    List.getElem?_take_of_lt hi, hd, Option.map_some, hs]

/-! ## Entries -/

theorem entries_resume (holder : Option κ) (id : String) (kind : ChannelKind)
    (history : List Confirmed) {i : Nat} {d : Confirmed}
    (hd : history[i]? = some d) :
    (∃ data, (resume holder id kind history).entries[i]? = some (.valid data d.timestamp)) ∨
      ∃ reason, (resume holder id kind history).entries[i]? = some (.ignored reason d) := by
  induction history generalizing kind i with
  | nil => simp at hd
  | cons c rest ih =>
    cases i with
    | zero =>
      obtain rfl : c = d := Option.some.inj hd
      rw [resume_cons, List.getElem?_cons_zero]
      rcases entry_step holder id kind c with ⟨data, h⟩ | ⟨reason, h⟩
      · exact .inl ⟨data, congrArg some h⟩
      · exact .inr ⟨reason, congrArg some h⟩
    | succ i => exact ih _ hd

theorem length_entries_resume (history : List Confirmed) :
    (resume holder id kind history).entries.length = history.length := by
  induction history generalizing kind with
  | nil => rfl
  | cons c rest ih => rw [resume_cons, List.length_cons, ih, List.length_cons]

/-- **An entry is what replaying makes of its transaction**, after what came before it. -/
theorem entries_ofHistory {history : List Confirmed} {i : Nat} (hi : history[i]? = some c) :
    (ofHistory holder id history).entries[i]?
      = some (step holder id (ofHistory holder id (history.take i)).kind c).1 := by
  obtain ⟨hlt, hc⟩ := List.getElem?_eq_some_iff.1 hi
  have hsplit : history = history.take i ++ c :: history.drop (i + 1) := by
    rw [← hc, ← List.drop_eq_getElem_cons hlt, List.take_append_drop]
  have hlength : (resume holder id .unknown (history.take i)).entries.length = i := by
    rw [length_entries_resume, List.length_take]
    omega
  have hreplay := resume_append holder id .unknown (history.take i) (c :: history.drop (i + 1))
  rw [← hsplit] at hreplay
  rw [ofHistory, hreplay, List.getElem?_append_right (Nat.le_of_eq hlength), hlength, Nat.sub_self,
    resume_cons, List.getElem?_cons_zero]
  rfl

theorem validEntries_of_valid {r : Replay} {i : Nat} {v : Json} {ts : UInt64}
    (h : r.entries[i]? = some (.valid v ts)) :
    r.validEntries[i]? = some (some (v, ts)) ∧ r.ignoredEntries[i]? = some none := by
  simp [validEntries, ignoredEntries, h]

theorem validEntries_of_ignored {r : Replay} {i : Nat} {reason : IgnoreReason} {d : Confirmed}
    (h : r.entries[i]? = some (.ignored reason d)) :
    r.validEntries[i]? = some none ∧ r.ignoredEntries[i]? = some (some (reason, d)) := by
  simp [validEntries, ignoredEntries, h]

theorem validEntries_eq_some_iff {r : Replay} {i : Nat} {v : Json} {ts : UInt64} :
    r.validEntries[i]? = some (some (v, ts)) ↔ r.entries[i]? = some (.valid v ts) := by
  refine ⟨fun h => ?_, fun h => (validEntries_of_valid h).1⟩
  rw [validEntries, List.getElem?_map, Option.map_eq_some_iff] at h
  obtain ⟨e, he, h⟩ := h
  cases e with
  | valid v' ts' =>
    obtain ⟨rfl, rfl⟩ := Prod.mk.inj (Option.some.inj h)
    exact he
  | ignored reason d => simp at h

/-- **Everything before the origin is ignored, and the origin is valid.** -/
theorem IsOrigin.first_valid {history : List Confirmed} {o : Nat}
    (h : IsOrigin holder id history o c p w) :
    (∀ i < o, (ofHistory holder id history).validEntries[i]? = some none) ∧
      (ofHistory holder id history).validEntries[o]? = some (some (w.data, c.timestamp)) := by
  refine ⟨fun i hi => ?_, (validEntries_of_valid (entries_at_origin h)).1⟩
  obtain ⟨hlt, -⟩ := List.getElem?_eq_some_iff.1 h.at_o
  obtain ⟨reason, hr⟩ := entries_before_origin h hi (List.getElem?_eq_getElem (by omega))
  exact (validEntries_of_ignored hr).1

theorem IsOrigin.kind_encrypted {history : List Confirmed} {o : Nat}
    (h : IsOrigin holder id history o c p w) (he : c.transaction.content.isEncrypted = true) :
    let kind := (ofHistory holder id history).kind
    ∃ keys key, c.transaction.content.keys = some keys ∧
      decryptChannelKey holder keys = .ok key ∧ kind.type = .encrypted ∧ kind.key? = some key ∧
      kind.method? = c.transaction.content.encryptionMethod ∧ kind.method?.isSome := by
  intro kind
  have hkind : kind = .ofOrigin p.brought := kind_ofHistory h
  rcases h.opens.brought with ⟨hf, -⟩ | ⟨-, keys, key, method, hk, hm, hkey, hb⟩
  · rw [he] at hf
    exact nomatch hf
  · rw [hkind, hb, hm]
    exact ⟨keys, key, hk, hkey, rfl, rfl, rfl, rfl⟩

theorem IsOrigin.kind_clear {history : List Confirmed} {o : Nat}
    (h : IsOrigin holder id history o c p w) (he : c.transaction.content.isEncrypted = false) :
    (ofHistory holder id history).kind = .clear := by
  rw [kind_ofHistory h]
  rcases h.opens.brought with ⟨-, hb⟩ | ⟨ht, -⟩
  · rw [hb]
    rfl
  · rw [he] at ht
    exact nomatch ht

theorem of_unopened {history : List Confirmed}
    (h : ∀ d ∈ history, ∀ p w, ¬ Opens holder id d.transaction p w) :
    (ofHistory holder id history).kind = .unknown ∧
      ∀ i < history.length, (ofHistory holder id history).validEntries[i]? = some none := by
  have hr : ofHistory holder id history
      = ⟨.unknown, history.map fun d => (step holder id .unknown d).1⟩ := resume_unopened h
  refine ⟨by rw [hr], fun i hi => ?_⟩
  obtain ⟨reason, hs⟩ := step_not_opens (h history[i] (List.getElem_mem hi))
  have he : (ofHistory holder id history).entries[i]? = some (.ignored reason history[i]) := by
    rw [hr, List.getElem?_map, List.getElem?_eq_getElem hi, Option.map_some, hs]
  exact (validEntries_of_ignored he).1

/-! ## The laws -/

/-- **The origin decides what a replay says of the channel.** Both views have an entry for each
transaction, in exactly one of them. Everything before the origin is ignored and the origin is
valid; the channel is encrypted if the origin is, under the key that the origin's keys are decrypted
to, and clear otherwise. A channel that no transaction opens has no origin; then everything is ignored
and nothing is known. -/
theorem origin_decides (holder : Option κ) (id : String) (history : List Confirmed) :
    let r := ofHistory holder id history
    r.validEntries.length = history.length ∧ r.ignoredEntries.length = history.length ∧
    (∀ (i : Nat) (d : Confirmed), history[i]? = some d →
      (∃ data, r.validEntries[i]? = some (some (data, d.timestamp)) ∧
        r.ignoredEntries[i]? = some none) ∨
      ∃ reason, r.validEntries[i]? = some none ∧
        r.ignoredEntries[i]? = some (some (reason, d))) ∧
    ((∃ d ∈ history, ∃ p w, Opens holder id d.transaction p w) →
      ∃ o c p w, IsOrigin holder id history o c p w) ∧
    (∀ o c p w, IsOrigin holder id history o c p w →
      (∀ i < o, r.validEntries[i]? = some none) ∧
      r.validEntries[o]? = some (some (w.data, c.timestamp)) ∧
      (c.transaction.content.isEncrypted = true → ∃ keys key,
        c.transaction.content.keys = some keys ∧ decryptChannelKey holder keys = .ok key ∧
        r.kind.type = .encrypted ∧ r.kind.key? = some key ∧
        r.kind.method? = c.transaction.content.encryptionMethod ∧ r.kind.method?.isSome) ∧
      (c.transaction.content.isEncrypted = false →
        r.kind.type = .clear ∧ r.kind.key? = none ∧ r.kind.method? = none)) ∧
    ((∀ d ∈ history, ∀ p w, ¬ Opens holder id d.transaction p w) →
      r.kind.type = .unknown ∧ r.kind.key? = none ∧ r.kind.method? = none ∧
      ∀ i < history.length, r.validEntries[i]? = some none) ∧
    (r.kind.type = .encrypted → r.kind.key?.isSome) := by
  intro r
  refine ⟨?_, ?_, ?_, exists_isOrigin, ?_, ?_, ?_⟩
  · rw [validEntries, List.length_map]
    exact length_entries_resume history
  · rw [ignoredEntries, List.length_map]
    exact length_entries_resume history
  · intro i d hd
    rcases entries_resume holder id .unknown history hd with ⟨data, h⟩ | ⟨reason, h⟩
    · exact .inl ⟨data, validEntries_of_valid h⟩
    · exact .inr ⟨reason, validEntries_of_ignored h⟩
  · intro o c p w h
    obtain ⟨hbefore, hat⟩ := h.first_valid
    refine ⟨hbefore, hat, h.kind_encrypted, fun he => ?_⟩
    have hkind : r.kind = .clear := h.kind_clear he
    rw [hkind]
    exact ⟨rfl, rfl, rfl⟩
  · intro h
    obtain ⟨hkind, hignored⟩ := of_unopened h
    refine ⟨by rw [hkind]; rfl, by rw [hkind]; rfl, by rw [hkind]; rfl, hignored⟩
  · intro ht
    cases hk : r.kind with
    | encrypted e => rfl
    | unknown | clear =>
      rw [hk] at ht
      exact nomatch ht

/-- **After the origin the valid transactions are the well-formed ones of the channel's kind**, and
their data is their payload: in a clear channel those with a clear payload and nothing else, in an
encrypted one those that bring no key and open under the key fixed at the origin. -/
theorem valid_after_origin_iff (holder : Option κ) (id : String)
    (history : List Confirmed) :
    let r := ofHistory holder id history
    (r.kind.type = .clear → ∀ o c p w, IsOrigin holder id history o c p w →
      ∀ (j : Nat) (d : Confirmed), o < j → history[j]? = some d → ∀ v ts,
        r.validEntries[j]? = some (some (v, ts)) ↔
          ts = d.timestamp ∧ ClearPayload d.transaction v) ∧
    (r.kind.type = .encrypted → ∀ o c p w, IsOrigin holder id history o c p w →
      ∃ key, r.kind.key? = some key ∧ p.brought.map (·.key) = some key ∧
        ∀ (j : Nat) (d : Confirmed), o < j → history[j]? = some d → ∀ v ts,
          r.validEntries[j]? = some (some (v, ts)) ↔
            ts = d.timestamp ∧ SealedPayload key d.transaction v) := by
  intro r
  -- an entry after the origin is what judging its transaction alone gives
  have hentry : ∀ {o c p w}, IsOrigin holder id history o c p w → ∀ {j d}, o < j →
      history[j]? = some d → ∀ v ts, r.validEntries[j]? = some (some (v, ts)) ↔
        ts = d.timestamp ∧ ∃ w kind',
          judge holder id (.ofOrigin p.brought) d.transaction = .ok (w, kind') ∧ w.data = v := by
    intro o c p w h j d hj hd v ts
    rw [validEntries_eq_some_iff, entries_after_origin h hj hd, Option.some.injEq,
      entry_step_valid_iff]
  refine ⟨fun ht o c p w h j d hj hd v ts => ?_, fun ht o c p w h => ?_⟩
  · cases hb : p.brought with
    | some e =>
      rw [kind_ofHistory h, hb] at ht
      exact nomatch ht
    | none =>
      rw [hentry h hj hd, hb]
      exact and_congr_right fun _ => judge_clear_iff
  · cases hb : p.brought with
    | none =>
      rw [kind_ofHistory h, hb] at ht
      exact nomatch ht
    | some e =>
      refine ⟨e.key, ?_, rfl, fun j d hj hd v ts => ?_⟩
      · rw [kind_ofHistory h, hb]
        rfl
      · rw [hentry h hj hd, hb]
        exact and_congr_right fun _ => judge_encrypted_iff

end ChannelLog.Replay
