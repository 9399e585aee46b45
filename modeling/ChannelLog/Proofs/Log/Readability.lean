import ChannelLog.Proofs.Block.Single
import ChannelLog.Proofs.Log.Steps
import ChannelLog.Proofs.Store.Laws
import ChannelLog.Proofs.Transaction

/-!
# Which transactions keep a log readable

A transaction is signed and appended whatever its payload is, but its block is read with a limit on
the nesting of values.

* `Sound`: every entry of the store holds a well-formed block. Then nothing is ever reported as
  corrupted (`Sound.serves`).
* `persist_keeps_readable_iff`: a persisted transaction keeps the store sound if its payload is
  nested at most `Block.payloadLimit` levels; otherwise its block can never be read, and neither its
  topics nor the log as a whole.
-/

namespace ChannelLog.Log

open Block (payloadLimit)

variable {σ : Type} [Store σ]

/-! ## Sound stores -/

/-- What is read at `location` is a well-formed block. -/
def SoundAt (store : σ) (location : Location) : Prop :=
  ∀ stored, Store.read store location = .ok stored → ∃ b, checkBlock stored.content = .ok b

/-- Every entry of the store holds a well-formed block. -/
def Sound (store : σ) : Prop := ∀ location, SoundAt store location

def IsStorage (e : LogError) : Prop := ∃ cause, e = .storage cause

/-- Neither a topic of the log nor a new log over its store is refused for a corrupted block. -/
structure Serves (log : Log σ) : Prop where
  transactionsOf : ∀ topic e, log.transactionsOf topic = .error e → IsStorage e
  start : ∀ settings e after, start (ofStore log.store settings) = .error e after → IsStorage e

theorem SoundAt.readBlock_error {store : σ} {l : Location} (h : SoundAt store l) {e : LogError}
    (he : readBlock store l = .error e) : IsStorage e := by
  cases hr : Store.read store l with
  | error cause =>
    rw [readBlock_of_error hr] at he
    exact ⟨cause, (Except.error.inj he).symm⟩
  | ok stored =>
    obtain ⟨b, hb⟩ := h stored hr
    rw [readBlock_of_read hr, hb] at he
    simp at he

theorem Sound.serves {log : Log σ} (h : Sound log.store) {index : TopicIndex}
    (hready : log.phase = .ready index) : log.Serves := by
  have hread : ∀ ls e, List.mapM (readBlock log.store) ls = .error e → IsStorage e := by
    intro ls e he
    obtain ⟨l, -, hl⟩ := exists_of_mapM_error he
    exact (h l).readBlock_error hl
  refine ⟨fun topic e he => ?_, fun settings e after he => ?_⟩
  · rw [transactionsOf_ready hready] at he
    exact hread _ _ (eq_error_of_map he)
  · rw [start_ofStore] at he
    cases hb : buildIndex log.store settings with
    | ok index => simp [hb] at he
    | error e' =>
      simp only [hb] at he
      obtain ⟨rfl, -⟩ := EStateM.Result.error.inj he
      rw [buildIndex_eq] at hb
      cases hls : Store.locations log.store with
      | error cause =>
        simp only [hls] at hb
        exact ⟨cause, (Except.error.inj hb).symm⟩
      | ok ls =>
        simp only [hls] at hb
        exact hread _ _ (eq_error_of_map hb)

/-! ## A block that does not read -/

/-- The block at `location` is reported as unreadable, unless the store fails before. -/
def Blames (location : Location) (e : LogError) : Prop :=
  e = .corrupted location .unreadable ∨ IsStorage e

/-- The block at `location` makes look-ups under `topics` fail, and every new log over the store. -/
structure Poisoned (log : Log σ) (location : Location) (topics : List String) : Prop where
  readBlock : readBlock log.store location = .error (.corrupted location .unreadable)
  transactionsOf : ∀ topic ∈ topics, ∃ e, log.transactionsOf topic = .error e ∧ Blames location e
  start : ∀ settings, ∃ e after,
    start (ofStore log.store settings) = .error e after ∧ Blames location e

theorem exists_mapM_readBlock_error {store : σ} {location : Location}
    (hbad : Log.readBlock store location = .error (.corrupted location .unreadable))
    (hsound : ∀ l, l ≠ location → SoundAt store l) {ls : List Location} (hmem : location ∈ ls) :
    ∃ e, ls.mapM (Log.readBlock store) = .error e ∧ Blames location e := by
  cases hm : ls.mapM (Log.readBlock store) with
  | ok blocks =>
    obtain ⟨b, hb⟩ := exists_of_mapM_ok hm hmem
    rw [hbad] at hb
    simp at hb
  | error e =>
    refine ⟨e, rfl, ?_⟩
    obtain ⟨l, -, hl⟩ := exists_of_mapM_error hm
    by_cases he : l = location
    · rw [he, hbad] at hl
      exact .inl (Except.error.inj hl).symm
    · exact .inr ((hsound l he).readBlock_error hl)

/-! ## Persisting -/

variable [LawfulStore σ]

section

variable {store store' : σ} {now : UInt64} {text : String} {a : Appended}

theorem SoundAt.append (ha : Store.append store now text = .ok (a, store')) {l : Location}
    (hne : l ≠ a.location) (h : SoundAt store l) : SoundAt store' l := by
  intro stored hr
  rw [LawfulStore.read_append_other ha hne] at hr
  exact h stored hr

theorem Sound.append (ha : Store.append store now text = .ok (a, store')) {b : Block}
    (hb : checkBlock text = .ok b) (h : Sound store) : Sound store' := by
  intro l
  by_cases hl : l = a.location
  · intro stored hr
    rw [hl, LawfulStore.read_append_self ha] at hr
    obtain rfl := Except.ok.inj hr
    exact ⟨b, hb⟩
  · exact (h l).append ha hl

/-- **A block that does not read poisons the log** that lists it. -/
theorem poisoned_append (ha : Store.append store now text = .ok (a, store'))
    (hbad : checkBlock text = .error .unreadable) (hvalid : LawfulStore.Valid store)
    (hsound : Sound store) {index : TopicIndex} (hindex : index.Valid) (settings : LogSettings)
    (topics : List String) :
    Poisoned ⟨store', settings, .ready (index.push a.location topics)⟩ a.location topics := by
  have hread : Log.readBlock store' a.location = .error (.corrupted a.location .unreadable) := by
    rw [readBlock_of_read (LawfulStore.read_append_self ha), hbad]
  have hfail : ∀ {ls : List Location}, a.location ∈ ls →
      ∃ e, ls.mapM (Log.readBlock store') = .error e ∧ Blames a.location e :=
    exists_mapM_readBlock_error hread fun l hne => (hsound l).append ha hne
  refine ⟨hread, fun topic ht => ?_, fun settings => ?_⟩
  · have hmem : a.location ∈ (index.push a.location topics).locations topic := by
      rw [TopicIndex.locations_push hindex, if_pos ht]
      exact mem_listLast.2 (.inr rfl)
    obtain ⟨e, he, hblames⟩ := hfail hmem
    exact ⟨e, by rw [transactionsOf_ready rfl, he]; rfl, hblames⟩
  · rw [start_ofStore, buildIndex_eq]
    cases hls : Store.locations store' with
    | error cause => exact ⟨_, _, rfl, .inr ⟨cause, rfl⟩⟩
    | ok ls =>
      obtain ⟨e, he, hblames⟩ := hfail (LawfulStore.mem_locations_append hvalid ha hls)
      exact ⟨e, ofStore store' settings, by simp only [he]; rfl, hblames⟩

end

/-- **A persisted transaction is read back exactly if its payload is nested at most
`payloadLimit` levels.** Then the store stays sound and every log over it serves; otherwise the new
block makes all look-ups under its topics fail, and every new log over the store. A transaction that
is not persisted leaves the log as it was. -/
theorem persist_readable_iff {log : Log σ} {index : TopicIndex} (hready : log.phase = .ready index)
    (hindex : index.Valid) (hvalid : LawfulStore.Valid log.store) (hsound : Sound log.store)
    {content : Content} (hrange : content.InRange) (now : UInt64) (signer : SignatureParameters)
    (topics : List String) :
    (∀ e after, persist now content signer topics log = .error e after → after = log) ∧
    ∀ p after, persist now content signer topics log = .ok p after →
      (∀ topic ∈ topics, topic ∈ p.topics) ∧
      ((∃ b, Log.readBlock after.store p.location = .ok b) ↔ content.payloadDepth ≤ payloadLimit) ∧
      (content.payloadDepth ≤ payloadLimit → Sound after.store ∧ after.Serves) ∧
      (payloadLimit < content.payloadDepth → after.Poisoned p.location p.topics) := by
  rw [persist_ready hready]
  cases hc : Transaction.create content signer with
  | error cause =>
    exact ⟨fun e after h => (EStateM.Result.error.inj h).2.symm, fun p after h => nomatch h⟩
  | ok t =>
    obtain rfl := content_create hc
    simp only
    cases ha : Store.append log.store now (Block.empty.push t topics).text with
    | error cause =>
      exact ⟨fun e after h => (EStateM.Result.error.inj h).2.symm, fun p after h => nomatch h⟩
    | ok r =>
      obtain ⟨a, store⟩ := r
      refine ⟨fun e after h => (nomatch h), fun p after h => ?_⟩
      obtain ⟨rfl, rfl⟩ := EStateM.Result.ok.inj h
      refine ⟨fun topic ht => Block.mem_topics_single.2 (.inl ht), ?_⟩
      rcases Nat.lt_or_ge payloadLimit t.content.payloadDepth with hd | hd
      · have hbad := poisoned_append ha (checkBlock_single_deep hrange hd topics) hvalid hsound
          hindex log.settings (Block.empty.push t topics).topics
        refine ⟨⟨fun ⟨b, hb⟩ => ?_, fun hle => absurd hd (Nat.not_lt.2 hle)⟩,
          fun hle => absurd hd (Nat.not_lt.2 hle), fun _ => hbad⟩
        rw [hbad.readBlock] at hb
        simp at hb
      · obtain ⟨u, hu⟩ := checkBlock_single hrange hd topics
        have hsound' := hsound.append ha hu
        refine ⟨⟨fun _ => hd, fun _ => ?_⟩, fun _ => ⟨hsound', hsound'.serves rfl⟩,
          fun hlt => absurd hlt (Nat.not_lt.2 hd)⟩
        exact ⟨_, by rw [readBlock_of_read (LawfulStore.read_append_self ha), hu]⟩

theorem sound_empty : Sound MemoryStore.empty := fun _ _ h => nomatch h

/-- A log over nothing. -/
def fresh : Log MemoryStore := ⟨.empty, {}, .ready .empty⟩

theorem start_fresh : start (ofStore MemoryStore.empty {}) = .ok () fresh := by
  rw [start_ofStore, buildIndex_eq]
  rfl

theorem persist_shallow_serves :
    (∀ e after, persist 0 (.clear (.array [])) exampleSigner ["t"] fresh = .error e after →
      after = fresh) ∧
    ∀ p after, persist 0 (.clear (.array [])) exampleSigner ["t"] fresh = .ok p after →
      Sound after.store ∧ after.Serves := by
  have hrange : (Content.clear (.array [])).InRange := fun v hv => by
    rw [← Option.some.inj hv]
    trivial
  have hready : fresh.phase = .ready .empty := rfl
  have hvalid : LawfulStore.Valid fresh.store := trivial
  obtain ⟨herror, hok⟩ := persist_readable_iff hready TopicIndex.valid_empty hvalid sound_empty
    hrange 0 exampleSigner ["t"]
  exact ⟨herror, fun p after h => (hok p after h).2.2.1 (by decide)⟩

/-- An array inside of an array and so on, `n` times inside of the first. -/
def nested : Nat → Json
  | 0 => .array []
  | n + 1 => .array [nested n]

theorem inRange_nested (n : Nat) : (nested n).InRange := by
  induction n with
  | zero => trivial
  | succ n ih => exact ⟨ih, trivial⟩

theorem depth_nested (n : Nat) : (nested n).depth = n + 1 := by
  induction n with
  | zero => rfl
  | succ n ih => simp [nested, Json.depth, Json.itemDepth, ih]

theorem canonical_nested (n : Nat) : (nested n).canonical = nested n := by
  induction n with
  | zero => rfl
  | succ n ih => simp only [nested, Json.canonical, Json.canonicalItems, ih]

theorem writeBytes_nested (n : Nat) : (nested n).writeBytes
    = List.replicate (n + 1) 0x5b ++ List.replicate (n + 1) 0x5d := by
  induction n with
  | zero => rfl
  | succ n ih =>
    have hlast : List.replicate (n + 1 + 1) (0x5d : UInt8)
        = List.replicate (n + 1) 0x5d ++ [0x5d] := List.replicate_succ'
    rw [nested, Json.writeBytes, ih, Json.itemsBytes, List.append_nil, hlast, List.cons_append,
      List.append_assoc]
    rfl

theorem writeBytes_clear (v : Json) : (Content.clear v).toJson.canonical.writeBytes
    = 0x7b :: Json.stringBytes "data" ++ 0x3a :: v.canonical.writeBytes ++ [0x7d] := by
  simp [Content.toJson, Content.fields, Content.clear, Json.ofFields, Json.canonical,
    Json.canonicalMembers, Json.sortMembers, insertEntry, Json.writeBytes, Json.membersBytes]

theorem isSome_create_nested :
    (Transaction.create (.clear (nested 124)) exampleSigner).toOption.isSome = true := by
  rw [Transaction.create_eq, writeBytes_clear, canonical_nested, writeBytes_nested]
  decide +kernel

theorem exists_poisoned {content : Content} {signer : SignatureParameters} (hrange : content.InRange)
    (hdepth : payloadLimit < content.payloadDepth)
    (hsigned : (Transaction.create content signer).toOption.isSome = true) :
    ∃ p after, persist 0 content signer ["t"] fresh = .ok p after ∧
      "t" ∈ p.topics ∧ after.Poisoned p.location p.topics := by
  have hready : fresh.phase = .ready .empty := rfl
  have hvalid : LawfulStore.Valid fresh.store := trivial
  have hpersist := persist_ready hready 0 content signer ["t"]
  cases hc : Transaction.create content signer with
  | error cause => simp [hc, Except.toOption] at hsigned
  | ok t =>
    obtain rfl := content_create hc
    obtain ⟨a, store, ha⟩ : ∃ a store,
        Store.append fresh.store 0 (Block.empty.push t ["t"]).text = .ok (a, store) :=
      ⟨_, _, rfl⟩
    simp only [hc, ha] at hpersist
    have hpoisoned := poisoned_append ha (checkBlock_single_deep hrange hdepth ["t"]) hvalid
      sound_empty TopicIndex.valid_empty fresh.settings (Block.empty.push t ["t"]).topics
    have ht : "t" ∈ (Block.empty.push t ["t"]).topics :=
      Block.mem_topics_single.2 (.inl List.mem_cons_self)
    refine ⟨_, _, hpersist, ?_, ?_⟩
    all_goals dsimp only
    · exact ht
    · exact hpoisoned

/-- A payload of 125 levels is persisted, and the log never serves its topic again. -/
theorem persist_nested_poisons :
    ∃ p after, persist 0 (.clear (nested 124)) exampleSigner ["t"] fresh = .ok p after ∧
      "t" ∈ p.topics ∧ after.Poisoned p.location p.topics := by
  have hrange : (Content.clear (nested 124)).InRange := fun v hv => by
    rw [← Option.some.inj hv]
    exact inRange_nested 124
  have hdepth : payloadLimit < (Content.clear (nested 124)).payloadDepth := by
    show payloadLimit < (nested 124).depth
    rw [depth_nested]
    decide
  exact exists_poisoned hrange hdepth isSome_create_nested

end ChannelLog.Log
