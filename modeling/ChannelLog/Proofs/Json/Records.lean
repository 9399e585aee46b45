import ChannelLog.Json.Record
import ChannelLog.Proofs.Json.Reading

/-!
# Written records are read as they were written

* `fields?_fieldSources`: the fields of a record that were written are read as they are, those left out
  as none.
* `list?_map`, `dict?_ofDict`: lists and dictionaries are read entry by entry.
* `natural?_ofNat`: a natural number below `2 ^ 64` reads back.
-/

namespace ChannelLog

/-! ## Dictionaries -/

namespace Dict

variable {α : Type}

theorem get?_foldl_insert (pairs : List (String × α)) (d : Dict α) (k : String)
    (h : Ascending pairs) :
    (pairs.foldl (fun d (key, value) => d.insert key value) d).get? k
      = (findValue? k pairs).or (d.get? k) := by
  induction pairs generalizing d with
  | nil => rfl
  | cons p pairs ih =>
    obtain ⟨hlt, hp⟩ := List.pairwise_cons.1 h
    rw [List.foldl_cons, ih _ hp, get?_insert, findValue?]
    by_cases hk : k = p.1
    · have hnone : findValue? k pairs = none := by
        rw [findValue?_eq_none_iff]
        intro e he heq
        exact absurd (hlt e he) (by rw [heq, hk]; exact String.lt_irrefl _)
      rw [hnone, if_pos hk, if_pos hk, Option.none_or, Option.some_or]
    · rw [if_neg hk, if_neg hk]

theorem ofList_entries (d : Dict α) : ofList d.entries = d := by
  apply ext_get?
  intro k
  rw [ofList, get?_foldl_insert d.entries ∅ k d.ascending, get?_empty, Option.or_none]
  rfl

end Dict

namespace Json

theorem mapM_eq_some_map {α β : Type} {f : α → Option β} {g : α → β} {xs : List α}
    (h : ∀ x ∈ xs, f x = some (g x)) : xs.mapM f = some (xs.map g) := by
  induction xs with
  | nil => rfl
  | cons x xs ih =>
    rw [List.mapM_cons, h x List.mem_cons_self, ih fun y hy => h y (List.mem_cons_of_mem x hy)]
    rfl

/-! ## The trees of lists and objects -/

theorem itemSources_eq_map (items : List Json) : itemSources items = items.map source := by
  induction items with
  | nil => rfl
  | cons v items ih => rw [itemSources, ih, List.map_cons]

theorem memberSources_eq_map (members : List (String × Json)) :
    memberSources members = members.map fun m => (some m.1, m.2.source) := by
  induction members with
  | nil => rfl
  | cons m members ih => rw [memberSources, ih, List.map_cons]

/-- The members of a record with the fields given. -/
def fieldSources (fields : List (String × Option Json)) : List (Option String × Source) :=
  memberSources (fields.filterMap fun (name, value) => value.map (name, ·))

theorem fieldSources_cons (name : String) (value : Option Json)
    (fields : List (String × Option Json)) :
    fieldSources ((name, value) :: fields)
      = (value.map fun v => (some name, v.source)).toList ++ fieldSources fields := by
  unfold fieldSources
  cases value <;> rfl

theorem fieldSources_append (fields others : List (String × Option Json)) :
    fieldSources (fields ++ others) = fieldSources fields ++ fieldSources others := by
  simp [fieldSources, memberSources_eq_map]

theorem exists_of_mem_fieldSources {fields : List (String × Option Json)}
    {m : Option String × Source} (h : m ∈ fieldSources fields) :
    ∃ name ∈ fields.map (·.1), m.1 = some name := by
  rw [fieldSources, memberSources_eq_map, List.mem_map] at h
  obtain ⟨p, hp, rfl⟩ := h
  obtain ⟨⟨name, value⟩, hf, hv⟩ := List.mem_filterMap.1 hp
  obtain ⟨v, -, rfl⟩ := Option.map_eq_some_iff.1 hv
  exact ⟨name, List.mem_map_of_mem hf, rfl⟩

namespace Source

variable {α : Type}

/-! ## Records -/

theorem filter_fieldSources_eq_nil {name : String} {fields : List (String × Option Json)}
    (h : name ∉ fields.map (·.1)) :
    (fieldSources fields).filter (·.1 = some name) = [] := by
  rw [List.filter_eq_nil_iff]
  intro m hm
  obtain ⟨other, ho, he⟩ := exists_of_mem_fieldSources hm
  rw [decide_eq_true_iff, he, Option.some.injEq]
  rintro rfl
  exact h ho

theorem unique?_fieldSources {fields : List (String × Option Json)}
    (hn : (fields.map (·.1)).Nodup) {name : String} (value : Option Json)
    (hm : (name, value) ∈ fields) :
    unique? (fieldSources fields) name = some (value.map source) := by
  have hfilter : (fieldSources fields).filter (·.1 = some name)
      = (value.map fun v => (some name, v.source)).toList := by
    induction fields with
    | nil => simp at hm
    | cons f fields ih =>
      obtain ⟨key, field⟩ := f
      rw [List.map_cons, List.nodup_cons] at hn
      rw [fieldSources_cons, List.filter_append]
      rcases List.mem_cons.1 hm with heq | hm
      · obtain ⟨rfl, rfl⟩ := Prod.mk.injEq .. ▸ heq
        rw [filter_fieldSources_eq_nil hn.1, List.append_nil]
        cases value <;> simp
      · have hne : key ≠ name := by
          rintro rfl
          exact hn.1 (List.mem_map_of_mem (f := (·.1)) hm)
        rw [ih hn.2 hm]
        cases field <;> simp [hne]
  unfold unique?
  rw [hfilter]
  cases value <;> rfl

/-- **The fields of a written record are read as they are.** -/
theorem fields?_fieldSources (names : List String) {fields : List (String × Option Json)}
    (hnames : fields.map (·.1) = names) (hn : names.Nodup) :
    fields? names (.object (fieldSources fields)) = some (fields.map fun f => f.2.map source) := by
  subst hnames
  have hall : (fieldSources fields).all (·.1.isSome) = true := by
    rw [List.all_eq_true]
    intro m hm
    obtain ⟨name, -, he⟩ := exists_of_mem_fieldSources hm
    rw [he, Option.isSome_some]
  rw [fields?, if_pos hall, List.mapM_map]
  exact mapM_eq_some_map fun f hf => unique?_fieldSources hn f.2 hf

theorem isSome_memberValues?_fieldSources {fields : List (String × Option Json)}
    (h : ∀ f ∈ fields, ∀ v, f.2 = some v → v.InRange) (d : Nat) :
    (memberValues? d (fieldSources fields)).isSome
      ↔ ∀ f ∈ fields, ∀ v, f.2 = some v → v.depth ≤ d := by
  have hmem : ∀ p : String × Json, p ∈ fields.filterMap (fun (name, value) => value.map (name, ·))
      ↔ (p.1, some p.2) ∈ fields := by
    rintro ⟨name, v⟩
    rw [List.mem_filterMap]
    constructor
    · rintro ⟨⟨other, value⟩, hf, hv⟩
      obtain ⟨w, rfl, he⟩ := Option.map_eq_some_iff.1 hv
      obtain ⟨rfl, rfl⟩ := Prod.mk.inj he
      exact hf
    · exact fun hf => ⟨_, hf, rfl⟩
  have hrange : MembersInRange (fields.filterMap fun (name, value) => value.map (name, ·)) :=
    membersInRange_iff.2 fun p hp => h _ ((hmem p).1 hp) _ rfl
  rw [fieldSources, isSome_memberValues?_source hrange, memberDepth_le_iff]
  constructor
  · rintro hd ⟨name, value⟩ hf v rfl
    exact hd (name, v) ((hmem _).2 hf)
  · exact fun hd p hp => hd _ ((hmem p).1 hp) _ rfl

/-! ## Values -/

@[simp] theorem text?_string (s : String) : text? (Json.string s).source = some s := rfl

/-- **A natural number below `2 ^ 64` reads back.** -/
theorem natural?_ofNat {n : Nat} (h : n < UInt64.size) : natural? (ofNat n).source = some n := by
  have hw : Number.IsWord n := ⟨by omega, by omega⟩
  rw [ofNat, source, natural?, Number.number?_integer hw]

theorem list?_map (read? : Source → Option α) {β : Type} (f : β → Json) (xs : List β) :
    list? read? (Json.array (xs.map f)).source = xs.mapM fun x => read? (f x).source := by
  rw [source, itemSources_eq_map, list?, List.map_map, List.mapM_map]
  rfl

theorem source_ofDict (f : α → Json) (d : Dict α) :
    (ofDict f d).source = .object (d.entries.map fun e => (some e.1, (f e.2).source)) := by
  rw [ofDict, source, memberSources_eq_map, List.map_map]
  rfl

/-- **A written dictionary reads back.** -/
theorem dict?_ofDict {read? : Source → Option α} {f : α → Json} {d : Dict α}
    (h : ∀ e ∈ d.entries, read? (f e.2).source = some e.2) :
    dict? read? (ofDict f d).source = some d := by
  have hread : ∀ e ∈ d.entries,
      member? read? (some e.1, (f e.2).source) = some (id e) := by
    intro e he
    rw [member?, h e he]
    rfl
  rw [source_ofDict, dict?, List.mapM_map, Function.comp_def, mapM_eq_some_map hread,
    Option.map_some, List.map_id, Dict.ofList_entries]

theorem optional?_map {read? : Source → Option α} {f : α → Json} {value : Option α}
    (h : ∀ a, (f a).source ≠ .null ∧ read? (f a).source = some a) :
    optional? read? ((value.map f).map source) = some value := by
  cases value with
  | none => rfl
  | some a =>
    obtain ⟨hn, hr⟩ := h a
    rw [Option.map_some, Option.map_some]
    unfold optional?
    split
    · next he => simp at he
    · next he => exact absurd (Option.some.inj he) hn
    · next he =>
      obtain rfl := Option.some.inj he
      rw [hr, Option.map_some]

end Source

end Json

end ChannelLog
