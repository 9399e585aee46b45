import Mathlib.Data.List.Forall2
import Mathlib.Data.List.Induction
import Mathlib.Data.List.Nodup
import Mathlib.Data.List.Perm.Basic
import ChannelLog.Proofs.Json.Distinct

/-!
# Values with one canonical text

The canonical text of a value has the members of all objects in order. It tells values apart as far
as their members' order does not matter, and no further.

* `Json.Reordered`: values that are the same up to the order of members, in objects at any depth.
* `Json.KeysDistinct`: no object has two members with one key, as in every value in canonical form
  (`Json.keysDistinct_canonical`).
* `Json.canonicalText_eq_iff`: **two such values have one canonical text exactly if they are the
  same up to the order of members.** No assumption is made about numbers.
-/

namespace ChannelLog

/-! ## Members in another order -/

section

variable {α : Type}

theorem insertEntry_perm {key : String} (value : α) {entries : List (String × α)}
    (h : ∀ e ∈ entries, e.1 ≠ key) :
    (insertEntry key value entries).Perm ((key, value) :: entries) := by
  fun_induction insertEntry key value entries with
  | case1 => exact List.Perm.refl _
  | case2 k v rest hlt => exact List.Perm.refl _
  | case3 v rest hlt => exact absurd rfl (h (key, v) List.mem_cons_self)
  | case4 k v rest hlt hne ih =>
    exact ((ih fun e he => h e (List.mem_cons_of_mem _ he)).cons _).trans (List.Perm.swap _ _ _)

theorem findValue?_eq_some_iff_mem {key : String} {value : α} {entries : List (String × α)}
    (h : (entries.map (·.1)).Nodup) :
    findValue? key entries = some value ↔ (key, value) ∈ entries := by
  induction entries with
  | nil => simp [findValue?]
  | cons e rest ih =>
    obtain ⟨k, v⟩ := e
    obtain ⟨hfirst, hrest⟩ := List.nodup_cons.1 h
    rw [findValue?, List.mem_cons, Prod.mk.injEq]
    split
    · next hk =>
      subst hk
      have hnot : (key, value) ∉ rest := fun hmem =>
        hfirst (List.mem_map.2 ⟨(key, value), hmem, rfl⟩)
      simp [hnot, eq_comm]
    · next hk => simp [hk, ih hrest]

theorem findValue?_eq_of_perm {xs ys : List (String × α)} (h : xs.Perm ys)
    (hys : (ys.map (·.1)).Nodup) (key : String) : findValue? key xs = findValue? key ys := by
  have hxs : (xs.map (·.1)).Nodup := (h.map _).nodup_iff.2 hys
  apply Option.ext
  intro v
  rw [findValue?_eq_some_iff_mem hxs, findValue?_eq_some_iff_mem hys, h.mem_iff]

end

namespace Json

theorem sortMembers_perm {members : List (String × Json)} (h : (members.map (·.1)).Nodup) :
    (sortMembers members).Perm members := by
  induction members using List.reverseRecOn with
  | nil => exact List.Perm.refl _
  | append_singleton members m ih =>
    rw [List.map_append, List.nodup_append] at h
    obtain ⟨hnodup, -, hnew⟩ := h
    have hperm := ih hnodup
    have hfresh : ∀ e ∈ sortMembers members, e.1 ≠ m.1 := fun e he =>
      hnew e.1 (List.mem_map_of_mem (hperm.mem_iff.1 he)) m.1 (by simp)
    rw [sortMembers, List.foldl_append]
    have hlast := (List.perm_append_singleton m members).symm
    exact (insertEntry_perm m.2 hfresh).trans ((hperm.cons m).trans hlast)

/-- **Members with distinct keys are sorted alike exactly if they differ in their order only.** -/
theorem sortMembers_eq_iff_perm {ms ns : List (String × Json)} (hms : (ms.map (·.1)).Nodup)
    (hns : (ns.map (·.1)).Nodup) : sortMembers ms = sortMembers ns ↔ ms.Perm ns := by
  constructor
  · intro h
    exact (sortMembers_perm hms).symm.trans (h ▸ sortMembers_perm hns)
  · intro h
    have hsorted := (sortMembers_perm hms).trans (h.trans (sortMembers_perm hns).symm)
    refine hsorted.eq_of_pairwise (fun a b _ _ hab hba => ?_) (ascending_sortMembers ms)
      (ascending_sortMembers ns)
    exact absurd (String.lt_trans hab hba) (String.lt_irrefl _)

theorem canonicalMembers_eq_map (members : List (String × Json)) :
    canonicalMembers members = members.map fun m => (m.1, m.2.canonical) := by
  induction members with
  | nil => rfl
  | cons m members ih =>
    obtain ⟨key, v⟩ := m
    rw [canonicalMembers, ih, List.map_cons]

theorem canonical_object_eq_iff_perm {ms ns : List (String × Json)} (hms : (ms.map (·.1)).Nodup)
    (hns : (ns.map (·.1)).Nodup) : canonical (.object ms) = canonical (.object ns)
      ↔ (canonicalMembers ms).Perm (canonicalMembers ns) := by
  rw [canonical, canonical, object.injEq]
  exact sortMembers_eq_iff_perm (by rwa [keys_canonicalMembers]) (by rwa [keys_canonicalMembers])

theorem exists_perm_of_canonicalMembers {l ns : List (String × Json)}
    (h : l.Perm (canonicalMembers ns)) : ∃ ns', ns'.Perm ns ∧ l = canonicalMembers ns' := by
  have hns : List.Forall₂ (fun m n => m = (n.1, n.2.canonical)) (canonicalMembers ns) ns := by
    rw [canonicalMembers_eq_map, List.forall₂_map_left_iff, List.forall₂_same]
    exact fun _ _ => rfl
  obtain ⟨ns', hns', hperm⟩ := List.perm_comp_forall₂ h hns
  refine ⟨ns', hperm, ?_⟩
  rwa [canonicalMembers_eq_map, ← List.forall₂_eq_eq_eq, List.forall₂_map_right_iff]

/-! ## The same value -/

mutual

/-- The same value up to the order of members, in objects at any depth. -/
inductive Reordered : Json → Json → Prop
  | refl (v : Json) : Reordered v v
  | array {xs ys : List Json} (h : ItemsReordered xs ys) : Reordered (.array xs) (.array ys)
  /-- Values of members are reordered, and then the members. -/
  | object {ms ms' ns : List (String × Json)} (h : MembersReordered ms ms') (perm : ms'.Perm ns) :
    Reordered (.object ms) (.object ns)

inductive ItemsReordered : List Json → List Json → Prop
  | nil : ItemsReordered [] []
  | cons {x y : Json} {xs ys : List Json} (head : Reordered x y) (tail : ItemsReordered xs ys) :
    ItemsReordered (x :: xs) (y :: ys)

/-- The members stand as they did, and their values are reordered. -/
inductive MembersReordered : List (String × Json) → List (String × Json) → Prop
  | nil : MembersReordered [] []
  | cons {key : String} {x y : Json} {ms ns : List (String × Json)} (head : Reordered x y)
    (tail : MembersReordered ms ns) : MembersReordered ((key, x) :: ms) ((key, y) :: ns)

end

mutual

/-- No object in the value has two members with one key. -/
def KeysDistinct : Json → Prop
  | array items => ItemsKeysDistinct items
  | object members => (members.map (·.1)).Nodup ∧ MembersKeysDistinct members
  | _ => True

def ItemsKeysDistinct : List Json → Prop
  | [] => True
  | v :: items => KeysDistinct v ∧ ItemsKeysDistinct items

def MembersKeysDistinct : List (String × Json) → Prop
  | [] => True
  | (_, v) :: members => KeysDistinct v ∧ MembersKeysDistinct members

end

theorem membersKeysDistinct_iff {members : List (String × Json)} :
    MembersKeysDistinct members ↔ ∀ m ∈ members, m.2.KeysDistinct := by
  induction members with
  | nil => simp [MembersKeysDistinct]
  | cons m members ih => rw [MembersKeysDistinct, ih, List.forall_mem_cons]

theorem membersKeysDistinct_of_perm {ms ns : List (String × Json)} (h : ms.Perm ns)
    (hns : MembersKeysDistinct ns) : MembersKeysDistinct ms :=
  membersKeysDistinct_iff.2 fun m hm => membersKeysDistinct_iff.1 hns m (h.mem_iff.1 hm)

mutual

theorem keysDistinct_canonical (v : Json) : v.canonical.KeysDistinct := by
  match v with
  | .null | .bool _ | .number _ | .string _ => trivial
  | .array items => exact itemsKeysDistinct_canonicalItems items
  | .object members =>
    refine ⟨(ascending_sortMembers _).nodup_keys, membersKeysDistinct_iff.2 fun m hm => ?_⟩
    exact membersKeysDistinct_iff.1 (membersKeysDistinct_canonicalMembers members) m
      (mem_of_mem_sortMembers hm)

theorem itemsKeysDistinct_canonicalItems (items : List Json) :
    ItemsKeysDistinct (canonicalItems items) := by
  match items with
  | [] => trivial
  | v :: items => exact ⟨keysDistinct_canonical v, itemsKeysDistinct_canonicalItems items⟩

theorem membersKeysDistinct_canonicalMembers (members : List (String × Json)) :
    MembersKeysDistinct (canonicalMembers members) := by
  match members with
  | [] => trivial
  | (_, v) :: members =>
    exact ⟨keysDistinct_canonical v, membersKeysDistinct_canonicalMembers members⟩

end

/-! ## Equal canonical forms -/

mutual

theorem canonical_eq_of_reordered {v w : Json} (h : Reordered v w) (hw : w.KeysDistinct) :
    v.canonical = w.canonical := by
  match h with
  | .refl v => rfl
  | .array h => rw [canonical, canonical, canonicalItems_eq_of_reordered h hw]
  | @Reordered.object ms ms' ns h hperm =>
    obtain ⟨hkeys, hvalues⟩ := hw
    have hkeys' : (ms'.map (·.1)).Nodup := (hperm.map _).nodup_iff.2 hkeys
    have hmembers := canonicalMembers_eq_of_reordered h (membersKeysDistinct_of_perm hperm hvalues)
    have hsame : canonical (.object ms) = canonical (.object ms') := by
      rw [canonical, canonical, hmembers]
    rw [hsame, canonical_object_eq_iff_perm hkeys' hkeys, canonicalMembers_eq_map,
      canonicalMembers_eq_map]
    exact hperm.map _

theorem canonicalItems_eq_of_reordered {xs ys : List Json} (h : ItemsReordered xs ys)
    (hys : ItemsKeysDistinct ys) : canonicalItems xs = canonicalItems ys := by
  match h with
  | .nil => rfl
  | .cons head tail =>
    rw [canonicalItems, canonicalItems, canonical_eq_of_reordered head hys.1,
      canonicalItems_eq_of_reordered tail hys.2]

theorem canonicalMembers_eq_of_reordered {ms ns : List (String × Json)} (h : MembersReordered ms ns)
    (hns : MembersKeysDistinct ns) : canonicalMembers ms = canonicalMembers ns := by
  match h with
  | .nil => rfl
  | .cons head tail =>
    rw [canonicalMembers, canonicalMembers, canonical_eq_of_reordered head hns.1,
      canonicalMembers_eq_of_reordered tail hns.2]

end

mutual

theorem reordered_of_canonical_eq {v w : Json} (hv : v.KeysDistinct) (hw : w.KeysDistinct)
    (h : v.canonical = w.canonical) : Reordered v w := by
  match v, w with
  | .null, .null => exact .refl _
  | .bool b, .bool c => rw [bool.inj h]; exact .refl _
  | .number m, .number n => rw [number.inj h]; exact .refl _
  | .string s, .string t => rw [string.inj h]; exact .refl _
  | .array xs, .array ys => exact .array (itemsReordered_of_canonical_eq hv hw (array.inj h))
  | .object ms, .object ns =>
    obtain ⟨hkeys, hvalues⟩ := hv
    obtain ⟨hkeys', hvalues'⟩ := hw
    -- the members of `ns` in the order in which those of `ms` stand
    obtain ⟨ns', hperm, hns'⟩ := exists_perm_of_canonicalMembers
      ((canonical_object_eq_iff_perm hkeys hkeys').1 h)
    have hdistinct := membersKeysDistinct_of_perm hperm hvalues'
    exact .object (membersReordered_of_canonical_eq hvalues hdistinct hns') hperm

theorem itemsReordered_of_canonical_eq {xs ys : List Json} (hxs : ItemsKeysDistinct xs)
    (hys : ItemsKeysDistinct ys) (h : canonicalItems xs = canonicalItems ys) :
    ItemsReordered xs ys := by
  match xs, ys with
  | [], [] => exact .nil
  | x :: xs, y :: ys =>
    obtain ⟨hhead, htail⟩ := List.cons.inj h
    exact .cons (reordered_of_canonical_eq hxs.1 hys.1 hhead)
      (itemsReordered_of_canonical_eq hxs.2 hys.2 htail)

theorem membersReordered_of_canonical_eq {ms ns : List (String × Json)}
    (hms : MembersKeysDistinct ms) (hns : MembersKeysDistinct ns)
    (h : canonicalMembers ms = canonicalMembers ns) : MembersReordered ms ns := by
  match ms, ns with
  | [], [] => exact .nil
  | (key, x) :: ms, (key', y) :: ns =>
    obtain ⟨hhead, htail⟩ := List.cons.inj h
    obtain ⟨rfl, hvalue⟩ := Prod.mk.inj hhead
    exact .cons (reordered_of_canonical_eq hms.1 hns.1 hvalue)
      (membersReordered_of_canonical_eq hms.2 hns.2 htail)

end

/-- **Values have one canonical text exactly if they are the same up to the order of members.** -/
theorem canonicalText_eq_iff {v w : Json} (hv : v.KeysDistinct) (hw : w.KeysDistinct) :
    v.canonicalText = w.canonicalText ↔ Reordered v w := by
  constructor
  · intro h
    exact reordered_of_canonical_eq hv hw (text_injective h)
  · intro h
    rw [canonicalText, canonicalText, canonical_eq_of_reordered h hw]

/-- Values in canonical form, as all values that were read, are the same only if they are equal. -/
theorem reordered_iff_eq {v w : Json} (hv : v.canonical = v) (hw : w.canonical = w) :
    Reordered v w ↔ v = w := by
  constructor
  · intro h
    rw [← hv, ← hw, canonical_eq_of_reordered h (hw ▸ keysDistinct_canonical w)]
  · rintro rfl
    exact .refl v

/-! ## Members of objects that are the same -/

theorem Reordered.option_refl (v : Option Json) : Option.Rel Reordered v v := by
  cases v with
  | none => exact .none
  | some v => exact .some (.refl v)

theorem MembersReordered.rel_findValue? {ms ns : List (String × Json)} (h : MembersReordered ms ns)
    (key : String) : Option.Rel Reordered (findValue? key ms) (findValue? key ns) := by
  cases h with
  | nil => exact .none
  | cons head tail =>
    rw [findValue?, findValue?]
    split
    · exact .some head
    · exact tail.rel_findValue? key

theorem Reordered.rel_findValue? {ms ns : List (String × Json)}
    (h : Reordered (.object ms) (.object ns)) (hns : (ns.map (·.1)).Nodup) (key : String) :
    Option.Rel Reordered (findValue? key ms) (findValue? key ns) := by
  cases h with
  | refl => exact option_refl _
  | object h hperm =>
    rw [← findValue?_eq_of_perm hperm hns]
    exact h.rel_findValue? key

/-! ## Objects of fields -/

/-- The members of an object of fields: those that are there. -/
def present (fields : List (String × Option Json)) : List (String × Json) :=
  fields.filterMap fun (name, value) => value.map (name, ·)

theorem mem_present_iff {fields : List (String × Option Json)} {name : String} {v : Json} :
    (name, v) ∈ present fields ↔ (name, some v) ∈ fields := by
  rw [present, List.mem_filterMap]
  constructor
  · rintro ⟨⟨name', value⟩, hmem, hvalue⟩
    obtain ⟨v', rfl, he⟩ := Option.map_eq_some_iff.1 hvalue
    obtain ⟨rfl, rfl⟩ := Prod.mk.inj he
    exact hmem
  · exact fun hmem => ⟨_, hmem, rfl⟩

section

variable {fields : List (String × Option Json)} (h : (fields.map (·.1)).Nodup)

include h

theorem nodup_keys_present : ((present fields).map (·.1)).Nodup := by
  induction fields with
  | nil => exact List.nodup_nil
  | cons f fields ih =>
    obtain ⟨name, value⟩ := f
    obtain ⟨hnew, hrest⟩ := List.nodup_cons.1 h
    cases value with
    | none => exact ih hrest
    | some v =>
      refine List.nodup_cons.2 ⟨fun hmem => hnew ?_, ih hrest⟩
      obtain ⟨⟨k, w⟩, hw, hk⟩ := List.mem_map.1 hmem
      obtain rfl : k = name := hk
      exact List.mem_map.2 ⟨_, mem_present_iff.1 hw, rfl⟩

theorem findValue?_present {name : String} {value : Option Json} (hmem : (name, value) ∈ fields) :
    findValue? name (present fields) = value := by
  cases value with
  | some v => rwa [findValue?_eq_some_iff_mem (nodup_keys_present h), mem_present_iff]
  | none =>
    rw [findValue?_eq_none_iff]
    rintro ⟨_, v⟩ hv rfl
    have hboth := List.inj_on_of_nodup_map h hmem (mem_present_iff.1 hv) rfl
    exact nomatch hboth

theorem keysDistinct_ofFields (hvalues : ∀ name v, (name, some v) ∈ fields → v.KeysDistinct) :
    (ofFields fields).KeysDistinct :=
  ⟨nodup_keys_present h, membersKeysDistinct_iff.2 fun m hm =>
    hvalues m.1 m.2 (mem_present_iff.1 hm)⟩

end

/-- **Objects of fields that are the same have the same fields.** -/
theorem Reordered.rel_field {fs gs : List (String × Option Json)}
    (h : Reordered (ofFields fs) (ofFields gs)) (hfs : (fs.map (·.1)).Nodup)
    (hgs : (gs.map (·.1)).Nodup) {name : String} {x y : Option Json} (hx : (name, x) ∈ fs)
    (hy : (name, y) ∈ gs) : Option.Rel Reordered x y := by
  have hrel := Reordered.rel_findValue? h (nodup_keys_present hgs) name
  have hfx : findValue? name (present fs) = x := findValue?_present hfs hx
  have hgy : findValue? name (present gs) = y := findValue?_present hgs hy
  rw [← hfx, ← hgy]
  exact hrel

theorem membersReordered_present {fs gs : List (String × Option Json)}
    (h : List.Forall₂ (fun f g => f.1 = g.1 ∧ Option.Rel Reordered f.2 g.2) fs gs) :
    MembersReordered (present fs) (present gs) := by
  induction h with
  | nil => exact .nil
  | @cons f g fs gs hfirst hrest ih =>
    obtain ⟨name, x⟩ := f
    obtain ⟨_, y⟩ := g
    obtain ⟨rfl, hrel⟩ := hfirst
    cases hrel with
    | none => exact ih
    | some hrel => exact .cons hrel ih

theorem reordered_ofFields {fs gs : List (String × Option Json)}
    (h : List.Forall₂ (fun f g => f.1 = g.1 ∧ Option.Rel Reordered f.2 g.2) fs gs) :
    Reordered (ofFields fs) (ofFields gs) :=
  .object (membersReordered_present h) (List.Perm.refl _)

/-! ## Texts and dictionaries as values -/

theorem eq_of_reordered_string {s t : String} (h : Reordered (.string s) (.string t)) : s = t := by
  cases h
  rfl

theorem eq_of_rel_map {α : Type} {f : α → Json} (hf : ∀ {x y}, Reordered (f x) (f y) → x = y)
    {a b : Option α} (h : Option.Rel Reordered (a.map f) (b.map f)) : a = b := by
  cases a with
  | none =>
    cases b with
    | none => rfl
    | some y => exact nomatch h
  | some x =>
    cases b with
    | none => exact nomatch h
    | some y => rw [hf (Option.rel_some_some.1 h)]

theorem nodup_keys_entries {α : Type} (f : α → Json) (d : Dict α) :
    ((d.entries.map fun e => (e.1, f e.2)).map (·.1)).Nodup := by
  rw [List.map_map]
  exact d.ascending.nodup_keys

theorem findValue?_map_entries {α : Type} (f : α → Json) (d : Dict α) (key : String) :
    findValue? key (d.entries.map fun e => (e.1, f e.2)) = (d.get? key).map f := by
  rw [Dict.get?]
  induction d.entries with
  | nil => rfl
  | cons e entries ih =>
    rw [List.map_cons, findValue?, findValue?, ih]
    split <;> rfl

theorem eq_of_reordered_ofDict {d e : Dict String}
    (h : Reordered (ofDict .string d) (ofDict .string e)) : d = e := by
  apply Dict.ext_get?
  intro key
  have hrel : Option.Rel Reordered (findValue? key (d.entries.map fun m => (m.1, string m.2)))
      (findValue? key (e.entries.map fun m => (m.1, string m.2))) :=
    h.rel_findValue? (nodup_keys_entries .string e) key
  rw [findValue?_map_entries, findValue?_map_entries] at hrel
  exact eq_of_rel_map eq_of_reordered_string hrel

theorem keysDistinct_ofDict (d : Dict String) : (ofDict .string d).KeysDistinct := by
  refine ⟨nodup_keys_entries .string d, membersKeysDistinct_iff.2 fun m hm => ?_⟩
  obtain ⟨e, -, rfl⟩ := List.mem_map.1 hm
  trivial

end Json

end ChannelLog
