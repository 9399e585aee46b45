/-!
# Dictionaries

Finite maps from texts, kept as a list of entries with strictly ascending keys. The order of texts
is that of their code points, which is also the order of their UTF-8 bytes. Two dictionaries that
answer every look-up alike are equal (`Dict.ext_get?`).

Main statements: `get?_insert`, `get?_erase`, `mem_keys_iff`, `ext_get?`.
-/

namespace ChannelLog

/-! ## Entries in order -/

def Ascending {α : Type} (entries : List (String × α)) : Prop :=
  entries.Pairwise fun a b => a.1 < b.1

/-- Enters `value` under `key`, in place of an earlier value. -/
def insertEntry {α : Type} (key : String) (value : α) : List (String × α) → List (String × α)
  | [] => [(key, value)]
  | (k, v) :: rest =>
    if key < k then (key, value) :: (k, v) :: rest
    else if key = k then (key, value) :: rest
    else (k, v) :: insertEntry key value rest

def findValue? {α : Type} (key : String) : List (String × α) → Option α
  | [] => none
  | (k, v) :: rest => if key = k then some v else findValue? key rest

variable {α : Type}

theorem lt_of_not_lt_of_ne {a b : String} (h : ¬ a < b) (hne : a ≠ b) : b < a := by
  rw [← String.not_le]
  exact fun hle => hne (String.le_antisymm hle (String.not_lt.1 h))

theorem mem_insertEntry {key : String} {value : α} {entries : List (String × α)}
    {e : String × α} (h : e ∈ insertEntry key value entries) :
    e = (key, value) ∨ e ∈ entries := by
  fun_induction insertEntry key value entries <;> grind

theorem Ascending.insertEntry (key : String) (value : α) {entries : List (String × α)}
    (h : Ascending entries) : Ascending (insertEntry key value entries) := by
  fun_induction ChannelLog.insertEntry key value entries with
  | case1 => exact List.pairwise_singleton _ _
  | case2 k v rest hlt =>
    refine List.pairwise_cons.2 ⟨fun e he => ?_, h⟩
    rcases List.mem_cons.1 he with rfl | he
    · exact hlt
    · exact String.lt_trans hlt ((List.pairwise_cons.1 h).1 e he)
  | case3 v rest _ => exact List.pairwise_cons.2 (List.pairwise_cons.1 h)
  | case4 k v rest hlt hne ih =>
    have hp := List.pairwise_cons.1 h
    refine List.pairwise_cons.2 ⟨fun e he => ?_, ih hp.2⟩
    rcases mem_insertEntry he with rfl | he
    · exact lt_of_not_lt_of_ne hlt hne
    · exact hp.1 e he

theorem Ascending.nodup_keys {entries : List (String × α)} (h : Ascending entries) :
    (entries.map (·.1)).Nodup := by
  refine List.pairwise_map.2 (h.imp ?_)
  intro a b hlt heq
  rw [heq] at hlt
  exact String.lt_irrefl _ hlt

theorem findValue?_insertEntry (k key : String) (value : α) (entries : List (String × α)) :
    findValue? k (insertEntry key value entries)
      = if k = key then some value else findValue? k entries := by
  fun_induction insertEntry key value entries <;> grind [findValue?]

theorem findValue?_eq_none_iff {k : String} {entries : List (String × α)} :
    findValue? k entries = none ↔ ∀ e ∈ entries, e.1 ≠ k := by
  induction entries with
  | nil => simp [findValue?]
  | cons e rest ih => grind [findValue?]

theorem findValue?_eq_some_iff {k : String} {v : α} {entries : List (String × α)}
    (h : Ascending entries) : findValue? k entries = some v ↔ (k, v) ∈ entries := by
  induction entries with
  | nil => simp [findValue?]
  | cons e rest ih =>
    obtain ⟨hlt, hrest⟩ := List.pairwise_cons.1 h
    by_cases hk : k = e.1
    · subst hk
      have : (e.1, v) ∉ rest := fun hm => String.lt_irrefl _ (hlt (e.1, v) hm)
      simp [findValue?, this, Prod.ext_iff, eq_comm]
    · have : (k, v) ≠ e := fun he => hk (by simp [← he])
      simp [findValue?, hk, ih hrest, this]

/-! ## The type -/

/-- A finite map from texts. -/
structure Dict (α : Type) where
  entries : List (String × α)
  ascending : Ascending entries

namespace Dict

instance [DecidableEq α] : DecidableEq (Dict α) := fun d e =>
  decidable_of_iff (d.entries = e.entries)
    ⟨fun h => by cases d; cases e; simp_all, fun h => h ▸ rfl⟩

def empty : Dict α := ⟨[], List.Pairwise.nil⟩

instance : EmptyCollection (Dict α) := ⟨empty⟩

instance : Inhabited (Dict α) := ⟨empty⟩

def insert (d : Dict α) (key : String) (value : α) : Dict α :=
  ⟨insertEntry key value d.entries, d.ascending.insertEntry key value⟩

def erase (d : Dict α) (key : String) : Dict α :=
  ⟨d.entries.filter (·.1 ≠ key), d.ascending.filter _⟩

def get? (d : Dict α) (key : String) : Option α := findValue? key d.entries

def contains (d : Dict α) (key : String) : Bool := (d.get? key).isSome

def keys (d : Dict α) : List String := d.entries.map (·.1)

def size (d : Dict α) : Nat := d.entries.length

/-- Enters the pairs one after the other: the last value under a key stays. -/
def ofList (pairs : List (String × α)) : Dict α :=
  pairs.foldl (fun d (key, value) => d.insert key value) ∅

/-! ## Look-ups -/

@[simp] theorem get?_empty (k : String) : (∅ : Dict α).get? k = none := rfl

theorem get?_insert (d : Dict α) (k key : String) (value : α) :
    (d.insert key value).get? k = if k = key then some value else d.get? k :=
  findValue?_insertEntry k key value d.entries

theorem get?_eq_some_iff {d : Dict α} {k : String} {v : α} :
    d.get? k = some v ↔ (k, v) ∈ d.entries :=
  findValue?_eq_some_iff d.ascending

theorem mem_keys_iff {d : Dict α} {k : String} : k ∈ d.keys ↔ (d.get? k).isSome := by
  rw [Option.isSome_iff_exists]
  simp [keys, get?_eq_some_iff]

theorem nodup_keys (d : Dict α) : d.keys.Nodup := d.ascending.nodup_keys

theorem get?_erase (d : Dict α) (k key : String) :
    (d.erase key).get? k = if k = key then none else d.get? k := by
  rcases Decidable.em (k = key) with rfl | hne
  · simp [get?, erase, findValue?_eq_none_iff]
  · rw [if_neg hne]
    apply Option.ext
    intro v
    rw [get?_eq_some_iff, get?_eq_some_iff]
    simp [erase, hne]

theorem ext_get? {d e : Dict α} (h : ∀ k, d.get? k = e.get? k) : d = e := by
  have entries_eq : ∀ {xs ys : List (String × α)}, Ascending xs → Ascending ys →
      (∀ p, p ∈ xs ↔ p ∈ ys) → xs = ys := by
    intro xs
    induction xs with
    | nil =>
      intro ys _ _ hm
      exact (List.eq_nil_iff_forall_not_mem.2 fun p hp => by simpa using (hm p).2 hp).symm
    | cons x xs ih =>
      intro ys hx hy hm
      cases ys with
      | nil => exact absurd ((hm x).1 (by simp)) (by simp)
      | cons y ys =>
        obtain ⟨hxlt, hxs⟩ := List.pairwise_cons.1 hx
        obtain ⟨hylt, hys⟩ := List.pairwise_cons.1 hy
        have hxy : x = y := by
          rcases List.mem_cons.1 ((hm x).1 (by simp)) with e | hxin
          · exact e
          rcases List.mem_cons.1 ((hm y).2 (by simp)) with e | hyin
          · exact e.symm
          exact absurd (String.lt_trans (hylt x hxin) (hxlt y hyin)) (String.lt_irrefl _)
        subst hxy
        refine congrArg (x :: ·) (ih hxs hys fun p => ?_)
        have hp := hm p
        by_cases hpx : p = x
        · subst hpx
          exact ⟨fun hin => absurd (hxlt p hin) (String.lt_irrefl _),
            fun hin => absurd (hylt p hin) (String.lt_irrefl _)⟩
        · simpa [hpx] using hp
  have : d.entries = e.entries := entries_eq d.ascending e.ascending fun (k, v) => by
    rw [← get?_eq_some_iff, ← get?_eq_some_iff, h]
  cases d; cases e; simp_all

end Dict

end ChannelLog
