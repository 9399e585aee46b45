import ChannelLog.Proofs.Bytes.Hex
import ChannelLog.Store.Folder
import ChannelLog.Store.Memory

/-!
# Laws of stores

What a log relies on: an entry reads back as it was appended, an append changes no other entry, and
a new location is listed last (`LawfulStore`). Both kinds of store obey, in memory always and in a
folder as long as its manifest lists what it has times for, as it does when it was loaded
(`FolderStore.valid_ofFolder`).
-/

namespace ChannelLog

/-- A store that keeps what is appended to it, as long as it is `Valid`. -/
class LawfulStore (σ : Type) [Store σ] where
  Valid : σ → Prop
  valid_append {s s' : σ} {now : UInt64} {content : String} {a : Appended} :
    Valid s → Store.append s now content = .ok (a, s') → Valid s'
  read_append_self {s s' : σ} {now : UInt64} {content : String} {a : Appended} :
    Store.append s now content = .ok (a, s') → Store.read s' a.location = .ok ⟨content, a.details⟩
  read_append_other {s s' : σ} {now : UInt64} {content : String} {a : Appended} {l : Location} :
    Store.append s now content = .ok (a, s') → l ≠ a.location →
      Store.read s' l = Store.read s l
  locations_append {s s' : σ} {now : UInt64} {content : String} {a : Appended}
      {ls : List Location} :
    Valid s → Store.append s now content = .ok (a, s') → Store.locations s = .ok ls →
      a.location ∉ ls → Store.locations s' = .ok (ls ++ [a.location])
  mem_locations_append {s s' : σ} {now : UInt64} {content : String} {a : Appended}
      {ls : List Location} :
    Valid s → Store.append s now content = .ok (a, s') → Store.locations s' = .ok ls →
      a.location ∈ ls

theorem LawfulStore.exists_read_append {σ : Type} [Store σ] [LawfulStore σ] {s s' : σ}
    {now : UInt64} {content : String} {a : Appended} {l : Location}
    (ha : Store.append s now content = .ok (a, s')) (h : ∃ stored, Store.read s l = .ok stored) :
    ∃ stored, Store.read s' l = .ok stored := by
  by_cases hl : l = a.location
  · rw [hl]
    exact ⟨_, LawfulStore.read_append_self ha⟩
  · rwa [LawfulStore.read_append_other ha hl]

/-! ## In memory -/

instance : LawfulStore MemoryStore where
  Valid _ := True
  valid_append _ _ := trivial
  read_append_self {s s' now content a} h := by
    obtain ⟨rfl, rfl⟩ := Prod.mk.inj (Except.ok.inj h)
    simp [Store.read, MemoryStore.read, Dict.get?_insert]
  read_append_other {s s' now content a l} h hne := by
    obtain ⟨rfl, rfl⟩ := Prod.mk.inj (Except.ok.inj h)
    simp only at hne
    simp [Store.read, MemoryStore.read, Dict.get?_insert, hne]
  locations_append {s s' now content a ls} _ h hls _ := by
    obtain ⟨rfl, rfl⟩ := Prod.mk.inj (Except.ok.inj h)
    obtain rfl := Except.ok.inj hls
    rfl
  mem_locations_append {s s' now content a ls} _ h hls := by
    obtain ⟨rfl, rfl⟩ := Prod.mk.inj (Except.ok.inj h)
    obtain rfl := Except.ok.inj hls
    simp

/-! ## Locations -/

/-- **The locations that stores make up are locations.** -/
theorem isLocation_blockLocation (sequence : Nat) (content : String) :
    isLocation (blockLocation sequence content).toList = true := by
  unfold blockLocation Hex.encode
  rw [String.toList_ofList, isLocation, Bool.and_eq_true, beq_iff_eq, List.all_eq_true]
  refine ⟨by rw [Hex.length_flatMap_byteDigits, Keccak.length_hash], fun c hc => ?_⟩
  obtain ⟨n, hn, rfl⟩ := Hex.exists_digitChar hc
  simpa using Hex.isHexDigit_digitChar n hn

/-! ## In a folder -/

namespace Manifest

/-- The manifest has a time for exactly the locations that it lists. -/
def Valid (m : Manifest) : Prop := ∀ l, m.timestamps.contains l = true ↔ l ∈ m.order

theorem contains_record (m : Manifest) (location l : Location) (timestamp : UInt64) :
    (m.record location timestamp).timestamps.contains l = true
      ↔ l = location ∨ m.timestamps.contains l = true := by
  simp only [record, Dict.contains, Dict.get?_insert]
  split <;> simp_all

theorem valid_empty : empty.Valid := fun l => by simp [empty, Dict.contains]

theorem Valid.record {m : Manifest} (h : m.Valid) (location : Location) (timestamp : UInt64) :
    (m.record location timestamp).Valid := by
  intro l
  rw [contains_record, h l]
  by_cases hc : m.timestamps.contains location = true
  · have hmem := (h location).1 hc
    simp only [Manifest.record, if_pos hc]
    exact or_iff_right_of_imp fun e => e ▸ hmem
  · simp only [Manifest.record, if_neg hc, List.mem_append, List.mem_singleton]
    exact or_comm

theorem Valid.loadLines {m m' : Manifest} {number : Nat} {lines : List (List Char)}
    (h : m.Valid) (hl : m.loadLines number lines = .ok m') : m'.Valid := by
  induction lines generalizing m number with
  | nil =>
    obtain rfl := Except.ok.inj hl
    exact h
  | cons line lines ih =>
    rw [Manifest.loadLines] at hl
    split at hl
    · exact ih h hl
    · split at hl
      · simp at hl
      · exact ih (h.record _ _) hl

theorem valid_ofText {text : String} {m : Manifest} (h : ofText text = .ok m) : m.Valid :=
  valid_empty.loadLines h

end Manifest

namespace FolderStore

/-! The names of files -/

theorem getLast?_blockName (l : Location) : (blockName l).toList.getLast? = some 'n' := by
  simp [blockName]

theorem blockName_ne_manifestName (l : Location) : blockName l ≠ manifestName := by
  intro h
  have := getLast?_blockName l
  rw [h] at this
  exact absurd this (by decide)

theorem blockName_ne_unfinishedName (l l' : Location) : blockName l ≠ unfinishedName l' := by
  intro h
  have hlast := getLast?_blockName l
  rw [h] at hlast
  simp [unfinishedName] at hlast

theorem blockName_injective {l l' : Location} (h : blockName l = blockName l') : l = l' := by
  have := congrArg String.toList h
  simp only [blockName, String.toList_append] at this
  exact String.toList_inj.1 (List.append_cancel_right this)

theorem get?_append (s : FolderStore) (now : UInt64) (content : String) (l : Location) :
    (s.append now content).2.folder.get? (blockName l)
      = if l = (s.append now content).1.location then some (Bytes.utf8 content)
        else s.folder.get? (blockName l) := by
  simp only [append, Folder.writeAtEnd, Folder.rename, Dict.get?_insert, if_true]
  rw [if_neg (blockName_ne_manifestName l)]
  by_cases h : l = blockLocation s.manifest.order.length content
  · rw [if_pos h, if_pos (congrArg blockName h)]
  · rw [if_neg h, if_neg fun he => h (blockName_injective he), Dict.get?_erase,
      if_neg (blockName_ne_unfinishedName _ _), Dict.get?_insert,
      if_neg (blockName_ne_unfinishedName _ _)]

theorem timestamp_append (s : FolderStore) (now : UInt64) (content : String) (l : Location) :
    (s.append now content).2.manifest.timestamps.get? l
      = if l = (s.append now content).1.location then some now
        else s.manifest.timestamps.get? l :=
  Dict.get?_insert _ _ _ _

theorem read_append (s : FolderStore) (now : UInt64) (content : String) (l : Location) :
    (s.append now content).2.read l
      = if l = (s.append now content).1.location then
          .ok ⟨content, (s.append now content).1.details⟩
        else s.read l := by
  unfold read
  rw [timestamp_append, Folder.readText?, get?_append]
  by_cases h : l = (s.append now content).1.location
  · have hloc : isLocation l.toList = true := by
      rw [h]
      exact isLocation_blockLocation _ _
    rw [if_pos h, if_pos h, if_pos h, hloc]
    simp only [Bytes.text?_utf8]
    rfl
  · rw [if_neg h, if_neg h, if_neg h]
    rfl

theorem mem_order_append {s : FolderStore} (hv : s.manifest.Valid) (now : UInt64)
    (content : String) :
    (s.append now content).1.location ∈ (s.append now content).2.manifest.order :=
  (hv.record _ now _).1 ((Manifest.contains_record _ _ _ _).2 (.inl rfl))

theorem order_append {s : FolderStore} (hv : s.manifest.Valid) (now : UInt64) (content : String)
    (hn : (s.append now content).1.location ∉ s.manifest.order) :
    (s.append now content).2.manifest.order
      = s.manifest.order ++ [(s.append now content).1.location] :=
  if_neg fun hc => hn ((hv _).1 hc)

instance : LawfulStore FolderStore where
  Valid s := s.manifest.Valid
  valid_append {s s' now content a} hv h := by
    have hs : s' = (s.append now content).2 := congrArg Prod.snd (Except.ok.inj h).symm
    rw [hs]
    exact hv.record _ _
  read_append_self {s s' now content a} h := by
    have hs : (a, s') = s.append now content := (Except.ok.inj h).symm
    have hread := read_append s now content a.location
    rw [← hs, if_pos rfl] at hread
    exact hread
  read_append_other {s s' now content a l} h hne := by
    have hs : (a, s') = s.append now content := (Except.ok.inj h).symm
    have hread := read_append s now content l
    rw [← hs, if_neg hne] at hread
    exact hread
  locations_append {s s' now content a ls} hv h hls hn := by
    have hs : (a, s') = s.append now content := (Except.ok.inj h).symm
    have horder := order_append hv now content
    rw [← hs, Except.ok.inj hls] at horder
    exact congrArg Except.ok (horder hn)
  mem_locations_append {s s' now content a ls} hv h hls := by
    have hs : (a, s') = s.append now content := (Except.ok.inj h).symm
    have hmem := mem_order_append hv now content
    rw [← hs] at hmem
    rw [← Except.ok.inj hls]
    exact hmem

/-- **An opened folder is a valid store.** -/
theorem valid_ofFolder {folder : Folder} {s : FolderStore} (h : ofFolder folder = .ok s) :
    LawfulStore.Valid s := by
  show s.manifest.Valid
  unfold ofFolder at h
  cases ht : folder.readText? manifestName with
  | error e => simp [ht, bind, Except.bind] at h
  | ok text? =>
    simp only [ht, bind, Except.bind] at h
    cases text? with
    | none =>
      obtain rfl := Except.ok.inj h
      exact Manifest.valid_empty
    | some text =>
      simp only at h
      cases hm : Manifest.ofText text with
      | error e => simp [hm] at h
      | ok m =>
        simp only [hm] at h
        obtain rfl := Except.ok.inj h
        exact Manifest.valid_ofText hm

end FolderStore

end ChannelLog
