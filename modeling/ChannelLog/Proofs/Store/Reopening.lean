import ChannelLog.Proofs.Crypto.Keccak
import ChannelLog.Proofs.Store.Manifest

/-!
# A folder that is opened again and again is the store in memory

A holder of a folder may close it between any two appends; what is opened then is what the manifest
and the block files say. `FolderStore.Written` is what carries the store over: the manifest file
lists, line by line, the entries that the store remembers. It holds of a new folder and after every
append, and opening then gives the very store that was closed (`FolderStore.survives`).

What a store holds after some appends (`Holds`) is kept by each append whose location is new. As a
location is a hash of the number and the text of its entry, all are new as long as no two of these
collide (`nodup_places`). So a run of a folder, closed and opened in between, ends where a run of the
store in memory ends (`FolderStore.same_as_memory`).
-/

namespace ChannelLog

/-! ## Runs of a store -/

/-- A text to append, and what the clock shows then. -/
structure Draft where
  now : UInt64
  content : String

/-- What is done with a store: a text is appended, or the store is closed and opened again. -/
inductive StoreCall where
  | append (draft : Draft)
  | reopen

/-- The texts that are appended, in order. -/
def StoreCall.drafts (calls : List StoreCall) : List Draft :=
  calls.filterMap fun
    | .append draft => some draft
    | .reopen => none

variable {σ : Type} [Store σ]

/-- Makes the calls one after the other, with `reopen` for closing and opening, up to the first that
fails. Gives what the appends gave. -/
def runStore (reopen : σ → Except StorageError σ) (s : σ) :
    List StoreCall → Except StorageError (List Appended × σ)
  | [] => .ok ([], s)
  | .append draft :: calls => do
    let (appended, s) ← Store.append s draft.now draft.content
    let (others, s) ← runStore reopen s calls
    return (appended :: others, s)
  | .reopen :: calls => do
    let s ← reopen s
    runStore reopen s calls

/-- Opening again gives the same store as long as `Kept` holds of it, as it does after an append. -/
structure Survives (reopen : σ → Except StorageError σ) (Kept : σ → Prop) : Prop where
  reopen {s : σ} : Kept s → reopen s = .ok s
  append {s s' : σ} {now : UInt64} {content : String} {a : Appended} :
    Kept s → Store.append s now content = .ok (a, s') → Kept s'

/-! ## What a store holds -/

/-- What is known of a text in a store of kind `type`. -/
def Draft.details (type : StorageType) (d : Draft) : StorageMeta :=
  ⟨type, d.content.utf8ByteSize, d.now⟩

/-- What appending `d` to a store of kind `type` with `sequence` entries gives. -/
def Draft.receipt (type : StorageType) (sequence : Nat) (d : Draft) : Appended :=
  ⟨blockLocation sequence d.content, d.details type⟩

/-- Where the texts are stored if nothing comes before them. -/
def Draft.places (ds : List Draft) : List Location :=
  ds.mapIdx fun sequence d => blockLocation sequence d.content

open StoreCall (drafts)
open Draft (places receipt)

theorem places_append (ds : List Draft) (d : Draft) :
    places (ds ++ [d]) = places ds ++ [blockLocation ds.length d.content] :=
  List.mapIdx_concat

theorem places_sublist (ds es : List Draft) : (places ds).Sublist (places (ds ++ es)) := by
  rw [places, places, List.mapIdx_append]
  exact List.sublist_append_left _ _

theorem length_places (ds : List Draft) : (places ds).length = ds.length :=
  List.length_mapIdx

theorem mem_places {ds : List Draft} {k : Nat} {d : Draft} (h : ds[k]? = some d) :
    blockLocation k d.content ∈ places ds := by
  obtain ⟨hk, rfl⟩ := List.getElem?_eq_some_iff.1 h
  exact List.mem_mapIdx.2 ⟨k, hk, rfl⟩

/-- A kind of store that numbers its entries: an append succeeds, under the location of the text and
the number of the entries before it. -/
class NumberedStore (σ : Type) [Store σ] where
  type : StorageType
  append_eq {s : σ} {ls : List Location} (d : Draft) : Store.locations s = .ok ls →
    ∃ s', Store.append s d.now d.content = .ok (receipt type ls.length d, s')

instance : NumberedStore MemoryStore where
  type := .inMemory
  append_eq _ h := by
    obtain rfl := Except.ok.inj h
    exact ⟨_, rfl⟩

instance : NumberedStore FolderStore where
  type := .file
  append_eq _ h := by
    obtain rfl := Except.ok.inj h
    exact ⟨_, rfl⟩

variable [LawfulStore σ] [NumberedStore σ]

/-- What a store holds to which the texts `ds` were appended, and nothing else. -/
structure Holds (s : σ) (ds : List Draft) : Prop where
  valid : LawfulStore.Valid s
  locations : Store.locations s = .ok (places ds)
  read : ∀ k d, ds[k]? = some d →
    Store.read s (blockLocation k d.content) = .ok ⟨d.content, d.details (NumberedStore.type σ)⟩
  unknown : ∀ l ∉ places ds, ∀ stored, Store.read s l ≠ .ok stored

/-- **An append under a new location adds its text to what the store holds.** -/
theorem Holds.append {s s' : σ} {ds : List Draft} {d : Draft} (h : Holds s ds)
    (hnew : blockLocation ds.length d.content ∉ places ds)
    (ha : Store.append s d.now d.content
      = .ok (receipt (NumberedStore.type σ) ds.length d, s')) :
    Holds s' (ds ++ [d]) where
  valid := LawfulStore.valid_append h.valid ha
  locations := by
    rw [places_append]
    exact (LawfulStore.locations_append h.valid ha h.locations hnew :)
  read k e he := by
    rcases Nat.lt_trichotomy k ds.length with hk | rfl | hk
    · rw [List.getElem?_append_left hk] at he
      have hne : blockLocation k e.content ≠ blockLocation ds.length d.content := fun heq =>
        hnew (heq ▸ mem_places he)
      rw [LawfulStore.read_append_other ha hne]
      exact h.read k e he
    · obtain rfl : d = e := by simpa using he
      exact (LawfulStore.read_append_self ha :)
    · rw [List.getElem?_eq_none (by simp; omega)] at he
      simp at he
  unknown l hl stored := by
    rw [places_append, List.mem_append, List.mem_singleton, not_or] at hl
    rw [LawfulStore.read_append_other ha hl.2]
    exact h.unknown l hl.1 stored

/-- **A run in which all locations are new succeeds**, and the store holds what was appended to what
it held before. -/
theorem exists_runStore {reopen : σ → Except StorageError σ} {Kept : σ → Prop}
    (hsurvives : Survives reopen Kept) (calls : List StoreCall) {s : σ} {before : List Draft}
    (hkept : Kept s) (hholds : Holds s before)
    (hnodup : (places (before ++ drafts calls)).Nodup) :
    ∃ s', runStore reopen s calls
        = .ok ((drafts calls).mapIdx fun k d =>
            receipt (NumberedStore.type σ) (before.length + k) d, s') ∧
      Holds s' (before ++ drafts calls) := by
  -- what was appended so far goes over into `before`
  induction calls generalizing s before with
  | nil =>
    refine ⟨s, rfl, ?_⟩
    rw [drafts, List.filterMap_nil, List.append_nil]
    exact hholds
  | cons call calls ih =>
    cases call with
    | reopen =>
      obtain ⟨s', hrun, hs'⟩ := ih hkept hholds hnodup
      exact ⟨s', by rw [runStore, hsurvives.reopen hkept]; exact hrun, hs'⟩
    | append d =>
      have hsplit : before ++ drafts (.append d :: calls) = (before ++ [d]) ++ drafts calls := by
        rw [drafts, List.filterMap_cons, ← drafts, List.append_assoc, List.singleton_append]
      rw [hsplit] at hnodup ⊢
      have hnew : blockLocation before.length d.content ∉ places before := by
        have hfirst := hnodup.sublist (places_sublist _ _)
        rw [places_append, List.nodup_append] at hfirst
        exact fun hmem => hfirst.2.2 _ hmem _ (List.mem_singleton_self _) rfl
      obtain ⟨t, ht⟩ := NumberedStore.append_eq d hholds.locations
      rw [length_places] at ht
      obtain ⟨s', hrun, hs'⟩ := ih (hsurvives.append hkept ht) (hholds.append hnew ht) hnodup
      refine ⟨s', ?_, hs'⟩
      rw [runStore, ht]
      simp only [bind, Except.bind, hrun]
      simp [drafts, pure, Except.pure, List.mapIdx_cons, Nat.add_right_comm, Nat.add_assoc]

/-! ## The store in memory -/

theorem MemoryStore.survives : Survives Except.ok fun _ : MemoryStore => True :=
  ⟨fun _ => rfl, fun _ _ => trivial⟩

theorem MemoryStore.holds_empty : Holds MemoryStore.empty [] where
  valid := trivial
  locations := rfl
  read k d h := by simp at h
  unknown l _ stored := by simp [Store.read, MemoryStore.read, MemoryStore.empty]

/-! ## The store in a folder -/

namespace FolderStore

/-- Closes a store, of which only the folder is left, and opens the folder again. -/
def reopen (s : FolderStore) : Except StorageError FolderStore := ofFolder s.folder

/-- The manifest file lists the entries `records`, which are those that the store remembers. As long
as there are none, the file may not be there. -/
structure Lists (s : FolderStore) (records : List Manifest.Record) : Prop where
  isLocation : ∀ r ∈ records, isLocation r.1.toList = true
  file : s.folder.get? manifestName = some (Bytes.utf8 (Manifest.listing records)) ∨
    s.folder.get? manifestName = none ∧ records = []
  manifest : s.manifest = Manifest.ofRecords records

/-- **The store remembers what its manifest file lists.** -/
def Written (s : FolderStore) : Prop := ∃ records, s.Lists records

theorem manifestName_ne_unfinishedName (l : Location) : manifestName ≠ unfinishedName l := by
  intro h
  have hlast := congrArg (·.toList.getLast?) h
  simp [unfinishedName, manifestName] at hlast

theorem manifestFile_append (s : FolderStore) (now : UInt64) (content : String) :
    (s.append now content).2.folder.get? manifestName
      = some ((s.folder.get? manifestName).getD []
          ++ Bytes.utf8 (Manifest.line (s.append now content).1.location now)) := by
  simp only [append, Folder.writeAtEnd, Folder.rename, Dict.get?_insert, if_true]
  rw [if_neg (blockName_ne_manifestName _).symm, Dict.get?_erase,
    if_neg (manifestName_ne_unfinishedName _), Dict.get?_insert,
    if_neg (manifestName_ne_unfinishedName _)]

theorem Lists.append {s : FolderStore} {records : List Manifest.Record} (h : s.Lists records)
    (now : UInt64) (content : String) :
    (s.append now content).2.Lists (records ++ [((s.append now content).1.location, now)]) where
  isLocation := by
    rw [List.forall_mem_append, List.forall_mem_singleton]
    exact ⟨h.isLocation, isLocation_blockLocation _ _⟩
  file := by
    rw [manifestFile_append, Manifest.utf8_listing_append]
    rcases h.file with hfile | ⟨hfile, rfl⟩ <;> rw [hfile]
    · exact .inl rfl
    · exact .inl rfl
  manifest := by
    rw [Manifest.ofRecords_append, ← h.manifest]
    rfl

theorem Lists.reopen {s : FolderStore} {records : List Manifest.Record} (h : s.Lists records) :
    s.reopen = .ok s := by
  rw [FolderStore.reopen, ofFolder, Folder.readText?]
  rcases h.file with hfile | ⟨hfile, rfl⟩ <;> rw [hfile]
  · simp only [Bytes.text?_utf8, bind, Except.bind, Manifest.ofText_listing h.isLocation]
    rw [← h.manifest]
    rfl
  · simp only [bind, Except.bind]
    rw [show Manifest.empty = s.manifest from h.manifest.symm]
    rfl

theorem survives : Survives reopen Written where
  reopen := fun ⟨_, h⟩ => h.reopen
  append {s s' now content a} := fun ⟨records, h⟩ ha => by
    have hs : s' = (s.append now content).2 := congrArg Prod.snd (Except.ok.inj ha).symm
    rw [hs]
    exact ⟨_, h.append now content⟩

section

variable {folder : Folder} (hnew : folder.get? manifestName = none)

include hnew

theorem ofFolder_new : ofFolder folder = .ok ⟨folder, .empty⟩ := by
  rw [ofFolder, Folder.readText?, hnew]
  rfl

theorem written_new : Written ⟨folder, .empty⟩ :=
  ⟨[], by simp, .inr ⟨hnew, rfl⟩, rfl⟩

end

theorem holds_new (folder : Folder) : Holds (⟨folder, .empty⟩ : FolderStore) [] where
  valid := Manifest.valid_empty
  locations := rfl
  read k d h := by simp at h
  unknown l _ stored := by
    simp only [Store.read, FolderStore.read, Manifest.empty, Dict.get?_empty]
    split <;> simp

end FolderStore

/-! ## New locations -/

/-- What the location of an entry is the hash of. -/
def preimage (sequence : Nat) (content : String) : Bytes :=
  Bytes.ofNat 8 sequence ++ Bytes.utf8 content

/-- No two of the texts have the same hash by accident. -/
def CollisionFree (ds : List Draft) : Prop :=
  ∀ i j d e, ds[i]? = some d → ds[j]? = some e →
    Keccak.hash (preimage i d.content) = Keccak.hash (preimage j e.content) →
    preimage i d.content = preimage j e.content

theorem collisionFree_of_nodup {ds : List Draft}
    (h : (ds.mapIdx fun k d => Keccak.hash (preimage k d.content)).Nodup) : CollisionFree ds := by
  intro i j d e hi hj heq
  have hlt : i < ds.length := (List.getElem?_eq_some_iff.1 hi).1
  have hij : i = j := (List.getElem?_inj (by rwa [List.length_mapIdx]) h).1 <| by
    rw [List.getElem?_mapIdx, List.getElem?_mapIdx, hi, hj, Option.map_some, Option.map_some, heq]
  subst hij
  rw [Option.some.inj (hi.symm.trans hj)]

theorem hash_eq_of_blockLocation_eq {i j : Nat} {c c' : String}
    (h : blockLocation i c = blockLocation j c') :
    Keccak.hash (preimage i c) = Keccak.hash (preimage j c') := by
  have hdecode := congrArg Hex.decode h
  rw [blockLocation, blockLocation, Hex.decode_encode, Hex.decode_encode] at hdecode
  exact Except.ok.inj hdecode

theorem eq_of_preimage_eq {i j : Nat} {c c' : String} (hi : i < UInt64.size) (hj : j < UInt64.size)
    (h : preimage i c = preimage j c') : i = j := by
  have hlength : (Bytes.ofNat 8 i).length = (Bytes.ofNat 8 j).length := by
    rw [Bytes.length_ofNat, Bytes.length_ofNat]
  have hnumber := congrArg Bytes.toNat (List.append_inj_left h hlength)
  rw [Bytes.toNat_ofNat, Bytes.toNat_ofNat] at hnumber
  rwa [Nat.mod_eq_of_lt hi, Nat.mod_eq_of_lt hj] at hnumber

/-- **Texts without collisions are stored apart**, if eight bytes hold their numbers. -/
theorem nodup_places {ds : List Draft} (hfit : ds.length ≤ UInt64.size) (hfree : CollisionFree ds) :
    (places ds).Nodup := by
  rw [List.nodup_iff_pairwise_ne, List.pairwise_iff_getElem]
  intro i j hi hj hlt heq
  rw [length_places] at hi hj
  simp only [places, List.getElem_mapIdx] at heq
  have hpre := hfree i j _ _ (List.getElem?_eq_getElem hi) (List.getElem?_eq_getElem hj)
    (hash_eq_of_blockLocation_eq heq)
  have := eq_of_preimage_eq (by omega) (by omega) hpre
  omega

/-! ## One store -/

/-- **A folder is the same store as memory, however often it is closed and opened.** The clock may
show anything. The folder is new, its files are written by this store alone, eight bytes hold the
numbers of the entries, and their hashes do not collide. Then neither run fails and

* both give, for the `k`-th text, the location made of `k` and the text, its length and the time;
* these locations differ, and both stores list them in the order of the appends;
* at each of them both stores have the text as it was appended, with its length and its time;
* neither store has anything anywhere else.

This is so after every one of the calls, as each is the last of some run. -/
theorem FolderStore.same_as_memory {folder : Folder} (hnew : folder.get? manifestName = none)
    {calls : List StoreCall} (hfit : (drafts calls).length ≤ UInt64.size)
    (hfree : CollisionFree (drafts calls)) :
    ∃ opened f m, ofFolder folder = .ok opened ∧
      runStore reopen opened calls = .ok ((drafts calls).mapIdx (receipt .file), f) ∧
      runStore .ok MemoryStore.empty calls = .ok ((drafts calls).mapIdx (receipt .inMemory), m) ∧
      (places (drafts calls)).Nodup ∧
      Store.locations f = .ok (places (drafts calls)) ∧
      Store.locations m = .ok (places (drafts calls)) ∧
      (∀ k d, (drafts calls)[k]? = some d →
        Store.read f (blockLocation k d.content) = .ok ⟨d.content, d.details .file⟩ ∧
        Store.read m (blockLocation k d.content) = .ok ⟨d.content, d.details .inMemory⟩) ∧
      ∀ l ∉ places (drafts calls), ∀ stored,
        Store.read f l ≠ .ok stored ∧ Store.read m l ≠ .ok stored := by
  have hnodup := nodup_places hfit hfree
  obtain ⟨f, hf, hf'⟩ := exists_runStore survives calls (written_new hnew) (holds_new folder)
    (by rwa [List.nil_append])
  obtain ⟨m, hm, hm'⟩ := exists_runStore MemoryStore.survives calls trivial MemoryStore.holds_empty
    (by rwa [List.nil_append])
  simp only [List.nil_append, List.length_nil, Nat.zero_add] at hf hf' hm hm'
  exact ⟨_, f, m, ofFolder_new hnew, hf, hm, hnodup, hf'.locations, hm'.locations,
    fun k d hd => ⟨hf'.read k d hd, hm'.read k d hd⟩,
    fun l hl stored => ⟨hf'.unknown l hl stored, hm'.unknown l hl stored⟩⟩

/-- A text is stored twice, at either end of time, with the folder closed in between, and then another
one, with the folder closed twice. -/
def exampleSessions : List StoreCall :=
  [.append ⟨0, "{}"⟩, .reopen, .append ⟨18446744073709551615, "{}"⟩, .reopen, .reopen,
    .append ⟨7, "ß\r\n"⟩, .reopen]

theorem collisionFree_exampleSessions : CollisionFree (drafts exampleSessions) := by
  refine collisionFree_of_nodup ?_
  simp only [Keccak.hash_eq]
  decide +kernel

theorem FolderStore.same_as_memory_exampleSessions :
    ∃ opened f as, ofFolder ∅ = .ok opened ∧
      runStore reopen opened exampleSessions = .ok (as, f) ∧ as.length = 3 ∧
      Store.read f (blockLocation 0 "{}") = .ok ⟨"{}", .file, 2, 0⟩ ∧
      Store.read f (blockLocation 1 "{}") = .ok ⟨"{}", .file, 2, 18446744073709551615⟩ ∧
      Store.read f (blockLocation 2 "ß\r\n") = .ok ⟨"ß\r\n", .file, 4, 7⟩ := by
  obtain ⟨opened, f, m, hopened, hrun, -, -, -, -, hread, -⟩ :=
    FolderStore.same_as_memory (Dict.get?_empty _) (by decide) collisionFree_exampleSessions
  exact ⟨opened, f, _, hopened, hrun, rfl, (hread 0 _ rfl).1, (hread 1 _ rfl).1, (hread 2 _ rfl).1⟩

end ChannelLog
