import ChannelLog.Log
import ChannelLog.Proofs.TopicIndex
import Mathlib.Data.List.Forall2

/-!
# What the steps of a log do

* `readBlocks_eq_mapM`: however many blocks are read at a time, the result is that of reading one
  after the other.
* `ensureReady_eq`, `append_eq`, `record_ready`: the steps of persisting a transaction.
* `persist_ready`, `persist_ready_cases`: what becomes of a log that is ready. Every error leaves the
  log as it was.
* `start_uninitialized`: a log that was not started yet is ready afterwards exactly if its index could
  be built, and as it was otherwise. Any other log refuses to be started (`start_refused`).
-/

namespace ChannelLog

/-! ## Reading in order -/

section

variable {α β ε : Type} {f : α → Except ε β} {xs : List α}

theorem mapM_singleton_ok {x : α} {b : β} (h : f x = .ok b) : [x].mapM f = .ok [b] := by
  rw [List.mapM_cons, h]
  rfl

/-- **The error of the whole is that of the first element that fails.** -/
theorem mapM_eq_error_iff {e : ε} : xs.mapM f = .error e ↔
    ∃ before x after, xs = before ++ x :: after ∧ (∀ y ∈ before, ∃ b, f y = .ok b) ∧
      f x = .error e := by
  induction xs with
  | nil => simp [pure, Except.pure]
  | cons x xs ih =>
    rw [List.mapM_cons]
    cases hx : f x with
    | error e' =>
      constructor
      · intro h
        obtain rfl := Except.error.inj h
        exact ⟨[], x, xs, rfl, by simp, hx⟩
      · rintro ⟨_ | ⟨y, before⟩, z, after, hxs, hbefore, hz⟩
        · obtain ⟨rfl, -⟩ := List.cons.inj hxs
          rw [hx] at hz
          exact congrArg _ (Except.error.inj hz)
        · obtain ⟨rfl, -⟩ := List.cons.inj hxs
          obtain ⟨b, hb⟩ := hbefore x List.mem_cons_self
          exact nomatch hx.symm.trans hb
    | ok b =>
      have hrest : (Except.ok b >>= fun b => xs.mapM f >>= fun bs => pure (b :: bs)) = .error e
          ↔ xs.mapM f = .error e := by
        cases xs.mapM f <;> simp [bind, Except.bind, pure, Except.pure]
      rw [hrest, ih]
      constructor
      · rintro ⟨before, z, after, rfl, hbefore, hz⟩
        exact ⟨x :: before, z, after, rfl, List.forall_mem_cons.2 ⟨⟨b, hx⟩, hbefore⟩, hz⟩
      · rintro ⟨_ | ⟨y, before⟩, z, after, hxs, hbefore, hz⟩
        · obtain ⟨rfl, -⟩ := List.cons.inj hxs
          exact nomatch hx.symm.trans hz
        · obtain ⟨rfl, rfl⟩ := List.cons.inj hxs
          exact ⟨before, z, after, rfl, (List.forall_mem_cons.1 hbefore).2, hz⟩

theorem exists_of_mapM_error {e : ε} (h : xs.mapM f = .error e) : ∃ x ∈ xs, f x = .error e := by
  obtain ⟨before, x, after, rfl, -, hx⟩ := mapM_eq_error_iff.1 h
  exact ⟨x, List.mem_append_right _ List.mem_cons_self, hx⟩

theorem eq_error_of_map {γ : Type} {r : Except ε β} {g : β → γ} {e : ε}
    (h : r.map g = .error e) : r = .error e := by
  cases r with
  | error e' => exact congrArg _ (Except.error.inj h)
  | ok b => simp [Except.map] at h

theorem mapM_eq_ok_iff {bs : List β} :
    xs.mapM f = .ok bs ↔ List.Forall₂ (fun x b => f x = .ok b) xs bs := by
  induction xs generalizing bs with
  | nil =>
    rw [List.mapM_nil, List.forall₂_nil_left_iff]
    exact ⟨fun h => (Except.ok.inj h).symm, fun h => h ▸ rfl⟩
  | cons x xs ih =>
    rw [List.mapM_cons, List.forall₂_cons_left_iff]
    cases hx : f x with
    | error e => simp [bind, Except.bind]
    | ok b =>
      cases hxs : xs.mapM f with
      | error e =>
        refine iff_of_false (fun h => nomatch h) ?_
        rintro ⟨b', bs', -, hbs', -⟩
        rw [ih.2 hbs'] at hxs
        simp at hxs
      | ok cs =>
        have hcs := ih.1 hxs
        constructor
        · intro h
          exact ⟨b, cs, rfl, hcs, (Except.ok.inj h).symm⟩
        · rintro ⟨b', bs', hb', hbs', rfl⟩
          obtain rfl := Except.ok.inj hb'
          obtain rfl := Except.ok.inj (hxs.symm.trans (ih.2 hbs'))
          rfl

theorem mem_mapM_ok {bs : List β} (h : xs.mapM f = .ok bs) {x : α} (hx : x ∈ xs) :
    ∃ b ∈ bs, f x = .ok b := by
  have hall := mapM_eq_ok_iff.1 h
  clear h
  induction hall with
  | nil => simp at hx
  | cons hb _ ih =>
    rcases List.mem_cons.1 hx with rfl | hx
    · exact ⟨_, List.mem_cons_self, hb⟩
    · obtain ⟨b, hmem, he⟩ := ih hx
      exact ⟨b, List.mem_cons_of_mem _ hmem, he⟩

theorem exists_of_mapM_ok {bs : List β} (h : xs.mapM f = .ok bs) {x : α} (hx : x ∈ xs) :
    ∃ b, f x = .ok b := by
  obtain ⟨b, -, hb⟩ := mem_mapM_ok h hx
  exact ⟨b, hb⟩

theorem exists_of_mem_mapM_ok {bs : List β} (h : xs.mapM f = .ok bs) {b : β} (hb : b ∈ bs) :
    ∃ x ∈ xs, f x = .ok b := by
  have hall := mapM_eq_ok_iff.1 h
  clear h
  induction hall with
  | nil => simp at hb
  | cons hx _ ih =>
    rcases List.mem_cons.1 hb with rfl | hb
    · exact ⟨_, List.mem_cons_self, hx⟩
    · obtain ⟨y, hy, he⟩ := ih hb
      exact ⟨y, List.mem_cons_of_mem _ hy, he⟩

theorem exists_mapM_ok {R : α → β → Prop} (h : ∀ x ∈ xs, ∃ b, f x = .ok b ∧ R x b) :
    ∃ bs, xs.mapM f = .ok bs ∧ List.Forall₂ R xs bs := by
  induction xs with
  | nil => exact ⟨[], rfl, .nil⟩
  | cons x xs ih =>
    obtain ⟨b, hb, hr⟩ := h x List.mem_cons_self
    obtain ⟨bs, hbs, hrs⟩ := ih fun y hy => h y (List.mem_cons_of_mem x hy)
    refine ⟨b :: bs, ?_, .cons hr hrs⟩
    rw [List.mapM_cons, hb, hbs]
    rfl

theorem mapM_congr {g : α → Except ε β} (h : ∀ x ∈ xs, f x = g x) : xs.mapM f = xs.mapM g := by
  induction xs with
  | nil => rfl
  | cons x xs ih =>
    rw [List.mapM_cons, List.mapM_cons, h x List.mem_cons_self,
      ih fun y hy => h y (List.mem_cons_of_mem x hy)]

end

/-! ## Signing -/

theorem content_create {content : Content} {signer : SignatureParameters} {t : Transaction}
    (h : Transaction.create content signer = .ok t) : t.content = content := by
  rw [Transaction.create] at h
  cases hk : PrivateKey.ofHex signer.privateKey with
  | error cause => simp [hk] at h
  | ok key =>
    rw [hk] at h
    change Transaction.ofSignature content signer.method _ = .ok t at h
    generalize RecoverableSignature.sign key content.signingHash = signature at h
    cases signature with
    | error cause => exact nomatch h
    | ok sig => rw [← Except.ok.inj h]

/-! ## Operations one after the other -/

namespace LogM

variable {σ α β : Type} {x : LogM σ α} {f : α → LogM σ β} {log log' : Log σ}

theorem bind_ok {a : α} (h : x log = .ok a log') : (x >>= f) log = f a log' := by
  show EStateM.bind x f log = _
  rw [EStateM.bind, h]

theorem bind_error {e : LogError} (h : x log = .error e log') :
    (x >>= f) log = .error e log' := by
  show EStateM.bind x f log = _
  rw [EStateM.bind, h]

end LogM

namespace Log

open LogM

section

variable {σ : Type} {log : Log σ} {index : TopicIndex}

theorem isReady_ready (h : log.phase = .ready index) : log.isReady = true := by
  simp [isReady, h]

theorem isReady_iff : log.isReady = true ↔ ∃ index, log.phase = .ready index := by
  refine ⟨fun h => ?_, fun ⟨_, h⟩ => isReady_ready h⟩
  cases hp : log.phase <;> simp_all [isReady]

theorem ensureReady_eq (log : Log σ) :
    ensureReady log = if log.isReady then .ok () log else .error .notInitialized log := by
  show (if (!log.isReady) = true then throw .notInitialized else pure () : LogM σ Unit) log = _
  cases log.isReady <;> rfl

theorem record_ready (h : log.phase = .ready index) (location : Location)
    (topics : List String) :
    record location topics log
      = .ok () { log with phase := .ready (index.push location topics) } := by
  obtain ⟨store, settings, phase⟩ := log
  obtain rfl : phase = .ready index := h
  rfl

end

variable {σ : Type} [Store σ] {log : Log σ} {index : TopicIndex}

/-! ## Reading -/

/-- **Reading several blocks at a time is reading one after the other.** -/
theorem readBlocks_eq_mapM (store : σ) (readers : Nat) (locations : List Location) :
    readBlocks store readers locations = locations.mapM (readBlock store) := by
  fun_induction readBlocks store readers locations with
  | case1 => rfl
  | case2 first rest ih =>
    rw [ih, ← List.mapM_append, List.cons_append, List.take_append_drop]

theorem readBlock_of_read {store : σ} {l : Location} {stored : Stored}
    (h : Store.read store l = .ok stored) :
    readBlock store l = match checkBlock stored.content with
      | .error reason => .error (.corrupted l reason)
      | .ok block => .ok ⟨l, block, stored.details⟩ := by
  simp only [readBlock, h, ofStorage, bind, Except.bind]
  cases checkBlock stored.content <;> rfl

theorem readBlock_of_error {store : σ} {l : Location} {cause : StorageError}
    (h : Store.read store l = .error cause) : readBlock store l = .error (.storage cause) := by
  simp only [readBlock, h, ofStorage, bind, Except.bind]

/-- **A block is read where the store has a valid one**, with its location and with what the store
says of it. -/
theorem readBlock_eq_ok_iff {store : σ} {l : Location} {b : LoadedBlock} :
    readBlock store l = .ok b ↔ ∃ content, Store.read store l = .ok ⟨content, b.details⟩ ∧
      checkBlock content = .ok b.block ∧ b.location = l := by
  cases hr : Store.read store l with
  | error cause => simp [readBlock_of_error hr]
  | ok stored =>
    rw [readBlock_of_read hr]
    constructor
    · intro h
      cases hc : checkBlock stored.content with
      | error reason => simp [hc] at h
      | ok block =>
        simp only [hc] at h
        obtain rfl := Except.ok.inj h
        exact ⟨stored.content, rfl, hc, rfl⟩
    · rintro ⟨content, hstored, hc, rfl⟩
      obtain rfl := Except.ok.inj hstored
      simp only [hc]

theorem exists_of_readBlock {store : σ} {l : Location} {b : LoadedBlock}
    (h : readBlock store l = .ok b) :
    ∃ stored, Store.read store l = .ok stored ∧ checkBlock stored.content = .ok b.block := by
  obtain ⟨content, hread, hcheck, -⟩ := readBlock_eq_ok_iff.1 h
  exact ⟨_, hread, hcheck⟩

theorem checkBlock_of_readBlock {store : σ} {l : Location} {content : String}
    {details : StorageMeta} {b : LoadedBlock}
    (hread : Store.read store l = .ok ⟨content, details⟩) (h : readBlock store l = .ok b) :
    checkBlock content = .ok b.block := by
  obtain ⟨content', hread', hcheck, -⟩ := readBlock_eq_ok_iff.1 h
  obtain ⟨rfl, -⟩ := Stored.mk.inj (Except.ok.inj (hread.symm.trans hread'))
  exact hcheck

theorem readBlock_congr {store store' : σ} {l : Location}
    (h : Store.read store l = Store.read store' l) :
    readBlock store l = readBlock store' l := by
  rw [readBlock, readBlock, h]

theorem location_of_readBlock {store : σ} {l : Location} {b : LoadedBlock}
    (h : readBlock store l = .ok b) : b.location = l := by
  obtain ⟨-, -, -, hlocation⟩ := readBlock_eq_ok_iff.1 h
  exact hlocation

theorem transactionsOf_ready {log : Log σ} {index : TopicIndex} (h : log.phase = .ready index)
    (topic : String) :
    log.transactionsOf topic
      = ((index.locations topic).mapM (readBlock log.store)).map fun blocks =>
        blocks.flatMap fun b =>
          (b.block.transactionsAt (b.block.positions topic)).map (⟨·, b.location, b.details⟩) := by
  simp only [transactionsOf, locationsOf, h, bind, Except.bind, readBlocks_eq_mapM]
  cases (index.locations topic).mapM (readBlock log.store) <;> rfl

theorem transactionsOf_refused (h : log.isReady = false) (topic : String) :
    log.transactionsOf topic = .error .notInitialized := by
  have hlocations : log.locationsOf topic = .error .notInitialized := by
    unfold locationsOf
    cases hp : log.phase <;> simp_all [isReady]
  rw [transactionsOf, hlocations]
  rfl

theorem buildIndex_eq (store : σ) (settings : LogSettings) :
    buildIndex store settings = match Store.locations store with
      | .error cause => .error (.storage cause)
      | .ok ls => (ls.mapM (readBlock store)).map fun blocks =>
        blocks.foldl (fun index b => index.push b.location b.block.topics) .empty := by
  simp only [buildIndex, bind, Except.bind, readBlocks_eq_mapM]
  cases Store.locations store with
  | error cause => rfl
  | ok ls =>
    simp only [ofStorage]
    cases ls.mapM (readBlock store) <;> rfl

theorem exists_locations_of_buildIndex {store : σ} {settings : LogSettings}
    (h : buildIndex store settings = .ok index) : ∃ ls, Store.locations store = .ok ls := by
  rw [buildIndex_eq] at h
  cases hls : Store.locations store with
  | error cause => simp [hls] at h
  | ok ls => exact ⟨ls, rfl⟩

theorem exists_of_buildIndex {store : σ} {settings : LogSettings} {ls : List Location}
    (h : buildIndex store settings = .ok index) (hls : Store.locations store = .ok ls) :
    ∃ blocks, ls.mapM (readBlock store) = .ok blocks ∧
      index = blocks.foldl (fun index b => index.push b.location b.block.topics) .empty := by
  rw [buildIndex_eq, hls] at h
  simp only at h
  cases hm : ls.mapM (readBlock store) with
  | error e => simp [hm, Except.map] at h
  | ok blocks =>
    rw [hm] at h
    exact ⟨blocks, rfl, (Except.ok.inj h).symm⟩

theorem mem_locations_of_buildIndex {store : σ} {settings : LogSettings} {ls : List Location}
    (h : buildIndex store settings = .ok index) (hls : Store.locations store = .ok ls)
    {topic : String} {l : Location} :
    l ∈ index.locations topic
      ↔ l ∈ ls ∧ ∃ b, readBlock store l = .ok b ∧ topic ∈ b.block.topics := by
  obtain ⟨blocks, hblocks, rfl⟩ := exists_of_buildIndex h hls
  rw [TopicIndex.mem_locations_foldl_push TopicIndex.valid_empty]
  constructor
  · rintro (hm | ⟨b, hb, rfl, ht⟩)
    · exact absurd hm List.not_mem_nil
    · obtain ⟨l, hl, hread⟩ := exists_of_mem_mapM_ok hblocks hb
      rw [location_of_readBlock hread]
      exact ⟨hl, b, hread, ht⟩
  · rintro ⟨hl, b, hread, ht⟩
    obtain ⟨b', hb', hread'⟩ := mem_mapM_ok hblocks hl
    obtain rfl := Except.ok.inj (hread.symm.trans hread')
    exact .inr ⟨b, hb', (location_of_readBlock hread).symm, ht⟩

theorem valid_of_buildIndex {store : σ} {settings : LogSettings} {ls : List Location}
    (h : buildIndex store settings = .ok index) (hls : Store.locations store = .ok ls) :
    index.Valid ∧ ∀ topic, ∀ l ∈ index.locations topic,
      l ∈ ls ∧ ∃ b, readBlock store l = .ok b := by
  refine ⟨?_, fun topic l hl => ?_⟩
  · obtain ⟨blocks, -, rfl⟩ := exists_of_buildIndex h hls
    exact TopicIndex.valid_empty.foldl_push blocks
  · obtain ⟨hmem, b, hread, -⟩ := (mem_locations_of_buildIndex h hls).1 hl
    exact ⟨hmem, b, hread⟩

/-! ## Persisting -/

theorem append_eq (log : Log σ) (now : UInt64) (content : String) :
    append now content log = match Store.append log.store now content with
      | .ok (a, store) => .ok a { log with store }
      | .error cause => .error (.storage cause) log := by
  show (LogM.lift (ofStorage (Store.append log.store now content)) >>= fun p =>
    (set { log with store := p.2 } : LogM σ PUnit) >>= fun _ => pure p.1) log = _
  cases Store.append log.store now content <;> rfl

theorem append_ok {now : UInt64} {content : String} {a : Appended} {store : σ}
    (h : Store.append log.store now content = .ok (a, store)) :
    append now content log = .ok a { log with store } := by
  rw [append_eq, h]

theorem append_error {now : UInt64} {content : String} {cause : StorageError}
    (h : Store.append log.store now content = .error cause) :
    append now content log = .error (.storage cause) log := by
  rw [append_eq, h]

theorem persist_refused (h : log.isReady = false) (now : UInt64) (content : Content)
    (signer : SignatureParameters) (topics : List String) :
    persist now content signer topics log = .error .notInitialized log := by
  have hrefused : ensureReady log = .error .notInitialized log := by rw [ensureReady_eq, h]; rfl
  rw [persist, bind_error hrefused]

/-- **What persisting does to a log that is ready**: it signs, appends and records, and if one of
the first two fails the log stays as it was. -/
theorem persist_ready (h : log.phase = .ready index) (now : UInt64) (content : Content)
    (signer : SignatureParameters) (topics : List String) :
    persist now content signer topics log = match Transaction.create content signer with
      | .error cause => .error (.signing cause) log
      | .ok t => match Store.append log.store now (Block.empty.push t topics).text with
        | .error cause => .error (.storage cause) log
        | .ok (a, store) =>
          .ok ⟨a.location, a.details, (Block.empty.push t topics).topics⟩
            { log with
              store
              phase := .ready (index.push a.location (Block.empty.push t topics).topics) } := by
  have hready : ensureReady log = .ok () log := by rw [ensureReady_eq, isReady_ready h]; rfl
  rw [persist, bind_ok hready]
  cases hc : Transaction.create content signer with
  | error cause => exact bind_error rfl
  | ok t =>
    have hsign : (LogM.lift (ofSigning (.ok t)) : LogM σ Transaction) log = .ok t log := rfl
    rw [bind_ok hsign]
    cases ha : Store.append log.store now (Block.empty.push t topics).text with
    | error cause =>
      simp only [ha]
      exact bind_error (append_error ha)
    | ok p =>
      obtain ⟨a, store⟩ := p
      have hphase : ({ log with store } : Log σ).phase = .ready index := h
      have hrecord := record_ready hphase a.location (Block.empty.push t topics).topics
      simp only [ha]
      rw [bind_ok (append_ok ha), bind_ok hrecord]
      rfl

/-- **Persisting fails and leaves a ready log as it was, or a signed transaction is in the store**, in
a block of its own, and in the index. -/
theorem persist_ready_cases (h : log.phase = .ready index) (now : UInt64) (content : Content)
    (signer : SignatureParameters) (topics : List String) :
    (∃ e, persist now content signer topics log = .error e log) ∨
    ∃ t a store, Transaction.create content signer = .ok t ∧
      Store.append log.store now (Block.empty.push t topics).text = .ok (a, store) ∧
      persist now content signer topics log
        = .ok ⟨a.location, a.details, (Block.empty.push t topics).topics⟩
          { log with
            store
            phase := .ready (index.push a.location (Block.empty.push t topics).topics) } := by
  have hpersist := persist_ready h now content signer topics
  cases hc : Transaction.create content signer with
  | error cause =>
    simp only [hc] at hpersist
    exact .inl ⟨_, hpersist⟩
  | ok t =>
    cases ha : Store.append log.store now (Block.empty.push t topics).text with
    | error cause =>
      simp only [hc, ha] at hpersist
      exact .inl ⟨_, hpersist⟩
    | ok r =>
      obtain ⟨a, store⟩ := r
      simp only [hc, ha] at hpersist
      exact .inr ⟨t, a, store, rfl, ha, hpersist⟩

/-! ## Starting -/

theorem claim_uninitialized {σ : Type} {log : Log σ} (h : log.phase = .uninitialized) :
    claim log = .ok () { log with phase := .initializing } := by
  obtain ⟨store, settings, phase⟩ := log
  obtain rfl : phase = .uninitialized := h
  rfl

theorem claim_refused {σ : Type} {log : Log σ} (h : log.phase ≠ .uninitialized) :
    claim log = .error .alreadyInitialized log := by
  obtain ⟨store, settings, phase⟩ := log
  cases phase with
  | uninitialized => exact absurd rfl h
  | initializing => rfl
  | ready index => rfl

theorem settle_ok {σ : Type} (index : TopicIndex) (log : Log σ) :
    settle (.ok index) log = .ok () { log with phase := .ready index } := rfl

theorem settle_error {σ : Type} (e : LogError) (log : Log σ) :
    settle (.error e) log = .error e { log with phase := .uninitialized } := rfl

theorem start_refused (h : log.phase ≠ .uninitialized) :
    start log = .error .alreadyInitialized log := by
  rw [start, bind_error (claim_refused h)]

/-- **A log starts if its index can be built.** -/
theorem start_uninitialized (h : log.phase = .uninitialized) :
    start log = match buildIndex log.store log.settings with
      | .ok index => .ok () { log with phase := .ready index }
      | .error e => .error e log := by
  obtain ⟨store, settings, phase⟩ := log
  obtain rfl : phase = .uninitialized := h
  have hget : (get : LogM σ (Log σ)) ⟨store, settings, .initializing⟩
      = .ok ⟨store, settings, .initializing⟩ ⟨store, settings, .initializing⟩ := rfl
  rw [start, bind_ok (claim_uninitialized rfl), bind_ok hget]
  show settle (buildIndex store settings) _ = _
  cases buildIndex store settings <;> rfl

theorem start_ofStore (store : σ) (settings : LogSettings) :
    start (ofStore store settings) = match buildIndex store settings with
      | .ok index => .ok () ⟨store, settings, .ready index⟩
      | .error e => .error e (ofStore store settings) :=
  start_uninitialized rfl

theorem exists_of_start {store : σ} {settings : LogSettings} {log : Log σ}
    (h : start (ofStore store settings) = .ok () log) :
    ∃ index, buildIndex store settings = .ok index ∧ log = ⟨store, settings, .ready index⟩ := by
  rw [start_ofStore] at h
  cases hb : buildIndex store settings with
  | error e => simp [hb] at h
  | ok index =>
    rw [hb] at h
    obtain ⟨-, rfl⟩ := EStateM.Result.ok.inj h
    exact ⟨index, rfl, rfl⟩

end Log

end ChannelLog
