import ChannelLog.Proofs.Log.Runs

/-!
# Which stores a log starts over

* `Log.WellFormedAt`, `Log.Fault`: an entry reads as a valid block, or something keeps it from that
  (`exists_readBlock_iff`, `readBlock_eq_error_iff`).
* `Log.Obstacle`: what keeps a log from starting. Of several entries at fault it is the first.
* `Log.run_of_not_started`, `Log.isReady_of_started`: nothing that is called on a log changes it
  before it was started, and nothing brings it back after.
* `Log.starts_iff_wellFormed`: **a log starts exactly over stores all of whose entries are valid
  blocks**; otherwise it reports the obstacle and is as new, and it serves from the start on.
-/

namespace ChannelLog.Log

variable {σ : Type} [Store σ] {store : σ} {settings : LogSettings} {log : Log σ}

/-! ## Entries -/

/-- The entry at a location reads as a block that is valid. -/
def WellFormedAt (store : σ) (location : Location) : Prop :=
  ∃ stored block, Store.read store location = .ok stored ∧
    Block.ofText? stored.content = some block ∧ block.validate = .ok ()

/-- What keeps the entry at a location from being read as a valid block. -/
inductive Fault (store : σ) (location : Location) : LogError → Prop where
  | storage {cause : StorageError} : Store.read store location = .error cause →
    Fault store location (.storage cause)
  | unreadable {stored : Stored} : Store.read store location = .ok stored →
    Block.ofText? stored.content = none → Fault store location (.corrupted location .unreadable)
  | defect {stored : Stored} {block : Block} {d : Block.Defect} :
    Store.read store location = .ok stored → Block.ofText? stored.content = some block →
    block.validate = .error d → Fault store location (.corrupted location (.defect d))

theorem checkBlock_eq_ok_iff {content : String} {block : Block} :
    checkBlock content = .ok block ↔
      Block.ofText? content = some block ∧ block.validate = .ok () := by
  constructor
  · intro h
    unfold checkBlock at h
    cases htext : Block.ofText? content with
    | none => simp [htext] at h
    | some b =>
      cases hvalid : b.validate with
      | error d => simp [htext, hvalid] at h
      | ok _ =>
        simp only [htext, hvalid] at h
        obtain rfl := Except.ok.inj h
        exact ⟨rfl, hvalid⟩
  · rintro ⟨htext, hvalid⟩
    simp only [checkBlock, htext, hvalid]

theorem exists_readBlock_iff {l : Location} :
    (∃ b, readBlock store l = .ok b) ↔ WellFormedAt store l := by
  constructor
  · rintro ⟨b, hb⟩
    obtain ⟨stored, hread, hcheck⟩ := exists_of_readBlock hb
    exact ⟨stored, b.block, hread, checkBlock_eq_ok_iff.1 hcheck⟩
  · rintro ⟨stored, block, hread, hblock⟩
    rw [readBlock_of_read hread, checkBlock_eq_ok_iff.2 hblock]
    exact ⟨_, rfl⟩

theorem readBlock_eq_error_iff {l : Location} {e : LogError} :
    readBlock store l = .error e ↔ Fault store l e := by
  constructor
  · intro h
    cases hread : Store.read store l with
    | error cause =>
      rw [readBlock_of_error hread] at h
      exact Except.error.inj h ▸ .storage hread
    | ok stored =>
      rw [readBlock_of_read hread, checkBlock] at h
      cases htext : Block.ofText? stored.content with
      | none =>
        simp only [htext] at h
        exact Except.error.inj h ▸ .unreadable hread htext
      | some block =>
        cases hvalid : block.validate with
        | error d =>
          simp only [htext, hvalid] at h
          exact Except.error.inj h ▸ .defect hread htext hvalid
        | ok _ => simp [htext, hvalid] at h
  · intro h
    cases h with
    | storage hread => rw [readBlock_of_error hread]
    | unreadable hread htext => simp only [readBlock_of_read hread, checkBlock, htext]
    | defect hread htext hvalid => simp only [readBlock_of_read hread, checkBlock, htext, hvalid]

/-! ## Starting -/

/-- What keeps a log from starting: the store cannot list its entries, or the first of them that is
no valid block. -/
inductive Obstacle (store : σ) : LogError → Prop where
  | listing {cause : StorageError} : Store.locations store = .error cause →
    Obstacle store (.storage cause)
  | entry {before after : List Location} {l : Location} {e : LogError} :
    Store.locations store = .ok (before ++ l :: after) → (∀ k ∈ before, WellFormedAt store k) →
    Fault store l e → Obstacle store e

theorem exists_buildIndex_iff : (∃ index, buildIndex store settings = .ok index) ↔
    ∃ ls, Store.locations store = .ok ls ∧ ∀ l ∈ ls, WellFormedAt store l := by
  constructor
  · rintro ⟨index, h⟩
    obtain ⟨ls, hls⟩ := exists_locations_of_buildIndex h
    obtain ⟨blocks, hblocks, -⟩ := exists_of_buildIndex h hls
    exact ⟨ls, hls, fun l hl => exists_readBlock_iff.1 (exists_of_mapM_ok hblocks hl)⟩
  · rintro ⟨ls, hls, h⟩
    obtain ⟨blocks, hblocks, -⟩ := exists_mapM_ok (R := fun _ _ => True) fun l hl =>
      (exists_readBlock_iff.2 (h l hl)).imp fun b hb => ⟨hb, trivial⟩
    rw [buildIndex_eq, hls]
    simp only [hblocks]
    exact ⟨_, rfl⟩

theorem buildIndex_eq_error_iff {e : LogError} :
    buildIndex store settings = .error e ↔ Obstacle store e := by
  rw [buildIndex_eq]
  cases hls : Store.locations store with
  | error cause =>
    constructor
    · intro h
      exact Except.error.inj h ▸ .listing hls
    · intro h
      cases h with
      | listing hcause => rw [Except.error.inj (hls.symm.trans hcause)]
      | entry hls' => exact nomatch hls.symm.trans hls'
  | ok ls =>
    constructor
    · intro h
      obtain ⟨before, l, after, rfl, hbefore, hl⟩ := mapM_eq_error_iff.1 (eq_error_of_map h)
      exact .entry hls (fun k hk => exists_readBlock_iff.1 (hbefore k hk))
        (readBlock_eq_error_iff.1 hl)
    · intro h
      cases h with
      | listing hcause => exact nomatch hls.symm.trans hcause
      | @entry before after l _ hls' hbefore hfault =>
        obtain rfl := Except.ok.inj (hls.symm.trans hls')
        have hfirst : (before ++ l :: after).mapM (readBlock store) = .error e :=
          mapM_eq_error_iff.2 ⟨before, l, after, rfl,
            fun k hk => exists_readBlock_iff.2 (hbefore k hk), readBlock_eq_error_iff.2 hfault⟩
        simp only [hfirst, Except.map]

/-! ## Calls before and after the start -/

/-- One of the calls started the log. -/
def Started (log : Log σ) (calls : List LogCall) : Prop :=
  ∃ before after, calls = before ++ .start :: after ∧
    ∃ started, start (log.run before) = .ok () started

theorem Started.cons {call : LogCall} {calls : List LogCall}
    (h : Started (call.after log) calls) : Started log (call :: calls) := by
  obtain ⟨before, after, rfl, hstart⟩ := h
  exact ⟨call :: before, after, rfl, hstart⟩

omit [Store σ] in
theorem isReady_uninitialized (h : log.phase = .uninitialized) : log.isReady = false := by
  rw [isReady, h]

/-- **Calls on a log that was not started leave it as it is**, until one starts it. -/
theorem run_of_not_started (hphase : log.phase = .uninitialized) {calls : List LogCall}
    (h : ¬Started log calls) : log.run calls = log := by
  induction calls with
  | nil => rfl
  | cons call calls ih =>
    have hsame : call.after log = log := by
      cases call with
      | look topic => rfl
      | persist c =>
        have hrefused : c.persist log = .error .notInitialized log :=
          persist_refused (isReady_uninitialized hphase) _ _ _ _
        exact (call_persist_error hrefused).2
      | start =>
        rw [LogCall.after, start_uninitialized hphase]
        cases hbuild : buildIndex log.store log.settings with
        | error e => rfl
        | ok index =>
          refine absurd ⟨[], calls, rfl, ?_⟩ h
          show ∃ started, start log = .ok () started
          rw [start_uninitialized hphase, hbuild]
          exact ⟨_, rfl⟩
    have hrest : ¬Started log calls := fun hstarted => h (.cons (hsame.symm ▸ hstarted))
    show (call.after log).run calls = log
    rw [hsame]
    exact ih hrest

theorem isReady_after (h : log.isReady = true) (call : LogCall) :
    (call.after log).isReady = true := by
  obtain ⟨index, hready⟩ := isReady_iff.1 h
  cases call with
  | look topic => exact h
  | start => rwa [(call_start hready).2]
  | persist c =>
    rcases persist_ready_cases hready c.now c.content c.signer c.topics
      with ⟨e, he⟩ | ⟨t, a, store, hc, ha, -⟩
    · rwa [(call_persist_error he).2]
    · rw [(call_persist_ok hready hc ha).2]
      rfl

theorem isReady_run (h : log.isReady = true) (calls : List LogCall) :
    (log.run calls).isReady = true := by
  induction calls generalizing log with
  | nil => exact h
  | cons call calls ih => exact ih (isReady_after h call)

theorem isReady_of_start {after : Log σ} (h : start log = .ok () after) :
    after.isReady = true := by
  by_cases hphase : log.phase = .uninitialized
  · rw [start_uninitialized hphase] at h
    cases hbuild : buildIndex log.store log.settings with
    | error e => simp [hbuild] at h
    | ok index =>
      rw [hbuild] at h
      rw [← (EStateM.Result.ok.inj h).2]
      rfl
  · rw [start_refused hphase] at h
    exact nomatch h

theorem isReady_of_started {calls : List LogCall} (h : Started log calls) :
    (log.run calls).isReady = true := by
  obtain ⟨before, after, rfl, started, hstart⟩ := h
  rw [run_append]
  refine isReady_run ?_ after
  show (LogCall.start.after (log.run before)).isReady = true
  rw [LogCall.after, hstart]
  exact isReady_of_start hstart

/-! ## The whole use of a log -/

/-- **A log starts exactly over stores all of whose entries are valid blocks**, however many of them
it reads at a time. Otherwise it reports the obstacle and is what it was. Until a call has started
it, whatever the calls are, it persists and serves nothing; from then on it cannot be started. -/
theorem starts_iff_wellFormed (store : σ) (settings : LogSettings) :
    ((∃ log, start (ofStore store settings) = .ok () log) ↔
      ∃ ls, Store.locations store = .ok ls ∧ ∀ l ∈ ls, WellFormedAt store l) ∧
    (∀ e after, start (ofStore store settings) = .error e after ↔
      Obstacle store e ∧ after = ofStore store settings) ∧
    ∀ calls log, (ofStore store settings).run calls = log →
      (¬Started (ofStore store settings) calls → log = ofStore store settings ∧
        (∀ c : PersistCall, c.persist log = .error .notInitialized log) ∧
        ∀ topic, log.transactionsOf topic = .error .notInitialized) ∧
      (Started (ofStore store settings) calls →
        start log = .error .alreadyInitialized log) := by
  refine ⟨?_, fun e after => ?_, fun calls log hrun => ⟨fun h => ?_, fun h => ?_⟩⟩
  · have hbuilt : (∃ index, buildIndex store settings = .ok index) ↔ _ := exists_buildIndex_iff
    rw [← hbuilt, start_ofStore]
    cases buildIndex store settings <;> simp
  · have hfailed : buildIndex store settings = .error e ↔ _ := buildIndex_eq_error_iff
    rw [← hfailed, start_ofStore]
    cases buildIndex store settings with
    | error e' =>
      rw [EStateM.Result.error.injEq, Except.error.injEq]
      exact and_congr_right fun _ => eq_comm
    | ok index => simp
  · obtain rfl : ofStore store settings = log := (run_of_not_started rfl h).symm.trans hrun
    exact ⟨rfl, fun c => persist_refused rfl _ _ _ _, transactionsOf_refused rfl⟩
  · rw [← hrun]
    obtain ⟨index, hready⟩ := isReady_iff.1 (isReady_of_started h)
    exact start_ready hready

/-- Nothing keeps a log from starting over an empty store, and a text that is no block does. -/
theorem starts_iff_wellFormed_null :
    (∃ log, start (ofStore MemoryStore.empty {}) = .ok () log) ∧
    ∃ l store, Store.append MemoryStore.empty 7 "null" = .ok (⟨l, .inMemory, 4, 7⟩, store) ∧
      start (ofStore store {}) = .error (.corrupted l .unreadable) (ofStore store {}) ∧
      (ofStore store {}).transactionsOf "t" = .error .notInitialized := by
  obtain ⟨hempty, -⟩ := starts_iff_wellFormed MemoryStore.empty {}
  refine ⟨hempty.2 ⟨[], rfl, by simp⟩, _, _, rfl, ?_⟩
  have hls : Store.locations (MemoryStore.empty.append 7 "null").2
      = .ok ([] ++ [blockLocation 0 "null"]) := rfl
  have hread := LawfulStore.read_append_self
    (rfl : Store.append MemoryStore.empty 7 "null" = .ok (MemoryStore.empty.append 7 "null"))
  have htext : Block.ofText? "null" = none := by decide +kernel
  obtain ⟨-, hfails, hcalls⟩ := starts_iff_wellFormed (MemoryStore.empty.append 7 "null").2 {}
  refine ⟨(hfails _ _).2 ⟨.entry hls (by simp) (.unreadable hread htext), rfl⟩, ?_⟩
  refine ((hcalls [] _ rfl).1 ?_).2.2 "t"
  rintro ⟨before, after, h, -⟩
  simp at h

end ChannelLog.Log
