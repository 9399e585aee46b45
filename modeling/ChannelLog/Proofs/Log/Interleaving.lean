import ChannelLog.Proofs.Log.Steps
import ChannelLog.Proofs.Store.Laws
import Mathlib.Data.List.Nodup

/-!
# Calls that persist at the same time

Persisting takes three steps on the log, and the calls at work on one log take theirs in any order.

* `Persisting.step`, `Persisting.run`: one step of one call, and the steps of a schedule. A call
  that nothing comes between does what `Log.persist` does (`run_alone`).
* `Persisting.Step`: everything that a step on a ready log can do (`step_step`).
* `Persisting.Orders`: each call appends at most once, and records at most once and after that. Once
  every call has its result, both orders have the same calls (`Orders.perm`).
-/

namespace ChannelLog

open Function (update)

/-! ## One call -/

/-- A call to persist a content. -/
structure PersistCall where
  now : UInt64
  content : Content
  signer : SignatureParameters
  topics : List String

namespace PersistCall

variable {σ : Type}

def persist [Store σ] (c : PersistCall) : LogM σ Persisted := Log.persist c.now c.content c.signer c.topics

/-- First step: the log has to be ready. The block is then made by the call alone. -/
def prepare (c : PersistCall) : LogM σ Block := do
  Log.ensureReady
  let transaction ← LogM.lift (ofSigning (Transaction.create c.content c.signer))
  return Block.empty.push transaction c.topics

/-- A block that the call makes. -/
def Makes (c : PersistCall) (block : Block) : Prop :=
  ∃ t : Transaction, t.content = c.content ∧ block = Block.empty.push t c.topics

theorem persist_eq [Store σ] (c : PersistCall) : (c.persist : LogM σ Persisted) = (do
    let block ← c.prepare
    let a ← Log.append c.now block.text
    Log.record a.location block.topics
    return ⟨a.location, a.details, block.topics⟩) := by
  simp only [persist, Log.persist, prepare, bind_assoc, pure_bind]

theorem prepare_ready {log : Log σ} {index : TopicIndex} (h : log.phase = .ready index)
    (c : PersistCall) :
    (∃ block, c.Makes block ∧ c.prepare log = .ok block log) ∨
      ∃ e, c.prepare log = .error e log := by
  have hready : Log.ensureReady log = .ok () log := by
    rw [Log.ensureReady_eq, Log.isReady_ready h]
    rfl
  rw [prepare, LogM.bind_ok hready]
  cases hc : Transaction.create c.content c.signer with
  | error cause => exact .inr ⟨.signing cause, rfl⟩
  | ok t => exact .inl ⟨_, ⟨t, content_create hc, rfl⟩, rfl⟩

theorem prepare_refused {log : Log σ} (h : log.isReady = false) (c : PersistCall) :
    c.prepare log = .error .notInitialized log := by
  have hrefused : Log.ensureReady log = .error .notInitialized log := by
    rw [Log.ensureReady_eq, h]
    rfl
  rw [prepare, LogM.bind_error hrefused]

end PersistCall

/-- How far a call has come. -/
inductive Progress where
  | called
  /-- The log was ready, and the block is made. -/
  | prepared (block : Block)
  /-- The block is in the store, but not in the index yet. -/
  | appended (block : Block) (a : Appended)
  | returned (p : Persisted)
  | failed (e : LogError)

namespace Progress

/-- The result, once there is one. -/
def outcome? : Progress → Option (Except LogError Persisted)
  | returned p => some (.ok p)
  | failed e => some (.error e)
  | _ => none

/-- The block is in the store. -/
def IsStored : Progress → Prop
  | appended .. | returned _ => True
  | _ => False

/-- The block is in the index, too. -/
def IsReturned : Progress → Prop
  | returned _ => True
  | _ => False

def location : Progress → Location
  | appended _ a => a.location
  | returned p => p.location
  | _ => ""

def topics : Progress → List String
  | appended block _ => block.topics
  | returned p => p.topics
  | _ => []

end Progress

/-! ## Several calls -/

/-- A log, how far the calls at work on it have come, and in which order their blocks were appended
and recorded. -/
structure Persisting (ι σ : Type) where
  log : Log σ
  progress : ι → Progress
  appends : List ι
  records : List ι

namespace Persisting

variable {ι σ : Type}

/-- No call has taken a step. -/
def start (log : Log σ) : Persisting ι σ := ⟨log, fun _ => .called, [], []⟩

def location (s : Persisting ι σ) (i : ι) : Location := (s.progress i).location

def topics (s : Persisting ι σ) (i : ι) : List String := (s.progress i).topics

/-- The calls whose blocks have a topic. -/
def under (s : Persisting ι σ) (topic : String) (order : List ι) : List ι :=
  order.filter (topic ∈ s.topics ·)

def pushAll (s : Persisting ι σ) (index : TopicIndex) (order : List ι) : TopicIndex :=
  order.foldl (fun index i => index.push (s.location i) (s.topics i)) index

/-- Every call has a result. -/
def Ended (s : Persisting ι σ) : Prop := ∀ i, (s.progress i).outcome?.isSome = true

/-- No two appends had one location, and none had one of the store `ls` of the start. -/
structure Distinct (s : Persisting ι σ) (ls : List Location) : Prop where
  nodup : (s.appends.map s.location).Nodup
  notMem : ∀ i ∈ s.appends, s.location i ∉ ls

theorem pushAll_congr {s s' : Persisting ι σ} {order : List ι}
    (hl : ∀ j ∈ order, s'.location j = s.location j)
    (ht : ∀ j ∈ order, s'.topics j = s.topics j) (index : TopicIndex) :
    s'.pushAll index order = s.pushAll index order := by
  unfold pushAll
  induction order generalizing index with
  | nil => rfl
  | cons j order ih =>
    rw [List.foldl_cons, List.foldl_cons, hl j List.mem_cons_self, ht j List.mem_cons_self]
    exact ih (fun k hk => hl k (List.mem_cons_of_mem j hk))
      (fun k hk => ht k (List.mem_cons_of_mem j hk)) _

theorem pushAll_append (s : Persisting ι σ) (index : TopicIndex) (order : List ι) (i : ι) :
    s.pushAll index (order ++ [i]) = (s.pushAll index order).push (s.location i) (s.topics i) := by
  rw [pushAll, List.foldl_append]
  rfl

theorem nodup_append_singleton {order : List ι} {i : ι}
    (h : order.Nodup) (hi : i ∉ order) : (order ++ [i]).Nodup := by
  rw [← List.concat_eq_append]
  exact h.concat hi

/-! ## When one call gets on -/

section

variable [DecidableEq ι] {s s' : Persisting ι σ} {i : ι} {p : Progress}

theorem location_self (h : s'.progress = update s.progress i p) : s'.location i = p.location := by
  rw [location, h, Function.update_self]

theorem topics_self (h : s'.progress = update s.progress i p) : s'.topics i = p.topics := by
  rw [topics, h, Function.update_self]

theorem location_of_ne (h : s'.progress = update s.progress i p) {j : ι} (hj : j ≠ i) :
    s'.location j = s.location j := by
  rw [location, location, h, Function.update_of_ne hj]

theorem topics_of_ne (h : s'.progress = update s.progress i p) {j : ι} (hj : j ≠ i) :
    s'.topics j = s.topics j := by
  rw [topics, topics, h, Function.update_of_ne hj]

theorem location_eq (h : s'.progress = update s.progress i p) (hp : p.location = s.location i) :
    s'.location = s.location := by
  funext j
  by_cases hj : j = i
  · rw [hj, location_self h, hp]
  · exact location_of_ne h hj

theorem topics_eq (h : s'.progress = update s.progress i p) (hp : p.topics = s.topics i) :
    s'.topics = s.topics := by
  funext j
  by_cases hj : j = i
  · rw [hj, topics_self h, hp]
  · exact topics_of_ne h hj

variable {P : Progress → Prop} {f : ι → Progress} {order : List ι}

theorem mem_iff_update (h : ∀ j, j ∈ order ↔ P (f j)) (hp : P (f i) ↔ P p) (j : ι) :
    j ∈ order ↔ P (update f i p j) := by
  rw [h]
  by_cases hj : j = i
  · rw [hj, Function.update_self, hp]
  · rw [Function.update_of_ne hj]

theorem mem_append_iff_update (h : ∀ j, j ∈ order ↔ P (f j)) (hp : P p) (j : ι) :
    j ∈ order ++ [i] ↔ P (update f i p j) := by
  rw [List.mem_append, List.mem_singleton, h]
  by_cases hj : j = i
  · rw [hj, Function.update_self]
    exact iff_of_true (.inr rfl) hp
  · rw [Function.update_of_ne hj]
    exact or_iff_left hj

end

/-! ## The order of the steps -/

/-- Which calls have appended and recorded, each once. -/
structure Orders (calls : ι → PersistCall) (s : Persisting ι σ) : Prop where
  prepared : ∀ i block, s.progress i = .prepared block → (calls i).Makes block
  appends_nodup : s.appends.Nodup
  mem_appends : ∀ i, i ∈ s.appends ↔ (s.progress i).IsStored
  records_nodup : s.records.Nodup
  mem_records : ∀ i, i ∈ s.records ↔ (s.progress i).IsReturned

theorem Orders.start {calls : ι → PersistCall} (log : Log σ) : (start log).Orders calls where
  prepared _ _ h := nomatch h
  appends_nodup := List.nodup_nil
  mem_appends _ := iff_of_false List.not_mem_nil not_false
  records_nodup := List.nodup_nil
  mem_records _ := iff_of_false List.not_mem_nil not_false

/-- **In the end the calls that recorded are those that appended.** -/
theorem Orders.perm {calls : ι → PersistCall} {s : Persisting ι σ} (h : s.Orders calls)
    (hended : s.Ended) : s.records.Perm s.appends := by
  refine (List.perm_ext_iff_of_nodup h.records_nodup h.appends_nodup).2 fun i => ?_
  rw [h.mem_records, h.mem_appends]
  have hi := hended i
  cases hp : s.progress i with
  | called => simp [hp, Progress.outcome?] at hi
  | prepared block => simp [hp, Progress.outcome?] at hi
  | appended block a => simp [hp, Progress.outcome?] at hi
  | returned p => exact Iff.rfl
  | failed e => exact Iff.rfl

/-! ## What a step does -/

variable [DecidableEq ι] [Store σ]

/-- The next step of a call. -/
def step (calls : ι → PersistCall) (s : Persisting ι σ) (i : ι) : Persisting ι σ :=
  match s.progress i with
  | .called => match (calls i).prepare s.log with
    | .ok block log => { s with log, progress := update s.progress i (.prepared block) }
    | .error e log => { s with log, progress := update s.progress i (.failed e) }
  | .prepared block => match Log.append (calls i).now block.text s.log with
    | .ok a log =>
      { s with log, progress := update s.progress i (.appended block a), appends := s.appends ++ [i] }
    | .error e log => { s with log, progress := update s.progress i (.failed e) }
  | .appended block a => match Log.record a.location block.topics s.log with
    | .ok () log =>
      { s with
        log
        progress := update s.progress i (.returned ⟨a.location, a.details, block.topics⟩)
        records := s.records ++ [i] }
    | .error e log => { s with log, progress := update s.progress i (.failed e) }
  | .returned _ | .failed _ => s

/-- The steps that a schedule calls for. -/
def run (calls : ι → PersistCall) (s : Persisting ι σ) (schedule : List ι) : Persisting ι σ :=
  schedule.foldl (step calls) s

/-- The call has the result `r`, which left the log as it is. -/
def HasResult (s : Persisting ι σ) (i : ι) : EStateM.Result LogError (Log σ) Persisted → Prop
  | .ok p log => s.log = log ∧ s.progress i = .returned p
  | .error e log => s.log = log ∧ s.progress i = .failed e

section

variable {calls : ι → PersistCall} {s : Persisting ι σ} {i : ι}

theorem step_called_ok {block : Block} {log : Log σ} (h : s.progress i = .called)
    (hp : (calls i).prepare s.log = .ok block log) :
    step calls s i = { s with log, progress := update s.progress i (.prepared block) } := by
  simp only [step, h, hp]

theorem step_called_error {e : LogError} {log : Log σ} (h : s.progress i = .called)
    (hp : (calls i).prepare s.log = .error e log) :
    step calls s i = { s with log, progress := update s.progress i (.failed e) } := by
  simp only [step, h, hp]

theorem step_prepared_ok {block : Block} {a : Appended} {log : Log σ}
    (h : s.progress i = .prepared block)
    (ha : Log.append (calls i).now block.text s.log = .ok a log) :
    step calls s i = { s with
      log
      progress := update s.progress i (.appended block a)
      appends := s.appends ++ [i] } := by
  simp only [step, h, ha]

theorem step_prepared_error {block : Block} {e : LogError} {log : Log σ}
    (h : s.progress i = .prepared block)
    (ha : Log.append (calls i).now block.text s.log = .error e log) :
    step calls s i = { s with log, progress := update s.progress i (.failed e) } := by
  simp only [step, h, ha]

theorem step_appended_ok {block : Block} {a : Appended} {log : Log σ}
    (h : s.progress i = .appended block a)
    (hr : Log.record a.location block.topics s.log = .ok () log) :
    step calls s i = { s with
      log
      progress := update s.progress i (.returned ⟨a.location, a.details, block.topics⟩)
      records := s.records ++ [i] } := by
  simp only [step, h, hr]

theorem step_appended_error {block : Block} {a : Appended} {e : LogError} {log : Log σ}
    (h : s.progress i = .appended block a)
    (hr : Log.record a.location block.topics s.log = .error e log) :
    step calls s i = { s with log, progress := update s.progress i (.failed e) } := by
  simp only [step, h, hr]

theorem step_ended (h : (s.progress i).outcome?.isSome = true) : step calls s i = s := by
  unfold step
  cases hp : s.progress i <;> simp_all [Progress.outcome?]

theorem step_failed {e : LogError} (h : s.progress i = .failed e) : step calls s i = s :=
  step_ended (by rw [h]; rfl)

/-- **A call that nothing comes between does what `Log.persist` does.** -/
theorem run_alone (h : s.progress i = .called) :
    (run calls s [i, i, i]).HasResult i ((calls i).persist s.log) := by
  have hrun : run calls s [i, i, i] = step calls (step calls (step calls s i) i) i := rfl
  rw [hrun, PersistCall.persist_eq]
  cases hp : (calls i).prepare s.log with
  | error e log =>
    have hfailed : (step calls s i).progress i = .failed e := by
      rw [step_called_error h hp]
      exact Function.update_self ..
    rw [step_failed hfailed, step_failed hfailed, LogM.bind_error hp]
    exact ⟨by rw [step_called_error h hp], hfailed⟩
  | ok block log =>
    rw [step_called_ok h hp, LogM.bind_ok hp]
    generalize hs : ({ s with log, progress := update s.progress i (.prepared block) } :
      Persisting ι σ) = s₁
    have hprepared : s₁.progress i = .prepared block := by
      rw [← hs]
      exact Function.update_self ..
    obtain rfl : s₁.log = log := by rw [← hs]
    cases ha : Log.append (calls i).now block.text s₁.log with
    | error e log' =>
      have hfailed : (step calls s₁ i).progress i = .failed e := by
        rw [step_prepared_error hprepared ha]
        exact Function.update_self ..
      rw [step_failed hfailed, LogM.bind_error ha]
      exact ⟨by rw [step_prepared_error hprepared ha], hfailed⟩
    | ok a log' =>
      rw [step_prepared_ok hprepared ha, LogM.bind_ok ha]
      generalize hs' : ({ s₁ with
        log := log'
        progress := update s₁.progress i (.appended block a)
        appends := s₁.appends ++ [i] } : Persisting ι σ) = s₂
      have happended : s₂.progress i = .appended block a := by
        rw [← hs']
        exact Function.update_self ..
      obtain rfl : s₂.log = log' := by rw [← hs']
      cases hr : Log.record a.location block.topics s₂.log with
      | error e log'' =>
        rw [step_appended_error happended hr, LogM.bind_error hr]
        exact ⟨rfl, Function.update_self ..⟩
      | ok u log'' =>
        rw [step_appended_ok happended hr, LogM.bind_ok hr]
        exact ⟨rfl, Function.update_self ..⟩

/-- The second call takes all its steps between the last two of the first. -/
def crossing : List Bool := [false, false, true, true, true, false]

/-- **Calls that cross record their blocks in the other order than they append them.** -/
theorem run_crossing (calls : Bool → PersistCall) (block : Bool → Block) (a : Bool → Appended)
    {log : Log σ} {index : TopicIndex} {store₁ store₂ : σ}
    (hready : log.phase = .ready index)
    (hprepare : ∀ b (log : Log σ), log.phase = .ready index →
      (calls b).prepare log = .ok (block b) log)
    (hfirst : Store.append log.store (calls false).now (block false).text = .ok (a false, store₁))
    (hsecond : Store.append store₁ (calls true).now (block true).text = .ok (a true, store₂)) :
    (run calls (start log) crossing).appends = [false, true] ∧
    (run calls (start log) crossing).records = [true, false] ∧
    ∀ b, (run calls (start log) crossing).progress b
      = .returned ⟨(a b).location, (a b).details, (block b).topics⟩ := by
  obtain ⟨store, settings, phase⟩ := log
  obtain rfl : phase = .ready index := hready
  have hrecord (index : TopicIndex) (b : Bool) :
      Log.record (a b).location (block b).topics (⟨store₂, settings, .ready index⟩ : Log σ)
        = .ok () ⟨store₂, settings, .ready (index.push (a b).location (block b).topics)⟩ :=
    Log.record_ready rfl _ _
  have happend₂ : Log.append (calls true).now (block true).text
      (⟨store₁, settings, .ready index⟩ : Log σ) = .ok (a true) ⟨store₂, settings, .ready index⟩ :=
    Log.append_ok hsecond
  simp only [run, crossing, start, List.foldl_cons, List.foldl_nil, step, hprepare, Function.update_self,
    Log.append_ok hfirst, happend₂, hrecord, Function.update_of_ne, ne_eq, Bool.true_eq_false, Bool.false_eq_true,
    not_false_eq_true, List.nil_append, List.cons_append, true_and]
  rintro (_ | _) <;> simp

end

/-- Everything that the next step of call `i` can do, on a log ready with `index`. -/
inductive Step (calls : ι → PersistCall) (s : Persisting ι σ) (index : TopicIndex) (i : ι) :
    Persisting ι σ → Prop where
  /-- The call has a result. -/
  | idle : (s.progress i).outcome?.isSome = true → Step calls s index i s
  /-- The call gets on, or fails, without a trace. -/
  | unseen (p : Progress) : ¬(s.progress i).IsStored → ¬p.IsStored →
    (∀ block, p = .prepared block → (calls i).Makes block) →
    Step calls s index i { s with progress := update s.progress i p }
  | append (block : Block) (a : Appended) (store : σ) : s.progress i = .prepared block →
    Store.append s.log.store (calls i).now block.text = .ok (a, store) →
    Step calls s index i { s with
      log := { s.log with store }
      progress := update s.progress i (.appended block a)
      appends := s.appends ++ [i] }
  | record (block : Block) (a : Appended) : s.progress i = .appended block a →
    Step calls s index i { s with
      log := { s.log with phase := .ready (index.push a.location block.topics) }
      progress := update s.progress i (.returned ⟨a.location, a.details, block.topics⟩)
      records := s.records ++ [i] }

theorem step_step {calls : ι → PersistCall} {s : Persisting ι σ} {index : TopicIndex}
    (hready : s.log.phase = .ready index) (i : ι) : Step calls s index i (step calls s i) := by
  cases hp : s.progress i with
  | called =>
    rcases (calls i).prepare_ready hready with ⟨block, hmakes, hb⟩ | ⟨e, he⟩
    · rw [step_called_ok hp hb]
      refine .unseen _ (by simp [hp, Progress.IsStored]) (by simp [Progress.IsStored]) ?_
      rintro block' heq
      rwa [← Progress.prepared.inj heq]
    · rw [step_called_error hp he]
      exact .unseen _ (by simp [hp, Progress.IsStored]) (by simp [Progress.IsStored])
        fun _ heq => nomatch heq
  | prepared block =>
    cases ha : Store.append s.log.store (calls i).now block.text with
    | error cause =>
      rw [step_prepared_error hp (Log.append_error ha)]
      exact .unseen _ (by simp [hp, Progress.IsStored]) (by simp [Progress.IsStored])
        fun _ heq => nomatch heq
    | ok r =>
      obtain ⟨a, store⟩ := r
      rw [step_prepared_ok hp (Log.append_ok ha)]
      exact .append block a store hp ha
  | appended block a =>
    rw [step_appended_ok hp (Log.record_ready hready _ _)]
    exact .record block a hp
  | returned p =>
    have hended : (s.progress i).outcome?.isSome = true := by rw [hp]; rfl
    rw [step_ended hended]
    exact .idle hended
  | failed e =>
    have hended : (s.progress i).outcome?.isSome = true := by rw [hp]; rfl
    rw [step_ended hended]
    exact .idle hended

/-! ## Keeping the orders -/

theorem Orders.step {calls : ι → PersistCall} {s s' : Persisting ι σ} {index : TopicIndex} {i : ι}
    (h : s.Orders calls) (hstep : Step calls s index i s') : s'.Orders calls := by
  -- a block that was prepared before stays the one that its call makes
  have hprepared : ∀ p : Progress, (∀ block, p = .prepared block → (calls i).Makes block) →
      ∀ j block, update s.progress i p j = .prepared block → (calls j).Makes block := by
    intro p hp j block hj
    by_cases hji : j = i
    · rw [hji, Function.update_self] at hj
      rw [hji]
      exact hp block hj
    · rw [Function.update_of_ne hji] at hj
      exact h.prepared j block hj
  cases hstep with
  | idle => exact h
  | unseen p hold hnew hmakes =>
    have hreturned : ∀ q : Progress, ¬q.IsStored → ¬q.IsReturned := by
      intro q hq
      cases q <;> simp_all [Progress.IsStored, Progress.IsReturned]
    exact ⟨hprepared p hmakes, h.appends_nodup,
      mem_iff_update h.mem_appends (iff_of_false hold hnew), h.records_nodup,
      mem_iff_update h.mem_records (iff_of_false (hreturned _ hold) (hreturned p hnew))⟩
  | append block a store hp ha =>
    have hi : i ∉ s.appends := by
      rw [h.mem_appends, hp]
      exact not_false
    refine ⟨hprepared _ fun _ he => (nomatch he), nodup_append_singleton h.appends_nodup hi,
      mem_append_iff_update h.mem_appends trivial, h.records_nodup,
      mem_iff_update h.mem_records ?_⟩
    rw [hp]
    exact Iff.rfl
  | record block a hp =>
    have hi : i ∉ s.records := by
      rw [h.mem_records, hp]
      exact not_false
    refine ⟨hprepared _ fun _ he => (nomatch he), h.appends_nodup,
      mem_iff_update h.mem_appends ?_, nodup_append_singleton h.records_nodup hi,
      mem_append_iff_update h.mem_records trivial⟩
    rw [hp]
    exact Iff.rfl

end Persisting

end ChannelLog
