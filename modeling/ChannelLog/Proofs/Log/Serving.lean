import ChannelLog.Proofs.Log.Interleaving

/-!
# Calls that start and persist at the same time

Any number of calls start one log and persist transactions on it at the same time. A call to start
takes three steps: it claims the log, builds the index and settles. A call to persist takes those of
`Persisting`. Looking up takes none that another call could see. The store may fail during any step.

* `Persisting.stepDuring`, `Serving.stepStartup`: one step of one call, during an outage or not.
* `Serving.step`, `Serving.run`: the steps of a schedule. A call to start that nothing comes between
  does what `Log.start` does (`run_start_alone`).
* `Serving.StartStep`: everything that the next step of a call to start can do.
-/

namespace ChannelLog

open Function (update)

/-! ## Outages -/

/-- Why the store fails during a step, if it does. -/
abbrev Outage := Option StorageError

def Log.scanDuring {σ : Type} [Store σ] (outage : Outage) (log : Log σ) :
    Except LogError TopicIndex :=
  match outage with
  | some cause => .error (.storage cause)
  | none => buildIndex log.store log.settings

theorem Log.buildIndex_of_scanDuring {σ : Type} [Store σ] {outage : Outage} {log : Log σ}
    {index : TopicIndex} (h : log.scanDuring outage = .ok index) :
    buildIndex log.store log.settings = .ok index := by
  cases outage with
  | some cause => exact nomatch h
  | none => exact h

namespace Persisting

variable {ι σ : Type} [DecidableEq ι] [Store σ] {calls : ι → PersistCall} {s : Persisting ι σ}
  {index : TopicIndex}

/-- The next step of a call to persist. During an outage nothing can be appended. -/
def stepDuring (outage : Outage) (calls : ι → PersistCall) (s : Persisting ι σ) (i : ι) :
    Persisting ι σ :=
  match outage, s.progress i with
  | some cause, .prepared _ =>
    { s with progress := update s.progress i (.failed (.storage cause)) }
  | _, _ => step calls s i

theorem stepDuring_eq {i : ι} (h : ∀ block, s.progress i ≠ .prepared block) (outage : Outage) :
    s.stepDuring outage calls i = s.step calls i := by
  unfold stepDuring
  split
  · next hp => exact absurd hp (h _)
  · rfl

/-- **An outage lets a call fail, and leaves no trace.** -/
theorem step_stepDuring (hready : s.log.phase = .ready index) (outage : Outage) (i : ι) :
    Step calls s index i (s.stepDuring outage calls i) := by
  unfold stepDuring
  split
  · next hp =>
    exact .unseen _ (by simp [hp, Progress.IsStored]) (by simp [Progress.IsStored])
      fun _ heq => nomatch heq
  · exact step_step hready i

end Persisting

/-! ## Calls to start -/

/-- How far a call to start a log has come. -/
inductive Startup where
  | called
  /-- No one else may start the log. -/
  | claimed
  /-- The store was read, but the log does not know of it yet. -/
  | scanned (result : Except LogError TopicIndex)
  | ended (result : Except LogError Unit)

/-- The call claimed the log and did not settle yet. -/
def Startup.IsUnderway : Startup → Prop
  | claimed | scanned _ => True
  | called | ended _ => False

theorem Startup.isUnderway_of_claimed {t : Startup} (h : t = .claimed) : t.IsUnderway := by
  rw [h]
  trivial

theorem Startup.isUnderway_of_scanned {t : Startup} {result : Except LogError TopicIndex}
    (h : t = .scanned result) : t.IsUnderway := by
  rw [h]
  trivial

/-- Whose turn it is, of the calls to persist and those to start, and whether the store fails. -/
structure Turn (ι κ : Type) where
  caller : ι ⊕ κ
  outage : Outage

/-- Calls to persist at work on a log, and how far the calls to start it have come. -/
structure Serving (ι κ σ : Type) where
  persists : Persisting ι σ
  startups : κ → Startup

namespace Serving

variable {ι κ σ : Type}

def log (s : Serving ι κ σ) : Log σ := s.persists.log

/-- No call has taken a step. -/
def start (log : Log σ) : Serving ι κ σ := ⟨.start log, fun _ => .called⟩

/-! ## Steps -/

variable [DecidableEq κ]

theorem isUnderway_update {startups : κ → Startup} {j k : κ} {startup : Startup} :
    (update startups k startup j).IsUnderway
      ↔ j = k ∧ startup.IsUnderway ∨ j ≠ k ∧ (startups j).IsUnderway := by
  by_cases h : j = k
  · rw [h, Function.update_self]
    simp
  · rw [Function.update_of_ne h]
    simp [h]

/-- The call `k` to start has come to `startup`, and left the log as `log`. -/
def moved (s : Serving ι κ σ) (k : κ) (log : Log σ) (startup : Startup) : Serving ι κ σ :=
  ⟨{ s.persists with log }, update s.startups k startup⟩

@[simp]
theorem log_moved (s : Serving ι κ σ) (k : κ) (log : Log σ) (startup : Startup) :
    (s.moved k log startup).log = log := rfl

@[simp]
theorem startups_moved (s : Serving ι κ σ) (k : κ) (log : Log σ) (startup : Startup) :
    (s.moved k log startup).startups k = startup := Function.update_self ..

theorem startups_moved_of_ne (s : Serving ι κ σ) {j k : κ} (h : j ≠ k) {log : Log σ}
    {startup : Startup} : (s.moved k log startup).startups j = s.startups j :=
  Function.update_of_ne h ..

@[simp]
theorem moved_moved (s : Serving ι κ σ) (k : κ) (log log' : Log σ) (startup startup' : Startup) :
    (s.moved k log startup).moved k log' startup' = s.moved k log' startup' := by
  simp only [moved, Function.update_idem]

theorem isUnderway_moved_iff {s : Serving ι κ σ} {k : κ} {log : Log σ} {startup : Startup}
    (h : ∀ j, (s.startups j).IsUnderway → j = k) (hstartup : startup.IsUnderway) (j : κ) :
    ((s.moved k log startup).startups j).IsUnderway ↔ j = k := by
  rw [moved, isUnderway_update]
  exact ⟨fun hj => hj.elim And.left fun hj => h j hj.2, fun hj => .inl ⟨hj, hstartup⟩⟩

theorem isUnderway_moved_of_ne {s : Serving ι κ σ} {i k : κ} {log : Log σ} {startup : Startup}
    (h : ∀ j, (s.startups j).IsUnderway ↔ j = k) (hi : i ≠ k) (hstartup : ¬startup.IsUnderway)
    (j : κ) : ((s.moved i log startup).startups j).IsUnderway ↔ j = k := by
  rw [moved, isUnderway_update, h]
  constructor
  · rintro (⟨-, hj⟩ | ⟨-, hj⟩)
    · exact absurd hj hstartup
    · exact hj
  · rintro rfl
    exact .inr ⟨hi.symm, rfl⟩

theorem not_isUnderway_moved {s : Serving ι κ σ} {k : κ} {log : Log σ} {startup : Startup}
    (h : ∀ j, (s.startups j).IsUnderway → j = k) (hstartup : ¬startup.IsUnderway) (j : κ) :
    ¬((s.moved k log startup).startups j).IsUnderway := by
  rw [moved, isUnderway_update]
  rintro (⟨-, hj⟩ | ⟨hne, hj⟩)
  · exact hstartup hj
  · exact hne (h j hj)

variable [Store σ]

/-- The next step of a call to start. During an outage there is nothing to read. -/
def stepStartup (outage : Outage) (s : Serving ι κ σ) (k : κ) : Serving ι κ σ :=
  match s.startups k with
  | .called => match Log.claim s.log with
    | .ok () log => s.moved k log .claimed
    | .error e log => s.moved k log (.ended (.error e))
  | .claimed => s.moved k s.log (.scanned (s.log.scanDuring outage))
  | .scanned result => match Log.settle result s.log with
    | .ok () log => s.moved k log (.ended (.ok ()))
    | .error e log => s.moved k log (.ended (.error e))
  | .ended _ => s

variable [DecidableEq ι]

/-- The next step of a call to persist, or of one to start. -/
def step (calls : ι → PersistCall) (s : Serving ι κ σ) (turn : Turn ι κ) : Serving ι κ σ :=
  match turn.caller with
  | .inl i => { s with persists := s.persists.stepDuring turn.outage calls i }
  | .inr k => s.stepStartup turn.outage k

def run (calls : ι → PersistCall) (s : Serving ι κ σ) (schedule : List (Turn ι κ)) :
    Serving ι κ σ :=
  schedule.foldl (step calls) s

/-! ## What a step of a call to start does -/

section

variable {s s' : Serving ι κ σ} {k : κ}

omit [DecidableEq ι]

/-- Everything that the next step of the call `k` to start can do. -/
inductive StartStep (s : Serving ι κ σ) (k : κ) : Serving ι κ σ → Prop where
  | idle (result : Except LogError Unit) : s.startups k = .ended result → StartStep s k s
  | claim : s.startups k = .called → s.log.phase = .uninitialized →
    StartStep s k (s.moved k { s.log with phase := .initializing } .claimed)
  | refuse : s.startups k = .called → s.log.phase ≠ .uninitialized →
    StartStep s k (s.moved k s.log (.ended (.error .alreadyInitialized)))
  | scan (outage : Outage) : s.startups k = .claimed →
    StartStep s k (s.moved k s.log (.scanned (s.log.scanDuring outage)))
  | publish (index : TopicIndex) : s.startups k = .scanned (.ok index) →
    StartStep s k (s.moved k { s.log with phase := .ready index } (.ended (.ok ())))
  | rollBack (e : LogError) : s.startups k = .scanned (.error e) →
    StartStep s k (s.moved k { s.log with phase := .uninitialized } (.ended (.error e)))

theorem startStep_stepStartup (outage : Outage) (s : Serving ι κ σ) (k : κ) :
    StartStep s k (s.stepStartup outage k) := by
  unfold stepStartup
  cases hk : s.startups k with
  | called =>
    by_cases hphase : s.log.phase = .uninitialized
    · simp only [Log.claim_uninitialized hphase]
      exact .claim hk hphase
    · simp only [Log.claim_refused hphase]
      exact .refuse hk hphase
  | claimed => exact .scan outage hk
  | scanned result =>
    cases result with
    | ok index =>
      simp only [Log.settle_ok]
      exact .publish index hk
    | error e =>
      simp only [Log.settle_error]
      exact .rollBack e hk
  | ended result => exact .idle result hk

end

/-- The turns of one call to start, with the store in order. -/
def startAlone (k : κ) : List (Turn ι κ) := [⟨.inr k, none⟩, ⟨.inr k, none⟩, ⟨.inr k, none⟩]

/-- The call to start has the result `r`, which left the log as it is. -/
def HasResult (s : Serving ι κ σ) (k : κ) : EStateM.Result LogError (Log σ) Unit → Prop
  | .ok () log => s.log = log ∧ s.startups k = .ended (.ok ())
  | .error e log => s.log = log ∧ s.startups k = .ended (.error e)

/-- **A call to start that nothing comes between does what `Log.start` does.** -/
theorem run_start_alone (calls : ι → PersistCall) {s : Serving ι κ σ} {k : κ}
    (h : s.startups k = .called) : (run calls s (startAlone k)).HasResult k (Log.start s.log) := by
  have hrun : run calls s (startAlone k)
      = ((s.stepStartup none k).stepStartup none k).stepStartup none k := rfl
  rw [hrun]
  by_cases hphase : s.log.phase = .uninitialized
  · have hclaim : s.stepStartup none k
        = s.moved k { s.log with phase := .initializing } .claimed := by
      simp only [stepStartup, h, Log.claim_uninitialized hphase]
    have hscan : (s.stepStartup none k).stepStartup none k
        = s.moved k { s.log with phase := .initializing }
          (.scanned (Log.buildIndex s.log.store s.log.settings)) := by
      rw [hclaim]
      simp only [stepStartup, startups_moved, log_moved, moved_moved, Log.scanDuring]
    rw [hscan, Log.start_uninitialized hphase]
    cases Log.buildIndex s.log.store s.log.settings with
    | error e =>
      have hback : ({ s.log with phase := .uninitialized } : Log σ) = s.log := by rw [← hphase]
      simp only [HasResult, stepStartup, startups_moved, log_moved, Log.settle_error, moved_moved,
        hback, and_self]
    | ok index =>
      simp only [HasResult, stepStartup, startups_moved, log_moved, Log.settle_ok, moved_moved,
        and_self]
  · have hrefuse : s.stepStartup none k
        = s.moved k s.log (.ended (.error .alreadyInitialized)) := by
      simp only [stepStartup, h, Log.claim_refused hphase]
    have hidle : (s.stepStartup none k).stepStartup none k = s.stepStartup none k := by
      rw [hrefuse]
      simp only [stepStartup, startups_moved]
    rw [hidle, hidle, hrefuse, Log.start_refused hphase]
    exact ⟨rfl, startups_moved ..⟩

end Serving

end ChannelLog
