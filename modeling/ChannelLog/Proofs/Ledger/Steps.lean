import ChannelLog.Ledger
import ChannelLog.Proofs.Channel.Origin
import ChannelLog.Proofs.Channel.Writing
import ChannelLog.Proofs.Log.Runs

/-!
# What the calls on a ledger do to its log

* `Ledger.contentForExisting_eq`, `Ledger.contentFor_cases`: what a write appends, clear or encrypted
  as the channel is (`ChannelKind.contentOf`).
* `Ledger.persist_eq`: a write settles on a content, without touching the log, and has the log persist
  it.
* `LedgerCall`, `Ledger.run`: any calls on a ledger, and on the log below it, one after the other.
* `Ledger.run_eq`: **the log only ever sees calls of its own** (`Ledger.logCalls`), so that what holds
  after all runs of logs holds after all runs of ledgers.
* `Ledger.kind_of_run`: a channel that was replayed keeps its kind, once it is known, whatever is
  called afterwards.
-/

namespace ChannelLog

variable {σ κ : Type} [Store σ] [KeyHolder κ]

/-! ## Contents -/

/-- What is appended to a channel whose kind is known. -/
def ChannelKind.contentOf (payload : Json) (nonce : Nonce) : ChannelKind → Content
  | encrypted e => .encrypted payload e.key nonce
  | _ => .clear payload

def ChannelKind.writeMethod? : ChannelKind → Option String
  | encrypted _ => some channelEncryptionMethod
  | _ => none

namespace Ledger

/-- **What is appended to a channel that is there already** follows from its replay. -/
theorem contentForExisting_eq (holder : Option κ) (log : Log σ) (nonce : Nonce)
    (payload : Json) (id : String) (recipients : List Recipient) :
    contentForExisting holder log nonce payload id recipients
      = match history log id with
        | .error e => .error e
        | .ok past =>
          let kind := (Replay.ofHistory holder id past).kind
          if kind = .unknown then .error (.channelNotFound id)
          else if recipients ≠ [] then .error (.stakeholderChangeRejected id)
          else .ok (kind.contentOf payload nonce, kind.writeMethod?) := by
  unfold contentForExisting
  cases history log id with
  | error e => rfl
  | ok past =>
    simp only [bind, Except.bind, Replay.kindOf_eq]
    cases (Replay.ofHistory holder id past).kind with
    | unknown => rfl
    | clear | encrypted => cases recipients <;> rfl

/-- **What a write appends**: a payload with the fingerprint `id` opens a channel, clear or for the
recipients; any other is appended to the channel `id` as its kind demands. -/
theorem contentFor_cases {holder : Option κ} {log : Log σ} {draw : ChannelDraw}
    {request : WriteRequest} {id : String} {content : Content} {method : Option String}
    (h : contentFor holder log draw request id = .ok (content, method)) :
    (request.payload.fingerprint = id ∧ request.recipients = [] ∧
      content = .clear request.payload) ∨
    (request.payload.fingerprint = id ∧ request.recipients ≠ [] ∧
      Content.firstEncrypted request.payload request.recipients draw = .ok content) ∨
    (request.payload.fingerprint ≠ id ∧ ∃ past kind, history log id = .ok past ∧
      kind = (Replay.ofHistory holder id past).kind ∧ kind ≠ .unknown ∧
      content = kind.contentOf request.payload draw.nonce) := by
  unfold contentFor at h
  split at h
  · next hid =>
    rw [contentForExisting_eq] at h
    cases hpast : history log id with
    | error e => simp [hpast] at h
    | ok past =>
      simp only [hpast] at h
      split at h
      · exact nomatch h
      · next hkind =>
        split at h
        · exact nomatch h
        · obtain ⟨rfl, -⟩ := Prod.mk.inj (Except.ok.inj h)
          exact .inr (.inr ⟨hid, past, _, rfl, rfl, hkind, rfl⟩)
  · next hid =>
    split at h
    · next hnone =>
      obtain ⟨rfl, -⟩ := Prod.mk.inj (Except.ok.inj h)
      exact .inl ⟨not_not.1 hid, List.isEmpty_iff.1 hnone, rfl⟩
    · next hsome =>
      cases hfirst : Content.firstEncrypted request.payload request.recipients draw with
      | error e => simp [hfirst] at h
      | ok first =>
        simp only [hfirst] at h
        obtain ⟨rfl, -⟩ := Prod.mk.inj (Except.ok.inj h)
        exact .inr (.inl ⟨not_not.1 hid, fun hnone => hsome (List.isEmpty_iff.2 hnone), rfl⟩)

theorem contentFor_clear {request : WriteRequest} {id : String}
    (hid : request.payload.fingerprint = id) (hnone : request.recipients = [])
    (holder : Option κ) (log : Log σ) (draw : ChannelDraw) :
    contentFor holder log draw request id = .ok (.clear request.payload, none) := by
  rw [contentFor, if_neg (not_not.2 hid), if_pos (List.isEmpty_iff.2 hnone)]

theorem contentFor_sealed {request : WriteRequest} {draw : ChannelDraw} {id : String}
    {content : Content} (hid : request.payload.fingerprint = id) (hsome : request.recipients ≠ [])
    (hcontent : Content.firstEncrypted request.payload request.recipients draw = .ok content)
    (holder : Option κ) (log : Log σ) :
    contentFor holder log draw request id = .ok (content, some channelEncryptionMethod) := by
  have hsome' : ¬ request.recipients.isEmpty = true := fun hr => hsome (List.isEmpty_iff.1 hr)
  have hmethod : content.encryptionMethod = some channelEncryptionMethod := by
    obtain ⟨keys, -, hc⟩ := Content.exists_of_firstEncrypted hcontent
    rw [hc]
  rw [contentFor, if_neg (not_not.2 hid), if_neg hsome', hcontent, ← hmethod]

end Ledger

/-- The topics under which a write is stored. -/
def WriteRequest.allTopics (request : WriteRequest) : List String :=
  let id := Ledger.normalizeId request.channelId
  id :: request.topics.filter (· ≠ id)

namespace Ledger

theorem normalizeId_fingerprint (v : Json) : normalizeId v.fingerprint = v.fingerprint :=
  Hex.asciiLowerCase_encodeMarked _

/-! ## Writing -/

/-- **A write is a content persisted**, or an error that leaves the log as it is. -/
theorem persist_eq (holder : Option κ) (now : UInt64) (draw : ChannelDraw)
    (request : WriteRequest) (log : Log σ) :
    persist holder now draw request log
      = match contentFor holder log draw request (normalizeId request.channelId) with
        | .error e => .error e log
        | .ok (content, method) =>
          match Log.persist now content request.signer request.allTopics log with
          | .error e after => .error (.log e) after
          | .ok p after =>
            .ok ⟨normalizeId request.channelId, p.location, p.details, method, request.allTopics⟩
              after := by
  show (LedgerM.lift (contentFor holder log draw request (normalizeId request.channelId))
    >>= fun p => LedgerM.ofLog (Log.persist now p.1 request.signer request.allTopics)
      >>= fun persisted => (pure ⟨normalizeId request.channelId, persisted.location,
        persisted.details, p.2, request.allTopics⟩ : LedgerM σ WriteReceipt)) log = _
  cases contentFor holder log draw request (normalizeId request.channelId) with
  | error e => rfl
  | ok r =>
    obtain ⟨content, method⟩ := r
    show (LedgerM.ofLog (Log.persist now content request.signer request.allTopics)
      >>= fun persisted => (pure ⟨normalizeId request.channelId, persisted.location,
        persisted.details, method, request.allTopics⟩ : LedgerM σ WriteReceipt)) log = _
    show EStateM.bind _ _ log = _
    cases hp : Log.persist now content request.signer request.allTopics log with
    | error e after => simp only [EStateM.bind, LedgerM.ofLog, hp]
    | ok p after =>
      simp only [EStateM.bind, LedgerM.ofLog, hp]
      rfl

theorem exists_of_persist {holder : Option κ} {now : UInt64} {draw : ChannelDraw}
    {request : WriteRequest} {log after : Log σ} {receipt : WriteReceipt}
    (h : persist holder now draw request log = .ok receipt after) :
    ∃ content method p,
      contentFor holder log draw request (normalizeId request.channelId) = .ok (content, method) ∧
      Log.persist now content request.signer request.allTopics log = .ok p after ∧
      receipt = ⟨normalizeId request.channelId, p.location, p.details, method,
        request.allTopics⟩ := by
  rw [persist_eq] at h
  cases hc : contentFor holder log draw request (normalizeId request.channelId) with
  | error e => simp [hc] at h
  | ok r =>
    obtain ⟨content, method⟩ := r
    simp only [hc] at h
    cases hp : Log.persist now content request.signer request.allTopics log with
    | error e after => simp [hp] at h
    | ok p after =>
      simp only [hp] at h
      obtain ⟨rfl, rfl⟩ := EStateM.Result.ok.inj h
      exact ⟨content, method, p, rfl, hp, rfl⟩

/-! ## Reading -/

theorem channel_eq (holder : Option κ) (log : Log σ) (channelId : String) :
    channel holder log channelId = match log.transactionsOf (normalizeId channelId) with
      | .error e => .error (.log e)
      | .ok found => .ok
        ⟨.ofHistory holder (normalizeId channelId) (found.map (·.confirmed)),
          found.map fun f => (f.location, f.details)⟩ := rfl

theorem exists_of_channel {holder : Option κ} {log : Log σ} {channelId : String}
    {view : ChannelView} (h : channel holder log channelId = .ok view) :
    ∃ found, log.transactionsOf (normalizeId channelId) = .ok found ∧
      view = ⟨.ofHistory holder (normalizeId channelId) (found.map (·.confirmed)),
        found.map fun f => (f.location, f.details)⟩ := by
  rw [channel_eq] at h
  cases hf : log.transactionsOf (normalizeId channelId) with
  | error e => simp [hf] at h
  | ok found =>
    simp only [hf] at h
    exact ⟨found, rfl, (Except.ok.inj h).symm⟩

/-- **A replay goes on with one more transaction served.** -/
theorem channel_append {holder : Option κ} {log after : Log σ} {channelId : String}
    {view : ChannelView} (hview : channel holder log channelId = .ok view) {f : Found}
    (h : ∀ found, log.transactionsOf (normalizeId channelId) = .ok found →
      after.transactionsOf (normalizeId channelId) = .ok (found ++ [f])) :
    let step := Replay.step holder (normalizeId channelId) view.replay.kind f.confirmed
    channel holder after channelId = .ok
      ⟨⟨step.2, view.replay.entries ++ [step.1]⟩, view.places ++ [(f.location, f.details)]⟩ := by
  obtain ⟨found, hfound, rfl⟩ := exists_of_channel hview
  rw [channel_eq, h found hfound]
  simp only [List.map_append, List.map_singleton, Replay.ofHistory, Replay.resume_append,
    Replay.resume_cons]
  rfl

end Ledger

/-! ## Calls -/

/-- A call on a ledger, or on the log below it. -/
inductive LedgerCall where
  | write (now : UInt64) (draw : ChannelDraw) (request : WriteRequest)
  | read (channelId : String)
  | log (call : LogCall)

namespace LedgerCall

/-- The log after a call, whatever the call returned. -/
def after (holder : Option κ) (log : Log σ) : LedgerCall → Log σ
  | write now draw request => match Ledger.persist holder now draw request log with
    | .ok _ log | .error _ log => log
  | read _ => log
  | .log call => call.after log

/-- The calls on the log that a call makes. -/
def logCalls (holder : Option κ) (log : Log σ) : LedgerCall → List LogCall
  | write now draw request =>
    match Ledger.contentFor holder log draw request (Ledger.normalizeId request.channelId) with
    | .error _ => []
    | .ok (content, _) => [.persist ⟨now, content, request.signer, request.allTopics⟩]
  | read channelId => [.look (Ledger.normalizeId channelId)]
  | .log call => [call]

theorem after_eq (holder : Option κ) (log : Log σ) (call : LedgerCall) :
    call.after holder log = log.run (call.logCalls holder log) := by
  cases call with
  | read channelId => rfl
  | log call => rfl
  | write now draw request =>
    rw [after, logCalls, Ledger.persist_eq]
    cases Ledger.contentFor holder log draw request (Ledger.normalizeId request.channelId) with
    | error e => rfl
    | ok r =>
      obtain ⟨content, method⟩ := r
      cases hp : Log.persist now content request.signer request.allTopics log <;>
        simp only [Log.run, LogCall.after, PersistCall.persist, hp]

end LedgerCall

namespace Ledger

def run (holder : Option κ) (log : Log σ) : List LedgerCall → Log σ
  | [] => log
  | call :: calls => run holder (call.after holder log) calls

/-- The calls on the log that some calls make. -/
def logCalls (holder : Option κ) (log : Log σ) : List LedgerCall → List LogCall
  | [] => []
  | call :: calls => call.logCalls holder log ++ logCalls holder (call.after holder log) calls

/-- **The log of a ledger sees nothing but calls of its own.** -/
theorem run_eq (holder : Option κ) (log : Log σ) (calls : List LedgerCall) :
    run holder log calls = log.run (logCalls holder log calls) := by
  induction calls generalizing log with
  | nil => rfl
  | cons call calls ih => rw [run, logCalls, ih, Log.run_append, ← LedgerCall.after_eq]

theorem logCalls_append (holder : Option κ) (log : Log σ) (xs ys : List LedgerCall) :
    logCalls holder log (xs ++ ys)
      = logCalls holder log xs ++ logCalls holder (run holder log xs) ys := by
  induction xs generalizing log with
  | nil => rfl
  | cons call xs ih => rw [List.cons_append, logCalls, ih, logCalls, List.append_assoc, run]

def appended (holder : Option κ) (log : Log σ) (calls : List LedgerCall) : List Entry :=
  log.appended (logCalls holder log calls)

theorem locations_appended_write {holder : Option κ} {log after : Log σ}
    {index : TopicIndex} (hready : log.phase = .ready index) {now : UInt64} {draw : ChannelDraw}
    {request : WriteRequest} {receipt : WriteReceipt}
    (h : persist holder now draw request log = .ok receipt after) :
    (appended holder log [.write now draw request]).map (·.location) = [receipt.location] := by
  obtain ⟨content, method, p, hcontent, hp, rfl⟩ := exists_of_persist h
  have hcalls : logCalls holder log [.write now draw request]
      = [.persist ⟨now, content, request.signer, request.allTopics⟩] := by
    simp only [logCalls, LedgerCall.logCalls, hcontent, List.append_nil]
  have hlog := Log.persist_ready hready now content request.signer request.allTopics
  rw [hp] at hlog
  cases hc : Transaction.create content request.signer with
  | error cause => simp [hc] at hlog
  | ok t =>
    have hcall : (⟨now, content, request.signer, request.allTopics⟩ : PersistCall).persist log
        = .ok p after := hp
    rw [appended, hcalls]
    simp only [Log.appended, LogCall.appended, hcall, PersistCall.block, hc, Except.map,
      List.append_nil, List.map_cons, List.map_nil]

theorem run_write {holder : Option κ} {log after : Log σ} {now : UInt64}
    {draw : ChannelDraw} {request : WriteRequest} {receipt : WriteReceipt}
    (h : persist holder now draw request log = .ok receipt after) :
    run holder log [.write now draw request] = after := by
  simp only [run, LedgerCall.after, h]

theorem appended_append (holder : Option κ) (log : Log σ) (xs ys : List LedgerCall) :
    appended holder log (xs ++ ys)
      = appended holder log xs ++ appended holder (run holder log xs) ys := by
  rw [appended, logCalls_append, Log.appended_append, ← run_eq]
  rfl

theorem run_append (holder : Option κ) (log : Log σ) (xs ys : List LedgerCall) :
    run holder log (xs ++ ys) = run holder (run holder log xs) ys := by
  induction xs generalizing log with
  | nil => rfl
  | cons call xs ih => exact ih (call.after holder log)

/-! ## Runs -/

variable [LawfulStore σ] {holder : Option κ} {log : Log σ} {ls : List Location}
  {index : TopicIndex}

theorem tracks_run (h : log.Tracks ls index) {calls : List LedgerCall}
    (hdistinct : (ls ++ (appended holder log calls).map (·.location)).Nodup) :
    (run holder log calls).Tracks (ls ++ (appended holder log calls).map (·.location))
      (index.pushEntries (appended holder log calls)) := by
  rw [run_eq]
  exact h.of_grown (h.grown_run hdistinct)

/-- **A channel that was replayed keeps its kind once it is known.** -/
theorem kind_of_run (h : log.Tracks ls index) {calls : List LedgerCall}
    (hdistinct : (ls ++ (appended holder log calls).map (·.location)).Nodup) {channelId : String}
    {view view' : ChannelView} (hview : channel holder log channelId = .ok view)
    (hview' : channel holder (run holder log calls) channelId = .ok view')
    (hknown : view.replay.kind ≠ .unknown) : view'.replay.kind = view.replay.kind := by
  obtain ⟨old, hold, rfl⟩ := exists_of_channel hview
  obtain ⟨found, hfound, rfl⟩ := exists_of_channel hview'
  rw [run_eq] at hfound
  obtain ⟨more, rfl⟩ := h.prefix_of_transactionsOf (h.grown_run hdistinct) hdistinct hold hfound
  rw [List.map_append, Replay.ofHistory_append hknown]

end Ledger

end ChannelLog
