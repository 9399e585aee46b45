import ChannelLog.ChannelState
import ChannelLog.Proofs.Ledger.Steps

/-!
# An encrypted channel has its key

A channel that is replayed field by field is replayed as one whose type, key and method are in one
kind.

* `ChannelState.coherent_iff`: the states in which key and method are there exactly if the channel is
  encrypted are those of the kinds, each of one kind (`ofKind_injective`).
* `ChannelState.process_ofKind`, `replay_ofKind`, `identify_initial`: one transaction, a history, and a
  history up to the origin. So every state that is reached is coherent (`coherent_replay`).
* `ChannelState.contentForExisting_eq`: **what is appended to a channel is what a ledger appends**, and
  the key of an encrypted channel is never missing (`contentForExisting_ne_unavailable`).
-/

namespace ChannelLog.ChannelState

variable {σ κ : Type} [Store σ] [KeyHolder κ]

/-! ## States and kinds -/

/-- Type, key and method of a kind. -/
def ofKind (kind : ChannelKind) : ChannelState := ⟨kind.type, kind.key?, kind.method?⟩

theorem ofKind_ofOrigin (brought : Option Encryption) :
    ofKind (.ofOrigin brought) = ofOrigin brought := by
  cases brought <;> rfl

/-- Key and method are there exactly if the channel is encrypted. -/
structure Coherent (state : ChannelState) : Prop where
  key : state.key.isSome ↔ state.type = .encrypted
  method : state.method.isSome ↔ state.type = .encrypted

theorem coherent_ofKind (kind : ChannelKind) : (ofKind kind).Coherent := by
  cases kind <;> exact ⟨by simp [ofKind, ChannelKind.key?, ChannelKind.type],
    by simp [ofKind, ChannelKind.method?, ChannelKind.type]⟩

/-- **The coherent states are those of the kinds.** -/
theorem coherent_iff {state : ChannelState} : state.Coherent ↔ ∃ kind, ofKind kind = state := by
  constructor
  · rintro ⟨hkey, hmethod⟩
    obtain ⟨type, key, method⟩ := state
    cases type with
    | unknown =>
      obtain rfl : key = none := by simpa using hkey
      obtain rfl : method = none := by simpa using hmethod
      exact ⟨.unknown, rfl⟩
    | clear =>
      obtain rfl : key = none := by simpa using hkey
      obtain rfl : method = none := by simpa using hmethod
      exact ⟨.clear, rfl⟩
    | encrypted =>
      obtain ⟨k, rfl⟩ := Option.isSome_iff_exists.1 (hkey.2 rfl)
      obtain ⟨m, rfl⟩ := Option.isSome_iff_exists.1 (hmethod.2 rfl)
      exact ⟨.encrypted ⟨k, m⟩, rfl⟩
  · rintro ⟨kind, rfl⟩
    exact coherent_ofKind kind

theorem ofKind_injective : Function.Injective ofKind := by
  intro a b h
  obtain ⟨htype, hkey, hmethod⟩ := ChannelState.mk.inj h
  cases a <;> cases b <;> try cases htype
  · rfl
  · rfl
  · next e e' =>
    obtain ⟨key, method⟩ := e
    obtain ⟨key', method'⟩ := e'
    obtain rfl : key = key' := Option.some.inj hkey
    obtain rfl : method = method' := Option.some.inj hmethod
    rfl

/-! ## Replaying -/

theorem process_ofKind (holder : Option κ) (id : String) (kind : ChannelKind) (t : Transaction) :
    process holder id (ofKind kind) t
      = (Replay.judge holder id kind t).map fun (validated, kind) => (validated, ofKind kind) := by
  change _ = (fun (validated, kind) => (validated, ofKind kind)) <$> Replay.judge holder id kind t
  rw [process, Replay.judge, map_bind]
  -- parsing and validation are the same, so that only what is known afterwards is left to compare
  refine bind_congr fun parsed => ?_
  rw [map_bind]
  refine bind_congr fun validated => ?_
  cases kind with
  | clear | encrypted => rfl
  | unknown =>
    by_cases hid : validated.hash = id
    · simp only [hid, ofKind, ChannelKind.type, if_true, ne_eq, not_true, if_false, map_pure,
        ← ofKind_ofOrigin]
    · simp only [hid, ofKind, ChannelKind.type, if_true, ne_eq, not_false_eq_true, if_false]
      rfl

/-- **A history is replayed from a state as from its kind.** -/
theorem replay_ofKind (holder : Option κ) (id : String) (kind : ChannelKind)
    (history : List Confirmed) : replay holder id (ofKind kind) history
      = (ofKind (Replay.resume holder id kind history).kind,
        (Replay.resume holder id kind history).entries) := by
  induction history generalizing kind with
  | nil => rfl
  | cons c rest ih =>
    rw [replay, process_ofKind, Replay.resume_cons, Replay.step]
    cases Replay.judge holder id kind c.transaction with
    | error reason => simp only [Except.map, ih]
    | ok judged => simp only [Except.map, ih]

/-- **The state after a history is coherent**: no channel is encrypted without a key. -/
theorem coherent_replay (holder : Option κ) (id : String) (history : List Confirmed) :
    (replay holder id initial history).1.Coherent := by
  have hreplay := replay_ofKind holder id .unknown history
  exact coherent_iff.2 ⟨_, (congrArg Prod.fst hreplay).symm⟩

theorem identify_known {state : ChannelState} (h : state.type ≠ .unknown) (holder : Option κ)
    (id : String) (history : List Confirmed) : identify holder id state history = state := by
  cases history with
  | nil => rfl
  | cons c rest => rw [identify, if_pos h]

theorem identify_initial (holder : Option κ) (id : String) (history : List Confirmed) :
    identify holder id initial history = ofKind (Replay.kindOf holder id history) := by
  induction history with
  | nil => rfl
  | cons c rest ih =>
    have hprocess : process holder id initial c.transaction = _ :=
      process_ofKind holder id .unknown c.transaction
    rw [identify, if_neg (fun h => h rfl), hprocess, Replay.kindOf, Replay.step]
    cases Replay.judge holder id .unknown c.transaction with
    | error reason => exact ih
    | ok judged =>
      obtain ⟨validated, kind⟩ := judged
      cases kind with
      | unknown => exact ih
      | clear | encrypted => exact identify_known (by simp [ofKind, ChannelKind.type]) holder id rest

/-! ## Writing -/

/-- **What is appended to a channel that is there already is what a ledger appends.** -/
theorem contentForExisting_eq (holder : Option κ) (log : Log σ) (nonce : Nonce) (payload : Json)
    (id : String) (recipients : List Recipient) :
    contentForExisting holder log nonce payload id recipients
      = (Ledger.contentForExisting holder log nonce payload id recipients).mapError .ledger := by
  rw [contentForExisting, Ledger.contentForExisting]
  cases Ledger.history log id with
  | error e => rfl
  | ok past =>
    simp only [identify_initial, bind, Except.bind]
    cases Replay.kindOf holder id past with
    | unknown => rfl
    | clear | encrypted => cases recipients <;> rfl

theorem contentForExisting_ne_unavailable (holder : Option κ) (log : Log σ) (nonce : Nonce)
    (payload : Json) (id other : String) (recipients : List Recipient) :
    contentForExisting holder log nonce payload id recipients
      ≠ .error (.channelKeyUnavailable other) := by
  rw [contentForExisting_eq]
  cases Ledger.contentForExisting holder log nonce payload id recipients <;> simp [Except.mapError]

end ChannelLog.ChannelState
