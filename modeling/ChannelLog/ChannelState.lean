import ChannelLog.Ledger

/-!
# Channels field by field

What is carried along a history, with type, key and method of the channel apart, where `ChannelKind`
has them in one. Nothing about a state keeps an encrypted channel from being without its key, so that
to write into it may fail for want of the key.
-/

namespace ChannelLog

/-- What is known of a channel after some of its history. -/
structure ChannelState where
  type : ChannelType
  key : Option ChannelKey
  method : Option String
deriving DecidableEq

inductive AppendError where
  | ledger (cause : LedgerError)
  | channelKeyUnavailable (id : String)
deriving DecidableEq

def AppendError.message : AppendError → String
  | ledger cause => cause.message
  | channelKeyUnavailable id => "Impossible to decrypt the channel key of: " ++ id

namespace ChannelState

variable {σ κ : Type} [Store σ] [KeyHolder κ]

def initial : ChannelState := ⟨.unknown, none, none⟩

/-- After the origin, which may bring an encryption. -/
def ofOrigin (brought : Option Encryption) : ChannelState where
  type := if (brought.map (·.key)).isSome then .encrypted else .clear
  key := brought.map (·.key)
  method := brought.map (·.method)

/-- Judges one transaction; also gives the state afterwards. -/
def process (holder : Option κ) (id : String) (state : ChannelState) (t : Transaction) :
    Except IgnoreReason (Validated × ChannelState) := do
  let parsed ← (parse holder state.type state.key t).mapError .parse
  let validated ← parsed.validate.mapError .validation
  if state.type = .unknown then
    if validated.hash ≠ id then throw .channelMismatch
    else return (validated, ofOrigin parsed.brought)
  else return (validated, state)

/-- Goes through a history. Gives the state at its end and what became of each transaction. -/
def replay (holder : Option κ) (id : String) (state : ChannelState) :
    List Confirmed → ChannelState × List ReplayEntry
  | [] => (state, [])
  | c :: rest =>
    match process holder id state c.transaction with
    | .ok (validated, next) =>
      let (last, entries) := replay holder id next rest
      (last, .valid validated.data c.timestamp :: entries)
    | .error reason =>
      let (last, entries) := replay holder id state rest
      (last, .ignored reason c :: entries)

/-- Goes through a history until the type is known. -/
def identify (holder : Option κ) (id : String) (state : ChannelState) :
    List Confirmed → ChannelState
  | [] => state
  | c :: rest =>
    if state.type ≠ .unknown then state
    else match process holder id state c.transaction with
      | .ok (_, next) => identify holder id next rest
      | .error _ => identify holder id state rest

/-- The content to append to the channel `id`, which is in the state given, and the encryption method
if the content is encrypted. -/
def content (state : ChannelState) (nonce : Nonce) (payload : Json) (id : String)
    (recipients : List Recipient) : Except AppendError (Content × Option String) :=
  match state.type with
  | .unknown => .error (.ledger (.channelNotFound id))
  | type =>
    if !recipients.isEmpty then .error (.ledger (.stakeholderChangeRejected id))
    else match type, state.key with
      | .encrypted, none => .error (.channelKeyUnavailable id)
      | .encrypted, some key => .ok (.encrypted payload key nonce, some channelEncryptionMethod)
      | _, _ => .ok (.clear payload, none)

def contentForExisting (holder : Option κ) (log : Log σ) (nonce : Nonce) (payload : Json)
    (id : String) (recipients : List Recipient) : Except AppendError (Content × Option String) :=
  match Ledger.history log id with
  | .error e => .error (.ledger e)
  | .ok past => (identify holder id initial past).content nonce payload id recipients

end ChannelState

end ChannelLog
