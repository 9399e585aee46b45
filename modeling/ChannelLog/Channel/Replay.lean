import ChannelLog.Channel.Validation

/-!
# Replaying channels

The history of a channel is every confirmed transaction stored under its id, by whomever. Replaying
it goes through the history once. The first transaction that parses, is valid and has the channel's
id as its fingerprint is the origin: it decides the kind of the channel, and with it how all later
ones are parsed. Everything before the origin, and everything after it that does not parse or is not
valid, is ignored, which changes nothing for the others.
-/

namespace ChannelLog

/-- Why a transaction is left out of a channel. -/
inductive IgnoreReason where
  | parse (cause : ParseError)
  | validation (cause : ValidationError)
  /-- The channel has no origin yet, and the transaction is another channel's. -/
  | channelMismatch
deriving DecidableEq

def IgnoreReason.message : IgnoreReason → String
  | parse cause => cause.message
  | validation cause => cause.message
  | channelMismatch => "first transaction hash does not match channel id"

/-- What became of one transaction of the history. -/
inductive ReplayEntry where
  | valid (data : Json) (timestamp : UInt64)
  | ignored (reason : IgnoreReason) (transaction : Confirmed)
deriving DecidableEq

/-- The kind of a channel and an entry for each transaction of its history. -/
structure Replay where
  kind : ChannelKind
  entries : List ReplayEntry
deriving DecidableEq

namespace ReplayEntry

def isValid : ReplayEntry → Bool
  | valid _ _ => true
  | ignored _ _ => false

end ReplayEntry

namespace Replay

variable {κ : Type} [KeyHolder κ]

/-- Judges one transaction in a channel of the kind given; also gives the kind afterwards. -/
def judge (holder : Option κ) (id : String) (kind : ChannelKind) (t : Transaction) :
    Except IgnoreReason (Validated × ChannelKind) := do
  let parsed ← (parse holder kind.type kind.key? t).mapError .parse
  let validated ← parsed.validate.mapError .validation
  match kind with
  | .unknown =>
    if validated.hash = id then return (validated, .ofOrigin parsed.brought)
    else throw .channelMismatch
  | kind => return (validated, kind)

/-- The entry of one transaction and the kind afterwards. -/
def step (holder : Option κ) (id : String) (kind : ChannelKind) (c : Confirmed) :
    ReplayEntry × ChannelKind :=
  match judge holder id kind c.transaction with
  | .ok (validated, kind) => (.valid validated.data c.timestamp, kind)
  | .error reason => (.ignored reason c, kind)

/-- Replays a history in a channel that has the kind given so far. -/
def resume (holder : Option κ) (id : String) (kind : ChannelKind) :
    List Confirmed → Replay
  | [] => ⟨kind, []⟩
  | c :: rest =>
    let (entry, kind) := step holder id kind c
    let replay := resume holder id kind rest
    { replay with entries := entry :: replay.entries }

/-- Replays the history of the channel `id`. -/
def ofHistory (holder : Option κ) (id : String) (history : List Confirmed) : Replay :=
  resume holder id .unknown history

/-- The kind of the channel `id`, for which the history is followed only up to its origin. -/
def kindOf (holder : Option κ) (id : String) : List Confirmed → ChannelKind
  | [] => .unknown
  | c :: rest => match (step holder id .unknown c).2 with
    | .unknown => kindOf holder id rest
    | kind => kind

/-! ## Views -/

/-- At each place of the history the payload and the time, if the transaction is valid. -/
def validEntries (r : Replay) : List (Option (Json × UInt64)) :=
  r.entries.map fun
    | .valid data timestamp => some (data, timestamp)
    | .ignored _ _ => none

/-- At each place of the history the reason and the transaction, if it is ignored. -/
def ignoredEntries (r : Replay) : List (Option (IgnoreReason × Confirmed)) :=
  r.entries.map fun
    | .valid _ _ => none
    | .ignored reason c => some (reason, c)

def validCount (r : Replay) : Nat := r.entries.countP (·.isValid)

def ignoredCount (r : Replay) : Nat := r.entries.countP (!·.isValid)

end Replay

end ChannelLog
