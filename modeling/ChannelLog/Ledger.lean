import ChannelLog.Channel.Replay
import ChannelLog.Channel.Writing
import ChannelLog.Keyring
import ChannelLog.Log

/-!
# The ledger

A ledger writes payloads into channels of a log and reads channels back. The id of a channel is the
fingerprint of its first payload, so a payload with that fingerprint opens the channel; any other
payload goes into a channel that is already there, clear or encrypted as the channel is. The private
keys that channels are read with are in a keyring, or with some other key holder.
-/

namespace ChannelLog

/-! ## Errors and results -/

inductive LedgerError where
  | channelNotFound (id : String)
  /-- Recipients were given for a channel that is already there. -/
  | stakeholderChangeRejected (id : String)
  | encryption (cause : EncryptionError)
  | log (cause : LogError)
deriving DecidableEq

def LedgerError.message : LedgerError → String
  | channelNotFound id => "Impossible to retrieve the channel: " ++ id
  | stakeholderChangeRejected id => "Impossible to add new stakeholder to channel " ++ id
  | encryption cause => cause.message
  | log cause => cause.message

/-- A payload to be written into a channel. -/
structure WriteRequest where
  payload : Json
  channelId : String
  topics : List String
  recipients : List Recipient
  signer : SignatureParameters

/-- What became of it. -/
structure WriteReceipt where
  channelId : String
  location : Location
  details : StorageMeta
  /-- The method, if the payload was encrypted. -/
  encryptionMethod : Option String
  topics : List String
deriving DecidableEq

/-- A channel replayed, and where the transactions of its history are stored. -/
structure ChannelView where
  replay : Replay
  places : List (Location × StorageMeta)
deriving DecidableEq

abbrev LedgerM (σ : Type) := EStateM LedgerError (Log σ)

namespace LedgerM

variable {σ α : Type}

/-- A result that leaves the log as it is. -/
def lift : Except LedgerError α → LedgerM σ α
  | .ok a => pure a
  | .error e => throw e

def ofLog (x : LogM σ α) : LedgerM σ α := fun log =>
  match x log with
  | .ok a log => .ok a log
  | .error e log => .error (.log e) log

end LedgerM

namespace Ledger

variable {σ κ : Type} [Store σ] [KeyHolder κ]

/-- Channel ids are compared in small letters. -/
def normalizeId (id : String) : String := Text.asciiLowerCase id

def history (log : Log σ) (id : String) : Except LedgerError (List Confirmed) :=
  match log.transactionsOf id with
  | .error e => .error (.log e)
  | .ok found => .ok (found.map (·.confirmed))

/-! ## Writing -/

/-- The content to append to the channel `id`, which should be there, and the encryption method if
the content is encrypted. -/
def contentForExisting (holder : Option κ) (log : Log σ) (nonce : Nonce) (payload : Json)
    (id : String) (recipients : List Recipient) :
    Except LedgerError (Content × Option String) := do
  match Replay.kindOf holder id (← history log id) with
  | .unknown => throw (.channelNotFound id)
  | kind =>
    if !recipients.isEmpty then throw (.stakeholderChangeRejected id)
    else match kind with
      | .encrypted e => return (.encrypted payload e.key nonce, some channelEncryptionMethod)
      | _ => return (.clear payload, none)

/-- The content to append for a request to the channel `id`, and the encryption method if the
content is encrypted. -/
def contentFor (holder : Option κ) (log : Log σ) (draw : ChannelDraw)
    (request : WriteRequest) (id : String) : Except LedgerError (Content × Option String) :=
  if request.payload.fingerprint ≠ id then
    contentForExisting holder log draw.nonce request.payload id request.recipients
  else if request.recipients.isEmpty then .ok (.clear request.payload, none)
  else match Content.firstEncrypted request.payload request.recipients draw with
    | .error e => .error (.encryption e)
    | .ok content => .ok (content, content.encryptionMethod)

/-- Writes a payload into a channel. -/
def persist (holder : Option κ) (now : UInt64) (draw : ChannelDraw)
    (request : WriteRequest) : LedgerM σ WriteReceipt := do
  let id := normalizeId request.channelId
  let (content, method) ← LedgerM.lift (contentFor holder (← get) draw request id)
  let topics := id :: request.topics.filter (· ≠ id)
  let persisted ← LedgerM.ofLog (Log.persist now content request.signer topics)
  return ⟨id, persisted.location, persisted.details, method, topics⟩

/-! ## Reading -/

def channel (holder : Option κ) (log : Log σ) (channelId : String) :
    Except LedgerError ChannelView :=
  let id := normalizeId channelId
  match log.transactionsOf id with
  | .error e => .error (.log e)
  | .ok found => .ok {
      replay := .ofHistory holder id (found.map (·.confirmed))
      places := found.map fun f => (f.location, f.details) }

end Ledger

end ChannelLog
