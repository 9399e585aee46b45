import ChannelLog.Block
import ChannelLog.Settings
import ChannelLog.TopicIndex

/-!
# The log

A log serves a store of blocks by topic. It has to be started once, which reads all blocks to build
the topic index. Every persisted transaction goes into a block of its own; the block is indexed
only after it was appended.

Starting and persisting are made of steps between which others may act on the same log:
`claim`, `buildIndex` and `settle`; `ensureReady`, `append` and `record`.
-/

namespace ChannelLog

/-! ## Errors -/

inductive Corruption where
  /-- It does not read as a block; how it fails to is not told. -/
  | unreadable
  | defect (d : Block.Defect)
deriving DecidableEq

def Corruption.message : Corruption → String
  | unreadable => "<json>"
  | defect d => d.message

inductive LogError where
  | notInitialized
  | alreadyInitialized
  | corrupted (location : Location) (reason : Corruption)
  | storage (cause : StorageError)
  | signing (cause : SigningError)
deriving DecidableEq

def LogError.message : LogError → String
  | notInitialized => "DataAccess must be initialized"
  | alreadyInitialized => "DataAccess already initialized"
  | corrupted location reason =>
    "Corrupted block at location " ++ location ++ ": " ++ reason.message
  | storage cause => cause.message
  | signing cause => cause.message

def ofStorage {α : Type} : Except StorageError α → Except LogError α
  | .ok a => .ok a
  | .error e => .error (.storage e)

def ofSigning {α : Type} : Except SigningError α → Except LogError α
  | .ok a => .ok a
  | .error e => .error (.signing e)

/-! ## State -/

/-- What a log can do at the moment. -/
inductive Phase where
  | uninitialized
  | initializing
  | ready (index : TopicIndex)

/-- A log over the store `store`. -/
structure Log (σ : Type) where
  store : σ
  settings : LogSettings
  phase : Phase

/-- Operations of a log: what they changed before they failed stays changed. -/
abbrev LogM (σ : Type) := EStateM LogError (Log σ)

def LogM.lift {σ α : Type} : Except LogError α → LogM σ α
  | .ok a => pure a
  | .error e => throw e

/-- A block read from the store. -/
structure LoadedBlock where
  location : Location
  block : Block
  details : StorageMeta

/-- A transaction found, and where. -/
structure Found where
  transaction : Transaction
  location : Location
  details : StorageMeta
deriving DecidableEq

/-- The transaction with the time of its append. -/
def Found.confirmed (f : Found) : Confirmed := ⟨f.transaction, f.details.timestamp⟩

/-- What became of a persisted transaction: its block's place and all topics of the block. -/
structure Persisted where
  location : Location
  details : StorageMeta
  topics : List String
deriving DecidableEq

namespace Log

variable {σ : Type} [Store σ]

/-- A log that was not started yet. -/
def ofStore (store : σ) (settings : LogSettings) : Log σ := ⟨store, settings, .uninitialized⟩

def isReady (log : Log σ) : Bool :=
  match log.phase with
  | .ready _ => true
  | _ => false

/-! ## Reading blocks -/

/-- The block that a stored text holds. -/
def checkBlock (content : String) : Except Corruption Block :=
  match Block.ofText? content with
  | none => .error .unreadable
  | some block => match block.validate with
    | .error d => .error (.defect d)
    | .ok () => .ok block

def readBlock (store : σ) (location : Location) : Except LogError LoadedBlock := do
  let stored ← ofStorage (Store.read store location)
  match checkBlock stored.content with
  | .error reason => .error (.corrupted location reason)
  | .ok block => return ⟨location, block, stored.details⟩

/-- Reads the blocks at `locations`, `readers` at a time, and gives them in that order. Of several
that fail the first is reported. -/
def readBlocks (store : σ) (readers : Nat) (locations : List Location) :
    Except LogError (List LoadedBlock) :=
  match locations with
  | [] => .ok []
  | first :: rest => do
    let batch ← (first :: rest.take (readers - 1)).mapM (readBlock store)
    let others ← readBlocks store readers (rest.drop (readers - 1))
    return batch ++ others
termination_by locations.length

/-! ## Starting -/

/-- First step of starting: no one else may start the log. -/
def claim : LogM σ Unit := do
  match (← get).phase with
  | .uninitialized => modify fun log => { log with phase := .initializing }
  | _ => throw .alreadyInitialized

/-- The index of everything in the store. -/
def buildIndex (store : σ) (settings : LogSettings) : Except LogError TopicIndex := do
  let locations ← ofStorage (Store.locations store)
  let blocks ← readBlocks store settings.readConcurrency locations
  return blocks.foldl (fun index b => index.push b.location b.block.topics) .empty

/-- Last step of starting: the index is put to use, or the log is given back. -/
def settle : Except LogError TopicIndex → LogM σ Unit
  | .ok index => modify fun log => { log with phase := .ready index }
  | .error e => do
    modify fun log => { log with phase := .uninitialized }
    throw e

def start : LogM σ Unit := do
  claim
  let log ← get
  settle (buildIndex log.store log.settings)

/-! ## Persisting -/

/-- First step of persisting. -/
def ensureReady : LogM σ Unit := do
  if !(← get).isReady then throw .notInitialized

/-- Appends a text to the store. -/
def append (now : UInt64) (content : String) : LogM σ Appended := do
  let log ← get
  let (appended, store) ← LogM.lift (ofStorage (Store.append log.store now content))
  set { log with store }
  return appended

/-- Last step of persisting: enters a block into the index. -/
def record (location : Location) (topics : List String) : LogM σ Unit := do
  match (← get).phase with
  | .ready index => modify fun log => { log with phase := .ready (index.push location topics) }
  | _ => throw .notInitialized

/-- Signs a content and appends it in a block of its own, under the topics given and its content
hash. -/
def persist (now : UInt64) (content : Content) (signer : SignatureParameters)
    (topics : List String) : LogM σ Persisted := do
  ensureReady
  let transaction ← LogM.lift (ofSigning (Transaction.create content signer))
  let block := Block.empty.push transaction topics
  let appended ← append now block.text
  record appended.location block.topics
  return ⟨appended.location, appended.details, block.topics⟩

/-! ## Retrieving -/

def locationsOf (log : Log σ) (topic : String) : Except LogError (List Location) :=
  match log.phase with
  | .ready index => .ok (index.locations topic)
  | _ => .error .notInitialized

/-- The transactions of a topic in the order in which they were appended. -/
def transactionsOf (log : Log σ) (topic : String) : Except LogError (List Found) := do
  let blocks ← readBlocks log.store log.settings.readConcurrency (← log.locationsOf topic)
  return blocks.flatMap fun b =>
    (b.block.transactionsAt (b.block.positions topic)).map fun t => ⟨t, b.location, b.details⟩

end Log

end ChannelLog
