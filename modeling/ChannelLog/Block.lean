import ChannelLog.Transaction

/-!
# Blocks

A block holds transactions in the order in which they were appended, and says for each topic at
which positions the transactions of that topic stand. Every transaction is listed under its own
content hash.
-/

namespace ChannelLog

open Json.Source (required? text? natural? list? dict?)

def currentVersion : String := "0.1.0"

structure Header where
  version : String
  index : Dict (List Nat)
deriving DecidableEq

namespace Header

def toJson (h : Header) : Json :=
  .object [("version", .string h.version),
    ("index", .ofDict (fun positions => .array (positions.map .ofNat)) h.index)]

def ofSource? (s : Json.Source) : Option Header := do
  match ← s.fields? ["version", "index"] with
  | [version, index] =>
    return ⟨← required? text? version, ← required? (dict? (list? natural?)) index⟩
  | _ => none

end Header

structure Block where
  header : Header
  transactions : List Transaction
deriving DecidableEq

namespace Block

def empty : Block := ⟨⟨currentVersion, ∅⟩, []⟩

/-! ## Appending -/

/-- Lists `position` last under `topic`, unless it is there already. -/
def register (position : Nat) (index : Dict (List Nat)) (topic : String) : Dict (List Nat) :=
  let positions := (index.get? topic).getD []
  if positions.getLast? = some position then index
  else index.insert topic (positions ++ [position])

/-- The block with one more transaction, listed under `topics` and its content hash. -/
def push (b : Block) (t : Transaction) (topics : List String) : Block where
  header := { b.header with
    index := (topics ++ [t.contentHash]).foldl (register b.transactions.length) b.header.index }
  transactions := b.transactions ++ [t]

/-! ## Looking up -/

def topics (b : Block) : List String := b.header.index.keys

def positions (b : Block) (topic : String) : List Nat := (b.header.index.get? topic).getD []

/-- The positions as a set, which is gone through in ascending order. -/
def ascending (positions : List Nat) : List Nat := positions.mergeSort.eraseReps

/-- The transactions at the positions, ascending and each once. Positions beyond the end have none. -/
def transactionsAt (b : Block) (positions : List Nat) : List Transaction :=
  (ascending positions).filterMap (b.transactions[·]?)

/-- The positions listed under any of the topics, ascending. -/
def positionsOfAny (b : Block) (topics : List String) : List Nat :=
  ascending (topics.flatMap b.positions)

/-! ## Checking -/

inductive Defect where
  | missingVersion
  | positionOutOfRange (topic : String) (position count : Nat)
  | positionTwice (topic : String) (position : Nat)
deriving DecidableEq, Repr

def Defect.message : Defect → String
  | missingVersion => "missing header version"
  | positionOutOfRange topic position count =>
    "topic " ++ topic ++ " references position " ++ toString position ++ " but block has "
      ++ toString count ++ " transactions"
  | positionTwice topic position =>
    "topic " ++ topic ++ " lists position " ++ toString position ++ " twice"

/-- Goes through the positions of a topic, of which `seen` were listed before. -/
def checkPositions (topic : String) (count : Nat) (seen : List Nat) :
    List Nat → Except Defect Unit
  | [] => .ok ()
  | position :: rest =>
    if count ≤ position then .error (.positionOutOfRange topic position count)
    else if position ∈ seen then .error (.positionTwice topic position)
    else checkPositions topic count (position :: seen) rest

/-- A block has a version, and each topic lists positions of transactions, none twice. The first
defect is reported. -/
def validate (b : Block) : Except Defect Unit :=
  if b.header.version = "" then .error .missingVersion
  else b.header.index.entries.forM fun (topic, positions) =>
    checkPositions topic b.transactions.length [] positions

/-! ## Text -/

def toJson (b : Block) : Json :=
  .object [("header", b.header.toJson), ("transactions", .array (b.transactions.map (·.toJson)))]

/-- Reads a block; its transactions lie inside three of the levels that may be nested. -/
def ofSource? (s : Json.Source) : Option Block := do
  match ← s.fields? ["header", "transactions"] with
  | [header, transactions] =>
    return ⟨← required? Header.ofSource? header,
      ← required? (list? (Transaction.ofSource? (Json.depthLimit - 3))) transactions⟩
  | _ => none

def text (b : Block) : String := b.toJson.text

def ofText? (s : String) : Option Block := do ofSource? (← Json.Source.ofText? s)

end Block

end ChannelLog
