import ChannelLog.Bytes.Hex
import ChannelLog.Crypto.Keccak
import ChannelLog.Json.Record
import ChannelLog.Text.Quoted

/-!
# Stores

A store keeps the texts appended to it under locations that it makes up, and lists the locations in
the order of the appends. Locations are hashes of the number of the append and the text, so that
equal texts appended twice stay apart.
-/

namespace ChannelLog

open Json.Source (required? natural? choice?)

/-! ## Locations -/

abbrev Location := String

/-- The location of a text that `sequence` others precede. -/
def blockLocation (sequence : Nat) (content : String) : Location :=
  Hex.encode (Keccak.hash (Bytes.ofNat 8 sequence ++ Bytes.utf8 content))

/-- Sixty-four digits of the small hexadecimal ones. -/
def isLocation (cs : List Char) : Bool :=
  cs.length == 64 && cs.all fun c => c.isDigit || ('a' ≤ c && c ≤ 'f')

/-! ## What is known of an entry -/

inductive StorageType where
  | inMemory
  | file
deriving DecidableEq, Repr

namespace StorageType

def name : StorageType → String
  | inMemory => "in-memory"
  | file => "file"

def ofSource? : Json.Source → Option StorageType :=
  choice? [(inMemory.name, inMemory), (file.name, file)]

end StorageType

/-- The kind of store, the length of the text in bytes, and when it was appended. -/
structure StorageMeta where
  storageType : StorageType
  size : Nat
  timestamp : UInt64
deriving DecidableEq, Repr

namespace StorageMeta

def ofSource? (s : Json.Source) : Option StorageMeta := do
  match ← s.fields? ["storageType", "size", "timestamp"] with
  | [type, size, timestamp] =>
    return ⟨← required? StorageType.ofSource? type, ← required? natural? size,
      UInt64.ofNat (← required? natural? timestamp)⟩
  | _ => none

def toJson (m : StorageMeta) : Json :=
  .object [("storageType", .string m.storageType.name), ("size", .ofNat m.size),
    ("timestamp", .ofNat m.timestamp.toNat)]

end StorageMeta

structure Appended where
  location : Location
  details : StorageMeta
deriving DecidableEq

structure Stored where
  content : String
  details : StorageMeta
deriving DecidableEq

/-! ## Errors -/

/-- Why a store failed. -/
inductive StorageError where
  | notFound (location : Location)
  | invalidLocation (location : Location)
  /-- The medium failed. -/
  | io (reason : String)
  /-- The manifest has the location, but its file is gone. -/
  | missingBlock (location : Location)
  /-- A line of the manifest, counted from one, is no entry. -/
  | malformedLine (number : Nat) (line : String)
deriving DecidableEq, Repr

def StorageError.message : StorageError → String
  | notFound location => "No content stored at location " ++ location
  | invalidLocation location => "Invalid location: " ++ location
  | io reason => "Storage I/O error: " ++ reason
  | missingBlock location =>
    "Storage backend error: manifest lists " ++ location ++ " but its block file is missing"
  | malformedLine number line =>
    "Storage backend error: malformed manifest line " ++ toString number ++ ": "
      ++ Text.quoted line

/-! ## The interface -/

/-- What the log needs of a store. An append that fails has no effect. -/
class Store (σ : Type) where
  append : σ → (now : UInt64) → (content : String) → Except StorageError (Appended × σ)
  read : σ → Location → Except StorageError Stored
  /-- All locations, in the order of the appends. -/
  locations : σ → Except StorageError (List Location)

end ChannelLog
