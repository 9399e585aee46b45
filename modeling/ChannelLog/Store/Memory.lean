import ChannelLog.Store

/-!
# The store in memory
-/

namespace ChannelLog

/-- Entries by location, and the locations in the order of the appends. -/
structure MemoryStore where
  entries : Dict Stored
  order : List Location

namespace MemoryStore

def empty : MemoryStore := ⟨∅, []⟩

def append (s : MemoryStore) (now : UInt64) (content : String) : Appended × MemoryStore :=
  let location := blockLocation s.order.length content
  let details : StorageMeta := ⟨.inMemory, content.utf8ByteSize, now⟩
  (⟨location, details⟩, ⟨s.entries.insert location ⟨content, details⟩, s.order ++ [location]⟩)

def read (s : MemoryStore) (location : Location) : Except StorageError Stored :=
  match s.entries.get? location with
  | some entry => .ok entry
  | none => .error (.notFound location)

instance : Store MemoryStore where
  append s now content := .ok (s.append now content)
  read := read
  locations s := .ok s.order

end MemoryStore

end ChannelLog
