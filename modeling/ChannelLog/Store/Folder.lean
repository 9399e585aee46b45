import ChannelLog.Store.Manifest

/-!
# The store in a folder

Each entry is a file named after its location, and the manifest fixes their order. A file is
written under another name first and then renamed, so that a block file is complete or not there;
one that the manifest does not list is not seen.
-/

namespace ChannelLog

/-! ## Folders -/

/-- The files of a folder by name. -/
abbrev Folder := Dict Bytes

namespace Folder

/-- Gives a file another name, in place of a file that has it. -/
def rename (f : Folder) (old new : String) : Folder :=
  match f.get? old with
  | none => f
  | some content => (f.erase old).insert new content

/-- Writes at the end of a file, which need not exist. -/
def writeAtEnd (f : Folder) (name : String) (content : Bytes) : Folder :=
  f.insert name ((f.get? name).getD [] ++ content)

/-- The text of a file, if the file is there. -/
def readText? (f : Folder) (name : String) : Except StorageError (Option String) :=
  match f.get? name with
  | none => .ok none
  | some content => match Bytes.text? content with
    | none => .error (.io "stream did not contain valid UTF-8")
    | some text => .ok (some text)

end Folder

/-! ## The store -/

/-- A folder and what its manifest said when it was opened, with the appends since. -/
structure FolderStore where
  folder : Folder
  manifest : Manifest

namespace FolderStore

def manifestName : String := "locations.log"

def blockName (location : Location) : String := location ++ ".json"

def unfinishedName (location : Location) : String := location ++ ".json.tmp"

/-- Opens a folder; without a manifest it has no entries. -/
def ofFolder (folder : Folder) : Except StorageError FolderStore := do
  match ← folder.readText? manifestName with
  | none => return ⟨folder, .empty⟩
  | some text => return ⟨folder, ← Manifest.ofText text⟩

def append (s : FolderStore) (now : UInt64) (content : String) : Appended × FolderStore :=
  let location := blockLocation s.manifest.order.length content
  let unfinished : Folder := s.folder.insert (unfinishedName location) (Bytes.utf8 content)
  let finished := unfinished.rename (unfinishedName location) (blockName location)
  let line := Bytes.utf8 (Manifest.line location now)
  (⟨location, ⟨.file, content.utf8ByteSize, now⟩⟩,
    ⟨finished.writeAtEnd manifestName line, s.manifest.record location now⟩)

def read (s : FolderStore) (location : Location) : Except StorageError Stored :=
  if !isLocation location.toList then .error (.invalidLocation location)
  else match s.manifest.timestamps.get? location with
    | none => .error (.notFound location)
    | some timestamp => do
      match ← s.folder.readText? (blockName location) with
      | none => .error (.missingBlock location)
      | some content => return ⟨content, .file, content.utf8ByteSize, timestamp⟩

instance : Store FolderStore where
  append s now content := .ok (s.append now content)
  read := read
  locations s := .ok s.manifest.order

end FolderStore

end ChannelLog
