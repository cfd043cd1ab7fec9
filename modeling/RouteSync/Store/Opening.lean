import RouteSync.FileTree
import RouteSync.Settings.Basic
import RouteSync.Store
import RouteSync.Text.Integer
import RouteSync.Text.Split

/-!
# Opening the store

A store in memory needs nothing.  The embedded database is a directory of its own below the configured
one: a note of the format, the data, a directory for long values and snapshots.  It cannot be opened
where that directory cannot be made, or where something else stands under one of those names.
-/

namespace RouteSync

open RouteSync.Text

/-- The directory of the database inside the configured one. -/
def databaseName : String := "upstream"

/-! ### The note of the format -/

namespace DatabaseNote

def fileName : String := "conf"

/-- The name under which the note is written before it takes its place. -/
def draftName : String := "conf.tmp"

/-- A note that is no longer than this counts as not written, in bytes. -/
def maxBlank : Nat := 8

/-- The length of the checksum at the end of the note, in bytes.  A wrong checksum is let pass. -/
def checksumSize : Nat := 4

/-- Drops bytes from the beginning of a text; they have to be whole characters. -/
def dropBytes : List Char → Nat → Option (List Char)
  | s, 0 => some s
  | [], _ => none
  | c :: s, n => if c.utf8Size ≤ n then dropBytes s (n - c.utf8Size) else none

/-- The lines of the note before its checksum; a line may end with a return as well. -/
def lines? (content : String) : Option (List (List Char)) := do
  let s := (← dropBytes content.toList.reverse checksumSize).reverse
  let l := splitAt '\n' s
  let l := if l.getLast? = some [] then l.dropLast else l
  return l.map fun s => if s.getLast? = some '\r' then s.dropLast else s

/-- What stands before the first colon with a space after it, and what follows. -/
def cutAtColon : List Char → Option (List Char × List Char)
  | [] => none
  | ':' :: ' ' :: r => some ([], r)
  | c :: r => (cutAtColon r).map fun (name, value) => (c :: name, value)

/-- A line as a name and a value; the value ends where another colon follows. -/
def readLine (s : List Char) : Option (String × String) := do
  let (name, r) ← cutAtColon s
  let value := ((cutAtColon r).map Prod.fst).getD r
  return (String.ofList name, String.ofList value)

/-- The first two numbers of a version. -/
def version? (s : String) : Option (Nat × Nat) :=
  match splitAt '.' s.toList with
  | major :: minor :: _ => do
    return (← readUInt64? (String.ofList major), ← readUInt64? (String.ofList minor))
  | _ => none

/-- Whether a note describes the format of this database. -/
def accepted (content : String) : Bool :=
  match (lines? content).bind fun l => l.mapM readLine with
  | none => false
  | some entries =>
    let entries := Table.ofList entries
    (entries.get? "segment_size").bind readUInt64? == some 524288 &&
      entries.get? "use_compression" == some "true" &&
      (entries.get? "version").bind version? == some (0, 34)

example : accepted "segment_size: 524288\nuse_compression: true\nversion: 0.34\n----" := by
  decide +kernel
example : accepted "segment_size: 1\nuse_compression: true\nversion: 0.34\n----" = false := by
  decide +kernel

end DatabaseNote

/-! ### The directory of the database -/

namespace FileTree

/-- Whether a file can be opened for writing. -/
def isWritable (t : FileTree) (p : FilePath) : Bool := (t.openAppend p).toBool

/-- Whether the note of the format is fine or can be written anew. -/
def acceptsNote (t : FileTree) (directory : FilePath) : Bool :=
  let writable := t.isWritable (directory.append DatabaseNote.draftName)
  match t.node (directory.append DatabaseNote.fileName) with
  | .error .notFound => writable
  | .ok (.file content) =>
    if content.utf8ByteSize ≤ DatabaseNote.maxBlank then writable else DatabaseNote.accepted content
  | _ => false

/-- Whether a name in the directory is that of a snapshot; one that is being written does not count. -/
def isSnapshotName (name : String) : Bool := name.startsWith "snap." && !name.endsWith ".generating"

/-- The name of the data. -/
def dataName : String := "db"

/-- The directory of long values. -/
def longValuesName : String := "blobs"

/-- Whether something in the directory of long values cannot be cleared away: long values are files, and
they are numbered. -/
def blocksClearing : String × FileNode → Bool
  | (name, .directory _) => (readInt64? name).any fun n => decide (0 ≤ n)
  | _ => false

/-- Whether a database without records can be opened in a directory that has been made. -/
def acceptsDatabase (t : FileTree) (directory : FilePath) : Bool :=
  t.acceptsNote directory && t.isWritable (directory.append dataName) &&
    !((t.children? directory).getD []).any (fun e => isSnapshotName e.1) &&
    (match t.children? (directory.append longValuesName) with
      | some children => !children.any blocksClearing
      | none => false)

end FileTree

/-- Opens a database in a directory, which is made if it is not there. -/
def OnFiles.openDatabase (directory : FilePath) : OnFiles Unit := do
  let longValues := directory.append FileTree.longValuesName
  unless (← get).pathExists longValues do
    makeAll (fun _ => .storage .database) longValues
  unless (← get).acceptsDatabase directory do
    throw (.storage .database)

/-- A new store for these settings. -/
def StorageSettings.open (s : StorageSettings) : OnFiles Store :=
  match s.backend with
  | .memory => pure (.memory .empty)
  | .embedded => do
    OnFiles.openDatabase ((FilePath.read s.directory).append databaseName)
    return .embedded .empty

end RouteSync
