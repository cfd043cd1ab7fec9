import RouteSync.Error
import RouteSync.FilePath
import RouteSync.Table

/-!
# Directory trees

A file tree holds the directories and files of a machine.  Paths are resolved one part at a time from the
root or from the working directory: every part but the last has to be a directory, a dot stays, and two
dots go up.  Failures are those of the system calls behind the operations.
-/

namespace RouteSync

/-- What a path leads to. -/
inductive FileNode
  | directory (children : List (String × FileNode))
  | file (content : String)
  /-- Swallows what is written to it. -/
  | device

namespace FileNode

/-- The node at a location below this one, which is given by the names that lead to it. -/
def find? : List String → FileNode → Option FileNode
  | [], n => some n
  | name :: rest, .directory children => (Table.find name children).bind (find? rest)
  | _ :: _, _ => none

/-- Puts a node at a location below these children, if there is a directory for it. -/
def putBelow (n : FileNode) : List String → List (String × FileNode) → List (String × FileNode)
  | [], children => children
  | [name], children => Table.assign name n children
  | name :: rest, children =>
    match Table.find name children with
    | some (.directory inner) => Table.assign name (.directory (putBelow n rest inner)) children
    | _ => children

mutual

/-- This node and all below it with their locations, nearest name first. -/
def located (location : List String) : FileNode → List (List String × FileNode)
  | .directory children => (location, .directory children) :: locatedBelow location children
  | .file content => [(location, .file content)]
  | .device => [(location, .device)]

/-- These children of a location and all below them. -/
def locatedBelow (location : List String) :
    List (String × FileNode) → List (List String × FileNode)
  | [] => []
  | (name, n) :: rest => n.located (name :: location) ++ locatedBelow location rest

end

end FileNode

/-- The files of a machine. -/
structure FileTree where
  /-- What the root holds. -/
  root : List (String × FileNode)
  /-- The names that lead to the working directory. -/
  working : List String
  /-- The locations of directories that the system fills and in which nothing can be made. -/
  sealed : List (List String) := []

/-- A place in a tree: the names that lead to it and what stands at each of them, nearest first.  Nothing
need stand at the place itself. -/
abbrev FilePlace := List (String × Option FileNode)

namespace FilePlace

/-- The names that lead to the place from the root. -/
def location (place : FilePlace) : List String := (place.map Prod.fst).reverse

end FilePlace

namespace FileTree

def get? (t : FileTree) (location : List String) : Option FileNode :=
  (FileNode.directory t.root).find? location

def put (t : FileTree) (location : List String) (n : FileNode) : FileTree :=
  { t with root := n.putBelow location t.root }

/-- What stands at a place. -/
def nodeAt? (t : FileTree) : FilePlace → Option FileNode
  | [] => some (.directory t.root)
  | (_, n) :: _ => n

/-- The longest name that a file may have, in bytes. -/
def maxName : Nat := 255

/-- The longest path that the system takes, in bytes. -/
def maxPath : Nat := 4095

def hasNul (p : FilePath) : Bool := p.segments.any fun s => s.toList.any fun c => c.toNat == 0

/-- Goes from a place along some parts and gives where they lead, whether or not anything is there. -/
def walk (t : FileTree) (place : FilePlace) : List String → Except FileError FilePlace
  | [] => .ok place
  | part :: rest =>
    match t.nodeAt? place with
    | none => .error .notFound
    | some (.file _) => .error .notDirectory
    | some .device => .error .notDirectory
    | some (.directory children) =>
      if part = "." then t.walk place rest
      else if part = ".." then t.walk place.tail rest
      else if maxName < part.utf8ByteSize then .error .nameTooLong
      else t.walk ((part, Table.find part children) :: place) rest

/-- The working directory as a place. -/
def workingPlace (t : FileTree) : FilePlace :=
  t.working.foldl (fun place name =>
    let n := match t.nodeAt? place with
      | some (.directory children) => Table.find name children
      | _ => none
    (name, n) :: place) []

/-- Where some parts lead from the start of a path. -/
def follow (t : FileTree) (p : FilePath) (parts : List String) : Except FileError FilePlace :=
  if hasNul p then .error .nulByte
  else if p.isEmpty then .error .notFound
  else if maxPath < p.size then .error .nameTooLong
  else t.walk (if p.absolute then [] else t.workingPlace) parts

/-- Where a path leads. -/
def locate (t : FileTree) (p : FilePath) : Except FileError FilePlace := t.follow p p.parts

/-- What stands at a path; a final slash asks for a directory. -/
def node (t : FileTree) (p : FilePath) : Except FileError FileNode := do
  match t.nodeAt? (← t.locate p) with
  | none => .error .notFound
  | some (.directory children) => .ok (.directory children)
  | some n => if p.slash then .error .notDirectory else .ok n

def pathExists (t : FileTree) (p : FilePath) : Bool := (t.node p).toBool

/-- What a directory holds. -/
def children? (t : FileTree) (p : FilePath) : Option (List (String × FileNode)) :=
  match t.node p with
  | .ok (.directory children) => some children
  | _ => none

def isDirectory (t : FileTree) (p : FilePath) : Bool := (t.children? p).isSome

/-- The content of a file. -/
def content? (t : FileTree) (p : FilePath) : Option String :=
  match t.node p with
  | .ok (.file c) => some c
  | _ => none

/-- Makes something new at a place. -/
def create (t : FileTree) (place : FilePlace) (n : FileNode) : Except FileError FileTree :=
  let location := place.location
  if t.sealed.contains location.dropLast then .error .notFound else .ok (t.put location n)

/-- Why making one directory fails. -/
inductive MakeError
  | taken
  | failed (e : FileError)

def makeDirectory (t : FileTree) (p : FilePath) : Except MakeError FileTree :=
  match t.locate p with
  | .error e => .error (.failed e)
  | .ok place =>
    match t.nodeAt? place with
    | some _ => .error .taken
    | none => (t.create place (.directory [])).mapError .failed

/-- The error of a directory that could not be made because something else is there. -/
def takenError : FileError := .reported "File exists (os error 17)"

/-- Makes a directory after its parents have been made; an existing directory is fine. -/
def makeLast (t : FileTree) (p : FilePath) : FileTree × Option FileError :=
  match t.makeDirectory p with
  | .ok t => (t, none)
  | .error e =>
    if t.isDirectory p then (t, none)
    else
      match e with
      | .taken => (t, some takenError)
      | .failed e => (t, some e)

/-- Makes a directory and those above it that are missing.  What has been made stays, also when
something fails further down. -/
def makeAllFrom : Nat → FileTree → FilePath → FileTree × Option FileError
  | 0, t, _ => (t, some .notFound)
  | fuel + 1, t, p =>
    if p.isEmpty then (t, none)
    else
      match t.makeDirectory p with
      | .error (.failed .notFound) =>
        match p.parent? with
        | none => (t, some .notFound)
        | some q =>
          match makeAllFrom fuel t q with
          | (t, none) => t.makeLast p
          | (t, some e) => (t, some e)
      | _ => t.makeLast p

/-- A path has fewer ancestors than segments, the empty path and the root apart. -/
def makeAll (t : FileTree) (p : FilePath) : FileTree × Option FileError :=
  makeAllFrom (p.segments.length + 2) t p

/-- Opens a file for appending and makes it if nothing is there.  After a final slash the name before it
is not even looked up. -/
def openAppend (t : FileTree) (p : FilePath) : Except FileError FileTree := do
  if p.slash then
    let _ ← t.follow p (p.parts.dropLast ++ ["."])
    .error .isDirectory
  else
    let place ← t.locate p
    match t.nodeAt? place with
    | some (.directory _) => .error .isDirectory
    | some _ => .ok t
    | none => t.create place (.file "")

/-- Opens a file for appending, making the directories above it first. -/
def openAppendAll (t : FileTree) (p : FilePath) : FileTree × Except FileError Unit :=
  let made :=
    match p.parent? with
    | none => (t, none)
    | some q => if t.pathExists q then (t, none) else t.makeAll q
  match made with
  | (t, some e) => (t, .error e)
  | (t, none) =>
    match t.openAppend p with
    | .ok t => (t, .ok ())
    | .error e => (t, .error e)

/-- Adds text at the end of a file. -/
def append (t : FileTree) (p : FilePath) (text : String) : FileTree :=
  match t.locate p with
  | .error _ => t
  | .ok place =>
    match t.nodeAt? place with
    | some (.file c) => t.put place.location (.file (c ++ text))
    | _ => t

/-- A machine with the usual top directories, a list of users and a null device, and an empty working
directory below the root. -/
def fresh (working : String) : FileTree where
  root :=
    [("tmp", .directory []), ("proc", .directory []), ("etc", .directory [("passwd", .file "")]),
     ("dev", .directory [("null", .device)]), (working, .directory [])]
  working := [working]
  sealed := [["proc"]]

/-- The paths below the working directory, in order; directories end with a slash, and what lies below
a directory of the name `closed` is left out. -/
def listing (t : FileTree) (closed : String) : List String :=
  let below := match t.get? t.working with
    | some (.directory children) => FileNode.locatedBelow [] children
    | _ => []
  let paths := (below.filter fun e => !e.1.tail.contains closed).map fun e =>
    "/".intercalate e.1.reverse ++ (match e.2 with
      | .directory _ => "/"
      | _ => "")
  paths.mergeSort fun a b => decide (a ≤ b)

end FileTree

/-! ### Actions -/

/-- Actions on a file tree.  What an action did stays when it fails. -/
abbrev OnFiles := EStateM Error FileTree

namespace OnFiles

/-- Turns the outcome of a pure operation into that of an action. -/
def ofExcept {ε α : Type} (wrap : ε → Error) : Except ε α → OnFiles α
  | .ok a => pure a
  | .error e => throw (wrap e)

def makeAll (wrap : FileError → Error) (p : FilePath) : OnFiles Unit := fun t =>
  match t.makeAll p with
  | (t, none) => .ok () t
  | (t, some e) => .error (wrap e) t

/-- Opens a file for appending, making what is missing. -/
def openAppend (p : FilePath) : OnFiles Unit := fun t =>
  match t.openAppendAll p with
  | (t, .ok _) => .ok () t
  | (t, .error e) => .error (.storage (.file e)) t

/-- Opens a file for appending and adds text to it. -/
def append (p : FilePath) (text : String) : OnFiles Unit := do
  openAppend p
  modify fun t => t.append p text

end OnFiles

end RouteSync
