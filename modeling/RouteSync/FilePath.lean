import RouteSync.Text.Split

/-!
# File paths

A path is kept as it is written, as the segments between its slashes, because the system limits its
length and because the path of a parent keeps the spelling of what is left.  Empty segments and dots lead
nowhere; two dots are a step like a name.
-/

namespace RouteSync

/-- A written path: what stands between its slashes, in order.  The segments before a slash in front,
after a final slash and between doubled slashes are empty. -/
structure FilePath where
  segments : List String
  deriving DecidableEq, Repr

namespace FilePath

def read (s : String) : FilePath := ⟨(Text.splitAt '/' s.toList).map String.ofList⟩

def text (p : FilePath) : String := "/".intercalate p.segments

/-- The length of the written path, in bytes. -/
def size (p : FilePath) : Nat := p.text.utf8ByteSize

/-- Whether the path starts at the root. -/
def absolute (p : FilePath) : Bool :=
  match p.segments with
  | first :: _ :: _ => first == ""
  | _ => false

/-- Whether the path ends with a slash, and so asks for a directory. -/
def slash (p : FilePath) : Bool := p.segments.tail.getLast? == some ""

def isEmpty (p : FilePath) : Bool := p.size == 0

/-- The steps that the path takes; a dot is one that stays. -/
def parts (p : FilePath) : List String := p.segments.filter fun s => s != ""

/-- Whether a segment leads nowhere. -/
def isIdle (s : String) : Bool := s == "" || s == "."

def dropIdleEnd (l : List String) : List String := (l.reverse.dropWhile isIdle).reverse

/-- The path without its last step, spelt as before; the root and the empty path have no parent. -/
def parent? (p : FilePath) : Option FilePath :=
  match p.segments with
  | [] => none
  | first :: rest =>
    let steps := dropIdleEnd rest
    let above := dropIdleEnd steps.dropLast
    if steps.isEmpty then
      if first = "" then none else some ⟨[""]⟩
    else if first = "" ∧ above.isEmpty then some ⟨["", ""]⟩
    else some ⟨first :: above⟩

/-- The path of a name inside a directory. -/
def append (p : FilePath) (name : String) : FilePath :=
  if p.segments.getLast? = some "" then ⟨p.segments.dropLast ++ [name]⟩ else ⟨p.segments ++ [name]⟩

/-- The path from the root for a process that works in a directory. -/
def within (p : FilePath) (working : List String) : FilePath :=
  if p.absolute then p else ⟨"" :: working ++ p.segments⟩

/-- The path with an extension after its last name. -/
def addExtension? (p : FilePath) (extension : String) : Option FilePath :=
  match p.segments.reverse.dropWhile isIdle with
  | [] => none
  | last :: before =>
    if last = ".." then none else some ⟨((last ++ "." ++ extension) :: before).reverse⟩

example : (read "a//b/./").parent? = some (read "a") ∧ (read "./x").parent? = some (read ".") := by
  decide +kernel
example : (read "/a").parent? = some (read "/") ∧ (read "/").parent? = none := by decide +kernel

end FilePath

end RouteSync
