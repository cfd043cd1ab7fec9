import RouteSync.Toml.Number
import RouteSync.Toml.Text

/-!
# Reading TOML documents

A document is a list of lines: entries and headers, blank lines and comments apart.  Arrays may go on
over several lines, inline tables may not.  Arrays and inline tables nest at most 79 deep, and a dotted
key has at most 79 parts.

The values are texts on one line, truth values, numbers, arrays and inline tables.  Dates and times, and texts
over several lines, are values of TOML that this reader does not know: it refuses a document with one of them as
malformed, and what follows about files is about those without.
-/

namespace RouteSync.Toml

/-- How deep values nest and how many parts a key has, at most. -/
def maxDepth : Nat := 79

/-- A dotted key with at most so many parts. -/
def readKey : Nat → List Char → Option (Key × List Char)
  | 0, _ => none
  | more + 1, s => do
    let (part, r) ← readPart (skipBlanks s)
    match skipBlanks r with
    | '.' :: r =>
      let (k, r) ← readKey more r
      return ({ k with path := part :: k.path }, r)
    | r => return (⟨[], part⟩, r)

/-- A key with the equals sign after it. -/
def readAssigned (s : List Char) : Option (Key × List Char) := do
  match ← readKey maxDepth s with
  | (k, '=' :: r) => return (k, skipBlanks r)
  | _ => none

/-- Skips blanks, line ends and comments; stops inside a comment at a character that it may not have. -/
def skipGaps : Bool → List Char → List Char
  | _, [] => []
  | _, '\n' :: r => skipGaps false r
  | _, '\r' :: '\n' :: r => skipGaps false r
  | true, c :: r => if isPlain c then skipGaps true r else c :: r
  | false, '#' :: r => skipGaps true r
  | false, c :: r => if isBlank c then skipGaps false r else c :: r

/-! ### Values -/

mutual

/-- A value that may nest `depth` deep, other than a date, a time or a text over several lines.  The fuel bounds
the calls; twice the length of the text is enough. -/
def readValue : Nat → Nat → List Char → Option (Toml × List Char)
  | 0, _, _ => none
  | fuel + 1, depth, s =>
    match s with
    | '"' :: r => (readBasic r).map fun (cs, r) => (.text (String.ofList cs), r)
    | '\x27' :: r => (readLiteral r).map fun (cs, r) => (.text (String.ofList cs), r)
    | 't' :: 'r' :: 'u' :: 'e' :: r => some (.bool true, r)
    | 'f' :: 'a' :: 'l' :: 's' :: 'e' :: r => some (.bool false, r)
    | '[' :: r =>
      match depth with
      | 0 => none
      | depth + 1 => (readItems fuel depth r).map fun (l, r) => (.array l, r)
    | '\x7b' :: r =>
      match depth with
      | 0 => none
      | depth + 1 => do
        match skipBlanks r with
        | '\x7d' :: r => return (.table [], r)
        | r =>
          let (l, r) ← readPairs fuel depth r
          return (← inlineTable l, r)
    | s => readNumber s

/-- The items of an array up to its bracket; a comma may follow the last one. -/
def readItems : Nat → Nat → List Char → Option (List Toml × List Char)
  | 0, _, _ => none
  | fuel + 1, depth, s =>
    match skipGaps false s with
    | ']' :: r => some ([], r)
    | r => do
      let (v, r) ← readValue fuel depth r
      match skipGaps false r with
      | ',' :: r =>
        let (vs, r) ← readItems fuel depth r
        return (v :: vs, r)
      | ']' :: r => return ([v], r)
      | _ => none

/-- The entries of an inline table up to its brace, at least one. -/
def readPairs : Nat → Nat → List Char → Option (List (Key × Toml) × List Char)
  | 0, _, _ => none
  | fuel + 1, depth, s => do
    let (k, r) ← readAssigned s
    let (v, r) ← readValue fuel depth r
    match skipBlanks r with
    | ',' :: r =>
      let (vs, r) ← readPairs fuel depth r
      return ((k, v) :: vs, r)
    | '\x7d' :: r => return ([(k, v)], r)
    | _ => none

end

/-! ### Lines -/

/-- A line that says something. -/
inductive Line
  | entry (k : Key) (v : Toml)
  /-- The header of a table, or of a row of an array of tables. -/
  | header (k : Key) (isRow : Bool)

/-- The end of a line, after blanks and a comment. -/
def endLine (s : List Char) : Option (List Char) :=
  let r := match skipBlanks s with
    | '#' :: r => r.dropWhile isPlain
    | r => r
  match r with
  | [] => some []
  | '\n' :: r => some r
  | '\r' :: '\n' :: r => some r
  | _ => none

def readHeader (isRow : Bool) (s : List Char) : Option (Line × List Char) := do
  let (k, r) ← readKey maxDepth s
  match isRow, r with
  | true, ']' :: ']' :: r => return (.header k true, ← endLine r)
  | false, ']' :: r => return (.header k false, ← endLine r)
  | _, _ => none

def readEntry (s : List Char) : Option (Line × List Char) := do
  let (k, r) ← readAssigned s
  let (v, r) ← readValue (2 * r.length + 2) maxDepth r
  return (.entry k v, ← endLine r)

/-- One line, and what follows it; `none` in the pair for a line that says nothing. -/
def readLine (s : List Char) : Option (Option Line × List Char) :=
  match skipBlanks s with
  | [] => some (none, [])
  | '\n' :: r => some (none, r)
  | '\r' :: '\n' :: r => some (none, r)
  | '#' :: r => (endLine ('#' :: r)).map fun r => (none, r)
  | '[' :: '[' :: r => (readHeader true r).map fun (l, r) => (some l, r)
  | '[' :: r => (readHeader false r).map fun (l, r) => (some l, r)
  | r => (readEntry r).map fun (l, r) => (some l, r)

/-- All lines of a text; no text has more lines than characters and one. -/
def readLines : Nat → List Char → Option (List Line)
  | _, [] => some []
  | 0, _ :: _ => none
  | fuel + 1, s => do
    let (l, r) ← readLine s
    let ls ← readLines fuel r
    return l.toList ++ ls

/-- Parts lines into the entries before the first header, and the sections. -/
def sections : List Line → List (Key × Toml) × List Section
  | [] => ([], [])
  | .entry k v :: rest =>
    let (body, l) := sections rest
    ((k, v) :: body, l)
  | .header k isRow :: rest =>
    let (body, l) := sections rest
    ([], ⟨k, isRow, body⟩ :: l)

/-- The members of the document that a text holds; a byte order mark is not part of the text. -/
def read? (s : String) : Option (List (String × Toml)) := do
  let cs := match s.toList with
    | '\ufeff' :: r => r
    | cs => cs
  let (entries, l) := sections (← readLines cs.length cs)
  document entries l

end RouteSync.Toml
