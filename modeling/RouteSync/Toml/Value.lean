import RouteSync.Decimal.Reading
import RouteSync.Table

/-!
# Values of TOML documents

A document is a table.  While it is read, its tables are open: `Part` remembers how each table came
about, because that decides what may still be added to it.  A key is set once, dotted keys extend only
tables that dotted keys have made, and a header opens a table once.  `Part.close` forgets the history.
-/

namespace RouteSync

open RouteSync.Decimal

/-- A value of a TOML document. -/
inductive Toml
  | text (s : String)
  | integer (n : Int)
  | real (d : Double)
  | bool (b : Bool)
  | array (items : List Toml)
  | table (members : List (String × Toml))
  deriving Repr, Inhabited

namespace Toml

/-- A dotted key: the tables it goes through and the name it sets. -/
structure Key where
  path : List String
  name : String
  deriving DecidableEq, Repr

/-- How a table came about. -/
inductive Making
  /-- By a header of its own. -/
  | header
  /-- By the header of a table further down. -/
  | implied
  /-- By dotted keys. -/
  | dotted
  deriving DecidableEq, Repr

/-- What stands under a key of a document that is still being read. -/
inductive Part
  | value (v : Toml)
  | table (making : Making) (members : List (String × Part))
  /-- The rows of an array of tables. -/
  | rows (l : List (List (String × Part)))
  deriving Inhabited

abbrev Parts := List (String × Part)

mutual

/-- The value of a part that is complete. -/
def Part.close : Part → Toml
  | .value v => v
  | .table _ ms => .table (closeMembers ms)
  | .rows l => .array (closeRows l)

def closeMembers : List (String × Part) → List (String × Toml)
  | [] => []
  | (k, p) :: rest => (k, p.close) :: closeMembers rest

def closeRows : List (List (String × Part)) → List Toml
  | [] => []
  | ms :: rest => .table (closeMembers ms) :: closeRows rest

end

/-! ### Entries -/

/-- Sets a name that is not there yet. -/
def addMember (name : String) (v : Toml) (ms : Parts) : Option Parts :=
  match Table.find name ms with
  | none => some (ms ++ [(name, .value v)])
  | some _ => none

/-- Sets a name below the tables of `path`, which are made where they are missing.  A table with a
header of its own is closed to dotted keys, and the innermost one has to be made by dotted keys. -/
def addBelow (name : String) (v : Toml) : List String → Parts → Option Parts
  | [], ms => addMember name v ms
  | k :: ks, ms =>
    match Table.find k ms with
    | none => do return ms ++ [(k, .table .dotted (← addBelow name v ks []))]
    | some (.table making inner) =>
      if making = .header ∨ (making = .implied ∧ ks = []) then none
      else do return Table.assign k (.table making (← addBelow name v ks inner)) ms
    | some (.rows l) =>
      if ks = [] then none
      else do
        let inner ← addBelow name v ks (l.getLast?.getD [])
        return Table.assign k (.rows (l.dropLast ++ [inner])) ms
    | some (.value _) => none

def addEntry (ms : Parts) (e : Key × Toml) : Option Parts := addBelow e.1.name e.2 e.1.path ms

def addEntries (ms : Parts) (l : List (Key × Toml)) : Option Parts := l.foldlM addEntry ms

/-- The table of an inline table, which is complete at once. -/
def inlineTable (l : List (Key × Toml)) : Option Toml := (addEntries [] l).map fun ms => .table (closeMembers ms)

/-! ### Headers -/

/-- Applies `f` to the table at a path.  Missing tables are made, and the last row of an array of tables
stands for the array. -/
def descend (f : Parts → Option Parts) : List String → Parts → Option Parts
  | [], ms => f ms
  | k :: ks, ms =>
    match Table.find k ms with
    | none => do return ms ++ [(k, .table .implied (← descend f ks []))]
    | some (.table making inner) => do return Table.assign k (.table making (← descend f ks inner)) ms
    | some (.rows l) => do
      let inner ← descend f ks (l.getLast?.getD [])
      return Table.assign k (.rows (l.dropLast ++ [inner])) ms
    | some (.value _) => none

/-- Opens the table `name` and enters its body.  Only tables that headers further down have made may
be there already. -/
def openTable (name : String) (body : List (Key × Toml)) (ms : Parts) : Option Parts :=
  match Table.find name ms with
  | none => do return ms ++ [(name, .table .header (← addEntries [] body))]
  | some (.table .implied inner) => do
    return Table.assign name (.table .header (← addEntries inner body)) ms
  | some _ => none

/-- Adds a row with this body to the array of tables `name`. -/
def openRow (name : String) (body : List (Key × Toml)) (ms : Parts) : Option Parts :=
  match Table.find name ms with
  | none => do return ms ++ [(name, .rows [← addEntries [] body])]
  | some (.rows l) => do return Table.assign name (.rows (l ++ [← addEntries [] body])) ms
  | some _ => none

/-- A header with the entries below it. -/
structure Section where
  key : Key
  isRow : Bool
  body : List (Key × Toml)

def addSection (ms : Parts) (s : Section) : Option Parts :=
  descend (if s.isRow then openRow s.key.name s.body else openTable s.key.name s.body) s.key.path ms

/-- The document of the entries before the first header and of the sections after them. -/
def document (entries : List (Key × Toml)) (sections : List Section) : Option (List (String × Toml)) := do
  let ms ← addEntries [] entries
  return closeMembers (← sections.foldlM addSection ms)

end Toml

end RouteSync
