import RouteSync.Error
import RouteSync.Table
import RouteSync.Text.Integer
import RouteSync.Text.LowerCase

/-!
# Layers of settings

Settings are put together from layers, each of which is a list of paths with what they lead to.  A later
layer is laid over the earlier ones: a table is merged with what is there member by member, and anything
else replaces it.  Names are compared in lower case.
-/

namespace RouteSync

open RouteSync.Text RouteSync.Decimal

/-- A value without parts. -/
inductive Scalar
  | nothing
  | bool (b : Bool)
  | integer (n : Int)
  | real (d : Double)
  | text (s : String)
  deriving DecidableEq, Repr

/-- A setting before it has a type; `origin` names its source for messages. -/
inductive Setting
  | scalar (v : Scalar) (origin : Option String)
  | list (items : List Setting) (origin : Option String)
  | table (members : List (String × Setting)) (origin : Option String)
  deriving Repr, Inhabited

namespace Setting

def nothing : Setting := .scalar .nothing none

def emptyTable : Setting := .table [] none

/-- The members and the origin of a table; whatever is no table has to make room for an empty one. -/
def opened : Setting → List (String × Setting) × Option String
  | .table ms origin => (ms, origin)
  | _ => ([], none)

/-- The items and the origin of a list; whatever is no list has to make room for an empty one. -/
def listed : Setting → List Setting × Option String
  | .list l origin => (l, origin)
  | _ => ([], none)

mutual

/-- Sets a member of a table: a table is merged with what is there, anything else replaces it. -/
def store (name : String) : Setting → List (String × Setting) → List (String × Setting)
  | .table incoming _, ms =>
    let target := (Table.find (lower name) ms).getD emptyTable
    Table.assign (lower name) (merge incoming target) ms
  | .scalar v origin, ms => Table.assign (lower name) (.scalar v origin) ms
  | .list l origin, ms => Table.assign (lower name) (.list l origin) ms

/-- Sets members one by one; no members leave the target alone, whatever it is. -/
def merge : List (String × Setting) → Setting → Setting
  | [], target => target
  | (name, v) :: rest, target =>
    let (ms, origin) := target.opened
    merge rest (.table (store name v ms) origin)

end

end Setting

/-! ### Paths -/

/-- A step from a setting to one of its parts. -/
inductive SettingStep
  | name (s : String)
  /-- A position; negative ones count from the end. -/
  | index (i : Int)
  deriving DecidableEq, Repr

abbrev SettingPath := List SettingStep

namespace SettingPath

/-- Whether a character may stand in a name of a path; a space may. -/
def isNameChar (c : Char) : Bool := c.isAlphanum || c == ' ' || c == '_' || c == '-'

/-- A position in brackets, after the opening one. -/
def readIndex (s : List Char) : Option (Int × List Char) :=
  let isBlank := fun c : Char => c == ' ' || c == '\t'
  let s := s.dropWhile isBlank
  let (sign, s) := match s with
    | '-' :: r => (['-'], r)
    | r => ([], r)
  match readInt64? (String.ofList (sign ++ s.takeWhile Char.isDigit)),
      (s.dropWhile Char.isDigit).dropWhile isBlank with
  | some i, ']' :: r => some (i, r)
  | _, _ => none

def readName (s : List Char) : Option (String × List Char) :=
  match s.takeWhile isNameChar with
  | [] => none
  | cs => some (String.ofList cs, s.dropWhile isNameChar)

/-- The steps after the first name; there are fewer of them than characters. -/
def readSteps : Nat → List Char → Option SettingPath
  | _, [] => some []
  | fuel + 1, '.' :: r => do
    let (s, r) ← readName r
    return .name s :: (← readSteps fuel r)
  | fuel + 1, '[' :: r => do
    let (i, r) ← readIndex r
    return .index i :: (← readSteps fuel r)
  | _, _ => none

/-- Names with points between them, and positions in brackets.  A text of another form is one name. -/
def read (s : String) : SettingPath :=
  let steps : Option SettingPath := do
    let (first, r) ← readName s.toList
    return .name first :: (← readSteps r.length r)
  steps.getD [.name s]

end SettingPath

namespace Setting

/-- The place of a position in a list that is so long. -/
def position (i : Int) (length : Nat) : Option Nat :=
  if 0 ≤ i then some i.toNat
  else if -i ≤ length then some (length - (-i).toNat)
  else none

/-- Puts an item at a place, filling up with nothing before it. -/
def putAt (v : Setting) : Nat → List Setting → List Setting
  | 0, [] => [v]
  | 0, _ :: l => v :: l
  | n + 1, [] => nothing :: putAt v n []
  | n + 1, a :: l => a :: putAt v n l

/-- Sets what a path leads to.  Whatever stands in the way makes room for tables and lists. -/
def set (v : Setting) : SettingPath → Setting → Setting
  | [], target => target
  | [.name k], target =>
    let (ms, origin) := target.opened
    .table (store k v ms) origin
  | .name k :: rest, target =>
    let (ms, origin) := target.opened
    let inner := (Table.find (lower k) ms).getD nothing
    .table (Table.assign (lower k) (set v rest inner) ms) origin
  | .index i :: rest, target =>
    let (l, origin) := target.listed
    match position i l.length with
    | none => target
    | some n =>
      let inner := if rest = [] then v else set v rest (l[n]?.getD nothing)
      .list (putAt inner n l) origin

end Setting

/-- What one source says. -/
abbrev Layer := List (String × Setting)

/-- Lays a layer over a setting. -/
def Setting.overlay (s : Setting) (l : Layer) : Setting :=
  l.foldl (fun s e => set e.2 (.read e.1) s) s

/-- The layers put together, later ones over earlier ones. -/
def Setting.ofLayers (l : List Layer) : Setting := l.foldl Setting.overlay Setting.emptyTable

end RouteSync
