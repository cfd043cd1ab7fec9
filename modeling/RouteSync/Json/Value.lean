import RouteSync.Json.Tree

/-!
# Values of documents

`Value` is what a document means: an object has one member per key, in the order of its keys.  Keys are
ordered by their characters, the last member of a repeated key wins, and arrays and objects nest at most
127 deep.  Printing is compact.
-/

namespace RouteSync.Json

open RouteSync.Text

/-- The meaning of a document. -/
inductive Value
  | null
  | bool (b : Bool)
  | num (n : Number)
  | str (s : String)
  | arr (items : List Value)
  | obj (members : List (String × Value))
  deriving Repr, Inhabited

namespace Value

/-- Sets a member of an ordered list of members. -/
def put (k : String) (v : Value) : List (String × Value) → List (String × Value)
  | [] => [(k, v)]
  | (a, b) :: rest =>
    if k = a then (k, v) :: rest
    else if k < a then (k, v) :: (a, b) :: rest
    else (a, b) :: put k v rest

/-- An object from members in any order; the last one of a key wins. -/
def ofMembers (l : List (String × Value)) : List (String × Value) :=
  l.foldl (fun acc e => put e.1 e.2 acc) []

/-- How deep arrays and objects may nest. -/
def maxDepth : Nat := 127

mutual

/-- The meaning of a tree that may nest `depth` deep. -/
def ofTreeAt : Nat → Tree → Option Value
  | _, .null => some .null
  | _, .bool b => some (.bool b)
  | _, .number n => n.value?.map .num
  | _, .text s => s.map .str
  | 0, .array _ => none
  | depth + 1, .array l => (ofItems depth l).map .arr
  | 0, .object _ => none
  | depth + 1, .object l => (ofPairs depth l).map fun ms => .obj (ofMembers ms)

def ofItems : Nat → List Tree → Option (List Value)
  | _, [] => some []
  | depth, t :: ts => do
    let v ← ofTreeAt depth t
    let vs ← ofItems depth ts
    return v :: vs

def ofPairs : Nat → List (Option String × Tree) → Option (List (String × Value))
  | _, [] => some []
  | depth, (k, t) :: ts => do
    let k ← k
    let v ← ofTreeAt depth t
    let vs ← ofPairs depth ts
    return (k, v) :: vs

end

def ofTree? (t : Tree) : Option Value := ofTreeAt maxDepth t

/-- The value of a text that holds one document. -/
def read? (s : String) : Option Value := (Tree.read? s).bind ofTree?

/-! ### Printing -/

/-- The four digits of a code unit below 256. -/
def unitEscape (n : Nat) : List Char :=
  ['\\', 'u', '0', '0', Nat.digitChar (n / 16), Nat.digitChar (n % 16)]

/-- How one character stands in a text: only the quote, the backslash and controls are escaped. -/
def escape (c : Char) : List Char :=
  if c = '"' then ['\\', '"']
  else if c = '\\' then ['\\', '\\']
  else if c = '\x08' then ['\\', 'b']
  else if c = '\x0c' then ['\\', 'f']
  else if c = '\n' then ['\\', 'n']
  else if c = '\r' then ['\\', 'r']
  else if c = '\t' then ['\\', 't']
  else if c.toNat < 0x20 then unitEscape c.toNat
  else [c]

def textChars (s : String) : List Char := '"' :: (s.toList.flatMap escape ++ ['"'])

mutual

def chars : Value → List Char
  | .null => ['n', 'u', 'l', 'l']
  | .bool true => ['t', 'r', 'u', 'e']
  | .bool false => ['f', 'a', 'l', 's', 'e']
  | .num n => n.chars
  | .str s => textChars s
  | .arr l => '[' :: (itemChars l ++ [']'])
  | .obj l => '\x7b' :: (memberChars l ++ ['\x7d'])

def itemChars : List Value → List Char
  | [] => []
  | [v] => chars v
  | v :: vs => chars v ++ ',' :: itemChars vs

def memberChars : List (String × Value) → List Char
  | [] => []
  | [(k, v)] => textChars k ++ ':' :: chars v
  | (k, v) :: vs => textChars k ++ ':' :: (chars v ++ ',' :: memberChars vs)

end

/-- The compact text of a value. -/
def print (v : Value) : String := String.ofList v.chars

def ofNat (n : Nat) : Value := .num (.int n)

def ofInt (n : Int) : Value := .num (.int n)

def ofStrings (l : List String) : Value := .arr (l.map .str)

/-- The value of a member. -/
def get? : Value → String → Option Value
  | .obj l, k => (l.find? fun e => e.1 == k).map Prod.snd
  | _, _ => none

end Value

end RouteSync.Json
