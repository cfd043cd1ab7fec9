import RouteSync.Json.Value

/-!
# Reading records from documents

A record is written as an object, or as the array of its fields in order.  An object may have members
that the record does not know, which are skipped whatever they hold, but names none of its fields twice;
an array has no more items than the record has fields.  `Tree.fields?` finds what was written for each
field, and the readers below give it a type.
-/

namespace RouteSync.Json.Tree

open RouteSync.Text

/-- What an object says for each name; `none` if it names one twice or a key has no meaning. -/
def membersFor? (members : List (Option String × Tree)) : List String → Option (List (Option Tree))
  | [] => some []
  | name :: names => do
    let rest ← membersFor? members names
    match members.filter fun e => e.1 == some name with
    | [] => return none :: rest
    | [(_, t)] => return some t :: rest
    | _ => none

/-- What an array says for each name; `none` if it has more items than there are names. -/
def itemsFor? : List Tree → List String → Option (List (Option Tree))
  | [], names => some (names.map fun _ => none)
  | _ :: _, [] => none
  | t :: ts, _ :: names => (itemsFor? ts names).map (some t :: ·)

/-- What is written for each field of a record with these names. -/
def fields? (names : List String) : Tree → Option (List (Option Tree))
  | .object members =>
    if members.all fun e => e.1.isSome then membersFor? members names else none
  | .array items => itemsFor? items names
  | _ => none

/-! ### Readers of field types -/

def text? : Tree → Option String
  | .text s => s
  | _ => none

def bool? : Tree → Option Bool
  | .bool b => some b
  | _ => none

def int? : Tree → Option Int
  | .number n =>
    match n.value? with
    | some (.int i) => some i
    | _ => none
  | _ => none

def int32? (t : Tree) : Option Int32 :=
  t.int?.bind fun i =>
    if -2147483648 ≤ i ∧ i ≤ 2147483647 then some (Int32.ofInt i) else none

def nat? (bound : Nat) (t : Tree) : Option Nat :=
  t.int?.bind fun i => if 0 ≤ i ∧ i ≤ bound then some i.toNat else none

def uint16? (t : Tree) : Option UInt16 := (t.nat? 65535).map UInt16.ofNat

def uint64? (t : Tree) : Option UInt64 := (t.nat? maxUInt64).map UInt64.ofNat

def list? {α : Type} (read : Tree → Option α) : Tree → Option (List α)
  | .array items => items.mapM read
  | _ => none

/-- One of some names, as a text or as the only key of an object whose value is null. -/
def name? : Tree → Option String
  | .text s => s
  | .object [(k, .null)] => k
  | _ => none

/-- A field that has to be there. -/
def required {α : Type} (read : Tree → Option α) (field : Option Tree) : Option α := field.bind read

/-- A field with a value for its absence. -/
def defaulted {α : Type} (read : Tree → Option α) (default : α) : Option Tree → Option α
  | none => some default
  | some t => read t

/-- A field that may be absent or null. -/
def optional {α : Type} (read : Tree → Option α) : Option Tree → Option (Option α)
  | none => some none
  | some .null => some none
  | some t => (read t).map some

end RouteSync.Json.Tree
