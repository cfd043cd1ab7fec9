import RouteSync.Error
import RouteSync.Json.Value
import RouteSync.Table
import RouteSync.Text.Blank

/-!
# Flat objects

Properties and field mappings are written as the text of a flat JSON object: every value is a scalar.
Blank text stands for the empty object, and members that are null are left out.
-/

namespace RouteSync.FlatObject

open RouteSync.Json

/-- The text of a scalar; a null has none, and arrays and objects are no scalars. -/
def scalar? : Value → Option (Option String)
  | .null => some none
  | .bool b => some (some (toString b))
  | .num n => some (some n.toString)
  | .str s => some (some s)
  | .arr _ => none
  | .obj _ => none

/-- The members that are not null, in order. -/
def ofMembers (what : String) : List (String × Value) → Except InvalidConfig (List (String × String))
  | [] => .ok []
  | (k, v) :: rest =>
    match scalar? v with
    | none => .error (.entryNotScalar what k)
    | some none => ofMembers what rest
    | some (some s) => (ofMembers what rest).map ((k, s) :: ·)

/-- Reads the text of a flat object; `what` names it in errors. -/
def read (what raw : String) : Except InvalidConfig (Table String String) :=
  if Text.isBlank raw then .ok .empty
  else
    match Value.read? raw with
    | some (.obj l) => (ofMembers what l).map Table.ofList
    | _ => .error (.malformed what)

end RouteSync.FlatObject
