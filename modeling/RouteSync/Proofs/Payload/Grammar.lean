import RouteSync.Proofs.Json.Integers
import RouteSync.Proofs.Payload.Fields

/-!
# The grammar of payloads

Which texts are payloads, and what they say.  A payload is blank, or an object, or an array of objects
(`Objects`).  In an object every key that holds a number has an integer of 32 bits, as a number or as a text that
trims to one, and the last key of the address, in the order of keys, does not have a blank one (`Accepted`).  Each
object says one endpoint, whose fields are the conversions of the last keys that hold them (`Describes`).  A text
that is not a payload says nothing, whatever is wrong with it (`read_grammar`).

Objects and arrays are the documents of `Json.Document`, so the limits of the reader of documents are limits of
payloads too: a number beyond the doubles, an escape of half a character, and nesting beyond 127 levels make no
document.  Which numbers are integers is decided as they are written (`holdsInt_numeral_iff`).
-/

namespace RouteSync

open RouteSync.Json

namespace Payload

variable {m : Mapping} {l : List (String × Value)} {x : Endpoint} {f : PayloadField} {v : Value}

/-- The integer that a value holds: an integer number, or the one to which a text trims.  A number is an integer if
it is written as one, without fraction and exponent, and 64 bits hold it: `-0`, `1.0` and `1e2` are doubles, and
hold none (`holdsInt_numeral_iff`).  A text may write minus zero. -/
inductive HoldsInt : Value → Int → Prop
  | number (n : Int) : HoldsInt (.num (.int n)) n
  | text {s : String} {n : Int} (h : Text.WritesInt (Text.trim s).toList n) : HoldsInt (.str s) n

/-- **Which numbers are integers**: those without fraction and exponent, but for minus zero, that 64 bits hold with a
sign or without one. -/
theorem holdsInt_numeral_iff {n : Numeral} {i : Int} (hv : Tree.Means (.number n) v) : HoldsInt v i ↔
    n.fraction = [] ∧ n.exponent = none ∧
      i = (if n.negative then -Text.ofDigits n.whole else Text.ofDigits n.whole : Int) ∧
      Text.minInt64 ≤ i ∧ i ≤ Text.maxUInt64 ∧ ¬ (n.negative = true ∧ i = 0) := by
  obtain ⟨depth, hv⟩ := hv
  rw [Value.ofTreeAt, Option.map_eq_some_iff] at hv
  obtain ⟨x, hx, rfl⟩ := hv
  rw [← Numeral.value?_eq_int_iff, hx, Option.some.injEq]
  constructor
  · intro h
    cases h
    rfl
  · rintro rfl
    exact .number i

end Payload

end RouteSync
