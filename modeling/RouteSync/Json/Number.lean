import RouteSync.Decimal.Reading
import RouteSync.Decimal.Shortest

/-!
# Numbers of a document

A `Numeral` is a number as it is written; a `Number` is what it means.  A numeral without fraction and
exponent means an integer as long as 64 bits hold it, without a sign or with one; `-0` and every other
numeral means a double.  A numeral beyond the finite doubles means nothing.
-/

namespace RouteSync.Json

open RouteSync.Text RouteSync.Decimal

/-- A number as it is written: digits before and after the point, and the digits of the exponent with
its sign. -/
structure Numeral where
  negative : Bool
  whole : List Nat
  fraction : List Nat
  exponent : Option (Bool × List Nat)
  deriving DecidableEq, Repr

inductive Number
  | int (n : Int)
  | real (d : Double)
  deriving DecidableEq, Repr

namespace Numeral

/-- Takes digits into a significand as long as it fits into 64 bits; the second part counts the digits
left over. -/
def gather : Nat → List Nat → Nat × Nat
  | n, [] => (n, 0)
  | n, d :: ds => if 10 * n + d ≤ maxUInt64 then gather (10 * n + d) ds else (n, ds.length + 1)

/-- The size of the written exponent; `none` if 31 bits do not hold it. -/
def exponentSize (ds : List Nat) : Option Nat :=
  let n := ofDigits ds
  if n ≤ 2147483647 then some n else none

/-- The meaning as a double: digits that the significand cannot take are dropped, those before the point
with a step of the exponent. -/
def real? (n : Numeral) : Option Double :=
  let (whole, dropped) := gather 0 n.whole
  let (significand, left) := gather whole n.fraction
  let start : Int := (dropped : Int) - ((n.fraction.length - left : Nat) : Int)
  match n.exponent with
  | none => scaled n.negative significand start
  | some (down, ds) =>
    match exponentSize ds with
    | some e => scaled n.negative significand (if down then start - e else start + e)
    | none => if significand = 0 ∨ down then some (.zero n.negative) else none

def value? (n : Numeral) : Option Number :=
  match n.fraction, n.exponent, gather 0 n.whole with
  | [], none, (m, 0) =>
    if !n.negative then some (.int m)
    else if 0 < m ∧ m ≤ 9223372036854775808 then some (.int (-m))
    else n.real?.map .real
  | _, _, _ => n.real?.map .real

end Numeral

namespace Number

def chars : Number → List Char
  | .int n => signed (decide (n < 0)) (Nat.toDigits 10 n.natAbs)
  | .real d => d.document

def toString (n : Number) : String := String.ofList n.chars

/-- The integer that a signed type of 64 bits holds. -/
def int64? : Number → Option Int
  | .int n => if n ≤ maxInt64 then some n else none
  | .real _ => none

end Number

example : (Numeral.mk true [0] [] none).value? = some (.real (.zero true)) := by decide +kernel
example : (Numeral.mk false [1] [] (some (false, [9, 9, 9]))).value? = none := by decide +kernel

end RouteSync.Json
