/-!
# Double precision, exactly

A finite double is a natural number times a power of two, with a sign.  Arithmetic is done on exact
ratios and rounded once, to the nearest double and to the even one of two that are equally near.
-/

namespace RouteSync.Decimal

/-- A double; a finite one is `± mantissa · 2 ^ exponent`. -/
inductive Double
  | finite (negative : Bool) (mantissa : Nat) (exponent : Int)
  | infinite (negative : Bool)
  | nan
  deriving DecidableEq, Repr

/-- The nearest integer to `num / den`, the even one in a tie. -/
def roundDiv (num den : Nat) : Nat :=
  let q := num / den
  let r := num % den
  if 2 * r < den then q
  else if den < 2 * r then q + 1
  else if q % 2 = 0 then q else q + 1

def twoPow (k : Nat) : Nat := Nat.pow 2 k

def tenPow (k : Nat) : Nat := Nat.pow 10 k

/-- The ratio `num / den` divided by a power of two. -/
def shifted (num den : Nat) (e : Int) : Nat × Nat :=
  if 0 ≤ e then (num, den * twoPow e.toNat) else (num * twoPow (-e).toNat, den)

namespace Double

/-- The least exponent. -/
def minExponent : Int := -1074

/-- The greatest exponent. -/
def maxExponent : Int := 971

/-- The least mantissa of 53 bits. -/
def minMantissa : Nat := twoPow 52

/-- The greatest number of 64 bits. -/
def maxUInt64 : Nat := twoPow 64 - 1

def zero (negative : Bool) : Double := .finite negative 0 minExponent

/-- The exponent at which the integer part of `num / den` has 53 bits, or the least one. -/
def exponentOf (num den : Nat) : Int :=
  let e : Int := (Nat.log2 num : Int) - (Nat.log2 den : Int) - 52
  let r := shifted num den e
  max minExponent (if r.1 / r.2 < minMantissa then e - 1 else e)

/-- The double nearest to `num / den`. -/
def ofRatio (negative : Bool) (num den : Nat) : Double :=
  if num = 0 then zero negative
  else
    let e := exponentOf num den
    let r := shifted num den e
    let m := roundDiv r.1 r.2
    let (m, e) := if m = 2 * minMantissa then (minMantissa, e + 1) else (m, e)
    if maxExponent < e then .infinite negative else .finite negative m e

def ofNat (negative : Bool) (n : Nat) : Double := ofRatio negative n 1

/-- A finite magnitude as a ratio. -/
def ratio (m : Nat) (e : Int) : Nat × Nat :=
  if 0 ≤ e then (m * twoPow e.toNat, 1) else (m, twoPow (-e).toNat)

/-- The product of a finite magnitude and a ratio, rounded; other doubles stay. -/
def scale : Double → Nat → Nat → Double
  | .finite s m e, num, den =>
    let r := ratio m e
    ofRatio s (r.1 * num) (r.2 * den)
  | d, _, _ => d

def isZero : Double → Bool
  | .finite _ m _ => m == 0
  | _ => false

/-- The nearest integer to a finite magnitude; a half goes up. -/
def roundHalfUp (m : Nat) (e : Int) : Nat :=
  let r := ratio m e
  (2 * r.1 + r.2) / (2 * r.2)

/-- The nearest natural number of 64 bits, a half going away from zero; what lies outside the range
goes to its nearer end, and what is no number to zero. -/
def toUInt64 : Double → Nat
  | .finite false m e => min (roundHalfUp m e) maxUInt64
  | .finite true _ _ => 0
  | .infinite negative => if negative then 0 else maxUInt64
  | .nan => 0

example : ofRatio false 1 10 = .finite false 7205759403792794 (-56) := by decide +kernel
example : ofRatio false 9007199254740993 1 = ofRatio false 9007199254740992 1 := by decide +kernel

end Double

end RouteSync.Decimal
