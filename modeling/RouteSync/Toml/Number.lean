import RouteSync.Toml.Value

/-!
# Numbers of TOML

Digits stand in groups joined by single underscores, and a decimal number has no leading zeros.
Integers have 64 bits; a number with a fraction or an exponent is a double, and an infinite positive one
has to be written as such.
-/

namespace RouteSync.Toml

open RouteSync.Text RouteSync.Decimal

/-- At least one digit; an underscore has a digit on both sides. -/
def readDigits (value? : Char → Option Nat) : List Char → Option (List Nat × List Char)
  | [] => none
  | c :: r =>
    match value? c with
    | none => none
    | some d =>
      match r with
      | [] => some ([d], [])
      | '_' :: r => (readDigits value? r).map fun (ds, r) => (d :: ds, r)
      | x :: r =>
        if (value? x).isSome then (readDigits value? (x :: r)).map fun (ds, r) => (d :: ds, r)
        else some ([d], x :: r)

def readWhole : List Char → Option (List Nat × List Char)
  | '0' :: r => some ([0], r)
  | s => readDigits digit? s

/-- The digits after a point, if there is one. -/
def readFraction : List Char → Option (Option (List Nat) × List Char)
  | '.' :: r => (readDigits digit? r).map fun (ds, r) => (some ds, r)
  | s => some (none, s)

def readExponentDigits : List Char → Option (Int × List Char)
  | '+' :: r => (readDigits digit? r).map fun (ds, r) => (Int.ofNat (ofDigits ds), r)
  | '-' :: r => (readDigits digit? r).map fun (ds, r) => (-Int.ofNat (ofDigits ds), r)
  | r => (readDigits digit? r).map fun (ds, r) => (Int.ofNat (ofDigits ds), r)

def readExponent : List Char → Option (Option Int × List Char)
  | 'e' :: r => (readExponentDigits r).map fun (e, r) => (some e, r)
  | 'E' :: r => (readExponentDigits r).map fun (e, r) => (some e, r)
  | s => some (none, s)

/-- An integer of 64 bits. -/
def integer? (n : Int) : Option Toml :=
  if minInt64 ≤ n ∧ n ≤ maxInt64 then some (.integer n) else none

def decimal? (negative : Bool) (whole : List Nat) (fraction : Option (List Nat)) (exponent : Option Int) :
    Option Toml :=
  match fraction, exponent with
  | none, none =>
    let n := Int.ofNat (ofDigits whole)
    integer? (if negative then -n else n)
  | _, _ =>
    let fraction := fraction.getD []
    let d := nearest negative (ofDigits (whole ++ fraction)) (exponent.getD 0 - fraction.length)
    if d = .infinite false then none else some (.real d)

/-- A decimal number after its sign, or one of the two names. -/
def readMagnitude (negative : Bool) : List Char → Option (Toml × List Char)
  | 'i' :: 'n' :: 'f' :: r => some (.real (.infinite negative), r)
  | 'n' :: 'a' :: 'n' :: r => some (.real .nan, r)
  | s => do
    let (whole, r) ← readWhole s
    let (fraction, r) ← readFraction r
    let (exponent, r) ← readExponent r
    return (← decimal? negative whole fraction exponent, r)

/-- An integer in another base after its mark. -/
def readBased (base : Nat) (s : List Char) : Option (Toml × List Char) := do
  let (ds, r) ← readDigits (fun c => (hexDigit? c).filter fun d => decide (d < base)) s
  return (← integer? (ofDigitsIn base ds), r)

def readNumber : List Char → Option (Toml × List Char)
  | '0' :: 'x' :: r => readBased 16 r
  | '0' :: 'o' :: r => readBased 8 r
  | '0' :: 'b' :: r => readBased 2 r
  | '+' :: r => readMagnitude false r
  | '-' :: r => readMagnitude true r
  | s => readMagnitude false s

end RouteSync.Toml
