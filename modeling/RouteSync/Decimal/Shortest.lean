import RouteSync.Decimal.Double

/-!
# The fewest digits that read back

A finite double is written with as few significant digits as read back to it, and of several such
digit strings with the nearest.  For each length the two neighbours of the value on that decimal grid
are tried in exact arithmetic.
-/

namespace RouteSync.Decimal

/-- The number `digits · 10 ^ (exponent - k + 1)`, where `k` counts the digits: `exponent` is the
decimal exponent of the first one. -/
structure Scientific where
  digits : List Char
  exponent : Int
  deriving DecidableEq, Repr

/-- `10 ^ p` as a ratio. -/
def tenRatio (p : Int) : Nat × Nat :=
  if 0 ≤ p then (tenPow p.toNat, 1) else (1, tenPow (-p).toNat)

/-- The reals that round to `m · 2 ^ e`, and the value itself, in units of `2 ^ (e - 2)`.  The lower
half gap is smaller at a power of two.  The ends belong to the interval when `m` is even. -/
structure Interval where
  low : Nat
  value : Nat
  high : Nat
  closed : Bool

def interval (m : Nat) (e : Int) : Interval where
  low := if m = Double.minMantissa ∧ Double.minExponent < e then 4 * m - 1 else 4 * m - 2
  value := 4 * m
  high := 4 * m + 2
  closed := m % 2 == 0

/-- Whether a point, given on the scale of the interval, lies in it. -/
def Interval.holds (i : Interval) (unit point : Nat) : Bool :=
  if i.closed then decide (i.low * unit ≤ point) && decide (point ≤ i.high * unit)
  else decide (i.low * unit < point) && decide (point < i.high * unit)

/-- The neighbour of the value on the grid of step `10 ^ p` that reads back, the nearer one of two, and
the even one of two equally near. -/
def neighbour? (i : Interval) (e p : Int) : Option Nat :=
  let u := Double.ratio 1 (e - 2)
  let t := tenRatio p
  let unit := u.1 * t.2
  let step := t.1 * u.2
  let v := i.value * unit
  let below := v / step
  let above := below + 1
  match i.holds unit (below * step), i.holds unit (above * step) with
  | true, true =>
    let twice := 2 * (v - below * step)
    if twice < step then some below
    else if step < twice then some above
    else if below % 2 = 0 then some below else some above
  | true, false => some below
  | false, true => some above
  | false, false => none

/-- The decimal exponent of the first digit of `num / den`. -/
def firstExponent (num den : Nat) : Int :=
  let guess : Int := (((Nat.log2 num : Int) - (Nat.log2 den : Int)) * 30103) / 100000
  let fits (d : Int) : Bool :=
    let t := tenRatio d
    decide (t.1 * den ≤ num * t.2)
  if fits (guess + 1) then guess + 1 else if fits guess then guess else guess - 1

/-- Digits without trailing zeros. -/
def stripZeros (ds : List Char) : List Char := (ds.reverse.dropWhile (· == '0')).reverse

/-- The shortest digits of the positive double `m · 2 ^ e`. -/
def shortest (m : Nat) (e : Int) : Scientific :=
  let r := Double.ratio m e
  let d := firstExponent r.1 r.2
  let i := interval m e
  match (List.range 17).findSome? fun (k : Nat) =>
      (neighbour? i e (d - k)).map fun n => (n, d - (k : Int)) with
  | some (n, p) =>
    let ds := Nat.toDigits 10 n
    ⟨stripZeros ds, p + (ds.length : Int) - 1⟩
  | none => ⟨Nat.toDigits 10 m, 0⟩

/-- Positional notation, with a fraction only if there is one. -/
def Scientific.positional (s : Scientific) : List Char :=
  let n : Int := s.digits.length
  if s.exponent < 0 then
    '0' :: '.' :: (List.replicate (-s.exponent - 1).toNat '0' ++ s.digits)
  else if n ≤ s.exponent + 1 then
    s.digits ++ List.replicate (s.exponent + 1 - n).toNat '0'
  else
    let k := (s.exponent + 1).toNat
    s.digits.take k ++ '.' :: s.digits.drop k

/-- One digit, the others after a point, and the exponent with its sign. -/
def Scientific.exponential (s : Scientific) : List Char :=
  let mantissa := match s.digits with
    | [] => ['0']
    | [d] => [d]
    | d :: ds => d :: '.' :: ds
  let mark := if s.exponent < 0 then '-' else '+'
  mantissa ++ 'e' :: mark :: Nat.toDigits 10 s.exponent.natAbs

def signed (negative : Bool) (cs : List Char) : List Char := if negative then '-' :: cs else cs

/-- Plain text: positional always, an integer without a fraction. -/
def Double.plain : Double → List Char
  | .finite s m e => signed s (if m = 0 then ['0'] else (shortest m e).positional)
  | .infinite s => signed s ['i', 'n', 'f']
  | .nan => ['N', 'a', 'N']

/-- Positional text that always has a fraction. -/
def Double.withFraction (d : Double) : List Char :=
  match d with
  | .finite _ _ _ => if d.plain.contains '.' then d.plain else d.plain ++ ['.', '0']
  | _ => d.plain

/-- Documents write a double positionally when its first digit stands between `10 ^ -5` and
`10 ^ 15`, always with a fraction, and exponentially otherwise. -/
def Double.document : Double → List Char
  | .finite s m e =>
    signed s <|
      if m = 0 then ['0', '.', '0']
      else
        let d := shortest m e
        if -5 ≤ d.exponent ∧ d.exponent < 16 then
          if (d.digits.length : Int) ≤ d.exponent + 1 then d.positional ++ ['.', '0']
          else d.positional
        else d.exponential
  | .infinite s => signed s ['i', 'n', 'f']
  | .nan => ['n', 'u', 'l', 'l']

example : (Double.ofRatio false 1 10).document = ['0', '.', '1'] := by decide +kernel
example : (Double.ofRatio true 1 1000000).document = ['-', '1', 'e', '-', '6'] := by decide +kernel
example : (Double.ofNat false (tenPow 16)).document = ['1', 'e', '+', '1', '6'] := by decide +kernel
example : (Double.ofNat false (tenPow 15)).document =
    ['1', '0', '0', '0', '0', '0', '0', '0', '0', '0', '0', '0', '0', '0', '0', '0', '.', '0'] := by
  decide +kernel
example : (Double.finite false 1 (-1074)).document = ['5', 'e', '-', '3', '2', '4'] := by
  decide +kernel
example : (Double.ofRatio false 15 10).plain = ['1', '.', '5'] := by decide +kernel

end RouteSync.Decimal
