import RouteSync.Decimal.Double
import RouteSync.Text.Integer

/-!
# Reading decimals

Two ways from decimal digits to a double.  `nearest` is exact: the double nearest to the written
number.  `scaled` is the quick way of document readers: the digits that fit into 64 bits are rounded to
a double first, and that is multiplied or divided by the double of a power of ten, so the last digit
can be off by one.
-/

namespace RouteSync.Decimal

open RouteSync.Text

/-- The double nearest to `± digits · 10 ^ exponent`. -/
def nearest (negative : Bool) (digits : Nat) (exponent : Int) : Double :=
  if digits = 0 then .zero negative
  else
    let size : Int := (Nat.toDigits 10 digits).length + exponent
    if 400 < size then .infinite negative
    else if size < -400 then .zero negative
    else if 0 ≤ exponent then .ofNat negative (digits * tenPow exponent.toNat)
    else .ofRatio negative digits (tenPow (-exponent).toNat)

/-- The double of `10 ^ k`, as a ratio. -/
def tenPowRounded (k : Nat) : Nat × Nat :=
  match Double.ofNat false (tenPow k) with
  | .finite _ m e => Double.ratio m e
  | _ => (1, 1)

/-- Scales `d` by `10 ^ e` in double arithmetic, in steps of at most 308; `none` if that leaves the
finite doubles.  The fuel bounds the steps down, of which two already reach zero. -/
def scaleSteps : Nat → Double → Int → Option Double
  | 0, d, _ => some d
  | fuel + 1, d, e =>
    if 0 ≤ e then
      if e ≤ 308 then
        let r := tenPowRounded e.toNat
        match d.scale r.1 r.2 with
        | .infinite _ => none
        | d => some d
      else if d.isZero then some d else none
    else if -308 ≤ e then
      let r := tenPowRounded (-e).toNat
      some (d.scale r.2 r.1)
    else if d.isZero then some d
    else
      let r := tenPowRounded 308
      scaleSteps fuel (d.scale r.2 r.1) (e + 308)

/-- Quick reading of `± significand · 10 ^ exponent`, the significand being below `2 ^ 64`. -/
def scaled (negative : Bool) (significand : Nat) (exponent : Int) : Option Double :=
  scaleSteps 8 (.ofNat negative significand) exponent

/-- A decimal with an optional sign, as settings write it: digits on at least one side of the point, an
optional exponent; or a name for infinity or for no number, in any case. -/
def readDouble? (s : String) : Option Double :=
  let (negative, body) := match s.toList with
    | '+' :: r => (false, r)
    | '-' :: r => (true, r)
    | r => (false, r)
  let name := body.map Char.toLower
  if name = ['i', 'n', 'f'] ∨ name = ['i', 'n', 'f', 'i', 'n', 'i', 't', 'y'] then
    some (.infinite negative)
  else if name = ['n', 'a', 'n'] then some .nan
  else
    let whole := body.takeWhile Char.isDigit
    let rest := body.drop whole.length
    let (fraction, rest) := match rest with
      | '.' :: r => (r.takeWhile Char.isDigit, r.dropWhile Char.isDigit)
      | r => ([], r)
    match (whole ++ fraction).mapM digit? with
    | none => none
    | some [] => none
    | some ds =>
      let exponent := match rest with
        | [] => some 0
        | 'e' :: r => readInt? r
        | 'E' :: r => readInt? r
        | _ => none
      exponent.map fun e => nearest negative (ofDigits ds) (e - fraction.length)

end RouteSync.Decimal
