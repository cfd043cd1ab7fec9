import RouteSync.Json.Number

/-!
# Documents as written

`Tree` is a JSON document before it is given a meaning: members keep their order and may repeat a key,
numbers are numerals, and a text is absent when its escapes name a lone surrogate.  `Tree.read?` accepts
the strict grammar: four kinds of white space, no trailing commas, no leading zeros, no text after the
document.
-/

namespace RouteSync.Json

open RouteSync.Text

/-- A document as written. -/
inductive Tree
  | null
  | bool (b : Bool)
  | number (n : Numeral)
  | text (s : Option String)
  | array (items : List Tree)
  | object (members : List (Option String × Tree))
  deriving Repr, Inhabited

namespace Tree

/-! ### Texts -/

/-- A piece of a written text: a character, or a code unit of 16 bits given by its number. -/
inductive Piece
  | char (c : Char)
  | unit (u : Nat)
  deriving DecidableEq, Repr

def hex4? (a b c d : Char) : Option Nat := do
  let a ← hexDigit? a
  let b ← hexDigit? b
  let c ← hexDigit? c
  let d ← hexDigit? d
  return ((a * 16 + b) * 16 + c) * 16 + d

/-- The character of a short escape. -/
def shortEscape? : Char → Option Char
  | '"' => some '"'
  | '\\' => some '\\'
  | '/' => some '/'
  | 'b' => some '\x08'
  | 'f' => some '\x0c'
  | 'n' => some '\n'
  | 'r' => some '\r'
  | 't' => some '\t'
  | _ => none

/-- The pieces up to the closing quote, and what follows it. -/
def readPieces : List Char → Option (List Piece × List Char)
  | [] => none
  | '"' :: r => some ([], r)
  | '\\' :: 'u' :: a :: b :: c :: d :: r => do
    let u ← hex4? a b c d
    let (ps, r) ← readPieces r
    return (.unit u :: ps, r)
  | '\\' :: e :: r => do
    let c ← shortEscape? e
    let (ps, r) ← readPieces r
    return (.char c :: ps, r)
  | c :: r =>
    if c.toNat < 0x20 then none
    else do
      let (ps, r) ← readPieces r
      return (.char c :: ps, r)

/-- Joins the two halves of a surrogate pair; a half on its own has no meaning. -/
def joinPieces : List Piece → Option (List Char)
  | [] => some []
  | .char c :: r => (joinPieces r).map (c :: ·)
  | .unit h :: .unit l :: r =>
    if 0xD800 ≤ h ∧ h < 0xDC00 ∧ 0xDC00 ≤ l ∧ l < 0xE000 then
      (joinPieces r).map (Char.ofNat (0x10000 + (h - 0xD800) * 0x400 + (l - 0xDC00)) :: ·)
    else if 0xD800 ≤ h ∧ h < 0xE000 then none
    else (joinPieces (.unit l :: r)).map (Char.ofNat h :: ·)
  | .unit u :: r =>
    if 0xD800 ≤ u ∧ u < 0xE000 then none else (joinPieces r).map (Char.ofNat u :: ·)

/-- A text after its opening quote. -/
def readText (s : List Char) : Option (Option String × List Char) :=
  (readPieces s).map fun (ps, r) => ((joinPieces ps).map String.ofList, r)

/-! ### Numbers -/

/-- The digits at the front. -/
def spanDigits : List Char → List Nat × List Char
  | [] => ([], [])
  | c :: r =>
    match digit? c with
    | some d => let (ds, r) := spanDigits r; (d :: ds, r)
    | none => ([], c :: r)

/-- At least one digit. -/
def someDigits (s : List Char) : Option (List Nat × List Char) :=
  match spanDigits s with
  | ([], _) => none
  | p => some p

def readWhole : List Char → Option (List Nat × List Char)
  | '0' :: r => some ([0], r)
  | s => someDigits s

def readFraction : List Char → Option (List Nat × List Char)
  | '.' :: r => someDigits r
  | s => some ([], s)

def readExponentDigits : List Char → Option ((Bool × List Nat) × List Char)
  | '+' :: r => (someDigits r).map fun (ds, r) => ((false, ds), r)
  | '-' :: r => (someDigits r).map fun (ds, r) => ((true, ds), r)
  | r => (someDigits r).map fun (ds, r) => ((false, ds), r)

def readExponent : List Char → Option (Option (Bool × List Nat) × List Char)
  | 'e' :: r => (readExponentDigits r).map fun (e, r) => (some e, r)
  | 'E' :: r => (readExponentDigits r).map fun (e, r) => (some e, r)
  | s => some (none, s)

def readMagnitude (negative : Bool) (s : List Char) : Option (Numeral × List Char) := do
  let (whole, r) ← readWhole s
  let (fraction, r) ← readFraction r
  let (exponent, r) ← readExponent r
  return (⟨negative, whole, fraction, exponent⟩, r)

def readNumeral : List Char → Option (Numeral × List Char)
  | '-' :: r => readMagnitude true r
  | s => readMagnitude false s

/-! ### Values -/

def isGap (c : Char) : Bool := c == ' ' || c == '\t' || c == '\n' || c == '\r'

def skip (s : List Char) : List Char := s.dropWhile isGap

mutual

/-- A value that starts at the first character.  The fuel bounds the calls; twice the length of the text
is enough. -/
def readValue : Nat → List Char → Option (Tree × List Char)
  | 0, _ => none
  | fuel + 1, s =>
    match s with
    | 'n' :: 'u' :: 'l' :: 'l' :: r => some (.null, r)
    | 't' :: 'r' :: 'u' :: 'e' :: r => some (.bool true, r)
    | 'f' :: 'a' :: 'l' :: 's' :: 'e' :: r => some (.bool false, r)
    | '"' :: r => (readText r).map fun (t, r) => (.text t, r)
    | '[' :: r =>
      match skip r with
      | ']' :: r => some (.array [], r)
      | r => (readItems fuel r).map fun (l, r) => (.array l, r)
    | '\x7b' :: r =>
      match skip r with
      | '\x7d' :: r => some (.object [], r)
      | r => (readMembers fuel r).map fun (l, r) => (.object l, r)
    | s => (readNumeral s).map fun (n, r) => (.number n, r)

/-- The items of an array up to its bracket, at least one. -/
def readItems : Nat → List Char → Option (List Tree × List Char)
  | 0, _ => none
  | fuel + 1, s => do
    let (v, r) ← readValue fuel (skip s)
    match skip r with
    | ',' :: r =>
      let (vs, r) ← readItems fuel r
      return (v :: vs, r)
    | ']' :: r => return ([v], r)
    | _ => none

/-- The members of an object up to its brace, at least one. -/
def readMembers : Nat → List Char → Option (List (Option String × Tree) × List Char)
  | 0, _ => none
  | fuel + 1, s =>
    match skip s with
    | '"' :: r => do
      let (k, r) ← readText r
      match skip r with
      | ':' :: r =>
        let (v, r) ← readValue fuel (skip r)
        match skip r with
        | ',' :: r =>
          let (vs, r) ← readMembers fuel r
          return ((k, v) :: vs, r)
        | '\x7d' :: r => return ([(k, v)], r)
        | _ => none
      | _ => none
    | _ => none

end

/-- A whole document. -/
def readChars? (s : List Char) : Option Tree := do
  let (v, r) ← readValue (2 * s.length + 2) (skip s)
  if skip r = [] then some v else none

def read? (s : String) : Option Tree := readChars? s.toList

end Tree

end RouteSync.Json
