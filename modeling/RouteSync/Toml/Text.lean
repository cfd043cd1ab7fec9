import RouteSync.Text.Integer

/-!
# Keys and texts of TOML

Basic texts stand in double quotes and know escapes, literal texts stand in single quotes and know
none.  Both end on the line on which they begin.

TOML also has texts over several lines, in three quotes of either kind.  They are not read here: the first two
quotes are an empty text, and the third one makes the document malformed.  This is a limit of this reader.
-/

namespace RouteSync.Toml

open RouteSync.Text

/-- Whether a character may stand in comments and texts: no control but the tab. -/
def isPlain (c : Char) : Bool := c == '\t' || (decide (0x20 ≤ c.toNat) && c.toNat != 0x7f)

/-- The character of a short escape. -/
def shortEscape? : Char → Option Char
  | '"' => some '"'
  | '\\' => some '\\'
  | 'b' => some '\x08'
  | 'f' => some '\x0c'
  | 'n' => some '\n'
  | 'r' => some '\r'
  | 't' => some '\t'
  | _ => none

/-- The character with the number that these hexadecimal digits write. -/
def numbered? (digits : List Char) : Option Char := do
  let n := ofDigitsIn 16 (← digits.mapM hexDigit?)
  if n.isValidChar then some (Char.ofNat n) else none

/-- A basic text after its opening quote. -/
def readBasic : List Char → Option (List Char × List Char)
  | [] => none
  | '"' :: r => some ([], r)
  | '\\' :: 'u' :: a :: b :: c :: d :: r => do
    let x ← numbered? [a, b, c, d]
    let (cs, r) ← readBasic r
    return (x :: cs, r)
  | '\\' :: 'U' :: a :: b :: c :: d :: e :: f :: g :: h :: r => do
    let x ← numbered? [a, b, c, d, e, f, g, h]
    let (cs, r) ← readBasic r
    return (x :: cs, r)
  | '\\' :: e :: r => do
    let x ← shortEscape? e
    let (cs, r) ← readBasic r
    return (x :: cs, r)
  | c :: r =>
    if isPlain c then do
      let (cs, r) ← readBasic r
      return (c :: cs, r)
    else none

/-- A literal text after its opening quote. -/
def readLiteral : List Char → Option (List Char × List Char)
  | [] => none
  | '\x27' :: r => some ([], r)
  | c :: r =>
    if isPlain c then do
      let (cs, r) ← readLiteral r
      return (c :: cs, r)
    else none

def isBlank (c : Char) : Bool := c == ' ' || c == '\t'

def skipBlanks (s : List Char) : List Char := s.dropWhile isBlank

/-- Whether a character may stand in a key without quotes. -/
def isBare (c : Char) : Bool := c.isAlphanum || c == '_' || c == '-'

/-- One part of a key. -/
def readPart : List Char → Option (String × List Char)
  | '"' :: r => (readBasic r).map fun (cs, r) => (String.ofList cs, r)
  | '\x27' :: r => (readLiteral r).map fun (cs, r) => (String.ofList cs, r)
  | s =>
    match s.takeWhile isBare with
    | [] => none
    | cs => some (String.ofList cs, s.dropWhile isBare)

end RouteSync.Toml
