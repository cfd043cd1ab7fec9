/-!
# Decimal integers in text

Reading accepts an optional sign and at least one ASCII digit, and nothing else: no spaces, no
separators, no digits of other scripts.  A range is checked afterwards by whoever has one.
-/

namespace RouteSync.Text

/-- The value of an ASCII digit. -/
def digit? (c : Char) : Option Nat :=
  if '0' ≤ c ∧ c ≤ '9' then some (c.toNat - 48) else none

/-- The value of a hexadecimal digit in either case. -/
def hexDigit? (c : Char) : Option Nat :=
  if '0' ≤ c ∧ c ≤ '9' then some (c.toNat - 48)
  else if 'a' ≤ c ∧ c ≤ 'f' then some (c.toNat - 87)
  else if 'A' ≤ c ∧ c ≤ 'F' then some (c.toNat - 55)
  else none

/-- The number that a list of digits writes in a base, most significant first. -/
def ofDigitsIn (base : Nat) (ds : List Nat) : Nat := ds.foldl (fun n d => base * n + d) 0

/-- The number that a list of decimal digits writes. -/
def ofDigits (ds : List Nat) : Nat := ds.foldl (fun n d => 10 * n + d) 0

/-- Reads digits only, at least one. -/
def readNat? (s : List Char) : Option Nat :=
  if s.isEmpty then none else (s.mapM digit?).map ofDigits

/-- Reads digits after an optional sign. -/
def readInt? : List Char → Option Int
  | '+' :: s => (readNat? s).map Int.ofNat
  | '-' :: s => (readNat? s).map fun n => -Int.ofNat n
  | s => (readNat? s).map Int.ofNat

/-- Reads digits after an optional plus sign. -/
def readUnsigned? : List Char → Option Nat
  | '+' :: s => readNat? s
  | s => readNat? s

def minInt64 : Int := -9223372036854775808
def maxInt64 : Int := 9223372036854775807
def maxUInt64 : Nat := 18446744073709551615

/-- Reads an integer of 64 bits with a sign. -/
def readInt64? (s : String) : Option Int :=
  (readInt? s.toList).filter fun n => decide (minInt64 ≤ n ∧ n ≤ maxInt64)

/-- Reads an integer of 64 bits without a sign. -/
def readUInt64? (s : String) : Option Nat :=
  (readUnsigned? s.toList).filter fun n => decide (n ≤ maxUInt64)

theorem toString_inj {m n : Nat} : toString m = toString n ↔ m = n := by
  refine ⟨fun h => ?_, fun h => h ▸ rfl⟩
  rw [Nat.toString_eq_ofList_toDigits, Nat.toString_eq_ofList_toDigits, String.ofList_inj] at h
  rw [← @Nat.ofDigitChars_ten_toDigits m, h, Nat.ofDigitChars_ten_toDigits]

example : readInt64? "-9223372036854775808" = some (-9223372036854775808) := by decide +kernel
example : readInt64? "9223372036854775808" = none := by decide +kernel
example : readInt64? "+" = none ∧ readInt64? "1_0" = none ∧ readUInt64? "-0" = none := by
  decide +kernel

end RouteSync.Text
