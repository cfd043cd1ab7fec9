import RouteSync.Text.Ranges

/-!
# Blank text

The characters of Unicode's `White_Space` property, trimming, and the notion of blank text: text that
is empty once it is trimmed.
-/

namespace RouteSync.Text

/-- The ranges of `White_Space`, ends included. -/
def spaceRanges : List (Nat × Nat) :=
  [(0x9, 0xD), (0x20, 0x20), (0x85, 0x85), (0xA0, 0xA0), (0x1680, 0x1680), (0x2000, 0x200A),
   (0x2028, 0x2029), (0x202F, 0x202F), (0x205F, 0x205F), (0x3000, 0x3000)]

def isSpace (c : Char) : Bool := inRanges spaceRanges c

/-- Drops the spaces at both ends. -/
def trimChars (s : List Char) : List Char :=
  ((s.dropWhile isSpace).reverse.dropWhile isSpace).reverse

def trim (s : String) : String := String.ofList (trimChars s.toList)

/-- Text made of spaces only. -/
def isBlank (s : String) : Bool := s.toList.all isSpace

theorem dropWhile_eq_nil_iff (s : List Char) : s.dropWhile isSpace = [] ↔ s.all isSpace = true := by
  induction s with
  | nil => simp
  | cons c s ih => by_cases h : isSpace c = true <;> simp_all

theorem all_dropWhile (s : List Char) : (s.dropWhile isSpace).all isSpace = s.all isSpace := by
  induction s with
  | nil => rfl
  | cons c s ih => by_cases h : isSpace c = true <;> simp_all

theorem trimChars_eq_nil_iff (s : List Char) : trimChars s = [] ↔ s.all isSpace = true := by
  rw [trimChars, List.reverse_eq_nil_iff, dropWhile_eq_nil_iff, List.all_reverse, all_dropWhile]

/-- Blank text is text that trims to nothing. -/
theorem isBlank_iff (s : String) : isBlank s = true ↔ trim s = "" := by
  rw [isBlank, trim, ← trimChars_eq_nil_iff, ← String.toList_inj, String.toList_ofList]
  simp

example : isBlank "\u00a0\u3000\u0085\n" = true := by decide +kernel
example : isBlank "\u200b" = false ∧ isBlank "\ufeff" = false ∧ isBlank "\x00" = false := by
  decide +kernel

end RouteSync.Text
