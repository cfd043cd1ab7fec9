/-!
# Splitting text

A text is parted at each occurrence of a separator; there is one piece more than there are separators.
-/

namespace RouteSync.Text

/-- The pieces between the occurrences of a separator. -/
def splitAt (separator : Char) : List Char → List (List Char)
  | [] => [[]]
  | c :: cs =>
    match splitAt separator cs with
    | [] => [[c]]
    | p :: ps => if c = separator then [] :: p :: ps else (c :: p) :: ps

theorem splitAt_ne_nil (separator : Char) (s : List Char) : splitAt separator s ≠ [] := by
  induction s with
  | nil => simp [splitAt]
  | cons c cs ih =>
    rw [splitAt]
    split
    · simp
    · split <;> simp

/-- Nothing is lost: the pieces with the separators between them are the text. -/
theorem intercalate_splitAt (separator : Char) (s : List Char) :
    [separator].intercalate (splitAt separator s) = s := by
  induction s with
  | nil => rfl
  | cons c cs ih =>
    rw [splitAt]
    split
    · rename_i h
      exact absurd h (splitAt_ne_nil separator cs)
    · rename_i p ps h
      rw [h] at ih
      split
      · rename_i hc
        subst hc
        cases ps <;> simp_all [List.intercalate]
      · cases ps <;> simp_all [List.intercalate]

example : splitAt '/' "a//b".toList = [['a'], [], ['b']] := by decide +kernel

end RouteSync.Text
