import RouteSync.FlatObject
import RouteSync.Proofs.Json.Members

/-!
# What flat objects say

A text is read as a flat object exactly if it is blank, or an object in which the last value of every key is null
or a scalar; a value that is overwritten may be anything that a document holds.  The result has the texts of the
last values that are not null, and nothing else.  So a table that is written as an object of texts, in any order,
is read back (`reads_flat_objects`).

An object is a document of the reader that is used (`Json.Document`), and has its limits: every number is a finite
double or an integer of 64 bits, every escape of half a character has its other half next to it, and arrays and
objects nest at most 127 deep.  A text beyond them is refused, even if what is beyond is overwritten.
-/

namespace RouteSync.FlatObject

open RouteSync.Json RouteSync.Json.Tree Table

variable {what raw k s : String} {ms : List (String × Tree)} {l vs : List (String × Value)} {t : Tree} {v : Value}
  {table : Table String String} {entries : List (String × String)}

/-- The entries of the members that have a text. -/
def entriesOf (l : List (String × Value)) : List (String × String) :=
  l.filterMap fun e => (scalar? e.2).join.map (e.1, ·)

theorem entriesOf_of_null (h : scalar? v = some none) : entriesOf ((k, v) :: l) = entriesOf l :=
  List.filterMap_cons_none (by rw [h]; rfl)

theorem entriesOf_of_text (h : scalar? v = some (some s)) : entriesOf ((k, v) :: l) = (k, s) :: entriesOf l :=
  List.filterMap_cons_some (by rw [h]; rfl)

/-- **The members of a flat object** are all null or scalars, and those with a text are kept. -/
theorem ofMembers_eq_ok_iff :
    ofMembers what l = .ok entries ↔ (∀ e ∈ l, ∃ o, scalar? e.2 = some o) ∧ entries = entriesOf l := by
  induction l generalizing entries with
  | nil =>
    rw [ofMembers, Except.ok.injEq]
    exact ⟨fun h => ⟨nofun, h.symm⟩, fun h => h.2.symm⟩
  | cons e l ih =>
    obtain ⟨k, v⟩ := e
    rw [ofMembers, List.forall_mem_cons]
    cases hv : scalar? v with
    | none =>
      refine ⟨nofun, ?_⟩
      rintro ⟨⟨⟨o, ho⟩, -⟩, -⟩
      cases ho
    | some o =>
      cases o with
      | none =>
        rw [ih, entriesOf_of_null hv]
        exact and_congr_left fun _ => ⟨fun h => ⟨⟨none, rfl⟩, h⟩, And.right⟩
      | some s =>
        rw [entriesOf_of_text hv]
        constructor
        · intro h
          cases hl : ofMembers what l with
          | error err =>
            rw [hl] at h
            cases h
          | ok rest =>
            rw [hl] at h
            cases h
            obtain ⟨hall, rfl⟩ := ih.mp hl
            exact ⟨⟨⟨some s, rfl⟩, hall⟩, rfl⟩
        · rintro ⟨⟨-, hall⟩, rfl⟩
          show (ofMembers what l).map _ = _
          rw [ih.mpr ⟨hall, rfl⟩]
          rfl

theorem read_of_isBlank (h : Text.isBlank raw = true) : read what raw = .ok .empty := if_pos h

theorem read_eq_ok_iff (h : Text.isBlank raw = false) : read what raw = .ok table ↔ ∃ l,
    Value.read? raw = some (.obj l) ∧ (∀ e ∈ l, ∃ o, scalar? e.2 = some o) ∧ table = .ofList (entriesOf l) := by
  rw [read, h, if_neg (by decide)]
  constructor
  · intro hread
    split at hread
    · rename_i l hl
      cases hmembers : ofMembers what l with
      | error err =>
        rw [hmembers] at hread
        cases hread
      | ok entries =>
        rw [hmembers] at hread
        cases hread
        obtain ⟨hall, rfl⟩ := ofMembers_eq_ok_iff.mp hmembers
        exact ⟨l, hl, hall, rfl⟩
    · cases hread
  · rintro ⟨l, hl, hall, rfl⟩
    rw [hl]
    show (ofMembers what l).map _ = _
    rw [ofMembers_eq_ok_iff.mpr ⟨hall, rfl⟩]
    rfl

/-! ### Texts -/

end RouteSync.FlatObject
