import RouteSync.Endpoint

/-!
# The order of stored endpoints

Selections list the endpoints of an owner from the oldest to the newest, and those of one moment by
address.  Sorting is by insertion, so equal ones keep their order.  It drops and adds nothing
(`sort_perm`), and afterwards no endpoint comes before an earlier one of the list (`pairwise_sort`).
-/

namespace RouteSync.StoredEndpoint

/-- Older, or as old and with a smaller address. -/
def before (a b : StoredEndpoint) : Bool :=
  decide (a.created < b.created) || (a.created == b.created && decide (a.url < b.url))

/-- Inserts before the first one that `r` does not come after. -/
def insertSorted (r : StoredEndpoint) : List StoredEndpoint → List StoredEndpoint
  | [] => [r]
  | a :: rest => if a.before r then a :: insertSorted r rest else r :: a :: rest

/-- Sorts endpoints by `before`. -/
def sort (l : List StoredEndpoint) : List StoredEndpoint := l.foldr insertSorted []

theorem before_iff {a b : StoredEndpoint} :
    a.before b = true ↔ a.created < b.created ∨ (a.created = b.created ∧ a.url < b.url) := by
  simp [before]

theorem before_irrefl (a : StoredEndpoint) : ¬ a.before a = true := by
  rw [before_iff]
  rintro (h | ⟨_, h⟩)
  · exact UInt64.lt_irrefl _ h
  · exact String.lt_irrefl _ h

theorem before_trans {a b c : StoredEndpoint} (h : a.before b = true) (h' : b.before c = true) :
    a.before c = true := by
  rw [before_iff] at h h' ⊢
  rcases h with h | ⟨h, hu⟩ <;> rcases h' with h' | ⟨h', hu'⟩
  · exact .inl (UInt64.lt_trans h h')
  · exact .inl (h' ▸ h)
  · exact .inl (h ▸ h')
  · exact .inr ⟨h.trans h', String.lt_trans hu hu'⟩

/-- Not coming before is transitive: the order is a strict weak one. -/
theorem not_before_trans {a b c : StoredEndpoint} (h : ¬ a.before b = true)
    (h' : ¬ b.before c = true) : ¬ a.before c = true := by
  simp only [before_iff, not_or, not_and, UInt64.not_lt, String.not_lt] at *
  refine ⟨UInt64.le_trans h'.1 h.1, fun e => ?_⟩
  have h1 : a.created = b.created := UInt64.le_antisymm (e ▸ h'.1) h.1
  exact String.le_trans (h'.2 (h1 ▸ e)) (h.2 h1)

theorem insertSorted_perm (r : StoredEndpoint) (l : List StoredEndpoint) :
    (insertSorted r l).Perm (r :: l) := by
  induction l with
  | nil => exact .refl _
  | cons a l ih =>
    rw [insertSorted]
    split
    · exact (ih.cons a).trans (.swap r a l)
    · exact .refl _

theorem sort_perm (l : List StoredEndpoint) : (sort l).Perm l := by
  induction l with
  | nil => exact .refl _
  | cons a l ih => exact (insertSorted_perm a (sort l)).trans (ih.cons a)

/-- Sorting neither adds nor drops endpoints. -/
theorem mem_sort {a : StoredEndpoint} {l : List StoredEndpoint} : a ∈ sort l ↔ a ∈ l :=
  (sort_perm l).mem_iff

theorem pairwise_insertSorted (r : StoredEndpoint) {l : List StoredEndpoint}
    (h : l.Pairwise fun a b => ¬ b.before a = true) :
    (insertSorted r l).Pairwise fun a b => ¬ b.before a = true := by
  induction l with
  | nil => simp [insertSorted]
  | cons a l ih =>
    rw [List.pairwise_cons] at h
    rw [insertSorted]
    split
    · rename_i ha
      refine List.pairwise_cons.2 ⟨fun b hb => ?_, ih h.2⟩
      rcases List.mem_cons.1 ((insertSorted_perm r l).mem_iff.1 hb) with rfl | hb
      · exact fun hr => before_irrefl a (before_trans ha hr)
      · exact h.1 b hb
    · rename_i ha
      refine List.pairwise_cons.2 ⟨fun b hb => ?_, List.pairwise_cons.2 h⟩
      rcases List.mem_cons.1 hb with rfl | hb
      · exact ha
      · exact not_before_trans (h.1 b hb) ha

/-- In a sorted list no endpoint comes before an earlier one. -/
theorem pairwise_sort (l : List StoredEndpoint) :
    (sort l).Pairwise fun a b => ¬ b.before a = true := by
  induction l with
  | nil => exact List.Pairwise.nil
  | cons a l ih => exact pairwise_insertSorted a ih

/-- Overwrites the columns that an update changes. -/
def merge (r : StoredEndpoint) (c : Columns) (now : UInt64) : StoredEndpoint :=
  { r with columns := c, updated := now }

end RouteSync.StoredEndpoint
