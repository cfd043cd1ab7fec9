/-!
# Sets of texts

A set of texts, such as watch keys or names, as the list of its members in order.  What is in a set
after a change is said by `mem_insert` and `mem_erase`.
-/

namespace RouteSync

/-- A set of texts, its members in order. -/
structure KeySet where
  members : List String
  sorted : members.Pairwise (· < ·)
  deriving DecidableEq

namespace KeySet

def put (k : String) : List String → List String
  | [] => [k]
  | a :: rest => if k < a then k :: a :: rest else if a < k then a :: put k rest else a :: rest

theorem eq_of_not_lt {a b : String} (h : ¬ a < b) (h' : ¬ b < a) : a = b :=
  String.le_antisymm (String.not_lt.1 h') (String.not_lt.1 h)

theorem mem_put {k a : String} {l : List String} : a ∈ put k l ↔ a = k ∨ a ∈ l := by
  induction l with
  | nil => simp [put]
  | cons b l ih =>
    rw [put]
    split
    · simp
    · split
      · simp only [List.mem_cons, ih]
        grind
      · rename_i h h'
        have : k = b := eq_of_not_lt h h'
        subst this
        simp

theorem sorted_put (k : String) {l : List String} (h : l.Pairwise (· < ·)) :
    (put k l).Pairwise (· < ·) := by
  induction l with
  | nil => simp [put]
  | cons a l ih =>
    rw [List.pairwise_cons] at h
    rw [put]
    split
    · rename_i hk
      refine List.pairwise_cons.2 ⟨?_, List.pairwise_cons.2 h⟩
      intro c hc
      rcases List.mem_cons.1 hc with rfl | hc
      · exact hk
      · exact String.lt_trans hk (h.1 c hc)
    · split
      · rename_i hk
        refine List.pairwise_cons.2 ⟨?_, ih h.2⟩
        intro c hc
        rcases mem_put.1 hc with rfl | hc
        · exact hk
        · exact h.1 c hc
      · exact List.pairwise_cons.2 h

def empty : KeySet := ⟨[], by simp⟩

instance : Inhabited KeySet := ⟨empty⟩

instance : Membership String KeySet := ⟨fun s k => k ∈ s.members⟩

def contains (s : KeySet) (k : String) : Bool := s.members.contains k

def insert (s : KeySet) (k : String) : KeySet := ⟨put k s.members, sorted_put k s.sorted⟩

def erase (s : KeySet) (k : String) : KeySet :=
  ⟨s.members.filter fun a => a != k, s.sorted.filter _⟩

/-- The members that are in none of some sets. -/
def without (s : KeySet) (others : List KeySet) : List String :=
  s.members.filter fun k => !others.any fun o => o.contains k

theorem mem_iff {s : KeySet} {k : String} : k ∈ s ↔ k ∈ s.members := Iff.rfl

theorem contains_iff {s : KeySet} {k : String} : s.contains k = true ↔ k ∈ s := by
  simp [contains, mem_iff]

theorem mem_insert {s : KeySet} {k a : String} : a ∈ s.insert k ↔ a = k ∨ a ∈ s := mem_put

theorem mem_erase {s : KeySet} {k a : String} : a ∈ s.erase k ↔ a ∈ s ∧ a ≠ k := by
  simp [mem_iff, erase]

theorem erase_of_not_mem {s : KeySet} {k : String} (h : k ∉ s) : s.erase k = s := by
  obtain ⟨l, hl⟩ := s
  simp only [erase, mk.injEq, List.filter_eq_self, bne_iff_ne]
  rintro a ha rfl
  exact h ha

theorem filter_put {k : String} {l : List String} (h : k ∉ l) : (put k l).filter (· != k) = l := by
  induction l with
  | nil => simp [put]
  | cons a l ih =>
    obtain ⟨ha, hl⟩ : k ≠ a ∧ k ∉ l := by simpa using h
    have hrest : l.filter (· != k) = l := List.filter_eq_self.mpr fun b hb => by
      simpa using fun he : b = k => hl (he ▸ hb)
    rw [put]
    split
    · simp [ha.symm, hrest]
    · split
      · simp [ha.symm, ih hl]
      · exact absurd (eq_of_not_lt ‹_› ‹_›) ha

/-- To put in what is not there and to take it out again changes nothing. -/
theorem erase_insert {s : KeySet} {k : String} (h : k ∉ s) : (s.insert k).erase k = s := by
  obtain ⟨l, hl⟩ := s
  simp only [erase, insert, mk.injEq]
  exact filter_put h

end KeySet

end RouteSync
