/-!
# Byte trees

A byte tree is a finite map from byte strings to byte strings whose entries stand in the order of their
keys, byte by byte.  A scan lists the entries whose keys begin with given bytes, in that order.  What
`get?` sees after a change is said by `get?_insert` and `get?_erase`.
-/

namespace RouteSync

abbrev Bytes := List UInt8

/-- A finite map from bytes to bytes, in the order of its keys. -/
structure ByteTree where
  entries : List (Bytes × Bytes)
  sorted : (entries.map Prod.fst).Pairwise (· < ·)

namespace ByteTree

/-- Puts `v` under `k`, at the place that the order gives it. -/
def put (k v : Bytes) : List (Bytes × Bytes) → List (Bytes × Bytes)
  | [] => [(k, v)]
  | (a, b) :: rest =>
    if k < a then (k, v) :: (a, b) :: rest
    else if a < k then (a, b) :: put k v rest
    else (k, v) :: rest

theorem eq_of_not_lt {a b : Bytes} (h : ¬ a < b) (h' : ¬ b < a) : a = b :=
  List.le_antisymm (List.not_lt.1 h') (List.not_lt.1 h)

theorem mem_put {k v : Bytes} {e : Bytes × Bytes} {l : List (Bytes × Bytes)} (h : e ∈ put k v l) :
    e = (k, v) ∨ e ∈ l := by
  induction l with
  | nil => simpa [put] using h
  | cons d l ih =>
    obtain ⟨a, b⟩ := d
    rw [put] at h
    split at h
    · simpa using h
    · split at h
      · rcases List.mem_cons.1 h with h | h
        · exact .inr (by simp [h])
        · rcases ih h with h | h
          · exact .inl h
          · exact .inr (List.mem_cons_of_mem _ h)
      · rcases List.mem_cons.1 h with h | h
        · exact .inl h
        · exact .inr (List.mem_cons_of_mem _ h)

/-- The value of the first entry of `k`. -/
def find (k : Bytes) (l : List (Bytes × Bytes)) : Option Bytes :=
  (l.find? fun e => e.1 == k).map Prod.snd

theorem find_cons (k a b : Bytes) (l : List (Bytes × Bytes)) :
    find k ((a, b) :: l) = if a = k then some b else find k l := by
  by_cases h : a = k <;> simp [find, h]

theorem find_put (k a v : Bytes) (l : List (Bytes × Bytes)) :
    find a (put k v l) = if k = a then some v else find a l := by
  induction l with
  | nil => rw [put, find_cons]
  | cons e l ih =>
    obtain ⟨c, b⟩ := e
    rw [put]
    split
    · rw [find_cons]
    · split
      · rename_i hc
        have : k ≠ c := fun h => List.lt_irrefl c (h ▸ hc)
        rw [find_cons, find_cons, ih]
        grind
      · rename_i hk hc
        have : k = c := eq_of_not_lt hk hc
        subst this
        rw [find_cons, find_cons]
        grind

theorem find_filter (k a : Bytes) (l : List (Bytes × Bytes)) :
    find a (l.filter fun e => e.1 != k) = if k = a then none else find a l := by
  induction l with
  | nil => simp [find]
  | cons e l ih =>
    obtain ⟨c, b⟩ := e
    by_cases h : c = k
    · subst h
      by_cases ha : c = a <;> simp_all [find_cons]
    · by_cases ha : c = a
      · subst ha
        simp [find_cons, h, Ne.symm h]
      · simp [find_cons, h, ha, ih]

theorem find_eq_some_iff {k v : Bytes} {l : List (Bytes × Bytes)}
    (h : (l.map Prod.fst).Pairwise (· < ·)) : find k l = some v ↔ (k, v) ∈ l := by
  induction l with
  | nil => simp [find]
  | cons e l ih =>
    obtain ⟨a, b⟩ := e
    rw [List.map_cons, List.pairwise_cons] at h
    rw [find_cons]
    by_cases ha : a = k
    · subst ha
      have hv : (a, v) ∉ l := fun hm => List.lt_irrefl a (h.1 a (List.mem_map.2 ⟨(a, v), hm, rfl⟩))
      simp [hv, eq_comm]
    · have hk : ¬ k = a := fun e => ha e.symm
      simp [ha, hk, ih h.2]

theorem sorted_put (k v : Bytes) {l : List (Bytes × Bytes)}
    (h : (l.map Prod.fst).Pairwise (· < ·)) : ((put k v l).map Prod.fst).Pairwise (· < ·) := by
  induction l with
  | nil => simp [put]
  | cons d l ih =>
    obtain ⟨a, b⟩ := d
    rw [List.map_cons, List.pairwise_cons] at h
    rw [put]
    split
    · rename_i hk
      simp only [List.map_cons, List.pairwise_cons]
      refine ⟨?_, h.1, h.2⟩
      intro c hc
      rcases List.mem_cons.1 hc with rfl | hc
      · exact hk
      · exact List.lt_trans hk (h.1 c hc)
    · split
      · rename_i hk
        simp only [List.map_cons, List.pairwise_cons]
        refine ⟨?_, ih h.2⟩
        intro c hc
        obtain ⟨e, he, rfl⟩ := List.mem_map.1 hc
        rcases mem_put he with rfl | he
        · exact hk
        · exact h.1 _ (List.mem_map_of_mem he)
      · rename_i hk hk'
        have : k = a := eq_of_not_lt hk hk'
        subst this
        simpa [List.pairwise_cons] using h

def empty : ByteTree := ⟨[], by simp⟩

instance : Inhabited ByteTree := ⟨empty⟩

def size (t : ByteTree) : Nat := t.entries.length

def get? (t : ByteTree) (k : Bytes) : Option Bytes := find k t.entries

def contains (t : ByteTree) (k : Bytes) : Bool := (t.get? k).isSome

def insert (t : ByteTree) (k v : Bytes) : ByteTree := ⟨put k v t.entries, sorted_put k v t.sorted⟩

def erase (t : ByteTree) (k : Bytes) : ByteTree where
  entries := t.entries.filter fun e => e.1 != k
  sorted := t.sorted.sublist (List.Sublist.map _ List.filter_sublist)

/-- The entries whose keys begin with `lead`, in the order of their keys. -/
def scan (t : ByteTree) (lead : Bytes) : List (Bytes × Bytes) :=
  t.entries.filter fun e => lead.isPrefixOf e.1

theorem get?_insert (t : ByteTree) (k a v : Bytes) :
    (t.insert k v).get? a = if k = a then some v else t.get? a := find_put k a v t.entries

theorem get?_erase (t : ByteTree) (k a : Bytes) :
    (t.erase k).get? a = if k = a then none else t.get? a := find_filter k a t.entries

theorem get?_eq_some_iff {t : ByteTree} {k v : Bytes} : t.get? k = some v ↔ (k, v) ∈ t.entries :=
  find_eq_some_iff t.sorted

end ByteTree

end RouteSync
