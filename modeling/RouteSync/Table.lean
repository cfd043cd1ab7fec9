/-!
# Keyed tables

A `Table κ ν` is a finite map kept as a list of entries, one per key, in the order in which the keys
came first.  Overwriting a key leaves it at its place.  One equation per operation says what `get?`
sees afterwards (`get?_insert`, `get?_erase`, `get?_modify`), and `size` counts the keys.  In a list of
pairs the last one of a key decides what a table made of them holds (`get?_ofList_eq_some_iff`).
-/

namespace RouteSync

variable {κ ν : Type}

/-- A finite map as a list of entries, one per key. -/
structure Table (κ ν : Type) where
  entries : List (κ × ν)
  nodup : (entries.map Prod.fst).Nodup

namespace Table

/-- The value of the first entry of `k`. -/
def find [DecidableEq κ] (k : κ) : List (κ × ν) → Option ν
  | [] => none
  | (a, b) :: rest => if a = k then some b else find k rest

/-- Overwrites the entry of `k`, or adds one at the end. -/
def assign [DecidableEq κ] (k : κ) (v : ν) : List (κ × ν) → List (κ × ν)
  | [] => [(k, v)]
  | (a, b) :: rest => if a = k then (a, v) :: rest else (a, b) :: assign k v rest

/-- Drops every entry of `k`. -/
def discard [DecidableEq κ] (k : κ) (l : List (κ × ν)) : List (κ × ν) :=
  l.filter fun e => !decide (e.1 = k)

/-- The last of some pairs that has this key. -/
def LastOf (l : List (κ × ν)) (k : κ) (v : ν) : Prop :=
  ∃ before after, l = before ++ (k, v) :: after ∧ k ∉ after.map Prod.fst

section Last

variable {k : κ} {v : ν} {l : List (κ × ν)} {e : κ × ν}

theorem LastOf.mem (h : LastOf l k v) : (k, v) ∈ l := by
  obtain ⟨before, after, rfl, -⟩ := h
  simp

theorem not_lastOf_nil : ¬ LastOf [] k v := fun h => List.not_mem_nil h.mem

theorem lastOf_cons : LastOf (e :: l) k v ↔ LastOf l k v ∨ e = (k, v) ∧ k ∉ l.map Prod.fst := by
  constructor
  · rintro ⟨before, after, hl, hk⟩
    cases before with
    | nil =>
      obtain ⟨rfl, rfl⟩ := List.cons.inj hl
      exact .inr ⟨rfl, hk⟩
    | cons x before =>
      obtain ⟨-, rfl⟩ := List.cons.inj hl
      exact .inl ⟨before, after, rfl, hk⟩
  · rintro (⟨before, after, rfl, hk⟩ | ⟨rfl, hk⟩)
    · exact ⟨e :: before, after, rfl, hk⟩
    · exact ⟨[], l, rfl, hk⟩

theorem lastOf_iff_mem (hl : (l.map Prod.fst).Nodup) : LastOf l k v ↔ (k, v) ∈ l := by
  refine ⟨LastOf.mem, fun hv => ?_⟩
  obtain ⟨before, after, rfl⟩ := List.append_of_mem hv
  rw [List.map_append, List.map_cons, List.nodup_append, List.nodup_cons] at hl
  exact ⟨before, after, rfl, hl.2.1.1⟩

end Last

section Lists

variable [DecidableEq κ]

theorem map_fst_assign (k : κ) (v : ν) (l : List (κ × ν)) :
    (assign k v l).map Prod.fst =
      if k ∈ l.map Prod.fst then l.map Prod.fst else l.map Prod.fst ++ [k] := by
  induction l with
  | nil => simp [assign]
  | cons e l ih =>
    obtain ⟨a, b⟩ := e
    by_cases h : a = k
    · simp [assign, h]
    · have hk : ¬ k = a := fun e => h e.symm
      simp only [assign, h, if_false, List.map_cons, ih, List.mem_cons, hk, false_or]
      split <;> simp

theorem nodup_assign (k : κ) (v : ν) {l : List (κ × ν)} (h : (l.map Prod.fst).Nodup) :
    ((assign k v l).map Prod.fst).Nodup := by
  rw [map_fst_assign]
  split
  · exact h
  · rename_i hk
    rw [List.nodup_append]
    refine ⟨h, by simp, ?_⟩
    intro a ha b hb
    simp only [List.mem_singleton] at hb
    rintro rfl
    exact hk (hb ▸ ha)

theorem nodup_discard (k : κ) {l : List (κ × ν)} (h : (l.map Prod.fst).Nodup) :
    ((discard k l).map Prod.fst).Nodup :=
  h.sublist (List.Sublist.map _ List.filter_sublist)

theorem find_assign (k a : κ) (v : ν) (l : List (κ × ν)) :
    find a (assign k v l) = if k = a then some v else find a l := by
  induction l with
  | nil => simp [assign, find]
  | cons e l ih =>
    obtain ⟨c, b⟩ := e
    by_cases h : c = k
    · by_cases ha : k = a <;> simp [assign, find, h, ha]
    · by_cases ha : c = a
      · subst ha
        simp [assign, find, h, Ne.symm h]
      · simp [assign, find, h, ha, ih]

theorem find_discard (k a : κ) (l : List (κ × ν)) :
    find a (discard k l) = if k = a then none else find a l := by
  induction l with
  | nil => simp [discard, find]
  | cons e l ih =>
    obtain ⟨c, b⟩ := e
    rw [discard] at ih ⊢
    by_cases h : c = k
    · simp only [h, List.filter_cons, decide_true, Bool.not_true, Bool.false_eq_true, if_false, ih]
      by_cases ha : k = a <;> simp [find, ha]
    · by_cases ha : c = a
      · subst ha
        simp [find, h, Ne.symm h]
      · simp [find, h, ha, ih]

theorem find_isSome_iff (k : κ) (l : List (κ × ν)) :
    (find k l).isSome ↔ k ∈ l.map Prod.fst := by
  induction l with
  | nil => simp [find]
  | cons e l ih =>
    obtain ⟨a, b⟩ := e
    by_cases h : a = k
    · simp [find, h]
    · have : ¬ k = a := fun e => h e.symm
      simp only [find, h, if_false, ih, List.map_cons, List.mem_cons, this, false_or]

theorem find_eq_some_iff {k : κ} {v : ν} {l : List (κ × ν)} (h : (l.map Prod.fst).Nodup) :
    find k l = some v ↔ (k, v) ∈ l := by
  induction l with
  | nil => simp [find]
  | cons e l ih =>
    obtain ⟨a, b⟩ := e
    rw [List.map_cons, List.nodup_cons] at h
    by_cases ha : a = k
    · subst ha
      have hv : (a, v) ∉ l := fun hm => h.1 (List.mem_map.2 ⟨(a, v), hm, rfl⟩)
      simp [find, hv, eq_comm]
    · have hk : ¬ k = a := fun e => ha e.symm
      simp [find, ha, hk, ih h.2]

theorem assign_of_find {k : κ} {v : ν} {l : List (κ × ν)} (h : find k l = some v) : assign k v l = l := by
  induction l with
  | nil => simp [find] at h
  | cons e l ih =>
    obtain ⟨a, b⟩ := e
    rw [find] at h
    rw [assign]
    by_cases ha : a = k
    · rw [if_pos ha] at h ⊢
      cases h
      rfl
    · rw [if_neg ha] at h ⊢
      rw [ih h]

theorem assign_of_find_eq_none {k : κ} {v : ν} {l : List (κ × ν)} (h : find k l = none) :
    assign k v l = l ++ [(k, v)] := by
  induction l with
  | nil => rfl
  | cons e l ih =>
    obtain ⟨a, b⟩ := e
    rw [find] at h
    by_cases ha : a = k
    · rw [if_pos ha] at h
      cases h
    · rw [if_neg ha] at h
      rw [assign, if_neg ha, ih h, List.cons_append]

theorem assign_assign (k : κ) (v w : ν) (l : List (κ × ν)) : assign k w (assign k v l) = assign k w l := by
  induction l with
  | nil => simp [assign]
  | cons e l ih =>
    obtain ⟨a, b⟩ := e
    by_cases ha : a = k
    · simp [assign, ha]
    · simp [assign, ha, ih]

theorem discard_of_not_mem {k : κ} {l : List (κ × ν)} (h : k ∉ l.map Prod.fst) : discard k l = l := by
  refine List.filter_eq_self.mpr fun e he => ?_
  have hne : e.1 ≠ k := fun heq => h (heq ▸ List.mem_map_of_mem he)
  simpa using hne

/-- Dropping a key drops its one entry. -/
theorem length_filter_discard {k : κ} {v : ν} {p : κ × ν → Bool} {l : List (κ × ν)}
    (hl : (l.map Prod.fst).Nodup) (hm : (k, v) ∈ l) :
    (l.filter p).length = ((discard k l).filter p).length + if p (k, v) then 1 else 0 := by
  induction l with
  | nil => cases hm
  | cons e l ih =>
    rw [List.map_cons, List.nodup_cons] at hl
    rcases List.mem_cons.mp hm with rfl | hm
    · have hdrop : discard k ((k, v) :: l) = l := by
        rw [discard, List.filter_cons_of_neg (by simp)]
        exact discard_of_not_mem hl.1
      rw [hdrop, List.filter_cons]
      split <;> rfl
    · have hne : e.1 ≠ k := fun heq => hl.1 (List.mem_map.mpr ⟨_, hm, heq.symm⟩)
      have hkeep : discard k (e :: l) = e :: discard k l := List.filter_cons_of_pos (by simpa using hne)
      have hrest := ih hl.2 hm
      rw [hkeep, List.filter_cons, List.filter_cons]
      by_cases he : p e = true
      · rw [if_pos he, if_pos he, List.length_cons, List.length_cons]
        omega
      · rw [if_neg he, if_neg he]
        exact hrest

theorem length_discard {k : κ} {v : ν} {l : List (κ × ν)} (hl : (l.map Prod.fst).Nodup) (hm : (k, v) ∈ l) :
    l.length = (discard k l).length + 1 := by
  have hlen := length_filter_discard (p := fun _ => true) hl hm
  have hall : ∀ l : List (κ × ν), l.filter (fun _ => true) = l := fun l => List.filter_eq_self.mpr fun _ _ => rfl
  rw [hall, hall, if_pos rfl] at hlen
  exact hlen

end Lists

/-- The table without entries. -/
def empty : Table κ ν := ⟨[], by simp⟩

instance : Inhabited (Table κ ν) := ⟨empty⟩

variable [DecidableEq κ]

def get? (t : Table κ ν) (k : κ) : Option ν := find k t.entries

def contains (t : Table κ ν) (k : κ) : Bool := (t.get? k).isSome

def insert (t : Table κ ν) (k : κ) (v : ν) : Table κ ν :=
  ⟨assign k v t.entries, nodup_assign k v t.nodup⟩

def erase (t : Table κ ν) (k : κ) : Table κ ν :=
  ⟨discard k t.entries, nodup_discard k t.nodup⟩

/-- Applies `f` to the value of `k`, if there is one. -/
def modify (t : Table κ ν) (k : κ) (f : ν → ν) : Table κ ν :=
  match t.get? k with
  | some v => t.insert k (f v)
  | none => t

omit [DecidableEq κ] in
def keys (t : Table κ ν) : List κ := t.entries.map Prod.fst

omit [DecidableEq κ] in
def values (t : Table κ ν) : List ν := t.entries.map Prod.snd

omit [DecidableEq κ] in
def size (t : Table κ ν) : Nat := t.entries.length

/-- Inserts the pairs in order, so that the last one of a key wins. -/
def ofList (l : List (κ × ν)) : Table κ ν := l.foldl (fun t e => t.insert e.1 e.2) empty

@[simp] theorem get?_empty (k : κ) : (empty : Table κ ν).get? k = none := rfl

theorem get?_insert (t : Table κ ν) (k a : κ) (v : ν) :
    (t.insert k v).get? a = if k = a then some v else t.get? a := find_assign k a v t.entries

theorem get?_erase (t : Table κ ν) (k a : κ) :
    (t.erase k).get? a = if k = a then none else t.get? a := find_discard k a t.entries

theorem get?_foldl_erase (l : List κ) (t : Table κ ν) (a : κ) :
    (l.foldl erase t).get? a = if a ∈ l then none else t.get? a := by
  induction l generalizing t with
  | nil => simp
  | cons k l ih =>
    rw [List.foldl_cons, ih, get?_erase]
    by_cases ha : a ∈ l <;> by_cases hk : k = a <;> simp [ha, hk, Ne.symm]

theorem get?_modify (t : Table κ ν) (k a : κ) (f : ν → ν) :
    (t.modify k f).get? a = if k = a then (t.get? a).map f else t.get? a := by
  unfold modify
  by_cases h : k = a
  · subst h
    cases hk : t.get? k <;> simp [get?_insert, hk]
  · cases hk : t.get? k <;> simp [get?_insert, h]

theorem contains_iff (t : Table κ ν) (k : κ) : t.contains k = true ↔ k ∈ t.keys :=
  find_isSome_iff k t.entries

theorem get?_eq_some_iff {t : Table κ ν} {k : κ} {v : ν} : t.get? k = some v ↔ (k, v) ∈ t.entries :=
  find_eq_some_iff t.nodup

/-- Overwriting a key with its value changes nothing. -/
theorem insert_of_get? {t : Table κ ν} {k : κ} {v : ν} (h : t.get? k = some v) : t.insert k v = t := by
  obtain ⟨l, hl⟩ := t
  simp only [insert, mk.injEq]
  exact assign_of_find h

/-- Of two values that a key is given the last one stays. -/
theorem insert_insert (t : Table κ ν) (k : κ) (v w : ν) : (t.insert k v).insert k w = t.insert k w := by
  simp only [insert, mk.injEq]
  exact assign_assign k v w t.entries

theorem mem_values_iff {t : Table κ ν} {v : ν} : v ∈ t.values ↔ ∃ k, t.get? k = some v := by
  simp [values, get?_eq_some_iff]

theorem keys_insert (t : Table κ ν) (k : κ) (v : ν) :
    (t.insert k v).keys = if k ∈ t.keys then t.keys else t.keys ++ [k] :=
  map_fst_assign k v t.entries

theorem size_insert (t : Table κ ν) (k : κ) (v : ν) :
    (t.insert k v).size = if k ∈ t.keys then t.size else t.size + 1 := by
  have h := congrArg List.length (keys_insert t k v)
  by_cases hk : k ∈ t.keys <;> simp_all [keys, size]

theorem size_erase {t : Table κ ν} {k : κ} {v : ν} (h : t.get? k = some v) : t.size = (t.erase k).size + 1 :=
  length_discard t.nodup (get?_eq_some_iff.mp h)

/-- Of the pairs that are inserted the last one of a key wins. -/
theorem get?_ofList_eq_some_iff {l : List (κ × ν)} {k : κ} {v : ν} :
    (ofList l).get? k = some v ↔ LastOf l k v := by
  have hfold : ∀ (l : List (κ × ν)) (t : Table κ ν), (l.foldl (fun t e => t.insert e.1 e.2) t).get? k = some v ↔
      LastOf l k v ∨ k ∉ l.map Prod.fst ∧ t.get? k = some v := by
    intro l
    induction l with
    | nil => simp [not_lastOf_nil]
    | cons e l ih =>
      intro t
      rw [List.foldl_cons, ih, lastOf_cons, get?_insert]
      obtain ⟨a, b⟩ := e
      by_cases ha : a = k
      · subst ha
        simp [and_comm]
      · simp [ha, Ne.symm ha]
  rw [ofList, hfold]
  simp

end Table

end RouteSync
