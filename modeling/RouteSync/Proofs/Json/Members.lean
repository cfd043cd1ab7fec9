import Mathlib.Data.List.Induction
import Mathlib.Data.List.Nodup
import RouteSync.Proofs.Json.RoundTrip
import RouteSync.Table
import RouteSync.Text.Blank

/-!
# The members of an object

An object is kept in the order of its keys, one member per key.  What is kept under a key is the last of the
members that have it (`mem_ofMembers_iff`); members under different keys are all kept, in whatever order they are
given (`mem_ofMembers`), so any of them with texts for values can be written down (`read?_print_texts`).

So a document that is an object means its keys in order, each with the meaning of the last member that has it
(`ObjectMeans`).  The objects that are read are these documents with what they mean (`read?_eq_obj_iff`,
`read?_eq_objects_iff`).  A text that holds a document is not blank (`isBlank_of_read?`).
-/

namespace RouteSync.Json

open RouteSync.Text

namespace Value

variable {k : String} {v : Value} {l : List (String × Value)} {e : String × Value}

/-! ### Order and keys -/

theorem mem_put (hl : (l.map Prod.fst).Pairwise (· < ·)) :
    e ∈ put k v l ↔ e = (k, v) ∨ e ∈ l ∧ e.1 ≠ k := by
  induction l with
  | nil => simp [put]
  | cons x l ih =>
    obtain ⟨a, b⟩ := x
    rw [List.map_cons, List.pairwise_cons] at hl
    have hafter : ∀ y ∈ l, a < y.1 := fun y hy => hl.1 y.1 (List.mem_map_of_mem hy)
    rw [put]
    split_ifs with heq hlt
    · subst heq
      rw [List.mem_cons, List.mem_cons]
      have hne : e ∈ l → e.1 ≠ k := fun he hk => String.lt_irrefl k (by simpa [hk] using hafter e he)
      constructor
      · rintro (rfl | he)
        · exact .inl rfl
        · exact .inr ⟨.inr he, hne he⟩
      · rintro (rfl | ⟨rfl | he, hk⟩)
        · exact .inl rfl
        · exact absurd rfl hk
        · exact .inr he
    · rw [List.mem_cons]
      refine or_congr_right (iff_self_and.mpr fun he hk => ?_)
      -- all that is there comes after the new key
      rcases List.mem_cons.mp he with rfl | he
      · exact heq hk.symm
      · have hlater := String.lt_trans hlt (hafter e he)
        rw [hk] at hlater
        exact String.lt_irrefl k hlater
    · rw [List.mem_cons, List.mem_cons, ih hl.2]
      constructor
      · rintro (rfl | rfl | ⟨he, hk⟩)
        · exact .inr ⟨.inl rfl, fun hk => heq hk.symm⟩
        · exact .inl rfl
        · exact .inr ⟨.inr he, hk⟩
      · rintro (rfl | ⟨rfl | he, hk⟩)
        · exact .inr (.inl rfl)
        · exact .inl rfl
        · exact .inr (.inr ⟨he, hk⟩)

theorem sorted_put (k : String) (v : Value) (hl : (l.map Prod.fst).Pairwise (· < ·)) :
    ((put k v l).map Prod.fst).Pairwise (· < ·) := by
  induction l with
  | nil => simp [put]
  | cons x l ih =>
    obtain ⟨a, b⟩ := x
    have hl' := hl
    rw [List.map_cons, List.pairwise_cons] at hl
    rw [put]
    split_ifs with heq hlt
    · subst heq
      exact hl'
    · rw [List.map_cons, List.pairwise_cons]
      refine ⟨fun c hc => ?_, hl'⟩
      rcases List.mem_cons.mp hc with rfl | hc
      · exact hlt
      · exact String.lt_trans hlt (hl.1 c hc)
    · rw [List.map_cons, List.pairwise_cons]
      refine ⟨fun c hc => ?_, ih hl.2⟩
      have hgt : a < k := by
        by_contra hle
        exact heq (String.le_antisymm (String.not_lt.1 hle) (String.not_lt.1 hlt))
      obtain ⟨y, hy, rfl⟩ := List.mem_map.mp hc
      rcases (mem_put hl.2).mp hy with rfl | ⟨hy, -⟩
      · exact hgt
      · exact hl.1 y.1 (List.mem_map_of_mem hy)

theorem ofMembers_concat (l : List (String × Value)) (e : String × Value) :
    ofMembers (l ++ [e]) = put e.1 e.2 (ofMembers l) := by
  simp [ofMembers, List.foldl_append]

theorem sorted_ofMembers (l : List (String × Value)) : ((ofMembers l).map Prod.fst).Pairwise (· < ·) := by
  induction l using List.reverseRecOn with
  | nil => simp [ofMembers]
  | append_singleton l e ih =>
    rw [ofMembers_concat]
    exact sorted_put _ _ ih

/-- **The last member of a key** is the one that is kept. -/
theorem mem_ofMembers_iff : (k, v) ∈ ofMembers l ↔ Table.LastOf l k v := by
  have hfold : ∀ (l acc : List (String × Value)), (acc.map Prod.fst).Pairwise (· < ·) →
      ((k, v) ∈ l.foldl (fun acc e => put e.1 e.2 acc) acc ↔
        Table.LastOf l k v ∨ k ∉ l.map Prod.fst ∧ (k, v) ∈ acc) := by
    intro l
    induction l with
    | nil => simp [Table.not_lastOf_nil]
    | cons e l ih =>
      intro acc hacc
      rw [List.foldl_cons, ih _ (sorted_put _ _ hacc), mem_put hacc, Table.lastOf_cons]
      obtain ⟨a, b⟩ := e
      by_cases ha : k = a
      · subst ha
        simp [and_comm, eq_comm]
      · simp [ha, Ne.symm ha]
  rw [ofMembers, hfold l [] List.Pairwise.nil]
  simp

/-- Members under different keys are all kept. -/
theorem mem_ofMembers (hl : (l.map Prod.fst).Nodup) : e ∈ ofMembers l ↔ e ∈ l :=
  mem_ofMembers_iff.trans (Table.lastOf_iff_mem hl)

theorem nodup_of_sorted (hl : (l.map Prod.fst).Pairwise (· < ·)) : (l.map Prod.fst).Nodup :=
  hl.imp fun hlt => String.ne_of_lt hlt

/-! ### What can be written -/

/-- Members with texts for values, under different keys, make an object that reads back. -/
theorem read?_print_texts {texts : List (String × String)} :
    read? (Value.obj (ofMembers (texts.map fun e => (e.1, .str e.2)))).print =
      some (.obj (ofMembers (texts.map fun e => (e.1, .str e.2)))) := by
  refine read?_print ⟨sorted_ofMembers _, ?_⟩
  have hcanonical : ∀ {depth : Nat} {l : List (String × Value)}, (∀ e ∈ l, ∃ s, e.2 = .str s) →
      CanonicalMembers depth l := by
    intro depth l hl
    induction l with
    | nil => trivial
    | cons e l ih =>
      obtain ⟨s, hs⟩ := hl e List.mem_cons_self
      refine ⟨?_, ih fun x hx => hl x (List.mem_cons_of_mem e hx)⟩
      rw [hs]
      cases depth <;> trivial
  refine hcanonical fun e he => ?_
  induction texts using List.reverseRecOn with
  | nil => simp [ofMembers] at he
  | append_singleton texts x ih =>
    rw [List.map_append, List.map_singleton, ofMembers_concat, mem_put (sorted_ofMembers _)] at he
    rcases he with rfl | ⟨he, -⟩
    · exact ⟨x.2, rfl⟩
    · exact ih he

end Value

/-! ### What an object means -/

section Meaning

open Table

variable {raw k : String} {v : Value} {t : Tree} {ts : List Tree} {ms : List (String × Tree)}
  {mss : List (List (String × Tree))} {l l' vs : List (String × Value)} {ls : List (List (String × Value))}
  {depth : Nat}

/-- An object of these members, in the order in which they are written. -/
def namedObject (ms : List (String × Tree)) : Tree := .object (ms.map fun m => (some m.1, m.2))

/-- What an object means: its keys in their order, each with the meaning of the last member that has it. -/
structure ObjectMeans (ms : List (String × Tree)) (l : List (String × Value)) : Prop where
  sorted : (l.map Prod.fst).Pairwise (· < ·)
  mem_iff : ∀ k v, (k, v) ∈ l ↔ ∃ t, LastOf ms k t ∧ t.Means v

/-- An object has one meaning. -/
theorem ObjectMeans.unique (h : ObjectMeans ms l) (h' : ObjectMeans ms l') : l = l' := by
  have hnodup : ∀ {l}, ObjectMeans ms l → l.Nodup := fun h =>
    List.Nodup.of_map Prod.fst (Value.nodup_of_sorted h.sorted)
  have hperm : l.Perm l' := (List.perm_ext_iff_of_nodup (hnodup h) (hnodup h')).mpr fun e =>
    (h.mem_iff e.1 e.2).trans (h'.mem_iff e.1 e.2).symm
  refine hperm.eq_of_pairwise (fun a b _ _ hab hba => ?_) (List.pairwise_map.mp h.sorted)
    (List.pairwise_map.mp h'.sorted)
  exact absurd hba (String.lt_asymm hab)

/-- A member and what it means. -/
def MemberMeans (m : String × Tree) (e : String × Value) : Prop := m.1 = e.1 ∧ m.2.Means e.2

theorem memberMeans_of_ofPairs (h : Value.ofPairs depth (ms.map fun m => (some m.1, m.2)) = some vs) :
    List.Forall₂ MemberMeans ms vs := by
  induction ms generalizing vs with
  | nil =>
    cases h
    exact .nil
  | cons m ms ih =>
    obtain ⟨v, hv, h⟩ := Option.bind_eq_some_iff.mp h
    obtain ⟨vs, hvs, h⟩ := Option.bind_eq_some_iff.mp h
    cases h
    exact .cons ⟨rfl, depth, hv⟩ (ih hvs)

theorem map_fst_of_memberMeans (h : List.Forall₂ MemberMeans ms vs) : ms.map Prod.fst = vs.map Prod.fst := by
  induction h with
  | nil => rfl
  | cons hm _ ih => rw [List.map_cons, List.map_cons, ih, hm.1]

/-- Members and what they mean have their last values at the same places. -/
theorem lastOf_iff (h : List.Forall₂ MemberMeans ms vs) :
    LastOf vs k v ↔ ∃ t, LastOf ms k t ∧ t.Means v := by
  induction h with
  | nil => simp [not_lastOf_nil]
  | @cons m e ms vs hm h ih =>
    obtain ⟨a, u⟩ := m
    obtain ⟨b, w⟩ := e
    obtain ⟨hab, hu⟩ := hm
    cases hab
    simp only [lastOf_cons, ih, map_fst_of_memberMeans h, Prod.mk.injEq]
    constructor
    · rintro (⟨t, ht, hv⟩ | ⟨⟨rfl, rfl⟩, hk⟩)
      · exact ⟨t, .inl ht, hv⟩
      · exact ⟨u, .inr ⟨⟨rfl, rfl⟩, hk⟩, hu⟩
    · rintro ⟨t, ht | ⟨⟨rfl, rfl⟩, hk⟩, hv⟩
      · exact .inl ⟨t, ht, hv⟩
      · exact .inr ⟨⟨rfl, hu.unique hv⟩, hk⟩

theorem objectMeans_ofMembers (h : List.Forall₂ MemberMeans ms vs) : ObjectMeans ms (Value.ofMembers vs) :=
  ⟨Value.sorted_ofMembers vs, fun _ _ => Value.mem_ofMembers_iff.trans (lastOf_iff h)⟩

theorem exists_named {ts : List (Option String × Tree)} (h : Tree.MeaningfulMembers ts) :
    ∃ ms : List (String × Tree), ts = ms.map fun m => (some m.1, m.2) := by
  induction ts with
  | nil => exact ⟨[], rfl⟩
  | cons m ts ih =>
    obtain ⟨k, t⟩ := m
    obtain ⟨⟨x, rfl⟩, -, h⟩ := h
    obtain ⟨ms, rfl⟩ := ih h
    exact ⟨(x, t) :: ms, rfl⟩

theorem exists_of_namedObject (h : Value.ofTreeAt depth (namedObject ms) = some v) :
    ∃ l, v = .obj l ∧ ObjectMeans ms l := by
  cases depth with
  | zero => cases h
  | succ depth =>
    obtain ⟨vs, hvs, rfl⟩ := Option.map_eq_some_iff.mp h
    exact ⟨_, rfl, objectMeans_ofMembers (memberMeans_of_ofPairs hvs)⟩

theorem exists_of_ofTreeAt_obj (h : Value.ofTreeAt depth t = some (.obj l)) :
    ∃ ms, t = namedObject ms ∧ ObjectMeans ms l := by
  have hmeaningful := ((Value.exists_ofTreeAt_iff t).mp ⟨_, h⟩).1
  cases t with
  | object ts =>
    obtain ⟨ms, rfl⟩ := exists_named hmeaningful
    obtain ⟨l', hl, hmeans⟩ := exists_of_namedObject h
    cases hl
    exact ⟨ms, rfl, hmeans⟩
  | array ts => cases depth <;> simp [Value.ofTreeAt] at h
  | _ => simp [Value.ofTreeAt] at h

theorem forall₂_of_ofItems {vs : List Value} (h : Value.ofItems depth ts = some vs) :
    List.Forall₂ (fun t v => Value.ofTreeAt depth t = some v) ts vs := by
  induction ts generalizing vs with
  | nil =>
    cases h
    exact .nil
  | cons t ts ih =>
    obtain ⟨v, hv, h⟩ := Option.bind_eq_some_iff.mp h
    obtain ⟨vs, hvs, h⟩ := Option.bind_eq_some_iff.mp h
    cases h
    exact .cons hv (ih hvs)

theorem exists_of_objects
    (h : List.Forall₂ (fun t v => Value.ofTreeAt depth t = some v) ts (ls.map .obj)) :
    ∃ mss, ts = mss.map namedObject ∧ List.Forall₂ ObjectMeans mss ls := by
  induction ls generalizing ts with
  | nil => exact ⟨[], List.forall₂_nil_right_iff.mp h, .nil⟩
  | cons l ls ih =>
    obtain ⟨t, ts, ht, hts, rfl⟩ := List.forall₂_cons_right_iff.mp h
    obtain ⟨ms, rfl, hms⟩ := exists_of_ofTreeAt_obj ht
    obtain ⟨mss, rfl, hmss⟩ := ih hts
    exact ⟨ms :: mss, rfl, .cons hms hmss⟩

theorem eq_of_namedObjects {vs : List Value} (hls : List.Forall₂ ObjectMeans mss ls)
    (h : List.Forall₂ (fun t v => Value.ofTreeAt depth t = some v) (mss.map namedObject) vs) :
    vs = ls.map .obj := by
  induction hls generalizing vs with
  | nil => exact List.forall₂_nil_left_iff.mp h
  | cons hl _ ih =>
    obtain ⟨v, vs, hv, hvs, rfl⟩ := List.forall₂_cons_left_iff.mp h
    obtain ⟨l, rfl, hl'⟩ := exists_of_namedObject hv
    rw [hl'.unique hl, ih hvs, List.map_cons]

/-- An object that is written is read with what it means. -/
theorem Document.exists_object (h : Document raw (namedObject ms)) :
    ∃ l, ObjectMeans ms l ∧ Value.read? raw = some (.obj l) := by
  obtain ⟨v, hv⟩ := h.exists_value
  obtain ⟨l, rfl, hl⟩ := exists_of_namedObject hv
  exact ⟨l, hl, Value.read?_eq_some_iff.mpr ⟨_, h, hv⟩⟩

/-- **An object that is read** is a document of its members. -/
theorem read?_eq_obj_iff :
    Value.read? raw = some (.obj l) ↔ ∃ ms, Document raw (namedObject ms) ∧ ObjectMeans ms l := by
  constructor
  · intro h
    obtain ⟨t, ht, hl⟩ := Value.read?_eq_some_iff.mp h
    obtain ⟨ms, rfl, hms⟩ := exists_of_ofTreeAt_obj hl
    exact ⟨ms, ht, hms⟩
  · rintro ⟨ms, hdocument, hl⟩
    obtain ⟨l', hl', hread⟩ := hdocument.exists_object
    rwa [hl'.unique hl] at hread

/-- **An array of objects that is read** is a document of such objects. -/
theorem read?_eq_objects_iff : Value.read? raw = some (.arr (ls.map .obj)) ↔
    ∃ mss, Document raw (.array (mss.map namedObject)) ∧ List.Forall₂ ObjectMeans mss ls := by
  rw [Value.read?_eq_some_iff]
  constructor
  · rintro ⟨t, ht, hl⟩
    unfold Value.ofTree? at hl
    cases t with
    | array ts =>
      obtain ⟨vs, hvs, he⟩ := Option.map_eq_some_iff.mp hl
      cases he
      obtain ⟨mss, rfl, hmss⟩ := exists_of_objects (forall₂_of_ofItems hvs)
      exact ⟨mss, ht, hmss⟩
    | object ms => simp [Value.maxDepth, Value.ofTreeAt] at hl
    | _ => simp [Value.ofTreeAt] at hl
  · rintro ⟨mss, hdocument, hls⟩
    obtain ⟨v, hv⟩ := hdocument.exists_value
    obtain ⟨vs, hvs, rfl⟩ := Option.map_eq_some_iff.mp hv
    exact ⟨_, hdocument, eq_of_namedObjects hls (forall₂_of_ofItems hvs) ▸ hv⟩

/-- An object that is read has its keys in order. -/
theorem Value.sorted_of_read? (h : Value.read? raw = some (.obj l)) : (l.map Prod.fst).Pairwise (· < ·) := by
  obtain ⟨ms, -, hl⟩ := read?_eq_obj_iff.mp h
  exact hl.sorted

theorem Value.sorted_of_read?_objects (h : Value.read? raw = some (.arr (ls.map .obj))) :
    ∀ l ∈ ls, (l.map Prod.fst).Pairwise (· < ·) := by
  obtain ⟨mss, -, hls⟩ := read?_eq_objects_iff.mp h
  exact ((List.forall₂_and_left ls mss).mp (hls.flip.imp fun _ _ hl => ⟨hl.sorted, hl⟩)).1

end Meaning

/-! ### Blank texts -/

theorem digit?_of_isSpace {c : Char} (hc : isSpace c = true) : digit? c = none := by
  unfold digit?
  refine if_neg fun hdigit => ?_
  have hlow : 48 ≤ c.toNat := hdigit.1
  have hhigh : c.toNat ≤ 57 := hdigit.2
  simp [isSpace, inRanges, spaceRanges] at hc
  omega

/-- No value begins with a space, whatever counts as one. -/
theorem opensValue_of_isSpace {c : Char} (hc : isSpace c = true) : opensValue c = false := by
  have hmarks : ∀ d ∈ ['n', 't', 'f', '"', '[', '\x7b', '-'], c ≠ d := by
    rintro d hd rfl
    have hspace : (['n', 't', 'f', '"', '[', '\x7b', '-'].all fun d => !isSpace d) = true := by decide
    have hnot := List.all_eq_true.mp hspace c hd
    rw [hc] at hnot
    cases hnot
  simp [opensValue, opensNumber, isDecimal, digit?_of_isSpace hc, hmarks]

/-- **A text that holds a document** is not blank. -/
theorem isBlank_of_read? {s : String} {v : Value} (h : Value.read? s = some v) : isBlank s = false := by
  obtain ⟨t, ht, -⟩ := Value.read?_eq_some_iff.mp h
  rw [Bool.eq_false_iff]
  intro hblank
  have hall : ∀ c ∈ s.toList, isSpace c = true := List.all_eq_true.mp hblank
  obtain ⟨w, g, hw, -, -, hskip⟩ := ht.written.exists_skip (fun _ => Tree.Written.begins) []
  obtain ⟨c, w, rfl, hc⟩ := hw.begins
  rw [List.append_nil, List.cons_append] at hskip
  have hmem : c ∈ Tree.skip s.toList := hskip ▸ List.mem_cons_self
  rw [opensValue_of_isSpace (hall c ((List.dropWhile_sublist Tree.isGap).subset hmem))] at hc
  cases hc

end RouteSync.Json
