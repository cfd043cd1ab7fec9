import RouteSync.Proofs.Store.Contents

/-!
# How many records a store keeps

An insertion under an id that is not in use adds one record, and a deletion by ids takes out as many records as it
says, whatever else the store holds: this needs none of the invariants of a sound store.  An id is in use as soon as
anything is kept under it, be it legible or not.
-/

namespace RouteSync

open RouteSync.RecordCodec

theorem except_bind_eq_ok {α β ε : Type} {o : Except ε α} {f : α → Except ε β} {y : β} :
    (o >>= f) = .ok y ↔ ∃ x, o = .ok x ∧ f x = .ok y := by
  cases o with
  | ok x =>
    show f x = .ok y ↔ _
    simp
  | error e =>
    show Except.error e = .ok y ↔ _
    simp

namespace ByteTree

/-- A new key is put between the others. -/
theorem put_perm {k v : Bytes} {l : List (Bytes × Bytes)} (h : find k l = none) :
    (put k v l).Perm ((k, v) :: l) := by
  induction l with
  | nil => exact .refl _
  | cons e l ih =>
    obtain ⟨a, b⟩ := e
    rw [find_cons] at h
    have hne : a ≠ k := by
      rintro rfl
      rw [if_pos rfl] at h
      cases h
    rw [if_neg hne] at h
    rw [put]
    split
    · exact .refl _
    · split
      · exact ((ih h).cons (a, b)).trans (.swap (k, v) (a, b) l)
      · next hlt hgt => exact absurd (eq_of_not_lt hlt hgt).symm hne

variable {t : ByteTree} {k v : Bytes}

theorem size_insert (h : t.get? k = none) : (t.insert k v).size = t.size + 1 := (put_perm h).length_eq

theorem size_erase (h : t.get? k = some v) : t.size = (t.erase k).size + 1 := by
  have hnodup : (t.entries.map Prod.fst).Nodup := by
    refine t.sorted.imp fun {a b} hlt heq => ?_
    subst heq
    exact List.lt_irrefl a hlt
  have hsame : (t.erase k).entries = Table.discard k t.entries :=
    List.filter_congr fun e _ => congrArg not (beq_eq_decide e.1 k)
  unfold size
  rw [hsame]
  exact Table.length_discard hnodup (get?_eq_some_iff.mp h)

end ByteTree

/-! ### In memory -/

namespace MemoryStore

theorem size_deleteId (s : MemoryStore) (id : String) : (s.deleteId id).1.size + (s.deleteId id).2 = s.size := by
  unfold deleteId
  cases hr : s.records.get? id with
  | none => rfl
  | some r => exact (Table.size_erase hr).symm

theorem size_deleteByIds (s : MemoryStore) (ids : List String) :
    (s.deleteByIds ids).1.size + (s.deleteByIds ids).2 = s.size := by
  induction ids generalizing s with
  | nil => rfl
  | cons id ids ih =>
    have hrest := ih (s.deleteId id).1
    have hone := s.size_deleteId id
    show ((s.deleteId id).1.deleteByIds ids).1.size +
      ((s.deleteId id).2 + ((s.deleteId id).1.deleteByIds ids).2) = s.size
    omega

/-- A deletion by ids keeps nothing under a key that was free. -/
theorem get?_deleteByIds (s : MemoryStore) (ids : List String) {id : String} (h : s.records.get? id = none) :
    (s.deleteByIds ids).1.records.get? id = none := by
  induction ids generalizing s with
  | nil => exact h
  | cons a ids ih =>
    refine ih (s.deleteId a).1 ?_
    unfold deleteId
    cases hr : s.records.get? a with
    | none => exact h
    | some r =>
      show (s.records.erase a).get? id = none
      rw [Table.get?_erase, h]
      exact ite_self none

end MemoryStore

/-! ### In a database -/

namespace EmbeddedStore

variable {s s' : EmbeddedStore} {n : Nat}

theorem load_eq_some {key : Bytes} {r : StoredEndpoint} (h : s.load key = .ok (some r)) :
    ∃ b, s.records.get? key = some b := by
  unfold load at h
  cases hb : s.records.get? key with
  | none =>
    rw [hb] at h
    cases h
  | some b => exact ⟨b, rfl⟩

/-- A record that is deleted was there, and of the records only this one goes. -/
theorem deleteId_eq_ok {id : String} (h : s.deleteId id = .ok (s', n)) :
    s' = s ∧ n = 0 ∨
      (∃ b, s.records.get? (textBytes id) = some b) ∧ s'.records = s.records.erase (textBytes id) ∧ n = 1 := by
  unfold deleteId at h
  obtain ⟨o, hload, h⟩ := except_bind_eq_ok.mp h
  cases o with
  | none =>
    cases h
    exact .inl ⟨rfl, rfl⟩
  | some r =>
    cases h
    exact .inr ⟨load_eq_some hload, rfl, rfl⟩

theorem deleteByIds_cons_eq_ok {id : String} {ids : List String} (h : s.deleteByIds (id :: ids) = .ok (s', n)) :
    ∃ t j k, s.deleteId id = .ok (t, j) ∧ t.deleteByIds ids = .ok (s', k) ∧ n = j + k := by
  unfold deleteByIds at h
  obtain ⟨⟨t, j⟩, hone, h⟩ := except_bind_eq_ok.mp h
  obtain ⟨⟨u, k⟩, hrest, h⟩ := except_bind_eq_ok.mp h
  cases h
  exact ⟨t, j, k, hone, hrest, rfl⟩

theorem size_deleteByIds {ids : List String} (h : s.deleteByIds ids = .ok (s', n)) : s'.size + n = s.size := by
  induction ids generalizing s n with
  | nil =>
    cases h
    rfl
  | cons id ids ih =>
    obtain ⟨t, j, k, hone, hrest, rfl⟩ := deleteByIds_cons_eq_ok h
    have hsize := ih hrest
    rcases deleteId_eq_ok hone with ⟨rfl, rfl⟩ | ⟨⟨b, hb⟩, hrecords, rfl⟩
    · omega
    · have herase := ByteTree.size_erase hb
      unfold size at hsize ⊢
      rw [hrecords] at hsize
      omega

/-- A deletion by ids keeps nothing under a key that was free. -/
theorem get?_deleteByIds {ids : List String} (h : s.deleteByIds ids = .ok (s', n)) {k : Bytes}
    (hk : s.records.get? k = none) : s'.records.get? k = none := by
  induction ids generalizing s n with
  | nil =>
    cases h
    exact hk
  | cons id ids ih =>
    obtain ⟨t, j, m, hone, hrest, -⟩ := deleteByIds_cons_eq_ok h
    refine ih hrest ?_
    rcases deleteId_eq_ok hone with ⟨rfl, -⟩ | ⟨-, hrecords, -⟩
    · exact hk
    · rw [hrecords, ByteTree.get?_erase, hk]
      exact ite_self none

end EmbeddedStore

/-! ### Either store -/

namespace Store

/-- Whether anything is kept under an id. -/
def inUse : Store → String → Bool
  | .memory s, id => s.records.contains id
  | .embedded s, id => s.records.contains (textBytes id)

variable {s s' : Store} {r : StoredEndpoint} {id : String} {ids : List String} {n : Nat}

/-- **An insertion** under an id that is not in use adds one record. -/
theorem size_insert (h : s.insert r = .ok s') (hid : s.inUse r.id = false) : s'.size = s.size + 1 := by
  cases s with
  | memory s =>
    obtain ⟨t, ht, rfl⟩ := map_eq_ok.mp h
    unfold MemoryStore.insert at ht
    split_ifs at ht
    cases ht
    have hkey : r.id ∉ s.records.keys := by
      rw [← Table.contains_iff]
      exact Bool.eq_false_iff.mp hid
    exact (Table.size_insert s.records r.id r).trans (if_neg hkey)
  | embedded s =>
    obtain ⟨t, ht, rfl⟩ := map_eq_ok.mp h
    unfold EmbeddedStore.insert at ht
    dsimp only at ht
    split_ifs at ht
    cases ht
    exact ByteTree.size_insert (Option.not_isSome_iff_eq_none.mp (Bool.eq_false_iff.mp hid))

/-- An insertion puts its own id in use and no other. -/
theorem inUse_insert (h : s.insert r = .ok s') (hne : id ≠ r.id) : s'.inUse id = s.inUse id := by
  cases s with
  | memory s =>
    obtain ⟨t, ht, rfl⟩ := map_eq_ok.mp h
    unfold MemoryStore.insert at ht
    split_ifs at ht
    cases ht
    show ((s.records.insert r.id r).get? id).isSome = (s.records.get? id).isSome
    rw [Table.get?_insert, if_neg hne.symm]
  | embedded s =>
    obtain ⟨t, ht, rfl⟩ := map_eq_ok.mp h
    unfold EmbeddedStore.insert at ht
    dsimp only at ht
    split_ifs at ht
    cases ht
    show ((s.records.insert (textBytes r.id) (encode r)).get? (textBytes id)).isSome =
      (s.records.get? (textBytes id)).isSome
    rw [ByteTree.get?_insert, if_neg fun he => hne (textBytes_inj.mp he).symm]

/-- **A deletion by ids** takes out as many records as it says. -/
theorem size_deleteByIds (h : s.deleteByIds ids = .ok (s', n)) : s'.size + n = s.size := by
  cases s with
  | memory s =>
    cases h
    exact s.size_deleteByIds ids
  | embedded s =>
    obtain ⟨⟨t, k⟩, ht, he⟩ := map_eq_ok.mp h
    cases he
    exact EmbeddedStore.size_deleteByIds ht

/-- A deletion by ids puts no id in use. -/
theorem inUse_deleteByIds (h : s.deleteByIds ids = .ok (s', n)) (hid : s.inUse id = false) : s'.inUse id = false := by
  cases s with
  | memory s =>
    cases h
    have hgone := s.get?_deleteByIds ids (Option.not_isSome_iff_eq_none.mp (Bool.eq_false_iff.mp hid))
    show ((s.deleteByIds ids).1.records.get? id).isSome = false
    rw [hgone]
    rfl
  | embedded s =>
    obtain ⟨⟨t, k⟩, ht, he⟩ := map_eq_ok.mp h
    cases he
    have hgone := EmbeddedStore.get?_deleteByIds ht (Option.not_isSome_iff_eq_none.mp (Bool.eq_false_iff.mp hid))
    show (t.records.get? (textBytes id)).isSome = false
    rw [hgone]
    rfl

end Store

end RouteSync
