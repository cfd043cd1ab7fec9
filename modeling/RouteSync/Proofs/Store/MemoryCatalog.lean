import RouteSync.Proofs.Store.Catalog
import RouteSync.Store.Memory

/-!
# The store in memory as a catalog

The places of a memory store are the pairs of owner and address.  On a sound store every operation does
to its catalog what the operation of the same name does to a catalog.
-/

namespace RouteSync.MemoryStore

def catalog (s : MemoryStore) : Catalog (String × String) := ⟨s.records.get?, s.index.get?⟩

/-- The index and the records tell the same. -/
def Sound (s : MemoryStore) : Prop := s.catalog.Sound Prod.mk

/-- The index names every record at its place. -/
def Anchored (s : MemoryStore) : Prop := s.catalog.Anchored Prod.mk

theorem sound_empty : empty.Sound := Catalog.sound_empty

variable {s s' : MemoryStore}

theorem mem_select (hs : s.Sound) {owner : String} {r : StoredEndpoint} :
    r ∈ s.select owner ↔ s.catalog.record r.id = some r ∧ r.owner = owner := by
  rw [select, StoredEndpoint.mem_sort, List.mem_filter, Table.mem_values_iff, beq_iff_eq]
  constructor
  · rintro ⟨⟨id, h⟩, ho⟩
    exact ⟨Catalog.Sound.record_eq hs h, ho⟩
  · rintro ⟨h, ho⟩
    exact ⟨⟨r.id, h⟩, ho⟩

theorem catalog_insert {r : StoredEndpoint} (h : s.insert r = .ok s') :
    s.catalog.entry (r.owner, r.url) = none ∧ s'.catalog = s.catalog.add Prod.mk r := by
  unfold insert at h
  split_ifs at h with hc
  rw [Table.contains, Bool.not_eq_true, Option.isSome_eq_false_iff, Option.isNone_iff_eq_none] at hc
  refine ⟨hc, ?_⟩
  cases h
  simp only [catalog, Catalog.add, Catalog.mk.injEq]
  constructor
  · funext id
    rw [Table.get?_insert, Function.update_apply]
    simp only [eq_comm]
  · funext k
    rw [Table.get?_insert, Function.update_apply]
    simp only [eq_comm]

/-- Only a taken place keeps a record out. -/
theorem exists_insert {r : StoredEndpoint} (h : s.catalog.entry (r.owner, r.url) = none) :
    ∃ s', s.insert r = .ok s' := by
  have hc : s.index.contains (r.owner, r.url) = false := by
    rw [Table.contains, show s.index.get? (r.owner, r.url) = none from h]
    rfl
  exact ⟨_, by rw [insert, hc]; rfl⟩

theorem catalog_erase (r : StoredEndpoint) :
    catalog ⟨s.records.erase r.id, s.index.erase (r.owner, r.url)⟩ = s.catalog.drop Prod.mk r := by
  simp only [catalog, Catalog.drop, Catalog.mk.injEq]
  constructor
  · funext id
    rw [Table.get?_erase, Function.update_apply]
    simp only [eq_comm]
  · funext k
    rw [Table.get?_erase, Function.update_apply]
    simp only [eq_comm]

theorem Anchored.catalog_deleteId (ha : s.Anchored) (id : String) :
    (s.deleteId id).1.catalog = s.catalog.deleteId Prod.mk id := by
  unfold deleteId Catalog.deleteId
  cases hr : s.records.get? id with
  | none =>
    have : s.catalog.record id = none := hr
    rw [this]
  | some r =>
    have hc : s.catalog.record id = some r := hr
    rw [hc]
    obtain rfl : r.id = id := Catalog.Anchored.keyed ha hc
    exact catalog_erase r

theorem catalog_deleteId (hs : s.Sound) (id : String) :
    (s.deleteId id).1.catalog = s.catalog.deleteId Prod.mk id :=
  Anchored.catalog_deleteId (Catalog.Sound.anchored hs) id

theorem catalog_deleteByIds (ids : List String) (hs : s.Sound) :
    (s.deleteByIds ids).1.catalog = s.catalog.deleteByIds Prod.mk ids := by
  induction ids generalizing s with
  | nil => rfl
  | cons id ids ih =>
    have hd := catalog_deleteId hs id
    have hs' : (s.deleteId id).1.Sound := by
      rw [Sound, hd]
      exact Catalog.Sound.deleteId hs id
    show ((s.deleteId id).1.deleteByIds ids).1.catalog = _
    rw [ih hs', hd]
    rfl

theorem catalog_deleteByUrl (hs : s.Sound) (owner url : String) :
    (s.deleteByUrl owner url).1.catalog = s.catalog.deleteAt Prod.mk (owner, url) := by
  unfold deleteByUrl Catalog.deleteAt
  cases hi : s.index.get? (owner, url) with
  | none =>
    have ha : s.catalog.at? (owner, url) = none := (Catalog.Sound.entry_eq_none_iff hs).mp hi
    rw [ha]
  | some id =>
    obtain ⟨r, hr, hp⟩ := (Catalog.Sound.indexed hs).mp hi
    have ha : s.catalog.at? (owner, url) = some r :=
      (Catalog.Sound.at?_eq_some_iff hs).mpr ⟨Catalog.Sound.record_eq hs hr, hp⟩
    rw [ha]
    obtain rfl : r.id = id := Catalog.Sound.keyed hs hr
    obtain ⟨rfl, rfl⟩ := Prod.mk.inj hp
    exact catalog_erase r

/-- An update overwrites what is at the place, and says whether there was anything. -/
theorem catalog_update (hs : s.Sound) (owner url : String) (c : Columns) (now : UInt64) :
    (s.update owner url c now).1.catalog = s.catalog.update (owner, url) c now ∧
      (s.update owner url c now).2 = (s.catalog.at? (owner, url)).isSome := by
  unfold update Catalog.update
  cases hi : s.index.get? (owner, url) with
  | none =>
    have ha : s.catalog.at? (owner, url) = none := (Catalog.Sound.entry_eq_none_iff hs).mp hi
    rw [ha]
    exact ⟨rfl, rfl⟩
  | some id =>
    obtain ⟨r, hr, hp⟩ := (Catalog.Sound.indexed hs).mp hi
    have ha : s.catalog.at? (owner, url) = some r :=
      (Catalog.Sound.at?_eq_some_iff hs).mpr ⟨Catalog.Sound.record_eq hs hr, hp⟩
    have hg : s.records.get? id = some r := hr
    obtain rfl : r.id = id := Catalog.Sound.keyed hs hr
    simp only [ha, hg]
    refine ⟨?_, rfl⟩
    simp only [catalog, Catalog.mk.injEq, and_true]
    funext k
    rw [Table.get?_insert, Function.update_apply]
    simp only [eq_comm]

end RouteSync.MemoryStore
