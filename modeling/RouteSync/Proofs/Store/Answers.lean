import Mathlib.Data.Finset.Card
import Mathlib.Data.List.Forall2
import Mathlib.Data.List.Perm.Basic
import RouteSync.Proofs.Store.Contents

/-!
# What a store answers

The answers of a sound store are determined by what it holds.  A selection lists every record once and in
order (`nodup_select`, `pairwise_select`), a record is kept out only by one at its place
(`insert_of_hits`), and a deletion counts the records that it removes (`deleteByIds_card`,
`deleteByUrl_card`).
-/

namespace RouteSync

theorem StoredEndpoint.eq_place_of_not_before {a b : StoredEndpoint} (h : ¬ a.before b = true)
    (h' : ¬ b.before a = true) : a.created = b.created ∧ a.url = b.url := by
  simp only [before_iff, not_or, not_and, UInt64.not_lt, String.not_lt] at h h'
  have hc : a.created = b.created := UInt64.le_antisymm h'.1 h.1
  exact ⟨hc, String.le_antisymm (h'.2 hc.symm) (h.2 hc)⟩

/-! ### In memory -/

namespace MemoryStore

variable {s : MemoryStore}

theorem map_id_values (ha : s.Anchored) : s.records.values.map StoredEndpoint.id = s.records.keys := by
  rw [Table.values, Table.keys, List.map_map]
  refine List.map_congr_left fun e he => ?_
  exact ha.keyed (Table.get?_eq_some_iff.mpr he)

theorem nodup_values (ha : s.Anchored) : s.records.values.Nodup := by
  have hkeys : (s.records.values.map StoredEndpoint.id).Nodup := by
    rw [map_id_values ha]
    exact s.records.nodup
  exact hkeys.of_map _

theorem insert_of_entry {r : StoredEndpoint} {id : String}
    (h : s.catalog.entry (r.owner, r.url) = some id) : s.insert r = .error (.duplicate r.owner r.url) := by
  have hc : s.index.contains (r.owner, r.url) = true := by
    rw [Table.contains, show s.index.get? (r.owner, r.url) = some id from h]
    rfl
  rw [insert, if_pos hc]

theorem deleteId_snd (id : String) : (s.deleteId id).2 = if (s.catalog.record id).isSome then 1 else 0 := by
  unfold deleteId
  show _ = if (s.records.get? id).isSome then 1 else 0
  cases s.records.get? id <;> rfl

theorem deleteByUrl_snd (hs : s.Sound) (owner url : String) :
    (s.deleteByUrl owner url).2 = if (s.catalog.at? (owner, url)).isSome then 1 else 0 := by
  unfold deleteByUrl Catalog.at?
  show _ = if ((s.index.get? (owner, url)).bind s.catalog.record).isSome then 1 else 0
  cases hi : s.index.get? (owner, url) with
  | none => rfl
  | some id =>
    obtain ⟨r, hr, -⟩ := (Catalog.Sound.indexed hs).mp hi
    have hc : s.records.contains id = true := by
      rw [Table.contains, show s.records.get? id = some r from hr]
      rfl
    simp [hc, hr]

end MemoryStore

/-! ### In a database -/

/-- The outcomes of a list stand in the order of its elements. -/
theorem forall₂_of_mapM {α β ε : Type} {f : α → Except ε β} {l : List α} {l' : List β}
    (h : l.mapM f = .ok l') : List.Forall₂ (fun a b => f a = .ok b) l l' := by
  induction l generalizing l' with
  | nil =>
    cases h
    exact .nil
  | cons a l ih =>
    rw [List.mapM_cons] at h
    cases ha : f a with
    | error e =>
      rw [ha] at h
      cases h
    | ok b =>
      cases hl : l.mapM f with
      | error e =>
        rw [ha, hl] at h
        cases h
      | ok bs =>
        rw [ha, hl] at h
        cases h
        exact .cons ha (ih hl)

namespace EmbeddedStore

open RouteSync.RecordCodec

variable {s : EmbeddedStore}

/-- What is found under the entries of a scan stands at their places. -/
theorem map_indexKey_of_mapM (hs : s.Sound) {owner : String} {found : List StoredEndpoint}
    {entries : List (Bytes × Bytes)} (hsub : ∀ e ∈ entries, e ∈ s.index.entries)
    (h : List.Forall₂ (fun e r => s.loadIndexed owner e.2 = .ok r) entries found) :
    (found.map fun r => indexKey r.owner r.url) = entries.map Prod.fst := by
  induction h with
  | nil => rfl
  | @cons e r entries found hload _ ih =>
    rw [List.map_cons, List.map_cons, ih fun x hx => hsub x (List.mem_cons_of_mem e hx)]
    congr 1
    have hk : s.index.get? e.1 = some e.2 := ByteTree.get?_eq_some_iff.mpr (hsub e (by simp))
    obtain ⟨id, hid⟩ := hs.legible.index hk
    rw [hid] at hk hload
    obtain ⟨x, hx, hp⟩ := hs.catalog.indexed.mp (hs.legible.entry_eq_some_iff.mpr hk)
    have hload' : s.loadIndexed owner (textBytes id) = .ok x := by
      simp only [loadIndexed, hs.legible.load_eq, hx]
      rfl
    rw [hload] at hload'
    cases hload'
    exact hp

theorem nodup_found (hs : s.Sound) {owner : String} {found : List StoredEndpoint}
    (h : ((s.index.scan (ownerKey owner)).mapM fun e => s.loadIndexed owner e.2) = .ok found) :
    found.Nodup := by
  have hkeys : (found.map fun r => indexKey r.owner r.url) =
      (s.index.scan (ownerKey owner)).map Prod.fst :=
    map_indexKey_of_mapM hs (fun e he => (List.mem_filter.mp he).1) (forall₂_of_mapM h)
  have hscan : ((s.index.scan (ownerKey owner)).map Prod.fst).Nodup := by
    refine (s.index.sorted.sublist (List.filter_sublist.map _)).imp fun hlt he => ?_
    exact List.lt_irrefl _ (he ▸ hlt)
  rw [← hkeys] at hscan
  exact hscan.of_map _

theorem select_eq_ok {owner : String} {l : List StoredEndpoint} (h : s.select owner = .ok l) :
    ∃ found, ((s.index.scan (ownerKey owner)).mapM fun e => s.loadIndexed owner e.2) = .ok found ∧
      l = StoredEndpoint.sort found := by
  unfold select at h
  cases hf : (s.index.scan (ownerKey owner)).mapM fun e => s.loadIndexed owner e.2 with
  | error e =>
    rw [hf] at h
    cases h
  | ok found =>
    rw [hf] at h
    cases h
    exact ⟨found, rfl, rfl⟩

theorem insert_of_entry (hl : s.Legible) {r : StoredEndpoint} {id : String}
    (h : s.catalog.entry (indexKey r.owner r.url) = some id) :
    s.insert r = .error (.duplicate r.owner r.url) := by
  have hc : s.index.contains (indexKey r.owner r.url) = true := by
    rw [ByteTree.contains, hl.entry_eq_some_iff.mp h]
    rfl
  unfold insert
  dsimp only
  rw [if_pos hc]

theorem deleteId_snd (hs : s.Sound) {s' : EmbeddedStore} {id : String} {n : Nat}
    (h : s.deleteId id = .ok (s', n)) : n = if (s.catalog.record id).isSome then 1 else 0 := by
  unfold deleteId at h
  simp only [hs.legible.load_eq] at h
  cases hr : s.catalog.record id with
  | none =>
    rw [hr] at h
    cases h
    rfl
  | some r =>
    rw [hr] at h
    cases h
    rfl

theorem deleteByUrl_snd (hs : s.Sound) (owner url : String) :
    (s.deleteByUrl owner url).2 = if (s.catalog.at? (indexKey owner url)).isSome then 1 else 0 := by
  unfold deleteByUrl Catalog.at?
  dsimp only
  cases hi : s.index.get? (indexKey owner url) with
  | none =>
    rw [hs.legible.entry_eq_none_iff.mpr hi]
    rfl
  | some b =>
    obtain ⟨id, rfl⟩ := hs.legible.index hi
    have he := hs.legible.entry_eq_some_iff.mpr hi
    obtain ⟨r, hr, -⟩ := hs.catalog.indexed.mp he
    obtain ⟨-, -, hw⟩ := hs.legible.record_eq_some_iff.mp hr
    simp [he, hr, ByteTree.contains, hw]

end EmbeddedStore

/-! ### Both -/

namespace Store

variable {s s' : Store} {owner url : String} {l : List StoredEndpoint}

theorem nodup_select (hs : s.Sound) (h : s.select owner = .ok l) : l.Nodup := by
  cases s with
  | memory s =>
    cases h
    exact (StoredEndpoint.sort_perm _).nodup_iff.mpr ((MemoryStore.nodup_values (Catalog.Sound.anchored hs)).filter _)
  | embedded s =>
    obtain ⟨found, hf, rfl⟩ := EmbeddedStore.select_eq_ok h
    exact (StoredEndpoint.sort_perm _).nodup_iff.mpr (EmbeddedStore.nodup_found hs hf)

theorem pairwise_select (h : s.select owner = .ok l) : l.Pairwise fun a b => ¬ b.before a = true := by
  cases s with
  | memory s =>
    cases h
    exact StoredEndpoint.pairwise_sort _
  | embedded s =>
    obtain ⟨found, -, rfl⟩ := EmbeddedStore.select_eq_ok h
    exact StoredEndpoint.pairwise_sort _

/-- **A record at its place** keeps a record out. -/
theorem insert_of_hits (hs : s.Sound) {r x : StoredEndpoint} (hx : x ∈ s) (hh : s.Hits r.owner r.url x) :
    s.insert r = .error (.duplicate r.owner r.url) := by
  cases s with
  | memory s =>
    have he : s.catalog.entry (r.owner, r.url) = some x.id := (Catalog.Sound.indexed hs).mpr ⟨x, hx, hh⟩
    rw [insert, MemoryStore.insert_of_entry he]
    rfl
  | embedded s =>
    have he : s.catalog.entry (EmbeddedStore.indexKey r.owner r.url) = some x.id :=
      hs.catalog.indexed.mpr ⟨x, hx, hh⟩
    rw [insert, EmbeddedStore.insert_of_entry hs.legible he]
    rfl

/-- The ids under which there are records, each counted once. -/
def present (s : Store) (ids : List String) : Nat :=
  (ids.toFinset.filter fun id => (s.find? id).isSome).card

theorem present_cons {id : String} {ids : List String}
    (hf : ∀ a, s'.find? a = if a = id then none else s.find? a) :
    s.present (id :: ids) = (if (s.find? id).isSome then 1 else 0) + s'.present ids := by
  have hrest : (ids.toFinset.filter fun a => (s'.find? a).isSome) =
      (ids.toFinset.filter fun a => (s.find? a).isSome).erase id := by
    ext a
    rw [Finset.mem_filter, Finset.mem_erase, Finset.mem_filter, hf]
    by_cases ha : a = id <;> simp [ha]
  unfold present
  rw [hrest, List.toFinset_cons, Finset.filter_insert]
  split_ifs with hid
  · rw [Nat.add_comm, ← Finset.erase_insert_eq_erase]
    exact (Finset.card_erase_add_one (Finset.mem_insert_self id _)).symm
  · rw [Nat.zero_add, Finset.erase_eq_of_notMem]
    rw [Finset.mem_filter]
    exact fun h => hid h.2

theorem deleteByIds_cons {id : String} {ids : List String} :
    s.deleteByIds (id :: ids) = (s.deleteByIds [id]).bind fun p =>
      (p.1.deleteByIds ids).map fun q => (q.1, p.2 + q.2) := by
  cases s with
  | memory s => rfl
  | embedded s =>
    simp only [deleteByIds, EmbeddedStore.deleteByIds]
    cases s.deleteId id with
    | error e => rfl
    | ok p =>
      obtain ⟨s₁, n⟩ := p
      show Except.map _ ((s₁.deleteByIds ids).bind fun q => .ok (q.1, n + q.2)) =
        ((s₁.deleteByIds ids).map _).map _
      cases s₁.deleteByIds ids <;> rfl

theorem deleteByIds_single (hs : s.Sound) {id : String} {n : Nat} (h : s.deleteByIds [id] = .ok (s', n)) :
    n = if (s.find? id).isSome then 1 else 0 := by
  cases s with
  | memory s =>
    cases h
    exact MemoryStore.deleteId_snd id
  | embedded s =>
    obtain ⟨⟨m, k⟩, hm, he⟩ := map_eq_ok.mp h
    cases he
    unfold EmbeddedStore.deleteByIds at hm
    cases hd : s.deleteId id with
    | error e =>
      rw [hd] at hm
      cases hm
    | ok p =>
      rw [hd] at hm
      cases hm
      exact EmbeddedStore.deleteId_snd hs hd

/-- **A deletion by ids** counts every record that it removes. -/
theorem deleteByIds_card (hs : s.Sound) {ids : List String} {n : Nat} (h : s.deleteByIds ids = .ok (s', n)) :
    n = s.present ids := by
  induction ids generalizing s n with
  | nil =>
    cases s with
    | memory s =>
      cases h
      rfl
    | embedded s =>
      cases h
      rfl
  | cons id ids ih =>
    obtain ⟨s₁, k, h₁, hs₁, -, hf⟩ := exists_deleteByIds hs [id]
    rw [deleteByIds_cons, h₁] at h
    obtain ⟨⟨s₂, m⟩, h₂, he⟩ := map_eq_ok.mp h
    cases he
    rw [ih hs₁ h₂, deleteByIds_single hs h₁, present_cons]
    intro a
    rw [hf]
    simp

/-- **A deletion by address** counts the record that it removes. -/
theorem deleteByUrl_card (hs : s.Sound) {n : Nat} (h : s.deleteByUrl owner url = .ok (s', n)) :
    (n = 1 ∧ ∃ r ∈ s, s.Hits owner url r) ∨ n = 0 ∧ ∀ r ∈ s, ¬ s.Hits owner url r := by
  have split : ∀ {o : Option StoredEndpoint}, (∀ r, o = some r ↔ r ∈ s ∧ s.Hits owner url r) →
      n = (if o.isSome then 1 else 0) →
      (n = 1 ∧ ∃ r ∈ s, s.Hits owner url r) ∨ n = 0 ∧ ∀ r ∈ s, ¬ s.Hits owner url r := by
    intro o ho hn
    cases o with
    | none =>
      refine .inr ⟨hn, fun r hr hh => ?_⟩
      cases (ho r).mpr ⟨hr, hh⟩
    | some r => exact .inl ⟨hn, r, (ho r).mp rfl⟩
  cases s with
  | memory s =>
    cases h
    exact split (fun r => Catalog.Sound.at?_eq_some_iff hs) (MemoryStore.deleteByUrl_snd hs owner url)
  | embedded s =>
    cases h
    exact split (fun r => hs.catalog.at?_eq_some_iff) (EmbeddedStore.deleteByUrl_snd hs owner url)

end Store

end RouteSync
