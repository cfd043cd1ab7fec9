import RouteSync.Proofs.Store.Insertion

/-!
# One record at an address

No owner ever has two records at one address, whatever is requested and whichever ids are used again
(`unambiguous_after`).  An id that is used again leaves an index entry behind that names a record of another
place, so it is not the entries that tell the records apart.  What carries the statement is the other
direction, that every record is named at its place: two records at one address would have one id.

A selection in memory is therefore in strict order, and it is the same in whatever order the table gives its
records.
-/

namespace RouteSync

/-! ### The order of the records of one owner -/

namespace StoredEndpoint

/-- Where a record stands. -/
def place (r : StoredEndpoint) : String × String := (r.owner, r.url)

/-- The records of one owner at different addresses are strictly in order. -/
theorem pairwise_before {owner : String} {l : List StoredEndpoint} (hl : (l.map place).Nodup)
    (ho : ∀ r ∈ l, r.owner = owner) (hsorted : l.Pairwise fun a b => ¬ b.before a = true) :
    l.Pairwise fun a b => a.before b = true := by
  have hplaces : l.Pairwise fun a b => a.place ≠ b.place := List.pairwise_map.mp hl
  refine (hsorted.and hplaces).imp_of_mem fun {a b} ha hb h => ?_
  by_contra hab
  have hurl : a.url = b.url := (eq_place_of_not_before hab h.1).2
  exact h.2 (Prod.ext ((ho a ha).trans (ho b hb).symm) hurl)

/-- A list has one arrangement in strict order. -/
theorem eq_of_perm {l l' : List StoredEndpoint} (hl : l.Pairwise fun a b => a.before b = true)
    (hl' : l'.Pairwise fun a b => a.before b = true) (h : l.Perm l') : l = l' := by
  refine h.eq_of_pairwise (fun a b _ _ hab hba => ?_) hl hl'
  exact absurd (before_trans hab hba) (before_irrefl a)

end StoredEndpoint

/-! ### In memory -/

namespace MemoryStore

variable {s : MemoryStore}

theorem Anchored.mem_values_iff (ha : s.Anchored) {r : StoredEndpoint} :
    r ∈ s.records.values ↔ s.catalog.record r.id = some r := by
  rw [Table.mem_values_iff]
  constructor
  · rintro ⟨id, hid⟩
    rw [Catalog.Anchored.keyed ha hid]
    exact hid
  · exact fun hr => ⟨r.id, hr⟩

end MemoryStore

/-! ### In a database -/

namespace EmbeddedStore

open RouteSync.RecordCodec

/-- The records that the tree holds, in the order of their ids. -/
def kept (s : EmbeddedStore) : List StoredEndpoint := s.records.entries.filterMap fun e => decode? e.2

variable {s : EmbeddedStore}

theorem map_id_of_entries {l : List (Bytes × Bytes)}
    (h : ∀ e ∈ l, ∃ r, decode? e.2 = some r ∧ textBytes r.id = e.1) :
    ((l.filterMap fun e => decode? e.2).map fun r => textBytes r.id) = l.map Prod.fst := by
  induction l with
  | nil => rfl
  | cons e l ih =>
    obtain ⟨r, hr, hid⟩ := h e List.mem_cons_self
    have hrest := ih fun x hx => h x (List.mem_cons_of_mem e hx)
    simp only [List.filterMap_cons, hr, List.map_cons, hid, hrest]

/-- Every entry reads back as a record of its id. -/
theorem Legible.map_id_kept (hl : s.Legible) :
    (s.kept.map fun r => textBytes r.id) = s.records.entries.map Prod.fst := by
  refine map_id_of_entries fun e he => ?_
  obtain ⟨r, hfit, hid, henc⟩ := hl.records (ByteTree.get?_eq_some_iff.mpr he)
  exact ⟨r, by rw [henc, decode?_encode hfit], hid.symm⟩

theorem Legible.length_kept (hl : s.Legible) : s.kept.length = s.size := by
  have hlen := congrArg List.length hl.map_id_kept
  rw [List.length_map, List.length_map] at hlen
  exact hlen

theorem Legible.nodup_kept (hl : s.Legible) : s.kept.Nodup := by
  have hkeys : (s.kept.map fun r => textBytes r.id).Nodup := by
    rw [hl.map_id_kept]
    refine s.records.sorted.imp fun hlt he => ?_
    exact List.lt_irrefl _ (he ▸ hlt)
  exact hkeys.of_map _

theorem Anchored.mem_kept_iff (ha : s.Anchored) {r : StoredEndpoint} :
    r ∈ s.kept ↔ s.catalog.record r.id = some r := by
  rw [kept, List.mem_filterMap]
  constructor
  · rintro ⟨e, he, hdec⟩
    have hget : s.records.get? e.1 = some e.2 := ByteTree.get?_eq_some_iff.mpr he
    obtain ⟨x, hfit, hid, henc⟩ := ha.legible.records hget
    rw [henc, decode?_encode hfit] at hdec
    cases hdec
    rw [hid, henc] at hget
    exact ha.legible.record_eq_some_iff.mpr ⟨hfit, rfl, hget⟩
  · intro hr
    obtain ⟨hfit, -, hget⟩ := ha.legible.record_eq_some_iff.mp hr
    exact ⟨(textBytes r.id, encode r), ByteTree.get?_eq_some_iff.mp hget, decode?_encode hfit⟩

end EmbeddedStore

/-! ### Both -/

namespace Store

/-- The records that a store holds. -/
def kept : Store → List StoredEndpoint
  | .memory s => s.records.values
  | .embedded s => s.kept

/-- The id that the index names for an owner and an address. -/
def named? : Store → String → String → Option String
  | .memory s, owner, url => s.index.get? (owner, url)
  | .embedded s, owner, url =>
    (s.index.get? (EmbeddedStore.indexKey owner url)).bind RecordCodec.text?

/-- Everything that is kept can be read, no two records stand at one place, and the index names the record
of every place. -/
structure Unambiguous (s : Store) : Prop where
  legible : s.kept.length = s.size
  places : (s.kept.map StoredEndpoint.place).Nodup
  named : ∀ r ∈ s.kept, s.named? r.owner r.url = some r.id

variable {s s₀ : Store} {qs : List StoreRequest}

theorem Anchored.mem_kept_iff (ha : s.Anchored) {r : StoredEndpoint} : r ∈ s.kept ↔ r ∈ s := by
  cases s with
  | memory s => exact MemoryStore.Anchored.mem_values_iff ha
  | embedded s => exact EmbeddedStore.Anchored.mem_kept_iff ha

theorem Anchored.nodup_kept (ha : s.Anchored) : s.kept.Nodup := by
  cases s with
  | memory s => exact MemoryStore.nodup_values ha
  | embedded s => exact ha.legible.nodup_kept

theorem Anchored.length_kept (ha : s.Anchored) : s.kept.length = s.size := by
  cases s with
  | memory s => exact List.length_map Prod.snd
  | embedded s => exact ha.legible.length_kept

theorem Anchored.named?_eq (ha : s.Anchored) {r : StoredEndpoint} (hr : r ∈ s) :
    s.named? r.owner r.url = some r.id := by
  cases s with
  | memory s => exact Catalog.Anchored.named ha hr
  | embedded s => exact ha.catalog.named hr

/-- Two records at one place go by the one id that is named there. -/
theorem Anchored.eq_of_place (ha : s.Anchored) {a b : StoredEndpoint} (has : a ∈ s) (hbs : b ∈ s)
    (h : a.place = b.place) : a = b := by
  obtain ⟨howner, hurl⟩ := Prod.mk.inj h
  have hid : some a.id = some b.id := by
    rw [← ha.named?_eq has, ← ha.named?_eq hbs, howner, hurl]
  rw [mem_iff, Option.some.inj hid, mem_iff.mp hbs] at has
  exact (Option.some.inj has).symm

theorem Anchored.unambiguous (ha : s.Anchored) : s.Unambiguous where
  legible := ha.length_kept
  places := by
    refine List.Nodup.map_on (fun a haw b hbw hp => ?_) ha.nodup_kept
    exact ha.eq_of_place (ha.mem_kept_iff.mp haw) (ha.mem_kept_iff.mp hbw) hp
  named r hr := ha.named?_eq (ha.mem_kept_iff.mp hr)

/-- The records of an owner, in whatever order they come, are sorted strictly. -/
theorem Unambiguous.pairwise_sort (hs : s.Unambiguous) {l : List StoredEndpoint} (hl : l.Perm s.kept)
    (owner : String) : (StoredEndpoint.sort (l.filter fun r => r.owner == owner)).Pairwise
      fun a b => a.before b = true := by
  have hplaces : (l.map StoredEndpoint.place).Nodup :=
    (hl.map StoredEndpoint.place).nodup_iff.mpr hs.places
  have howned : ((l.filter fun r => r.owner == owner).map StoredEndpoint.place).Nodup :=
    hplaces.sublist (List.filter_sublist.map _)
  have hperm := StoredEndpoint.sort_perm (l.filter fun r => r.owner == owner)
  have hown : ∀ r ∈ StoredEndpoint.sort (l.filter fun r => r.owner == owner), r.owner = owner := by
    intro r hr
    simpa using (List.mem_filter.mp (StoredEndpoint.mem_sort.mp hr)).2
  refine StoredEndpoint.pairwise_before ?_ hown (StoredEndpoint.pairwise_sort _)
  exact (hperm.map StoredEndpoint.place).nodup_iff.mpr howned

/-- **One record at an address**, in every store that requests of any kind lead to: ids may be used again at
will.  In memory a selection is strictly in order, and it is what any order of the records gives. -/
theorem unambiguous_after (h₀ : s₀.IsEmpty) (hqs : s₀.isEmbedded = true → ∀ q ∈ qs, q.Fit) :
    (s₀.after qs).Unambiguous ∧
      ∀ m, s₀.after qs = .memory m → ∀ owner,
        ((m.select owner).Pairwise fun a b => a.before b = true) ∧
          ∀ l : List StoredEndpoint, l.Perm m.records.values →
            StoredEndpoint.sort (l.filter fun r => r.owner == owner) = m.select owner := by
  have hs : (s₀.after qs).Unambiguous := (h₀.anchored.after hqs).unambiguous
  refine ⟨hs, fun m hm owner => ?_⟩
  rw [hm] at hs
  have hselect : (m.select owner).Pairwise fun a b => a.before b = true :=
    hs.pairwise_sort (.refl _) owner
  refine ⟨hselect, fun l hl => ?_⟩
  have hsame : (StoredEndpoint.sort (l.filter fun r => r.owner == owner)).Perm (m.select owner) :=
    (StoredEndpoint.sort_perm _).trans ((hl.filter _).trans (StoredEndpoint.sort_perm _).symm)
  exact StoredEndpoint.eq_of_perm (hs.pairwise_sort hl owner) hselect hsame

/-- A record of the first owner at another address. -/
def laterRecord : StoredEndpoint := ⟨"2", "h", "c:3", ⟨"ns", "http://", 0, 50, ""⟩, 9, 9⟩

/-- A second record under the id of the first, a third one, and one at the place of the second. -/
def reusingRequests : List StoreRequest :=
  [.insert firstRecord, .insert (otherRecord "1"), .insert laterRecord, .insert (otherRecord "3")]

/-- The place of the record that was replaced still names its id, and no place has two records. -/
theorem unambiguous_after_reuse :
    (((memory .empty).after reusingRequests).Unambiguous ∧
        ((memory .empty).after reusingRequests).named? "h" "a:1" = some "1" ∧
        ((memory .empty).after reusingRequests).kept = [otherRecord "1", laterRecord]) ∧
      ((embedded .empty).after reusingRequests).Unambiguous ∧
        ((embedded .empty).after reusingRequests).named? "h" "a:1" = some "1" ∧
        ((embedded .empty).after reusingRequests).kept = [otherRecord "1", laterRecord] := by
  have hplain : ∀ q ∈ reusingRequests, q.Plain := by decide +kernel
  refine ⟨⟨?_, by decide +kernel, by decide +kernel⟩, ?_, by decide +kernel, by decide +kernel⟩
  · exact (unambiguous_after (.inl rfl) (by rintro ⟨⟩)).1
  · exact (unambiguous_after (.inr rfl) fun _ q hq => (hplain q hq).fit).1

end Store

end RouteSync
