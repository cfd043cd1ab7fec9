import RouteSync.Proofs.Store.Anchored
import RouteSync.Proofs.Store.Ledger
import RouteSync.Proofs.Store.Size

/-!
# What an insertion adds

An insertion looks at the place of the record and not at its id.  If nothing in the store names the id, every
selection lists afterwards what it listed before, and the owner's own lists the new record as well.  If the id
is in use, the insertion succeeds all the same and a record is lost: `gains_iff_unnamed` says that this is the
one case in which something else happens.
-/

namespace RouteSync

namespace ByteTree

theorem scan_insert {t : ByteTree} {k v : Bytes} (h : t.get? k = none) (lead : Bytes) :
    ((t.insert k v).scan lead).Perm
      (if lead.isPrefixOf k = true then (k, v) :: t.scan lead else t.scan lead) := by
  have hperm := (put_perm (v := v) h).filter fun e => lead.isPrefixOf e.1
  rw [List.filter_cons] at hperm
  exact hperm

end ByteTree

/-! ### In memory -/

namespace MemoryStore

variable {s s' : MemoryStore} {owner : String} {r x : StoredEndpoint}

theorem record_of_mem_select (ha : s.Anchored) (hx : x ∈ s.select owner) :
    s.catalog.record x.id = some x := by
  rw [select, StoredEndpoint.mem_sort, List.mem_filter, Table.mem_values_iff] at hx
  obtain ⟨⟨id, hid⟩, -⟩ := hx
  rw [Catalog.Anchored.keyed ha hid]
  exact hid

theorem mem_select_of_record {id : String} (hx : s.catalog.record id = some x) :
    x ∈ s.select x.owner := by
  rw [select, StoredEndpoint.mem_sort, List.mem_filter, Table.mem_values_iff]
  exact ⟨⟨id, hx⟩, beq_self_eq_true x.owner⟩

theorem select_insert (h : s.insert r = .ok s') (hid : s.catalog.record r.id = none) (owner : String) :
    (s'.select owner).Perm (if owner = r.owner then r :: s.select owner else s.select owner) := by
  have hvalues : s'.records.values = s.records.values ++ [r] := by
    unfold insert at h
    split_ifs at h
    cases h
    have hentries : Table.assign r.id r s.records.entries = s.records.entries ++ [(r.id, r)] :=
      Table.assign_of_find_eq_none hid
    simp only [Table.values, Table.insert, hentries, List.map_append, List.map_cons, List.map_nil]
  have hsort := StoredEndpoint.sort_perm (s.records.values.filter fun x => x.owner == owner)
  unfold select
  refine (StoredEndpoint.sort_perm _).trans ?_
  rw [hvalues, List.filter_append]
  by_cases ho : owner = r.owner
  · have hone : [r].filter (fun x => x.owner == owner) = [r] := by simp [ho]
    rw [if_pos ho, hone]
    exact (List.perm_append_singleton r _).trans (hsort.symm.cons r)
  · have hnone : [r].filter (fun x => x.owner == owner) = [] := by simp [Ne.symm ho]
    rw [if_neg ho, hnone, List.append_nil]
    exact hsort.symm

end MemoryStore

/-! ### In a database -/

/-- If all elements have a result, so has the list. -/
theorem mapM_of_isSome {α β ε : Type} {f : α → Except ε β} {g : α → Option β} {e : ε} {l : List α}
    (hf : ∀ a ∈ l, f a = (g a).elim (.error e) .ok) (hg : ∀ a ∈ l, (g a).isSome = true) :
    l.mapM f = .ok (l.filterMap g) := by
  induction l with
  | nil => rfl
  | cons a l ih =>
    obtain ⟨b, hb⟩ := Option.isSome_iff_exists.mp (hg a List.mem_cons_self)
    have hfa : f a = .ok b := by rw [hf a List.mem_cons_self, hb, Option.elim_some]
    rw [List.mapM_cons, hfa, List.filterMap_cons_some hb,
      ih (fun x hx => hf x (List.mem_cons_of_mem a hx)) fun x hx => hg x (List.mem_cons_of_mem a hx)]
    rfl

/-- If one element fails, so does the list. -/
theorem mapM_of_eq_none {α β ε : Type} {f : α → Except ε β} {g : α → Option β} {e : ε} {l : List α}
    (hf : ∀ a ∈ l, f a = (g a).elim (.error e) .ok) (hg : ∃ a ∈ l, g a = none) :
    l.mapM f = .error e := by
  induction l with
  | nil =>
    obtain ⟨a, ha, -⟩ := hg
    cases ha
  | cons a l ih =>
    rw [List.mapM_cons, hf a List.mem_cons_self]
    cases hga : g a with
    | none => rfl
    | some b =>
      have hrest : ∃ x ∈ l, g x = none := by
        obtain ⟨x, hx, hgx⟩ := hg
        rcases List.mem_cons.mp hx with rfl | hx
        · rw [hga] at hgx
          cases hgx
        · exact ⟨x, hx, hgx⟩
      rw [ih (fun x hx => hf x (List.mem_cons_of_mem a hx)) hrest]
      rfl

namespace EmbeddedStore

open RouteSync.RecordCodec

variable {s s' : EmbeddedStore} {owner : String} {r x : StoredEndpoint} {l : List StoredEndpoint}

/-- The record that an index entry leads to. -/
def found (s : EmbeddedStore) (e : Bytes × Bytes) : Option StoredEndpoint :=
  (text? e.2).bind s.catalog.record

theorem entry_of_mem_scan {e : Bytes × Bytes} (he : e ∈ s.index.scan (ownerKey owner)) :
    s.index.get? e.1 = some e.2 :=
  ByteTree.get?_eq_some_iff.mpr (List.mem_filter.mp he).1

theorem Legible.loadIndexed_eq (hl : s.Legible) {e : Bytes × Bytes} (he : e ∈ s.index.scan (ownerKey owner)) :
    s.loadIndexed owner e.2 =
      (s.found e).elim (.error (.corrupt s!"_discovery_upstream_url_index:{owner}")) .ok := by
  obtain ⟨id, hid⟩ := hl.index (entry_of_mem_scan he)
  rw [loadIndexed, found, hid, text?_textBytes, hl.load_eq, Option.bind_some]
  cases s.catalog.record id <;> rfl

theorem Legible.select_of_found (hl : s.Legible)
    (h : ∀ e ∈ s.index.scan (ownerKey owner), (s.found e).isSome = true) :
    s.select owner = .ok (StoredEndpoint.sort ((s.index.scan (ownerKey owner)).filterMap s.found)) := by
  rw [select, mapM_of_isSome (fun e he => hl.loadIndexed_eq he) h]
  rfl

theorem Legible.select_of_missing (hl : s.Legible)
    (h : ∃ e ∈ s.index.scan (ownerKey owner), s.found e = none) :
    s.select owner = .error (.corrupt s!"_discovery_upstream_url_index:{owner}") := by
  rw [select, mapM_of_eq_none (fun e he => hl.loadIndexed_eq he) h]
  rfl

/-- A selection that succeeds has found what every entry leads to. -/
theorem Legible.found_of_select (hl : s.Legible) (h : s.select owner = .ok l) :
    (∀ e ∈ s.index.scan (ownerKey owner), (s.found e).isSome = true) ∧
      l = StoredEndpoint.sort ((s.index.scan (ownerKey owner)).filterMap s.found) := by
  by_cases hall : ∀ e ∈ s.index.scan (ownerKey owner), (s.found e).isSome = true
  · rw [hl.select_of_found hall] at h
    exact ⟨hall, (Except.ok.inj h).symm⟩
  · have hmissing : ∃ e ∈ s.index.scan (ownerKey owner), s.found e = none := by
      by_contra hno
      refine hall fun e he => Option.isSome_iff_ne_none.mpr fun hn => hno ⟨e, he, hn⟩
    rw [hl.select_of_missing hmissing] at h
    cases h

theorem record_of_mem_select (ha : s.Anchored) (h : s.select owner = .ok l) (hx : x ∈ l) :
    s.catalog.record x.id = some x := by
  obtain ⟨-, rfl⟩ := ha.legible.found_of_select h
  rw [StoredEndpoint.mem_sort, List.mem_filterMap] at hx
  obtain ⟨e, -, he⟩ := hx
  obtain ⟨id, -, hid⟩ := Option.bind_eq_some_iff.mp he
  rw [ha.catalog.keyed hid]
  exact hid

theorem index_insert (h : s.insert r = .ok s') : s.index.get? (indexKey r.owner r.url) = none ∧
    s'.index = s.index.insert (indexKey r.owner r.url) (textBytes r.id) := by
  unfold insert at h
  dsimp only at h
  split_ifs at h with hc
  cases h
  rw [ByteTree.contains, Bool.not_eq_true, Option.isSome_eq_false_iff, Option.isNone_iff_eq_none] at hc
  exact ⟨hc, rfl⟩

theorem found_insert (hc : s'.catalog = s.catalog.add indexKey r) (e : Bytes × Bytes) :
    s'.found e = if text? e.2 = some r.id then some r else s.found e := by
  unfold found
  rw [hc]
  cases text? e.2 with
  | none => simp
  | some id =>
    rw [Option.bind_some, Option.bind_some, Catalog.record_add]
    by_cases hid : id = r.id <;> simp [hid]

/-- No index entry of the scan leads to the new record before the insertion. -/
theorem found_insert_of_scan (hc : s'.catalog = s.catalog.add indexKey r)
    (hid : ∀ k, s.catalog.entry k ≠ some r.id) {e : Bytes × Bytes}
    (he : e ∈ s.index.scan (ownerKey owner)) : s'.found e = s.found e := by
  rw [found_insert hc, if_neg]
  intro hnames
  refine hid e.1 ?_
  show (s.index.get? e.1).bind text? = some r.id
  rw [entry_of_mem_scan he]
  exact hnames

theorem select_insert (ha : s.Anchored) (ho : '\x00' ∉ owner.toList) (hr : '\x00' ∉ r.owner.toList)
    (hfit : r.Fit) (h : s.insert r = .ok s') (hid : ∀ k, s.catalog.entry k ≠ some r.id) :
    (∃ l l', s.select owner = .ok l ∧ s'.select owner = .ok l' ∧
        l'.Perm (if owner = r.owner then r :: l else l)) ∨
      ∃ e, s.select owner = .error e ∧ s'.select owner = .error e := by
  obtain ⟨hl', -, hc⟩ := ha.legible.catalog_insert hfit h
  obtain ⟨hfree, hindex⟩ := index_insert h
  have hnew : s'.found (indexKey r.owner r.url, textBytes r.id) = some r := by
    rw [found_insert hc, text?_textBytes, if_pos rfl]
  have hold : ∀ e ∈ s.index.scan (ownerKey owner), s'.found e = s.found e := fun e he =>
    found_insert_of_scan hc hid he
  have hlead : (ownerKey owner).isPrefixOf (indexKey r.owner r.url) = true ↔ owner = r.owner := by
    constructor
    · exact fun hlead => (owner_eq_of_lists ho hr hlead).symm
    · rintro rfl
      exact lists_self r
  have hscan : (s'.index.scan (ownerKey owner)).Perm (if owner = r.owner then
      (indexKey r.owner r.url, textBytes r.id) :: s.index.scan (ownerKey owner)
      else s.index.scan (ownerKey owner)) := by
    have hperm := ByteTree.scan_insert (v := textBytes r.id) hfree (ownerKey owner)
    rw [← hindex] at hperm
    simpa only [hlead] using hperm
  have hmem : ∀ e, e ∈ s'.index.scan (ownerKey owner) →
      e = (indexKey r.owner r.url, textBytes r.id) ∨ e ∈ s.index.scan (ownerKey owner) := by
    intro e he
    rw [hscan.mem_iff] at he
    split_ifs at he
    · exact List.mem_cons.mp he
    · exact .inr he
  have hkept : ∀ e, e ∈ s.index.scan (ownerKey owner) → e ∈ s'.index.scan (ownerKey owner) := by
    intro e he
    rw [hscan.mem_iff]
    split_ifs
    · exact List.mem_cons_of_mem _ he
    · exact he
  by_cases hall : ∀ e ∈ s.index.scan (ownerKey owner), (s.found e).isSome = true
  · have hall' : ∀ e ∈ s'.index.scan (ownerKey owner), (s'.found e).isSome = true := by
      intro e he
      rcases hmem e he with rfl | he
      · rw [hnew]
        rfl
      · rw [hold e he]
        exact hall e he
    refine .inl ⟨_, _, ha.legible.select_of_found hall, hl'.select_of_found hall', ?_⟩
    have hfound : (s.index.scan (ownerKey owner)).filterMap s'.found =
        (s.index.scan (ownerKey owner)).filterMap s.found := List.filterMap_congr hold
    have hlist := hscan.filterMap s'.found
    refine (StoredEndpoint.sort_perm _).trans (hlist.trans ?_)
    split_ifs
    · rw [List.filterMap_cons_some hnew, hfound]
      exact (StoredEndpoint.sort_perm _).symm.cons r
    · rw [hfound]
      exact (StoredEndpoint.sort_perm _).symm
  · have hmissing : ∃ e ∈ s.index.scan (ownerKey owner), s.found e = none := by
      by_contra hno
      exact hall fun e he => Option.isSome_iff_ne_none.mpr fun hn => hno ⟨e, he, hn⟩
    obtain ⟨e, he, hn⟩ := hmissing
    refine .inr ⟨_, ha.legible.select_of_missing ⟨e, he, hn⟩, hl'.select_of_missing ⟨e, hkept e he, ?_⟩⟩
    rw [hold e he, hn]

/-- The keys of the index are made of owners without a zero character. -/
def PlainKeys (s : EmbeddedStore) : Prop :=
  ∀ k b, s.index.get? k = some b → ∃ owner url, '\x00' ∉ owner.toList ∧ k = indexKey owner url

theorem index_deleteId {id : String} {n : Nat} (h : s.deleteId id = .ok (s', n)) {k b : Bytes}
    (hk : s'.index.get? k = some b) : s.index.get? k = some b := by
  unfold deleteId at h
  obtain ⟨o, -, h⟩ := except_bind_eq_ok.mp h
  cases o with
  | none =>
    cases h
    exact hk
  | some r =>
    cases h
    dsimp only at hk
    split_ifs at hk
    · rw [ByteTree.get?_erase] at hk
      split_ifs at hk
      exact hk
    · exact hk

theorem index_deleteByIds {ids : List String} {n : Nat} (h : s.deleteByIds ids = .ok (s', n)) {k b : Bytes}
    (hk : s'.index.get? k = some b) : s.index.get? k = some b := by
  induction ids generalizing s n with
  | nil =>
    cases h
    exact hk
  | cons id ids ih =>
    obtain ⟨t, j, m, hone, hrest, -⟩ := deleteByIds_cons_eq_ok h
    exact index_deleteId hone (ih hrest)

theorem index_update {url : String} {c : Columns} {now : UInt64} {b : Bool}
    (h : s.update owner url c now = .ok (s', b)) : s'.index = s.index := by
  unfold update at h
  cases hi : s.index.get? (indexKey owner url) with
  | none =>
    rw [hi] at h
    cases h
    rfl
  | some id =>
    rw [hi] at h
    dsimp only at h
    cases hload : s.load id with
    | error e =>
      rw [hload] at h
      cases h
    | ok o =>
      rw [hload] at h
      cases o <;> cases h <;> rfl

theorem PlainKeys.next (hp : s.PlainKeys) {q : StoreRequest} (hq : q.Plain) : (s.next q).PlainKeys := by
  have hfewer : ∀ {s' : EmbeddedStore}, (∀ k b, s'.index.get? k = some b → s.index.get? k = some b) →
      s'.PlainKeys := fun h k b hk => hp k b (h k b hk)
  cases q with
  | select owner => exact hp
  | insert r =>
    cases h : s.insert r with
    | error e =>
      rw [EmbeddedStore.next, h]
      exact hp
    | ok s' =>
      rw [EmbeddedStore.next, h]
      intro k b hk
      rw [show (Except.toOption (Except.ok s' : Except StorageError EmbeddedStore)).getD s = s' from rfl,
        (index_insert h).2, ByteTree.get?_insert] at hk
      split_ifs at hk with hkey
      · exact ⟨r.owner, r.url, hq.1, hkey.symm⟩
      · exact hp k b hk
  | update owner url c now =>
    cases h : s.update owner url c now with
    | error e =>
      rw [EmbeddedStore.next, h]
      exact hp
    | ok p =>
      rw [EmbeddedStore.next, h]
      exact hfewer fun k b hk => index_update h ▸ hk
  | deleteByIds ids =>
    cases h : s.deleteByIds ids with
    | error e =>
      rw [EmbeddedStore.next, h]
      exact hp
    | ok p =>
      rw [EmbeddedStore.next, h]
      exact hfewer fun k b hk => index_deleteByIds h hk
  | deleteByUrl owner url =>
    refine hfewer fun k b hk => ?_
    unfold EmbeddedStore.next deleteByUrl at hk
    dsimp only at hk
    cases hi : s.index.get? (indexKey owner url) with
    | none =>
      rw [hi] at hk
      exact hk
    | some id =>
      rw [hi] at hk
      dsimp only at hk
      rw [ByteTree.get?_erase] at hk
      split_ifs at hk
      exact hk

end EmbeddedStore

/-! ### Both -/

namespace Store

/-- Something in the store goes by an id: a record in memory, an index entry in a database. -/
def Names : Store → String → Prop
  | .memory s, id => ∃ r, s.catalog.record id = some r
  | .embedded s, id => ∃ k, s.catalog.entry k = some id

/-- Every selection is as before, and the one for the owner of a record has the record in addition. -/
def Gains (s s' : Store) (r : StoredEndpoint) : Prop :=
  ∀ owner, (s.isEmbedded = true → '\x00' ∉ owner.toList) →
    (∃ l l', s.select owner = .ok l ∧ s'.select owner = .ok l' ∧
        l'.Perm (if owner = r.owner then r :: l else l)) ∨
      ∃ e, s.select owner = .error e ∧ s'.select owner = .error e

/-- Every selection succeeds. -/
def Selects (s : Store) : Prop :=
  ∀ owner, (s.isEmbedded = true → '\x00' ∉ owner.toList) → ∃ l, s.select owner = .ok l

def PlainKeys : Store → Prop
  | .memory _ => True
  | .embedded s => s.PlainKeys

variable {s s' s₀ : Store} {r x : StoredEndpoint} {qs : List StoreRequest}

theorem PlainKeys.after (hp : s.PlainKeys) (hqs : s.isEmbedded = true → ∀ q ∈ qs, q.Plain) :
    (s.after qs).PlainKeys := by
  induction qs generalizing s with
  | nil => exact hp
  | cons q qs ih =>
    have hnext : (s.next q).PlainKeys := by
      cases s with
      | memory s =>
        rw [next_memory]
        exact trivial
      | embedded s =>
        rw [next_embedded]
        exact EmbeddedStore.PlainKeys.next hp (hqs rfl q List.mem_cons_self)
    refine ih hnext fun he x hx => ?_
    rw [isEmbedded_next] at he
    exact hqs he x (List.mem_cons_of_mem q hx)

theorem IsEmpty.plainKeys (h : s.IsEmpty) : s.PlainKeys := by
  rcases h with rfl | rfl
  · exact trivial
  · rintro k b ⟨⟩

/-- What a selection lists is kept under its id. -/
theorem Anchored.find?_of_select (ha : s.Anchored) {owner : String} {l : List StoredEndpoint}
    (h : s.select owner = .ok l) (hx : x ∈ l) : s.find? x.id = some x := by
  cases s with
  | memory s =>
    cases h
    exact MemoryStore.record_of_mem_select ha hx
  | embedded s => exact EmbeddedStore.record_of_mem_select ha h hx

/-- A selection lists all records of its owner. -/
theorem Anchored.mem_of_select (ha : s.Anchored) {l : List StoredEndpoint} (h : s.select x.owner = .ok l)
    (hx : s.find? x.id = some x) : x ∈ l := by
  cases s with
  | memory s =>
    cases h
    exact MemoryStore.mem_select_of_record hx
  | embedded s =>
    have hkey := ha.legible.entry_eq_some_iff.mp (ha.catalog.named hx)
    obtain ⟨-, rfl⟩ := ha.legible.found_of_select h
    have hscan : (EmbeddedStore.indexKey x.owner x.url, RecordCodec.textBytes x.id) ∈
        s.index.scan (EmbeddedStore.ownerKey x.owner) :=
      List.mem_filter.mpr ⟨ByteTree.get?_eq_some_iff.mp hkey, by simp [EmbeddedStore.indexKey]⟩
    rw [StoredEndpoint.mem_sort]
    refine List.mem_filterMap.mpr ⟨_, hscan, ?_⟩
    rw [EmbeddedStore.found, RecordCodec.text?_textBytes, Option.bind_some]
    exact hx

/-- If every selection succeeds, an id that the store names belongs to a record that is listed. -/
theorem Anchored.listed_of_names (ha : s.Anchored) (hp : s.PlainKeys) (hsel : s.Selects) {id : String}
    (hn : s.Names id) : ∃ owner l x, (s.isEmbedded = true → '\x00' ∉ owner.toList) ∧
      s.select owner = .ok l ∧ x ∈ l ∧ x.id = id := by
  cases s with
  | memory s =>
    obtain ⟨x, hx⟩ := hn
    exact ⟨x.owner, _, x, (by rintro ⟨⟩), rfl, MemoryStore.mem_select_of_record hx,
      Catalog.Anchored.keyed ha hx⟩
  | embedded s =>
    obtain ⟨k, hk⟩ := hn
    have hkey := ha.legible.entry_eq_some_iff.mp hk
    obtain ⟨owner, url, ho, rfl⟩ := hp k _ hkey
    obtain ⟨l, hl⟩ := hsel owner fun _ => ho
    obtain ⟨hfound, rfl⟩ := ha.legible.found_of_select hl
    have hscan : (EmbeddedStore.indexKey owner url, RecordCodec.textBytes id) ∈
        s.index.scan (EmbeddedStore.ownerKey owner) :=
      List.mem_filter.mpr ⟨ByteTree.get?_eq_some_iff.mp hkey, by simp [EmbeddedStore.indexKey]⟩
    obtain ⟨x, hx⟩ := Option.isSome_iff_exists.mp (hfound _ hscan)
    refine ⟨owner, _, x, fun _ => ho, hl, ?_, ?_⟩
    · rw [StoredEndpoint.mem_sort]
      exact List.mem_filterMap.mpr ⟨_, hscan, hx⟩
    · rw [EmbeddedStore.found, RecordCodec.text?_textBytes, Option.bind_some] at hx
      exact ha.catalog.keyed hx

/-- The place of a record that is inserted was free, and the record is under its id afterwards. -/
theorem Anchored.insert_eq_ok (ha : s.Anchored) (hr : s.Takes r) (h : s.insert r = .ok s') :
    s'.Anchored ∧ s'.find? r.id = some r ∧ s.find? r.id ≠ some r := by
  cases s with
  | memory s =>
    obtain ⟨m, hm, rfl⟩ := map_eq_ok.mp h
    obtain ⟨hfree, hc⟩ := MemoryStore.catalog_insert hm
    refine ⟨MemoryStore.Anchored.insert ha hm, ?_, fun hin => ?_⟩
    · show m.catalog.record r.id = some r
      rw [hc, Catalog.record_add, if_pos rfl]
    · cases (Catalog.Anchored.named ha hin).symm.trans hfree
  | embedded s =>
    obtain ⟨m, hm, rfl⟩ := map_eq_ok.mp h
    obtain ⟨-, hfree, hc⟩ := ha.legible.catalog_insert (hr rfl) hm
    refine ⟨EmbeddedStore.Anchored.insert ha (hr rfl) hm, ?_, fun hin => ?_⟩
    · show m.catalog.record r.id = some r
      rw [hc, Catalog.record_add, if_pos rfl]
    · cases (ha.catalog.named hin).symm.trans hfree

/-- **An id that nothing goes by.** -/
theorem Anchored.gains (ha : s.Anchored) (hr : s.isEmbedded = true → (StoreRequest.insert r).Plain)
    (h : s.insert r = .ok s') (hn : ¬ s.Names r.id) : s.Gains s' r := by
  intro owner ho
  cases s with
  | memory s =>
    obtain ⟨m, hm, rfl⟩ := map_eq_ok.mp h
    have hid : s.catalog.record r.id = none := by
      cases hrec : s.catalog.record r.id with
      | none => rfl
      | some x => exact absurd ⟨x, hrec⟩ hn
    exact .inl ⟨_, _, rfl, rfl, MemoryStore.select_insert hm hid owner⟩
  | embedded s =>
    obtain ⟨m, hm, rfl⟩ := map_eq_ok.mp h
    exact EmbeddedStore.select_insert ha (ho rfl) (hr rfl).1 (hr rfl).2 hm fun k hk => hn ⟨k, hk⟩

/-- **An id that is in use**: the record that went by it is lost. -/
theorem Anchored.not_gains (ha : s.Anchored) (hp : s.PlainKeys) (hsel : s.Selects) (hr : s.Takes r)
    (h : s.insert r = .ok s') (hn : s.Names r.id) : ¬ s.Gains s' r := by
  intro hgains
  obtain ⟨owner, l, x, ho, hl, hx, hid⟩ := ha.listed_of_names hp hsel hn
  obtain ⟨ha', hnew, hold⟩ := ha.insert_eq_ok hr h
  rcases hgains owner ho with ⟨l₁, l', hl₁, hl', hperm⟩ | ⟨e, he, -⟩
  · obtain rfl : l = l₁ := Except.ok.inj (hl.symm.trans hl₁)
    have hx' : x ∈ l' := by
      rw [hperm.mem_iff]
      split_ifs
      · exact List.mem_cons_of_mem r hx
      · exact hx
    have hthere := ha.find?_of_select hl hx
    have hstill := ha'.find?_of_select hl' hx'
    rw [hid] at hthere hstill
    obtain rfl : x = r := Option.some.inj (hstill.symm.trans hnew)
    exact hold hthere
  · cases hl.symm.trans he

/-! ### Fresh ids -/

theorem Sound.next (hs : s.Sound) {q : StoreRequest}
    (hq : ∀ r s', q = .insert r → s.insert r = .ok s' → s.find? r.id = none)
    (hfit : s.isEmbedded = true → q.Fit) : (s.next q).Sound := by
  cases q with
  | select owner =>
    obtain ⟨l, hl, -⟩ := exists_select hs owner
    simp only [Store.next, outcome, hl]
    exact hs
  | insert r =>
    cases h : s.insert r with
    | error e =>
      simp only [Store.next, outcome, h]
      exact hs
    | ok s' =>
      simp only [Store.next, outcome, h]
      exact (find?_insert hs hfit (hq r s' rfl h) h).1
  | update owner url c now =>
    obtain ⟨s', b, h, hs', -⟩ := exists_update hs owner url (c := c) hfit now
    simp only [Store.next, outcome, h]
    exact hs'
  | deleteByIds ids =>
    obtain ⟨s', n, h, hs', -⟩ := exists_deleteByIds hs ids
    simp only [Store.next, outcome, h]
    exact hs'
  | deleteByUrl owner url =>
    obtain ⟨s', n, h, hs', -⟩ := exists_deleteByUrl hs owner url
    simp only [Store.next, outcome, h]
    exact hs'

theorem Sound.after (hs : s.Sound) (hf : s.InsertsFresh qs)
    (hqs : s.isEmbedded = true → ∀ q ∈ qs, q.Fit) : (s.after qs).Sound := by
  induction qs generalizing s with
  | nil => exact hs
  | cons q qs ih =>
    obtain ⟨hq, hrest⟩ := hf
    refine ih (hs.next hq fun he => hqs he q List.mem_cons_self) hrest fun he x hx => ?_
    rw [isEmbedded_next] at he
    exact hqs he x (List.mem_cons_of_mem q hx)

/-- In a sound store an id is in use if there is a record under it. -/
theorem Sound.names_iff (hs : s.Sound) {id : String} : s.Names id ↔ s.find? id ≠ none := by
  rw [Option.ne_none_iff_exists']
  cases s with
  | memory s => exact Iff.rfl
  | embedded s =>
    constructor
    · rintro ⟨k, hk⟩
      obtain ⟨x, hx, -⟩ := hs.catalog.indexed.mp hk
      exact ⟨x, hx⟩
    · rintro ⟨x, hx⟩
      exact ⟨_, hs.catalog.indexed.mpr ⟨x, hx, rfl⟩⟩

theorem IsEmpty.sound (h : s.IsEmpty) : s.Sound := by
  rcases h with rfl | rfl
  · exact Reached.memory.sound
  · exact Reached.embedded.sound

theorem insert_eq_error {e : StorageError} (h : s.insert r = .error e) :
    e = .duplicate r.owner r.url := by
  cases s with
  | memory s =>
    unfold insert MemoryStore.insert at h
    dsimp only at h
    split_ifs at h
    · cases h
      rfl
    · cases h
  | embedded s =>
    unfold insert EmbeddedStore.insert at h
    dsimp only at h
    split_ifs at h
    · cases h
      rfl
    · cases h

/-- **What an insertion adds**, in every state that requests of any kind lead to.  A refused one changes
nothing.  One under an id that nothing in the store goes by adds its record to the selection of its owner and
changes no other.  One under an id that is in use never does, provided that all selections succeed before;
they do if no id has been used again, and then the ids in use are those of the stored records. -/
theorem gains_iff_unnamed (h₀ : s₀.IsEmpty) (hqs : s₀.isEmbedded = true → ∀ q ∈ qs, q.Plain)
    (hs : s₀.after qs = s) (hr : s₀.isEmbedded = true → (StoreRequest.insert r).Plain) :
    (∀ e, s.insert r = .error e → e = .duplicate r.owner r.url ∧ s.next (.insert r) = s) ∧
      (∀ s', s.insert r = .ok s' → (¬ s.Names r.id → s.Gains s' r) ∧
        (s.Selects → (s.Gains s' r ↔ ¬ s.Names r.id))) ∧
      (s₀.InsertsFresh qs → s.Selects ∧ (s.Names r.id ↔ s.find? r.id ≠ none)) := by
  subst hs
  have hfit : s₀.isEmbedded = true → ∀ q ∈ qs, q.Fit := fun he q hq => (hqs he q hq).fit
  have ha : (s₀.after qs).Anchored := h₀.anchored.after hfit
  have hp : (s₀.after qs).PlainKeys := h₀.plainKeys.after hqs
  rw [← isEmbedded_after s₀ qs] at hr
  refine ⟨fun e he => ⟨insert_eq_error he, ?_⟩, fun s' h => ?_, fun hf => ?_⟩
  · simp only [Store.next, outcome, he]
    rfl
  · refine ⟨ha.gains hr h, fun hsel => ⟨fun hg hn => ?_, ha.gains hr h⟩⟩
    exact ha.not_gains hp hsel (fun he => (hr he).2) h hn hg
  · have hsound : (s₀.after qs).Sound := h₀.sound.after hf hfit
    refine ⟨fun owner _ => ?_, hsound.names_iff⟩
    obtain ⟨l, hl, -⟩ := exists_select hsound owner
    exact ⟨l, hl⟩

def firstRecord : StoredEndpoint := ⟨"1", "h", "a:1", ⟨"ns", "http://", 0, 50, ""⟩, 7, 7⟩

/-- A record of another owner. -/
def otherRecord (id : String) : StoredEndpoint := ⟨id, "g", "b:2", ⟨"ns", "http://", 0, 60, ""⟩, 8, 8⟩

/-- Under an id of its own the second record joins the first. -/
theorem gains_otherRecord : ∃ s', ((embedded .empty).next (.insert firstRecord)).insert (otherRecord "2") =
      .ok s' ∧ ((embedded .empty).next (.insert firstRecord)).Gains s' (otherRecord "2") ∧
    s'.select "h" = .ok [firstRecord] ∧ s'.select "g" = .ok [otherRecord "2"] := by
  have hfresh : (embedded .empty).InsertsFresh [.insert firstRecord] := by
    refine ⟨?_, trivial⟩
    rintro r s' he -
    cases he
    decide +kernel
  have hplain : ∀ q ∈ [StoreRequest.insert firstRecord], q.Plain := by decide +kernel
  obtain ⟨-, hok, hids⟩ := gains_iff_unnamed (r := otherRecord "2") (.inr rfl) (fun _ => hplain)
    (s := (embedded .empty).next (.insert firstRecord)) rfl fun _ => by decide +kernel
  obtain ⟨-, hnames⟩ := hids hfresh
  refine ⟨_, rfl, (hok _ rfl).1 ?_, by decide +kernel, by decide +kernel⟩
  rw [hnames]
  decide +kernel

/-- Under the id of the first record the second one takes its place.  In memory the first owner is left with
nothing; in a database its selection lists the record of the other owner. -/
theorem not_gains_otherRecord :
    (∃ s', ((memory .empty).next (.insert firstRecord)).insert (otherRecord "1") = .ok s' ∧
      s'.select "h" = .ok [] ∧
      ¬ ((memory .empty).next (.insert firstRecord)).Gains s' (otherRecord "1")) ∧
    ∃ s', ((embedded .empty).next (.insert firstRecord)).insert (otherRecord "1") = .ok s' ∧
      s'.select "h" = .ok [otherRecord "1"] ∧
      ¬ ((embedded .empty).next (.insert firstRecord)).Gains s' (otherRecord "1") := by
  -- only the first record itself may be listed for its owner
  have hlost : ∀ {s s' : Store} {l : List StoredEndpoint}, s.select "h" = .ok [firstRecord] →
      s'.select "h" = .ok l → l ≠ [firstRecord] → ¬ s.Gains s' (otherRecord "1") := by
    intro s s' l hs hs' hne hg
    rcases hg "h" (fun _ => by decide) with ⟨l₁, l₂, h₁, h₂, hperm⟩ | ⟨e, he, -⟩
    · obtain rfl := Except.ok.inj (hs.symm.trans h₁)
      obtain rfl := Except.ok.inj (hs'.symm.trans h₂)
      rw [if_neg (show ¬ "h" = (otherRecord "1").owner by decide)] at hperm
      exact hne (List.perm_singleton.mp hperm)
    · cases hs.symm.trans he
  have hmemory : ((memory .empty).next (.insert firstRecord)).select "h" = .ok [firstRecord] := by
    decide +kernel
  have hembedded : ((embedded .empty).next (.insert firstRecord)).select "h" = .ok [firstRecord] := by
    decide +kernel
  refine ⟨⟨_, rfl, ?_, hlost (l := []) hmemory ?_ (by decide)⟩,
    _, rfl, ?_, hlost (l := [otherRecord "1"]) hembedded ?_ (by decide)⟩ <;> decide +kernel

end Store

end RouteSync
