import RouteSync.Proofs.Store.Catalog
import RouteSync.Proofs.Store.RecordBytes
import RouteSync.Store.Embedded

/-!
# The store in an embedded database as a catalog

The places of an embedded store are its index keys: owner, a zero byte and address in one.  On a sound
store no operation finds anything that it cannot read, and every operation does to the catalog what the
operation of the same name does to a catalog.  A selection scans by the bytes of the owner and the zero
byte; it lists the records whose index keys begin with these (`exists_select`), which are the owner's own
as long as owners hold no zero character (`owner_eq_of_lists`).
-/

namespace RouteSync.EmbeddedStore

open RouteSync.RecordCodec

def catalog (s : EmbeddedStore) : Catalog Bytes where
  record id := (s.records.get? (textBytes id)).bind decode?
  entry k := (s.index.get? k).bind text?

/-- The trees hold nothing but what the store has written. -/
structure Legible (s : EmbeddedStore) : Prop where
  records : ∀ {b w}, s.records.get? b = some w →
    ∃ r : StoredEndpoint, r.Fit ∧ b = textBytes r.id ∧ w = encode r
  index : ∀ {k b}, s.index.get? k = some b → ∃ id, b = textBytes id

/-- The trees are legible and tell the same. -/
structure Sound (s : EmbeddedStore) : Prop where
  legible : s.Legible
  catalog : s.catalog.Sound indexKey

/-- Whether a selection for an owner lists a record. -/
def lists (owner : String) (r : StoredEndpoint) : Bool := (ownerKey owner).isPrefixOf (indexKey r.owner r.url)

theorem sound_empty : empty.Sound where
  legible := ⟨fun h => absurd h (by simp [empty, ByteTree.get?, ByteTree.empty, ByteTree.find]),
    fun h => absurd h (by simp [empty, ByteTree.get?, ByteTree.empty, ByteTree.find])⟩
  catalog := Catalog.sound_empty

variable {s s' : EmbeddedStore}

/-! ### Reading -/

theorem Legible.record_eq_some_iff (hl : s.Legible) {id : String} {r : StoredEndpoint} :
    s.catalog.record id = some r ↔
      r.Fit ∧ r.id = id ∧ s.records.get? (textBytes id) = some (encode r) := by
  simp only [EmbeddedStore.catalog, Option.bind_eq_some_iff]
  constructor
  · rintro ⟨w, hw, hd⟩
    obtain ⟨x, hx, hb, rfl⟩ := hl.records hw
    rw [decode?_encode hx] at hd
    cases hd
    exact ⟨hx, (textBytes_inj.mp hb).symm, hw⟩
  · rintro ⟨hf, -, hw⟩
    exact ⟨_, hw, decode?_encode hf⟩

theorem Legible.record_eq_none_iff (hl : s.Legible) {id : String} :
    s.catalog.record id = none ↔ s.records.get? (textBytes id) = none := by
  simp only [EmbeddedStore.catalog, Option.bind_eq_none_iff]
  constructor
  · intro h
    cases hw : s.records.get? (textBytes id) with
    | none => rfl
    | some w =>
      obtain ⟨x, hx, -, rfl⟩ := hl.records hw
      exact absurd (h _ hw) (by simp [decode?_encode hx])
  · intro h w hw
    rw [h] at hw
    cases hw

theorem Legible.entry_eq_some_iff (hl : s.Legible) {k : Bytes} {id : String} :
    s.catalog.entry k = some id ↔ s.index.get? k = some (textBytes id) := by
  simp only [EmbeddedStore.catalog, Option.bind_eq_some_iff]
  constructor
  · rintro ⟨b, hb, ht⟩
    obtain ⟨id', rfl⟩ := hl.index hb
    rw [text?_textBytes] at ht
    cases ht
    exact hb
  · intro h
    exact ⟨_, h, text?_textBytes id⟩

theorem Legible.entry_eq_none_iff (hl : s.Legible) {k : Bytes} :
    s.catalog.entry k = none ↔ s.index.get? k = none := by
  simp only [EmbeddedStore.catalog, Option.bind_eq_none_iff]
  constructor
  · intro h
    cases hb : s.index.get? k with
    | none => rfl
    | some b =>
      obtain ⟨id, rfl⟩ := hl.index hb
      exact absurd (h _ hb) (by simp [text?_textBytes])
  · intro h b hb
    rw [h] at hb
    cases hb

theorem Legible.load_eq (hl : s.Legible) (id : String) :
    s.load (textBytes id) = .ok (s.catalog.record id) := by
  unfold load
  cases hr : s.catalog.record id with
  | none => rw [hl.record_eq_none_iff.mp hr]
  | some r =>
    obtain ⟨hf, -, hw⟩ := hl.record_eq_some_iff.mp hr
    simp [hw, decode?_encode hf]

/-- If every element has an outcome, so has the list, and it lists the outcomes. -/
theorem exists_mapM {α β ε : Type} {f : α → Except ε β} {l : List α} (h : ∀ a ∈ l, ∃ b, f a = .ok b) :
    ∃ l', l.mapM f = .ok l' ∧ ∀ b, b ∈ l' ↔ ∃ a ∈ l, f a = .ok b := by
  induction l with
  | nil => exact ⟨[], rfl, by simp⟩
  | cons a l ih =>
    obtain ⟨b, hb⟩ := h a (by simp)
    obtain ⟨l', hl', hm⟩ := ih fun x hx => h x (by simp [hx])
    refine ⟨b :: l', by rw [List.mapM_cons, hb, hl']; rfl, fun x => ?_⟩
    simp only [List.mem_cons, hm, exists_eq_or_imp, hb, Except.ok.injEq]
    rw [eq_comm]

/-- **Selections of a sound store** succeed and list what their scan covers. -/
theorem exists_select (hs : s.Sound) (owner : String) :
    ∃ l, s.select owner = .ok l ∧
      ∀ r, r ∈ l ↔ s.catalog.record r.id = some r ∧ lists owner r = true := by
  have hload : ∀ e ∈ s.index.scan (ownerKey owner), ∃ r, s.loadIndexed owner e.2 = .ok r ∧
      s.catalog.record r.id = some r ∧ indexKey r.owner r.url = e.1 := by
    rintro ⟨k, b⟩ he
    have hk : s.index.get? k = some b := ByteTree.get?_eq_some_iff.mpr (List.mem_filter.mp he).1
    obtain ⟨id, rfl⟩ := hs.legible.index hk
    obtain ⟨r, hr, hp⟩ := hs.catalog.indexed.mp (hs.legible.entry_eq_some_iff.mpr hk)
    refine ⟨r, ?_, hs.catalog.record_eq hr, hp⟩
    simp only [loadIndexed, hs.legible.load_eq, hr]
    rfl
  obtain ⟨l, hl, hm⟩ := exists_mapM fun e he => (hload e he).imp fun _ h => h.1
  refine ⟨StoredEndpoint.sort l, by simp only [select, hl]; rfl, fun r => ?_⟩
  rw [StoredEndpoint.mem_sort, hm]
  constructor
  · rintro ⟨e, he, hr⟩
    obtain ⟨r', hr', hrec, hp⟩ := hload e he
    rw [hr] at hr'
    cases hr'
    refine ⟨hrec, ?_⟩
    rw [lists, hp]
    exact (List.mem_filter.mp he).2
  · rintro ⟨hrec, hp⟩
    have hk := hs.legible.entry_eq_some_iff.mp (hs.catalog.indexed.mpr ⟨r, hrec, rfl⟩)
    refine ⟨(indexKey r.owner r.url, textBytes r.id), ?_, ?_⟩
    · exact List.mem_filter.mpr ⟨ByteTree.get?_eq_some_iff.mp hk, hp⟩
    · simp only [loadIndexed, hs.legible.load_eq, hrec]
      rfl

/-! ### Writing -/

theorem Legible.catalog_insert {r : StoredEndpoint} (hl : s.Legible) (hr : r.Fit)
    (h : s.insert r = .ok s') :
    s'.Legible ∧ s.catalog.entry (indexKey r.owner r.url) = none ∧
      s'.catalog = s.catalog.add indexKey r := by
  unfold insert at h
  dsimp only at h
  split_ifs at h with hc
  rw [ByteTree.contains, Bool.not_eq_true, Option.isSome_eq_false_iff, Option.isNone_iff_eq_none] at hc
  cases h
  refine ⟨⟨fun {b w} hw => ?_, fun {k b} hb => ?_⟩, hl.entry_eq_none_iff.mpr hc, ?_⟩
  · rw [ByteTree.get?_insert] at hw
    split_ifs at hw with hb
    · cases hw
      exact ⟨r, hr, hb.symm, rfl⟩
    · exact hl.records hw
  · rw [ByteTree.get?_insert] at hb
    split_ifs at hb
    · cases hb
      exact ⟨r.id, rfl⟩
    · exact hl.index hb
  · simp only [EmbeddedStore.catalog, Catalog.add, Catalog.mk.injEq]
    constructor
    · funext id
      rw [ByteTree.get?_insert, Function.update_apply]
      by_cases hid : id = r.id
      · rw [if_pos (by rw [hid]), if_pos hid, Option.bind_some, decode?_encode hr]
      · rw [if_neg (fun e => hid (textBytes_inj.mp e).symm), if_neg hid]
    · funext k
      rw [ByteTree.get?_insert, Function.update_apply]
      by_cases hk : k = indexKey r.owner r.url
      · rw [if_pos hk.symm, if_pos hk, Option.bind_some, text?_textBytes]
      · rw [if_neg (fun e => hk e.symm), if_neg hk]

theorem catalog_insert {r : StoredEndpoint} (hs : s.Sound) (hr : r.Fit) (h : s.insert r = .ok s') :
    s'.Legible ∧ s.catalog.entry (indexKey r.owner r.url) = none ∧
      s'.catalog = s.catalog.add indexKey r :=
  hs.legible.catalog_insert hr h

/-- Only a taken place keeps a record out. -/
theorem exists_insert {r : StoredEndpoint} (hl : s.Legible)
    (h : s.catalog.entry (indexKey r.owner r.url) = none) : ∃ s', s.insert r = .ok s' := by
  have hc : s.index.contains (indexKey r.owner r.url) = false := by
    rw [ByteTree.contains, hl.entry_eq_none_iff.mp h]
    rfl
  exact ⟨_, by rw [insert, hc]; rfl⟩

theorem Legible.erase (hl : s.Legible) (b k : Bytes) : Legible ⟨s.records.erase b, s.index.erase k⟩ := by
  refine ⟨fun {c w} hw => ?_, fun {j c} hc => ?_⟩
  · rw [ByteTree.get?_erase] at hw
    split_ifs at hw
    exact hl.records hw
  · rw [ByteTree.get?_erase] at hc
    split_ifs at hc
    exact hl.index hc

theorem catalog_erase (r : StoredEndpoint) :
    catalog ⟨s.records.erase (textBytes r.id), s.index.erase (indexKey r.owner r.url)⟩ =
      s.catalog.drop indexKey r := by
  simp only [catalog, Catalog.drop, Catalog.mk.injEq]
  constructor
  · funext id
    rw [ByteTree.get?_erase, Function.update_apply]
    by_cases hid : id = r.id
    · rw [if_pos (by rw [hid]), if_pos hid]
      rfl
    · rw [if_neg (fun e => hid (textBytes_inj.mp e).symm), if_neg hid]
  · funext k
    rw [ByteTree.get?_erase, Function.update_apply]
    by_cases hk : k = indexKey r.owner r.url
    · rw [if_pos hk.symm, if_pos hk]
      rfl
    · rw [if_neg (fun e => hk e.symm), if_neg hk]

theorem Legible.catalog_deleteId (hl : s.Legible) (ha : s.catalog.Anchored indexKey) (id : String) :
    ∃ s' n, s.deleteId id = .ok (s', n) ∧ s'.Legible ∧ s'.catalog = s.catalog.deleteId indexKey id := by
  unfold deleteId Catalog.deleteId
  simp only [hl.load_eq]
  cases hr : s.catalog.record id with
  | none => exact ⟨s, 0, rfl, hl, rfl⟩
  | some r =>
    obtain rfl : r.id = id := ha.keyed hr
    have hk := hl.entry_eq_some_iff.mp (ha.named hr)
    refine ⟨⟨s.records.erase (textBytes r.id), s.index.erase (indexKey r.owner r.url)⟩, 1, ?_,
      hl.erase _ _, catalog_erase r⟩
    show Except.ok (_, 1) = _
    rw [if_pos hk]

theorem catalog_deleteId (hs : s.Sound) (id : String) :
    ∃ s' n, s.deleteId id = .ok (s', n) ∧ s'.Legible ∧ s'.catalog = s.catalog.deleteId indexKey id :=
  hs.legible.catalog_deleteId hs.catalog.anchored id

theorem catalog_deleteByIds (ids : List String) (hs : s.Sound) :
    ∃ s' n, s.deleteByIds ids = .ok (s', n) ∧ s'.Legible ∧
      s'.catalog = s.catalog.deleteByIds indexKey ids := by
  induction ids generalizing s with
  | nil => exact ⟨s, 0, rfl, hs.legible, rfl⟩
  | cons id ids ih =>
    obtain ⟨s₁, n, h₁, hl₁, hc₁⟩ := catalog_deleteId hs id
    have hs₁ : s₁.Sound := ⟨hl₁, by rw [hc₁]; exact hs.catalog.deleteId id⟩
    obtain ⟨s₂, k, h₂, hl₂, hc₂⟩ := ih hs₁
    refine ⟨s₂, n + k, by simp only [deleteByIds, h₁, bind, Except.bind, h₂]; rfl, hl₂, ?_⟩
    rw [hc₂, hc₁]
    rfl

theorem catalog_deleteByUrl (hs : s.Sound) (owner url : String) :
    (s.deleteByUrl owner url).1.Legible ∧
      (s.deleteByUrl owner url).1.catalog = s.catalog.deleteAt indexKey (indexKey owner url) := by
  unfold deleteByUrl Catalog.deleteAt
  dsimp only
  cases hi : s.index.get? (indexKey owner url) with
  | none =>
    have ha := hs.catalog.entry_eq_none_iff.mp (hs.legible.entry_eq_none_iff.mpr hi)
    rw [ha]
    exact ⟨hs.legible, rfl⟩
  | some b =>
    obtain ⟨id, rfl⟩ := hs.legible.index hi
    obtain ⟨r, hr, hp⟩ := hs.catalog.indexed.mp (hs.legible.entry_eq_some_iff.mpr hi)
    rw [hs.catalog.at?_eq_some_iff.mpr ⟨hs.catalog.record_eq hr, hp⟩]
    obtain rfl : r.id = id := hs.catalog.keyed hr
    rw [← hp]
    exact ⟨hs.legible.erase _ _, catalog_erase r⟩

/-- Writing a record under its id. -/
theorem Legible.store (hl : s.Legible) {r : StoredEndpoint} (hr : r.Fit) :
    Legible ⟨s.records.insert (textBytes r.id) (encode r), s.index⟩ ∧
      catalog ⟨s.records.insert (textBytes r.id) (encode r), s.index⟩ =
        { s.catalog with record := Function.update s.catalog.record r.id (some r) } := by
  refine ⟨⟨fun {b w} hw => ?_, hl.index⟩, ?_⟩
  · rw [ByteTree.get?_insert] at hw
    split_ifs at hw with hb
    · cases hw
      exact ⟨_, hr, hb.symm, rfl⟩
    · exact hl.records hw
  · simp only [EmbeddedStore.catalog, Catalog.mk.injEq, and_true]
    funext id
    rw [ByteTree.get?_insert, Function.update_apply]
    by_cases hid : id = r.id
    · rw [if_pos (by rw [hid]), if_pos hid, Option.bind_some, decode?_encode hr]
    · rw [if_neg (fun e => hid (textBytes_inj.mp e).symm), if_neg hid]

theorem catalog_update (hs : s.Sound) (owner url : String) {c : Columns} (hc : c.Fit) (now : UInt64) :
    ∃ s', s.update owner url c now = .ok (s', (s.catalog.at? (indexKey owner url)).isSome) ∧ s'.Legible ∧
      s'.catalog = s.catalog.update (indexKey owner url) c now := by
  unfold update Catalog.update
  cases hi : s.index.get? (indexKey owner url) with
  | none =>
    have ha := hs.catalog.entry_eq_none_iff.mp (hs.legible.entry_eq_none_iff.mpr hi)
    rw [ha]
    exact ⟨s, rfl, hs.legible, rfl⟩
  | some b =>
    obtain ⟨id, rfl⟩ := hs.legible.index hi
    obtain ⟨r, hr, hp⟩ := hs.catalog.indexed.mp (hs.legible.entry_eq_some_iff.mpr hi)
    obtain rfl : r.id = id := hs.catalog.keyed hr
    have hf := (hs.legible.record_eq_some_iff.mp hr).1
    have hm : (r.merge c now).Fit := ⟨hf.id, hf.owner, hf.url, hc⟩
    rw [hs.catalog.at?_eq_some_iff.mpr ⟨hr, hp⟩]
    simp only [hs.legible.load_eq, hr]
    exact ⟨_, rfl, hs.legible.store hm⟩

/-! ### Owners without a zero character -/

theorem lists_self (r : StoredEndpoint) : lists r.owner r = true := by
  simp [lists, indexKey]

/-- Up to its first zero byte an index key is its owner. -/
theorem append_zero_inj {a b x y : Bytes} (ha : (0 : UInt8) ∉ a) (hb : (0 : UInt8) ∉ b)
    (h : a ++ 0 :: x = b ++ 0 :: y) : a = b := by
  induction a generalizing b with
  | nil =>
    cases b with
    | nil => rfl
    | cons c b => simp_all
  | cons c a ih =>
    cases b with
    | nil => simp_all
    | cons d b =>
      simp only [List.cons_append, List.cons.injEq] at h
      simp only [List.mem_cons, not_or] at ha hb
      rw [h.1, ih ha.2 hb.2 h.2]

theorem owner_eq_of_lists {owner : String} {r : StoredEndpoint} (ho : '\x00' ∉ owner.toList)
    (hr : '\x00' ∉ r.owner.toList) (h : lists owner r = true) : r.owner = owner := by
  obtain ⟨t, ht⟩ := List.isPrefixOf_iff_prefix.mp h
  simp only [indexKey, ownerKey, List.append_assoc, List.cons_append, List.nil_append] at ht
  refine textBytes_inj.mp (append_zero_inj ?_ ?_ ht.symm)
  · exact fun h0 => hr (zero_mem_textBytes h0)
  · exact fun h0 => ho (zero_mem_textBytes h0)

end RouteSync.EmbeddedStore
