import RouteSync.Proofs.Store.EmbeddedCatalog
import RouteSync.Proofs.Store.MemoryCatalog
import RouteSync.Store

/-!
# What a store holds

A record is in a store if the store keeps it under its id.  Every store that was filled from an empty one,
each record under an id that was free, is sound (`Reached.sound`), and on a sound store one statement per
operation says what the store holds afterwards.  The two kinds of stores differ in what a selection lists
and in what an update or a deletion by address hits (`lists`, `Hits`): the store in memory goes by the
owner itself, the embedded one by the bytes of its index keys.
-/

namespace RouteSync

theorem map_eq_ok {α β ε : Type} {f : α → β} {o : Except ε α} {y : β} :
    o.map f = .ok y ↔ ∃ x, o = .ok x ∧ f x = y := by
  cases o <;> simp [Except.map]

namespace Store

/-- The record under an id. -/
def find? : Store → String → Option StoredEndpoint
  | .memory s => s.catalog.record
  | .embedded s => s.catalog.record

instance : Membership StoredEndpoint Store := ⟨fun s r => s.find? r.id = some r⟩

theorem mem_iff {s : Store} {r : StoredEndpoint} : r ∈ s ↔ s.find? r.id = some r := Iff.rfl

/-- Whether the store is kept in a database. -/
def isEmbedded : Store → Bool
  | .memory _ => false
  | .embedded _ => true

/-- Whether a selection for an owner lists a record. -/
def lists : Store → String → StoredEndpoint → Bool
  | .memory _, owner, r => r.owner == owner
  | .embedded _, owner, r => EmbeddedStore.lists owner r

/-- An update or a deletion for an owner and an address is about a record. -/
def Hits : Store → String → String → StoredEndpoint → Prop
  | .memory _, owner, url, r => (r.owner, r.url) = (owner, url)
  | .embedded _, owner, url, r => EmbeddedStore.indexKey r.owner r.url = EmbeddedStore.indexKey owner url

instance (s : Store) (owner url : String) (r : StoredEndpoint) : Decidable (s.Hits owner url r) :=
  match s with
  | .memory _ => inferInstanceAs (Decidable ((r.owner, r.url) = (owner, url)))
  | .embedded _ =>
    inferInstanceAs (Decidable (EmbeddedStore.indexKey r.owner r.url = EmbeddedStore.indexKey owner url))

/-- The store can write a record down: in a database the length of a text takes eight bytes. -/
def Takes (s : Store) (r : StoredEndpoint) : Prop := s.isEmbedded = true → r.Fit

def TakesColumns (s : Store) (c : Columns) : Prop := s.isEmbedded = true → c.Fit

/-- The parts of a store tell the same. -/
def Sound : Store → Prop
  | .memory s => s.Sound
  | .embedded s => s.Sound

/-- The stores that were filled from an empty one, every record under an id that was free. -/
inductive Reached : Store → Prop
  | memory : Reached (.memory .empty)
  | embedded : Reached (.embedded .empty)
  | insert {s s' : Store} {r : StoredEndpoint} (hs : Reached s) (hr : s.Takes r)
      (hid : s.find? r.id = none) (h : s.insert r = .ok s') : Reached s'
  | update {s s' : Store} {owner url : String} {c : Columns} {now : UInt64} {b : Bool} (hs : Reached s)
      (hc : s.TakesColumns c) (h : s.update owner url c now = .ok (s', b)) : Reached s'
  | deleteByIds {s s' : Store} {ids : List String} {n : Nat} (hs : Reached s)
      (h : s.deleteByIds ids = .ok (s', n)) : Reached s'
  | deleteByUrl {s s' : Store} {owner url : String} {n : Nat} (hs : Reached s)
      (h : s.deleteByUrl owner url = .ok (s', n)) : Reached s'

variable {s s' : Store}

theorem Sound.keyed (hs : s.Sound) {id : String} {r : StoredEndpoint} (h : s.find? id = some r) :
    r.id = id := by
  cases s with
  | memory s => exact Catalog.Sound.keyed hs h
  | embedded s => exact hs.catalog.keyed h

theorem Sound.mem_of_find? (hs : s.Sound) {id : String} {r : StoredEndpoint} (h : s.find? id = some r) :
    r ∈ s := by
  rw [mem_iff, hs.keyed h]
  exact h

/-- There is one record of an owner at an address. -/
theorem Sound.eq_of_place (hs : s.Sound) {a b : StoredEndpoint} (ha : a ∈ s) (hb : b ∈ s)
    (ho : a.owner = b.owner) (hu : a.url = b.url) : a = b := by
  have hid : a.id = b.id := by
    cases s with
    | memory s => exact Catalog.Sound.unique hs ha hb (by rw [ho, hu])
    | embedded s => exact hs.catalog.unique ha hb (by rw [ho, hu])
  rw [mem_iff, hid, mem_iff.mp hb] at ha
  exact (Option.some.inj ha).symm

/-! ### Reading -/

/-- **A selection** of a sound store succeeds and lists what it covers. -/
theorem exists_select (hs : s.Sound) (owner : String) :
    ∃ l, s.select owner = .ok l ∧ ∀ r, r ∈ l ↔ r ∈ s ∧ s.lists owner r = true := by
  cases s with
  | memory s =>
    refine ⟨s.select owner, rfl, fun r => ?_⟩
    rw [MemoryStore.mem_select hs]
    simp [mem_iff, find?, lists]
  | embedded s => exact EmbeddedStore.exists_select hs owner

theorem lists_self (s : Store) (r : StoredEndpoint) : s.lists r.owner r = true := by
  cases s with
  | memory s => simp [lists]
  | embedded s => exact EmbeddedStore.lists_self r

theorem lists_of_hits {owner url : String} {r : StoredEndpoint} (h : s.Hits owner url r) :
    s.lists owner r = true := by
  cases s with
  | memory s => simpa [lists] using (Prod.mk.inj h).1
  | embedded s =>
    replace h : EmbeddedStore.indexKey r.owner r.url = EmbeddedStore.indexKey owner url := h
    rw [lists, EmbeddedStore.lists, h]
    simp [EmbeddedStore.indexKey]

theorem hits_self (s : Store) (r : StoredEndpoint) : s.Hits r.owner r.url r := by
  cases s <;> exact rfl

/-- Among the records of its owner a record is hit by its address. -/
theorem url_eq_of_hits {owner url : String} {r : StoredEndpoint} (h : s.Hits owner url r)
    (ho : r.owner = owner) : r.url = url := by
  cases s with
  | memory s => exact (Prod.mk.inj h).2
  | embedded s =>
    replace h : EmbeddedStore.indexKey r.owner r.url = EmbeddedStore.indexKey owner url := h
    rw [ho, EmbeddedStore.indexKey, EmbeddedStore.indexKey] at h
    exact RecordCodec.textBytes_inj.mp (List.append_cancel_left h)

/-- Without zero characters a selection lists the records of the owner alone. -/
theorem owner_eq_of_lists {owner : String} {r : StoredEndpoint}
    (hz : s.isEmbedded = true → '\x00' ∉ owner.toList ∧ '\x00' ∉ r.owner.toList)
    (h : s.lists owner r = true) : r.owner = owner := by
  cases s with
  | memory s => simpa [lists] using h
  | embedded s => exact EmbeddedStore.owner_eq_of_lists (hz rfl).1 (hz rfl).2 h

/-! ### Writing -/

/-- **An insertion** under a free id adds the record. -/
theorem find?_insert {r : StoredEndpoint} (hs : s.Sound) (hr : s.Takes r) (hid : s.find? r.id = none)
    (h : s.insert r = .ok s') :
    s'.Sound ∧ s'.isEmbedded = s.isEmbedded ∧
      ∀ id, s'.find? id = if id = r.id then some r else s.find? id := by
  cases s with
  | memory s =>
    obtain ⟨m, hm, rfl⟩ := map_eq_ok.mp h
    obtain ⟨hfree, hc⟩ := MemoryStore.catalog_insert hm
    refine ⟨?_, rfl, fun id => ?_⟩
    · show m.catalog.Sound Prod.mk
      rw [hc]
      exact Catalog.Sound.add hs hid hfree
    · show m.catalog.record id = _
      rw [hc, Catalog.record_add]
      rfl
  | embedded s =>
    obtain ⟨m, hm, rfl⟩ := map_eq_ok.mp h
    obtain ⟨hl, hfree, hc⟩ := EmbeddedStore.catalog_insert hs (hr rfl) hm
    refine ⟨⟨hl, ?_⟩, rfl, fun id => ?_⟩
    · rw [hc]
      exact hs.catalog.add hid hfree
    · show m.catalog.record id = _
      rw [hc, Catalog.record_add]
      rfl

/-- **Only a record that it would hit** keeps a record out. -/
theorem exists_insert (hs : s.Sound) {r : StoredEndpoint} (hr : ∀ x ∈ s, ¬ s.Hits r.owner r.url x) :
    ∃ s', s.insert r = .ok s' := by
  cases s with
  | memory s =>
    have hfree : s.catalog.entry (r.owner, r.url) = none :=
      (Catalog.Sound.entry_eq_none_iff hs).mpr ((Catalog.Sound.at?_eq_none_iff hs).mpr
        fun id x hx => hr x (Catalog.Sound.record_eq hs hx))
    obtain ⟨m, hm⟩ := MemoryStore.exists_insert hfree
    exact ⟨.memory m, by rw [insert, hm]; rfl⟩
  | embedded s =>
    have hfree : s.catalog.entry (EmbeddedStore.indexKey r.owner r.url) = none :=
      hs.catalog.entry_eq_none_iff.mpr (hs.catalog.at?_eq_none_iff.mpr
        fun id x hx => hr x (hs.catalog.record_eq hx))
    obtain ⟨m, hm⟩ := EmbeddedStore.exists_insert hs.legible hfree
    exact ⟨.embedded m, by rw [insert, hm]; rfl⟩

/-- **A deletion by ids** succeeds and removes the records under these ids. -/
theorem exists_deleteByIds (hs : s.Sound) (ids : List String) :
    ∃ s' n, s.deleteByIds ids = .ok (s', n) ∧ s'.Sound ∧ s'.isEmbedded = s.isEmbedded ∧
      ∀ id, s'.find? id = if id ∈ ids then none else s.find? id := by
  cases s with
  | memory s =>
    have hc := MemoryStore.catalog_deleteByIds ids hs
    refine ⟨.memory (s.deleteByIds ids).1, (s.deleteByIds ids).2, rfl, ?_, rfl, fun id => ?_⟩
    · show (s.deleteByIds ids).1.catalog.Sound Prod.mk
      rw [hc]
      exact Catalog.Sound.deleteByIds ids hs
    · show (s.deleteByIds ids).1.catalog.record id = _
      rw [hc, Catalog.record_deleteByIds ids hs]
      rfl
  | embedded s =>
    obtain ⟨m, n, hm, hl, hc⟩ := EmbeddedStore.catalog_deleteByIds ids hs
    refine ⟨.embedded m, n, by simp [deleteByIds, hm, Except.map], ⟨hl, ?_⟩, rfl, fun id => ?_⟩
    · rw [hc]
      exact Catalog.Sound.deleteByIds ids hs.catalog
    · show m.catalog.record id = _
      rw [hc, Catalog.record_deleteByIds ids hs.catalog]
      rfl

/-- What an update for an owner and an address makes of a record. -/
def overwrite (s : Store) (owner url : String) (c : Columns) (now : UInt64) (r : StoredEndpoint) :
    StoredEndpoint :=
  if s.Hits owner url r then r.merge c now else r

section Overwriting

variable {owner url : String} {c : Columns} {now : UInt64} {r : StoredEndpoint}

theorem overwrite_of_hits (h : s.Hits owner url r) : s.overwrite owner url c now r = r.merge c now :=
  if_pos h

theorem overwrite_of_not_hits (h : ¬ s.Hits owner url r) : s.overwrite owner url c now r = r := if_neg h

@[simp] theorem overwrite_id : (s.overwrite owner url c now r).id = r.id := by
  unfold overwrite
  split_ifs <;> rfl

@[simp] theorem overwrite_owner : (s.overwrite owner url c now r).owner = r.owner := by
  unfold overwrite
  split_ifs <;> rfl

@[simp] theorem overwrite_url : (s.overwrite owner url c now r).url = r.url := by
  unfold overwrite
  split_ifs <;> rfl

@[simp] theorem overwrite_created : (s.overwrite owner url c now r).created = r.created := by
  unfold overwrite
  split_ifs <;> rfl

end Overwriting

/-- **An update** succeeds, overwrites the columns of what it hits and says whether it hit anything. -/
theorem exists_update (hs : s.Sound) (owner url : String) {c : Columns} (hc : s.TakesColumns c)
    (now : UInt64) :
    ∃ s' b, s.update owner url c now = .ok (s', b) ∧ s'.Sound ∧ s'.isEmbedded = s.isEmbedded ∧
      (b = true ↔ ∃ r ∈ s, s.Hits owner url r) ∧
      ∀ id, s'.find? id = (s.find? id).map (s.overwrite owner url c now) := by
  cases s with
  | memory s =>
    obtain ⟨hu, hb⟩ := MemoryStore.catalog_update hs owner url c now
    refine ⟨.memory (s.update owner url c now).1, (s.update owner url c now).2, rfl, ?_, rfl, ?_,
      fun id => ?_⟩
    · show (s.update owner url c now).1.catalog.Sound Prod.mk
      rw [hu]
      exact Catalog.Sound.update hs _ c now
    · rw [hb, Option.isSome_iff_exists]
      exact exists_congr fun r => Catalog.Sound.at?_eq_some_iff hs
    · show (s.update owner url c now).1.catalog.record id = _
      rw [hu, Catalog.record_update hs]
      rfl
  | embedded s =>
    obtain ⟨m, hm, hl, hu⟩ := EmbeddedStore.catalog_update hs owner url (hc rfl) now
    refine ⟨.embedded m, _, by simp only [update, hm]; rfl, ⟨hl, ?_⟩, rfl, ?_, fun id => ?_⟩
    · rw [hu]
      exact hs.catalog.update _ c now
    · rw [Option.isSome_iff_exists]
      exact exists_congr fun r => hs.catalog.at?_eq_some_iff
    · show m.catalog.record id = _
      rw [hu, Catalog.record_update hs.catalog]
      rfl

/-- **A deletion by address** succeeds and removes what it hits. -/
theorem exists_deleteByUrl (hs : s.Sound) (owner url : String) :
    ∃ s' n, s.deleteByUrl owner url = .ok (s', n) ∧ s'.Sound ∧ s'.isEmbedded = s.isEmbedded ∧
      ∀ id, s'.find? id = (s.find? id).filter fun r => decide (¬ s.Hits owner url r) := by
  cases s with
  | memory s =>
    have hc := MemoryStore.catalog_deleteByUrl hs owner url
    refine ⟨.memory (s.deleteByUrl owner url).1, (s.deleteByUrl owner url).2, rfl, ?_, rfl, fun id => ?_⟩
    · show (s.deleteByUrl owner url).1.catalog.Sound Prod.mk
      rw [hc]
      exact Catalog.Sound.deleteAt hs _
    · show (s.deleteByUrl owner url).1.catalog.record id = _
      rw [hc, Catalog.record_deleteAt hs]
      rfl
  | embedded s =>
    obtain ⟨hl, hc⟩ := EmbeddedStore.catalog_deleteByUrl hs owner url
    refine ⟨.embedded (s.deleteByUrl owner url).1, (s.deleteByUrl owner url).2, rfl, ⟨hl, ?_⟩, rfl,
      fun id => ?_⟩
    · rw [hc]
      exact hs.catalog.deleteAt _
    · show (s.deleteByUrl owner url).1.catalog.record id = _
      rw [hc, Catalog.record_deleteAt hs.catalog]
      rfl

/-! ### What is in a store afterwards -/

theorem mem_add_iff {r x : StoredEndpoint} (hid : s.find? r.id = none)
    (hf : ∀ id, s'.find? id = if id = r.id then some r else s.find? id) : x ∈ s' ↔ x = r ∨ x ∈ s := by
  rw [mem_iff, mem_iff, hf]
  by_cases hx : x.id = r.id
  · rw [if_pos hx, hx, hid, Option.some.injEq, eq_comm]
    simp
  · rw [if_neg hx]
    exact (or_iff_right fun he => hx (by rw [he])).symm

theorem mem_overwrite_iff {owner url : String} {c : Columns} {now : UInt64} {x : StoredEndpoint}
    (hs : s.Sound) (hf : ∀ id, s'.find? id = (s.find? id).map (s.overwrite owner url c now)) :
    x ∈ s' ↔ ∃ r ∈ s, x = s.overwrite owner url c now r := by
  rw [mem_iff, hf, Option.map_eq_some_iff]
  constructor
  · rintro ⟨r, hr, rfl⟩
    exact ⟨r, hs.mem_of_find? hr, rfl⟩
  · rintro ⟨r, hr, rfl⟩
    refine ⟨r, ?_, rfl⟩
    rw [overwrite_id]
    exact hr

theorem mem_filter_iff {p : StoredEndpoint → Bool} {x : StoredEndpoint}
    (hf : ∀ id, s'.find? id = (s.find? id).filter p) : x ∈ s' ↔ x ∈ s ∧ p x = true := by
  rw [mem_iff, mem_iff, hf, Option.filter_eq_some_iff]

theorem hits_congr {owner url : String} {r : StoredEndpoint} (he : s'.isEmbedded = s.isEmbedded) :
    s'.Hits owner url r ↔ s.Hits owner url r := by
  cases s with
  | memory s =>
    cases s' with
    | memory s' => exact Iff.rfl
    | embedded s' => cases he
  | embedded s =>
    cases s' with
    | memory s' => cases he
    | embedded s' => exact Iff.rfl

theorem lists_congr {owner : String} {r : StoredEndpoint} (he : s'.isEmbedded = s.isEmbedded) :
    s'.lists owner r = s.lists owner r := by
  cases s with
  | memory s =>
    cases s' with
    | memory s' => rfl
    | embedded s' => cases he
  | embedded s =>
    cases s' with
    | memory s' => cases he
    | embedded s' => rfl

/-- **Soundness is an invariant** of the operations of a store. -/
theorem Reached.sound (h : Reached s) : s.Sound := by
  induction h with
  | memory => exact MemoryStore.sound_empty
  | embedded => exact EmbeddedStore.sound_empty
  | insert _ hr hid h ih => exact (find?_insert ih hr hid h).1
  | update _ hc h ih =>
    obtain ⟨m, b, hm, hsound, -⟩ := exists_update ih _ _ hc _
    rw [h] at hm
    cases hm
    exact hsound
  | deleteByIds _ h ih =>
    obtain ⟨m, n, hm, hsound, -⟩ := exists_deleteByIds ih _
    rw [h] at hm
    cases hm
    exact hsound
  | deleteByUrl _ h ih =>
    obtain ⟨m, n, hm, hsound, -⟩ := exists_deleteByUrl ih _ _
    rw [h] at hm
    cases hm
    exact hsound

end Store

end RouteSync
