import Mathlib.Logic.Function.Basic
import Mathlib.Tactic.Common
import RouteSync.Store.Order

/-!
# Catalogs

A catalog is what a store keeps, seen as two maps: the record of every id, and the id at every place.
What a place is depends on the store: `place` computes it from an owner and an address.  A catalog is
sound if records stand under their own ids and the places name exactly the records (`Catalog.Sound`).
The operations of a store keep a catalog sound, and one equation each says which record is found under
an id afterwards.
-/

namespace RouteSync

/-- The record of every id and the id at every place. -/
structure Catalog (κ : Type) where
  record : String → Option StoredEndpoint
  entry : κ → Option String

namespace Catalog

variable {κ : Type}

def empty : Catalog κ := ⟨fun _ => none, fun _ => none⟩

/-- The record at a place. -/
def at? (v : Catalog κ) (k : κ) : Option StoredEndpoint := (v.entry k).bind v.record

/-- Records stand under their ids, and the places name exactly the records. -/
structure Sound (place : String → String → κ) (v : Catalog κ) : Prop where
  keyed : ∀ {id r}, v.record id = some r → r.id = id
  indexed : ∀ {k id}, v.entry k = some id ↔ ∃ r, v.record id = some r ∧ place r.owner r.url = k

/-- Records stand under their ids, and the place of a record names it.  A place may also name an id under
which there is nothing, or a record of another place. -/
structure Anchored (place : String → String → κ) (v : Catalog κ) : Prop where
  keyed : ∀ {id r}, v.record id = some r → r.id = id
  named : ∀ {id r}, v.record id = some r → v.entry (place r.owner r.url) = some id

section Operations

variable [DecidableEq κ] (place : String → String → κ)

/-- Enters a record under its id and at its place. -/
def add (v : Catalog κ) (r : StoredEndpoint) : Catalog κ where
  record := Function.update v.record r.id (some r)
  entry := Function.update v.entry (place r.owner r.url) (some r.id)

/-- Strikes out a record and the entry at its place. -/
def drop (v : Catalog κ) (r : StoredEndpoint) : Catalog κ where
  record := Function.update v.record r.id none
  entry := Function.update v.entry (place r.owner r.url) none

omit place in
/-- Strikes out an id and a place. -/
def strike (v : Catalog κ) (id : String) (k : κ) : Catalog κ where
  record := Function.update v.record id none
  entry := Function.update v.entry k none

omit place in
/-- Strikes out a place with the id that it names. -/
def strikeAt (v : Catalog κ) (k : κ) : Catalog κ :=
  match v.entry k with
  | none => v
  | some id => v.strike id k

def deleteId (v : Catalog κ) (id : String) : Catalog κ :=
  match v.record id with
  | none => v
  | some r => v.drop place r

def deleteByIds (v : Catalog κ) (ids : List String) : Catalog κ := ids.foldl (deleteId place) v

def deleteAt (v : Catalog κ) (k : κ) : Catalog κ :=
  match v.at? k with
  | none => v
  | some r => v.drop place r

omit [DecidableEq κ] in
/-- Overwrites the columns of the record at a place. -/
def update (v : Catalog κ) (k : κ) (c : Columns) (now : UInt64) : Catalog κ :=
  match v.at? k with
  | none => v
  | some r => { v with record := Function.update v.record r.id (some (r.merge c now)) }

end Operations

variable {place : String → String → κ} {v : Catalog κ}

theorem sound_empty : Sound place (empty : Catalog κ) := ⟨by simp [empty], by simp [empty]⟩

namespace Sound

variable (hv : v.Sound place)
include hv

theorem record_eq {id : String} {r : StoredEndpoint} (h : v.record id = some r) :
    v.record r.id = some r := by
  rw [hv.keyed h, h]

/-- There is at most one record at a place. -/
theorem unique {a b : String} {r r' : StoredEndpoint} (h : v.record a = some r)
    (h' : v.record b = some r') (hp : place r.owner r.url = place r'.owner r'.url) : a = b := by
  have h1 : v.entry (place r'.owner r'.url) = some a := hv.indexed.mpr ⟨r, h, hp⟩
  have h2 : v.entry (place r'.owner r'.url) = some b := hv.indexed.mpr ⟨r', h', rfl⟩
  exact Option.some.inj (h1.symm.trans h2)

theorem at?_eq_some_iff {k : κ} {r : StoredEndpoint} :
    v.at? k = some r ↔ v.record r.id = some r ∧ place r.owner r.url = k := by
  rw [at?, Option.bind_eq_some_iff]
  constructor
  · rintro ⟨id, he, hr⟩
    obtain ⟨r', hr', hk⟩ := hv.indexed.mp he
    obtain rfl : r' = r := Option.some.inj (hr'.symm.trans hr)
    exact ⟨hv.record_eq hr, hk⟩
  · rintro ⟨hr, hk⟩
    exact ⟨r.id, hv.indexed.mpr ⟨r, hr, hk⟩, hr⟩

/-- A place without a record has no entry. -/
theorem entry_eq_none_iff {k : κ} : v.entry k = none ↔ v.at? k = none := by
  rw [at?]
  cases he : v.entry k with
  | none => simp
  | some id =>
    obtain ⟨r, hr, -⟩ := hv.indexed.mp he
    simp [hr]

theorem at?_eq_none_iff {k : κ} :
    v.at? k = none ↔ ∀ id r, v.record id = some r → place r.owner r.url ≠ k := by
  constructor
  · intro h id r hr hk
    rw [hv.at?_eq_some_iff.mpr ⟨hv.record_eq hr, hk⟩] at h
    cases h
  · intro h
    cases ha : v.at? k with
    | none => rfl
    | some r =>
      obtain ⟨hr, hk⟩ := hv.at?_eq_some_iff.mp ha
      exact absurd hk (h _ _ hr)

end Sound

variable [DecidableEq κ]

/-! ### Adding -/

theorem record_add (r : StoredEndpoint) (id : String) :
    (v.add place r).record id = if id = r.id then some r else v.record id :=
  Function.update_apply _ _ _ _

theorem Sound.add (hv : v.Sound place) {r : StoredEndpoint} (hid : v.record r.id = none)
    (hfree : v.entry (place r.owner r.url) = none) : (v.add place r).Sound place := by
  refine ⟨fun {id x} hx => ?_, fun {k id} => ?_⟩
  · rw [record_add] at hx
    split_ifs at hx with h
    · cases hx
      exact h.symm
    · exact hv.keyed hx
  · rw [record_add]
    simp only [Catalog.add, Function.update_apply]
    by_cases hk : k = place r.owner r.url
    · subst hk
      rw [if_pos rfl]
      constructor
      · intro h
        cases h
        exact ⟨r, if_pos rfl, rfl⟩
      · rintro ⟨x, hx, hk⟩
        split_ifs at hx with h
        · rw [h]
        · rw [hv.indexed.mpr ⟨x, hx, hk⟩] at hfree
          cases hfree
    · rw [if_neg hk, hv.indexed]
      constructor
      · rintro ⟨x, hx, hxk⟩
        refine ⟨x, ?_, hxk⟩
        rwa [if_neg (fun e => by rw [e, hid] at hx; cases hx)]
      · rintro ⟨x, hx, rfl⟩
        split_ifs at hx with h
        · cases hx
          exact absurd rfl hk
        · exact ⟨x, hx, rfl⟩

/-! ### Dropping -/

theorem record_drop (r : StoredEndpoint) (id : String) :
    (v.drop place r).record id = if id = r.id then none else v.record id :=
  Function.update_apply _ _ _ _

theorem Sound.drop (hv : v.Sound place) {r : StoredEndpoint} (hr : v.record r.id = some r) :
    (v.drop place r).Sound place := by
  refine ⟨fun {id x} hx => ?_, fun {k id} => ?_⟩
  · rw [record_drop] at hx
    split_ifs at hx
    exact hv.keyed hx
  · rw [record_drop]
    simp only [Catalog.drop, Function.update_apply]
    by_cases hk : k = place r.owner r.url
    · subst hk
      rw [if_pos rfl]
      refine ⟨fun h => absurd h (by simp), ?_⟩
      rintro ⟨x, hx, hk⟩
      split_ifs at hx with h
      exact absurd (hv.unique hx hr hk) h
    · rw [if_neg hk, hv.indexed]
      constructor
      · rintro ⟨x, hx, rfl⟩
        refine ⟨x, ?_, rfl⟩
        rwa [if_neg (fun e => hk (by rw [e, hr] at hx; cases hx; rfl))]
      · rintro ⟨x, hx, hxk⟩
        split_ifs at hx
        exact ⟨x, hx, hxk⟩

theorem Sound.deleteId (hv : v.Sound place) (id : String) : (v.deleteId place id).Sound place := by
  unfold Catalog.deleteId
  cases hr : v.record id with
  | none => exact hv
  | some r => exact hv.drop (hv.record_eq hr)

theorem record_deleteId (hv : v.Sound place) (k id : String) :
    (v.deleteId place k).record id = if id = k then none else v.record id := by
  unfold Catalog.deleteId
  cases hr : v.record k with
  | none =>
    by_cases h : id = k
    · rw [if_pos h, h]
      exact hr
    · rw [if_neg h]
  | some r =>
    show (v.drop place r).record id = _
    rw [record_drop, hv.keyed hr]

theorem Sound.deleteByIds (ids : List String) (hv : v.Sound place) :
    (v.deleteByIds place ids).Sound place := by
  induction ids generalizing v with
  | nil => exact hv
  | cons k ids ih => exact ih (hv.deleteId k)

theorem record_deleteByIds (ids : List String) (hv : v.Sound place) (id : String) :
    (v.deleteByIds place ids).record id = if id ∈ ids then none else v.record id := by
  induction ids generalizing v with
  | nil => rfl
  | cons k ids ih =>
    have h := ih (hv.deleteId k)
    rw [record_deleteId hv] at h
    show ((v.deleteId place k).deleteByIds place ids).record id = _
    rw [h]
    by_cases hi : id ∈ ids <;> by_cases hk : id = k <;> simp [hi, hk]

theorem Sound.deleteAt (hv : v.Sound place) (k : κ) : (v.deleteAt place k).Sound place := by
  unfold Catalog.deleteAt
  cases ha : v.at? k with
  | none => exact hv
  | some r => exact hv.drop (hv.at?_eq_some_iff.mp ha).1

theorem record_deleteAt (hv : v.Sound place) (k : κ) (id : String) :
    (v.deleteAt place k).record id = (v.record id).filter fun r => decide (place r.owner r.url ≠ k) := by
  unfold Catalog.deleteAt
  cases ha : v.at? k with
  | none =>
    show v.record id = _
    cases hr : v.record id with
    | none => rfl
    | some r => simp [Option.filter_some, hv.at?_eq_none_iff.mp ha id r hr]
  | some r =>
    obtain ⟨hr, hk⟩ := hv.at?_eq_some_iff.mp ha
    show (v.drop place r).record id = _
    rw [record_drop]
    by_cases hid : id = r.id
    · rw [if_pos hid, hid, hr]
      simp [Option.filter_some, hk]
    · rw [if_neg hid]
      cases hx : v.record id with
      | none => rfl
      | some x =>
        have hxk : place x.owner x.url ≠ k := fun h => hid (hv.unique hx hr (h.trans hk.symm))
        simp [Option.filter_some, hxk]

/-! ### Overwriting -/

omit [DecidableEq κ] in
/-- Overwriting a record by one with the same id and place keeps a catalog sound. -/
theorem Sound.overwrite (hv : v.Sound place) {r x : StoredEndpoint} (hr : v.record r.id = some r)
    (hid : x.id = r.id) (hp : place x.owner x.url = place r.owner r.url) :
    Sound place { v with record := Function.update v.record r.id (some x) } := by
  refine ⟨fun {id y} hy => ?_, fun {k id} => ?_⟩
  · replace hy : Function.update v.record r.id (some x) id = some y := hy
    rw [Function.update_apply] at hy
    split_ifs at hy with h
    · cases hy
      rw [hid, h]
    · exact hv.keyed hy
  · simp only [Function.update_apply]
    rw [hv.indexed]
    by_cases h : id = r.id
    · subst h
      rw [if_pos rfl]
      constructor
      · rintro ⟨y, hy, rfl⟩
        rw [hr] at hy
        cases hy
        exact ⟨x, rfl, hp⟩
      · rintro ⟨y, hy, rfl⟩
        cases hy
        exact ⟨r, hr, hp.symm⟩
    · rw [if_neg h]

omit [DecidableEq κ] in
theorem Sound.update (hv : v.Sound place) (k : κ) (c : Columns) (now : UInt64) :
    (v.update k c now).Sound place := by
  unfold Catalog.update
  cases ha : v.at? k with
  | none => exact hv
  | some r => exact hv.overwrite (hv.at?_eq_some_iff.mp ha).1 rfl rfl

theorem record_update (hv : v.Sound place) (k : κ) (c : Columns) (now : UInt64) (id : String) :
    (v.update k c now).record id =
      (v.record id).map fun r => if place r.owner r.url = k then r.merge c now else r := by
  unfold Catalog.update
  cases ha : v.at? k with
  | none =>
    show v.record id = _
    cases hr : v.record id with
    | none => rfl
    | some r => simp [hv.at?_eq_none_iff.mp ha id r hr]
  | some r =>
    obtain ⟨hr, hk⟩ := hv.at?_eq_some_iff.mp ha
    show Function.update v.record r.id (some (r.merge c now)) id = _
    rw [Function.update_apply]
    by_cases hid : id = r.id
    · rw [if_pos hid, hid, hr]
      simp [hk]
    · rw [if_neg hid]
      cases hx : v.record id with
      | none => rfl
      | some x =>
        have hxk : place x.owner x.url ≠ k := fun h => hid (hv.unique hx hr (h.trans hk.symm))
        simp [hxk]

/-! ### Anchored catalogs -/

omit [DecidableEq κ] in
theorem Sound.anchored (hv : v.Sound place) : v.Anchored place where
  keyed := hv.keyed
  named h := hv.indexed.mpr ⟨_, h, rfl⟩

theorem strike_of_named (ha : v.Anchored place) {id : String} {r : StoredEndpoint}
    (hr : v.record id = some r) : v.drop place r = v.strike id (place r.owner r.url) := by
  rw [← ha.keyed hr]
  rfl

namespace Anchored

variable (ha : v.Anchored place)
include ha

/-- A free place is enough to add a record, whatever its id. -/
theorem add {r : StoredEndpoint} (hfree : v.entry (place r.owner r.url) = none) :
    (v.add place r).Anchored place := by
  refine ⟨fun {id x} hx => ?_, fun {id x} hx => ?_⟩
  · rw [record_add] at hx
    split_ifs at hx with h
    · cases hx
      exact h.symm
    · exact ha.keyed hx
  · rw [record_add] at hx
    simp only [Catalog.add, Function.update_apply]
    split_ifs at hx with h
    · cases hx
      rw [if_pos rfl, h]
    · have hne : place x.owner x.url ≠ place r.owner r.url := by
        intro hp
        rw [← hp, ha.named hx] at hfree
        cases hfree
      rw [if_neg hne, ha.named hx]

/-- Striking out an id at a place that names it. -/
theorem strike {id : String} {k : κ} (hk : v.entry k = some id) : (v.strike id k).Anchored place := by
  have hleft : ∀ {a x}, (v.strike id k).record a = some x → a ≠ id ∧ v.record a = some x := by
    intro a x hx
    simp only [Catalog.strike, Function.update_apply] at hx
    split_ifs at hx with h
    exact ⟨h, hx⟩
  refine ⟨fun hx => ha.keyed (hleft hx).2, fun {a x} hx => ?_⟩
  obtain ⟨hne, hax⟩ := hleft hx
  have hplace : place x.owner x.url ≠ k := fun hp =>
    hne (Option.some.inj ((ha.named hax).symm.trans (hp ▸ hk)))
  simp only [Catalog.strike, Function.update_apply]
  rw [if_neg hplace, ha.named hax]

theorem deleteId (id : String) : (v.deleteId place id).Anchored place := by
  unfold Catalog.deleteId
  cases hr : v.record id with
  | none => exact ha
  | some r =>
    show (v.drop place r).Anchored place
    rw [strike_of_named ha hr]
    exact ha.strike (ha.named hr)

theorem strikeAt (k : κ) : (v.strikeAt k).Anchored place := by
  unfold Catalog.strikeAt
  cases hk : v.entry k with
  | none => exact ha
  | some id => exact ha.strike hk

omit [DecidableEq κ] in
theorem overwrite {r x : StoredEndpoint} (hr : v.record r.id = some r) (hid : x.id = r.id)
    (hp : place x.owner x.url = place r.owner r.url) :
    Anchored place { v with record := Function.update v.record r.id (some x) } := by
  refine ⟨fun {id y} hy => ?_, fun {id y} hy => ?_⟩
  · replace hy : Function.update v.record r.id (some x) id = some y := hy
    rw [Function.update_apply] at hy
    split_ifs at hy with h
    · cases hy
      rw [hid, h]
    · exact ha.keyed hy
  · replace hy : Function.update v.record r.id (some x) id = some y := hy
    rw [Function.update_apply] at hy
    split_ifs at hy with h
    · cases hy
      rw [h]
      exact (congrArg v.entry hp).trans (ha.named hr)
    · exact ha.named hy

omit [DecidableEq κ] in
theorem update (k : κ) (c : Columns) (now : UInt64) : (v.update k c now).Anchored place := by
  unfold Catalog.update
  cases hat : v.at? k with
  | none => exact ha
  | some r =>
    obtain ⟨id, -, hr⟩ := Option.bind_eq_some_iff.mp hat
    obtain rfl := ha.keyed hr
    exact ha.overwrite hr rfl rfl

end Anchored

end Catalog

end RouteSync
