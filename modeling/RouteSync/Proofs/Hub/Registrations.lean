import Mathlib.Tactic.Common
import RouteSync.Hub.Registering

/-!
# Cached registrations

What the operations of the registration cache do to the connector of an id and to the keys that are tracked
for it.  An id tracks a key only while it has a set of watch keys.
-/

namespace RouteSync.Registrations

variable {r : Registrations} {id a key k : String} {c : ConnectorId}

theorem isTracked_iff : r.isTracked id key = true ↔ ∃ keys, r.watchKeys.get? id = some keys ∧ key ∈ keys := by
  unfold isTracked
  cases r.watchKeys.get? id with
  | none => simp
  | some keys => simp [KeySet.contains_iff]

/-! ### Coming and going -/

theorem get?_add : (r.add id c).connectors.get? a = if id = a then some c else r.connectors.get? a :=
  Table.get?_insert ..

theorem get?_remove : (r.remove id).connectors.get? a = if id = a then none else r.connectors.get? a :=
  Table.get?_erase ..

/-- An id that joins has a connector and watch keys. -/
theorem keyed_add (h : (r.watchKeys.get? a).isSome = (r.connectors.get? a).isSome) :
    ((r.add id c).watchKeys.get? a).isSome = ((r.add id c).connectors.get? a).isSome := by
  rw [get?_add, add, Table.get?_insert]
  split_ifs
  · rfl
  · exact h

/-- An id that leaves has neither. -/
theorem keyed_remove (h : (r.watchKeys.get? a).isSome = (r.connectors.get? a).isSome) :
    ((r.remove id).watchKeys.get? a).isSome = ((r.remove id).connectors.get? a).isSome := by
  rw [get?_remove, remove, Table.get?_erase]
  split_ifs
  · rfl
  · exact h

theorem isTracked_add :
    (r.add id c).isTracked a k = true ↔ a ≠ id ∧ r.isTracked a k = true := by
  rw [isTracked_iff, isTracked_iff]
  simp only [add, Table.get?_insert]
  by_cases h : id = a
  · subst h
    simp [KeySet.empty, KeySet.mem_iff]
  · simp [h, Ne.symm h]

theorem isTracked_remove :
    (r.remove id).isTracked a k = true ↔ a ≠ id ∧ r.isTracked a k = true := by
  rw [isTracked_iff, isTracked_iff]
  simp only [remove, Table.get?_erase]
  by_cases h : id = a
  · simp [h]
  · simp [h, Ne.symm h]

/-! ### Tracking -/

theorem connectors_track : (r.track id key).1.connectors = r.connectors := by
  unfold track
  cases r.watchKeys.get? id <;> rfl

theorem connectors_untrack : (r.untrack id key).1.connectors = r.connectors := by
  unfold untrack
  cases r.watchKeys.get? id <;> rfl

/-- Overwriting what is there leaves the same ids with watch keys. -/
theorem isSome_watchKeys_insert {t : Table String KeySet} {keys keys' : KeySet} (h : t.get? id = some keys) :
    ((t.insert id keys').get? a).isSome = (t.get? a).isSome := by
  rw [Table.get?_insert]
  split_ifs with ha
  · subst ha
    rw [h]
    rfl
  · rfl

theorem isSome_watchKeys_track :
    ((r.track id key).1.watchKeys.get? a).isSome = (r.watchKeys.get? a).isSome := by
  unfold track
  cases h : r.watchKeys.get? id with
  | none => rfl
  | some keys => exact isSome_watchKeys_insert h

theorem isSome_watchKeys_untrack :
    ((r.untrack id key).1.watchKeys.get? a).isSome = (r.watchKeys.get? a).isSome := by
  unfold untrack
  cases h : r.watchKeys.get? id with
  | none => rfl
  | some keys => exact isSome_watchKeys_insert h

theorem isTracked_track (hid : (r.watchKeys.get? id).isSome = true) :
    (r.track id key).1.isTracked a k = true ↔ (a = id ∧ k = key) ∨ r.isTracked a k = true := by
  obtain ⟨keys, hk⟩ := Option.isSome_iff_exists.mp hid
  rw [isTracked_iff, isTracked_iff]
  simp only [track, hk, Table.get?_insert]
  by_cases h : id = a
  · subst h
    simp [KeySet.mem_insert, hk]
  · simp [h, Ne.symm h]

theorem isTracked_of_track (h : (r.track id key).1.isTracked a k = true) :
    (a = id ∧ k = key) ∨ r.isTracked a k = true := by
  by_cases hid : (r.watchKeys.get? id).isSome = true
  · exact (isTracked_track hid).mp h
  · rw [Bool.not_eq_true, Option.isSome_eq_false_iff, Option.isNone_iff_eq_none] at hid
    simp only [track, hid] at h
    exact .inr h

/-- Tracking adds the key to the keys of the id, and no other key to anybody's. -/
theorem track_spec (hid : (r.watchKeys.get? id).isSome = true) (hno : ¬ r.isTracked id key = true) :
    (∃ keys, r.watchKeys.get? id = some keys ∧ key ∉ keys ∧
      (r.track id key).1.watchKeys.get? id = some (keys.insert key)) ∧
    ∀ a, a ≠ id → (r.track id key).1.watchKeys.get? a = r.watchKeys.get? a := by
  obtain ⟨keys, hk⟩ := Option.isSome_iff_exists.mp hid
  have hmem : key ∉ keys := fun hm => hno (isTracked_iff.mpr ⟨keys, hk, hm⟩)
  refine ⟨⟨keys, hk, hmem, ?_⟩, fun a ha => ?_⟩
  · simp only [track, hk, Table.get?_insert, if_true]
  · simp only [track, hk, Table.get?_insert, if_neg ha.symm]

/-- Giving up a key takes it from the keys of the id and of nobody else. -/
theorem isTracked_untrack :
    (r.untrack id key).1.isTracked a k = true ↔ ¬ (a = id ∧ k = key) ∧ r.isTracked a k = true := by
  rw [isTracked_iff, isTracked_iff]
  unfold untrack
  cases hk : r.watchKeys.get? id with
  | none =>
    by_cases h : a = id
    · subst h
      simp [hk]
    · simp [h]
  | some keys =>
    simp only [Table.get?_insert]
    by_cases h : id = a
    · subst h
      simp [KeySet.mem_erase, hk, and_comm]
    · simp [h, Ne.symm h]

theorem untrack_snd : (r.untrack id key).2 = r.isTracked id key := by
  unfold untrack isTracked
  cases r.watchKeys.get? id <;> rfl

/-- Giving up a key that is not tracked changes nothing. -/
theorem untrack_of_not_isTracked (h : ¬ r.isTracked id key = true) : (r.untrack id key).1 = r := by
  rw [isTracked_iff] at h
  unfold untrack
  cases hk : r.watchKeys.get? id with
  | none => rfl
  | some keys =>
    have hmem : key ∉ keys := fun hm => h ⟨keys, hk, hm⟩
    simp only [KeySet.erase_of_not_mem hmem, Table.insert_of_get? hk]

/-- To take back a track of a key that was not tracked leaves everything as it was. -/
theorem untrack_track (h : ¬ r.isTracked id key = true) : ((r.track id key).1.untrack id key).1 = r := by
  cases hk : r.watchKeys.get? id with
  | none => simp [track, untrack, hk]
  | some keys =>
    have hmem : key ∉ keys := fun hm => h (isTracked_iff.mpr ⟨keys, hk, hm⟩)
    simp only [track, untrack, hk, Table.get?_insert, if_true, Table.insert_insert, KeySet.erase_insert hmem,
      Table.insert_of_get? hk]

theorem mem_sharers : id ∈ r.sharers c ↔ r.connectors.get? id = some c := by
  simp [sharers, Table.get?_eq_some_iff]

/-- The keys that an id leaves unwatched are those that no sharer tracks. -/
theorem mem_without {released : KeySet} :
    k ∈ released.without (r.keysOf (r.sharers c)) ↔
      k ∈ released ∧ ∀ a, r.connectors.get? a = some c → ¬ r.isTracked a k = true := by
  simp only [KeySet.without, List.mem_filter, Bool.not_eq_true', List.any_eq_false, keysOf,
    List.mem_filterMap, mem_sharers, ← KeySet.mem_iff, KeySet.contains_iff, isTracked_iff]
  constructor
  · rintro ⟨hk, h⟩
    refine ⟨hk, fun a ha => ?_⟩
    rintro ⟨keys, hkeys, hmem⟩
    exact h keys ⟨a, ha, hkeys⟩ hmem
  · rintro ⟨hk, h⟩
    refine ⟨hk, fun keys hkeys hmem => ?_⟩
    obtain ⟨a, ha, hkeys⟩ := hkeys
    exact h a ha ⟨keys, hkeys, hmem⟩

/-! ### How many ids use a connector -/

def users (r : Registrations) (c : ConnectorId) : Nat := (r.sharers c).length

theorem users_pos_iff : 0 < r.users c ↔ ∃ id, r.connectors.get? id = some c := by
  rw [users, List.length_pos_iff_exists_mem]
  exact exists_congr fun id => mem_sharers

theorem users_add {m : ConnectorId} (hid : r.connectors.get? id = none) :
    (r.add id m).users c = r.users c + if m = c then 1 else 0 := by
  have hentries : (r.add id m).connectors.entries = r.connectors.entries ++ [(id, m)] :=
    Table.assign_of_find_eq_none hid
  unfold users sharers
  rw [hentries, List.filter_append, List.map_append, List.length_append]
  by_cases hm : m = c
  · simp [hm]
  · simp [hm]

theorem users_remove {m : ConnectorId} (hid : r.connectors.get? id = some m) :
    r.users c = (r.remove id).users c + if m = c then 1 else 0 := by
  unfold users sharers
  rw [List.length_map, List.length_map]
  have hdrop := Table.length_filter_discard (p := fun e : String × ConnectorId => e.2 == c)
    r.connectors.nodup (Table.get?_eq_some_iff.mp hid)
  rw [hdrop]
  simp only [beq_iff_eq]
  rfl

end RouteSync.Registrations
