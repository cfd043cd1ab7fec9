import RouteSync.Proofs.Store.Interchange

/-!
# Stores with reused ids

Nothing keeps a record from being inserted under an id that is in use.  It then replaces the record of that
id, and the place of the replaced record goes on naming the id.  A store is no longer sound after that, but it
stays anchored: every record stands under its id and is named at its place (`Anchored.after`).  What may be
wrong are the places that name an id without a record, or with a record of another place.
-/

namespace RouteSync

/-! ### In memory -/

namespace MemoryStore

variable {s s' : MemoryStore}

theorem anchored_empty : empty.Anchored := Catalog.Sound.anchored sound_empty

namespace Anchored

variable (ha : s.Anchored)
include ha

theorem insert {r : StoredEndpoint} (h : s.insert r = .ok s') : s'.Anchored := by
  obtain ⟨hfree, hc⟩ := catalog_insert h
  rw [MemoryStore.Anchored, hc]
  exact Catalog.Anchored.add ha hfree

theorem deleteId (id : String) : (s.deleteId id).1.Anchored := by
  rw [MemoryStore.Anchored, ha.catalog_deleteId id]
  exact Catalog.Anchored.deleteId ha id

theorem deleteByIds (ids : List String) : (s.deleteByIds ids).1.Anchored := by
  induction ids generalizing s with
  | nil => exact ha
  | cons id ids ih => exact ih (ha.deleteId id)

theorem deleteByUrl (owner url : String) : (s.deleteByUrl owner url).1.Anchored := by
  have hc : (s.deleteByUrl owner url).1.catalog = s.catalog.strikeAt (owner, url) := by
    unfold MemoryStore.deleteByUrl Catalog.strikeAt
    rw [show s.catalog.entry (owner, url) = s.index.get? (owner, url) from rfl]
    cases s.index.get? (owner, url) with
    | none => rfl
    | some id =>
      simp only [catalog, Catalog.strike, Catalog.mk.injEq]
      refine ⟨funext fun a => ?_, funext fun k => ?_⟩
      · rw [Table.get?_erase, Function.update_apply]
        simp only [eq_comm]
      · rw [Table.get?_erase, Function.update_apply]
        simp only [eq_comm]
  rw [MemoryStore.Anchored, hc]
  exact Catalog.Anchored.strikeAt ha _

theorem update (owner url : String) (c : Columns) (now : UInt64) :
    (s.update owner url c now).1.Anchored := by
  unfold MemoryStore.update
  cases hi : s.index.get? (owner, url) with
  | none => exact ha
  | some id =>
    dsimp only
    cases hr : s.records.get? id with
    | none => exact ha
    | some r =>
      obtain rfl : r.id = id := Catalog.Anchored.keyed ha hr
      have hc : catalog ⟨s.records.insert r.id (r.merge c now), s.index⟩ =
          { s.catalog with record := Function.update s.catalog.record r.id (some (r.merge c now)) } := by
        simp only [catalog, Catalog.mk.injEq, and_true]
        funext a
        rw [Table.get?_insert, Function.update_apply]
        simp only [eq_comm]
      show (catalog ⟨s.records.insert r.id (r.merge c now), s.index⟩).Anchored Prod.mk
      rw [hc]
      exact Catalog.Anchored.overwrite ha hr rfl rfl

end Anchored

end MemoryStore

/-! ### In a database -/

namespace EmbeddedStore

open RouteSync.RecordCodec

/-- The trees are legible, and the index names every record at its place. -/
structure Anchored (s : EmbeddedStore) : Prop where
  legible : s.Legible
  catalog : s.catalog.Anchored indexKey

variable {s s' : EmbeddedStore}

theorem anchored_empty : empty.Anchored := ⟨sound_empty.legible, sound_empty.catalog.anchored⟩

namespace Anchored

variable (ha : s.Anchored)
include ha

theorem insert {r : StoredEndpoint} (hr : r.Fit) (h : s.insert r = .ok s') : s'.Anchored := by
  obtain ⟨hl, hfree, hc⟩ := ha.legible.catalog_insert hr h
  refine ⟨hl, ?_⟩
  rw [hc]
  exact ha.catalog.add hfree

theorem deleteByIds (ids : List String) : ∃ s' n, s.deleteByIds ids = .ok (s', n) ∧ s'.Anchored := by
  induction ids generalizing s with
  | nil => exact ⟨s, 0, rfl, ha⟩
  | cons id ids ih =>
    obtain ⟨s₁, n, h₁, hl₁, hc₁⟩ := ha.legible.catalog_deleteId ha.catalog id
    have ha₁ : s₁.Anchored := ⟨hl₁, by rw [hc₁]; exact ha.catalog.deleteId id⟩
    obtain ⟨s₂, k, h₂, ha₂⟩ := ih ha₁
    exact ⟨s₂, n + k, by simp only [EmbeddedStore.deleteByIds, h₁, bind, Except.bind, h₂]; rfl, ha₂⟩

theorem deleteByUrl (owner url : String) : (s.deleteByUrl owner url).1.Anchored := by
  unfold EmbeddedStore.deleteByUrl
  dsimp only
  cases hi : s.index.get? (indexKey owner url) with
  | none => exact ha
  | some b =>
    obtain ⟨id, rfl⟩ := ha.legible.index hi
    have hc : EmbeddedStore.catalog ⟨s.records.erase (textBytes id), s.index.erase (indexKey owner url)⟩ =
        s.catalog.strike id (indexKey owner url) := by
      simp only [EmbeddedStore.catalog, Catalog.strike, Catalog.mk.injEq]
      refine ⟨funext fun a => ?_, funext fun k => ?_⟩
      · rw [ByteTree.get?_erase, Function.update_apply]
        by_cases hid : a = id
        · rw [if_pos (by rw [hid]), if_pos hid]
          rfl
        · rw [if_neg (fun e => hid (textBytes_inj.mp e).symm), if_neg hid]
      · rw [ByteTree.get?_erase, Function.update_apply]
        by_cases hk : k = indexKey owner url
        · rw [if_pos hk.symm, if_pos hk]
          rfl
        · rw [if_neg (fun e => hk e.symm), if_neg hk]
    refine ⟨ha.legible.erase _ _, ?_⟩
    rw [hc]
    exact ha.catalog.strike (ha.legible.entry_eq_some_iff.mpr hi)

theorem update (owner url : String) {c : Columns} (hc : c.Fit) (now : UInt64) :
    ∃ s' b, s.update owner url c now = .ok (s', b) ∧ s'.Anchored := by
  unfold EmbeddedStore.update
  cases hi : s.index.get? (indexKey owner url) with
  | none => exact ⟨s, false, rfl, ha⟩
  | some b =>
    obtain ⟨id, rfl⟩ := ha.legible.index hi
    simp only [ha.legible.load_eq]
    cases hr : s.catalog.record id with
    | none => exact ⟨s, false, rfl, ha⟩
    | some r =>
      obtain rfl : r.id = id := ha.catalog.keyed hr
      have hf := (ha.legible.record_eq_some_iff.mp hr).1
      obtain ⟨hl, hcat⟩ := ha.legible.store (r := r.merge c now) ⟨hf.id, hf.owner, hf.url, hc⟩
      refine ⟨_, true, rfl, hl, ?_⟩
      have hkeep := ha.catalog.overwrite (x := r.merge c now) hr rfl rfl
      rw [hcat]
      exact hkeep

end Anchored

end EmbeddedStore

/-! ### Both -/

/-- What a request writes can be written down. -/
def StoreRequest.Fit : StoreRequest → Prop
  | .insert r => r.Fit
  | .update _ _ c _ => c.Fit
  | _ => True

theorem StoreRequest.Plain.fit {q : StoreRequest} (h : q.Plain) : q.Fit := by
  cases q with
  | insert r => exact h.2
  | update owner url c now => exact h.2
  | _ => exact trivial

/-- What a request leaves in memory. -/
def MemoryStore.next (s : MemoryStore) : StoreRequest → MemoryStore
  | .select _ => s
  | .insert r => (s.insert r).toOption.getD s
  | .update owner url c now => (s.update owner url c now).1
  | .deleteByIds ids => (s.deleteByIds ids).1
  | .deleteByUrl owner url => (s.deleteByUrl owner url).1

/-- What a request leaves in a database. -/
def EmbeddedStore.next (s : EmbeddedStore) : StoreRequest → EmbeddedStore
  | .select _ => s
  | .insert r => (s.insert r).toOption.getD s
  | .update owner url c now => ((s.update owner url c now).toOption.map Prod.fst).getD s
  | .deleteByIds ids => ((s.deleteByIds ids).toOption.map Prod.fst).getD s
  | .deleteByUrl owner url => (s.deleteByUrl owner url).1

theorem MemoryStore.Anchored.next {s : MemoryStore} (ha : s.Anchored) (q : StoreRequest) :
    (s.next q).Anchored := by
  cases q with
  | select owner => exact ha
  | insert r =>
    cases h : s.insert r with
    | error e =>
      rw [MemoryStore.next, h]
      exact ha
    | ok s' =>
      rw [MemoryStore.next, h]
      exact ha.insert h
  | update owner url c now => exact ha.update owner url c now
  | deleteByIds ids => exact ha.deleteByIds ids
  | deleteByUrl owner url => exact ha.deleteByUrl owner url

theorem EmbeddedStore.Anchored.next {s : EmbeddedStore} (ha : s.Anchored) {q : StoreRequest}
    (hq : q.Fit) : (s.next q).Anchored := by
  cases q with
  | select owner => exact ha
  | insert r =>
    cases h : s.insert r with
    | error e =>
      rw [EmbeddedStore.next, h]
      exact ha
    | ok s' =>
      rw [EmbeddedStore.next, h]
      exact ha.insert hq h
  | update owner url c now =>
    obtain ⟨s', b, h, ha'⟩ := ha.update owner url hq now
    rw [EmbeddedStore.next, h]
    exact ha'
  | deleteByIds ids =>
    obtain ⟨s', n, h, ha'⟩ := ha.deleteByIds ids
    rw [EmbeddedStore.next, h]
    exact ha'
  | deleteByUrl owner url => exact ha.deleteByUrl owner url

namespace Store

/-- Every record stands under its id and is named at its place. -/
def Anchored : Store → Prop
  | .memory s => s.Anchored
  | .embedded s => s.Anchored

variable {s : Store}

theorem next_memory (s : MemoryStore) (q : StoreRequest) : (memory s).next q = memory (s.next q) := by
  cases q with
  | insert r =>
    simp only [Store.next, MemoryStore.next, outcome, insert]
    cases s.insert r <;> rfl
  | _ => rfl

theorem next_embedded (s : EmbeddedStore) (q : StoreRequest) :
    (embedded s).next q = embedded (s.next q) := by
  cases q with
  | select owner =>
    simp only [Store.next, EmbeddedStore.next, outcome, select]
    cases s.select owner <;> rfl
  | insert r =>
    simp only [Store.next, EmbeddedStore.next, outcome, insert]
    cases s.insert r <;> rfl
  | update owner url c now =>
    simp only [Store.next, EmbeddedStore.next, outcome, update]
    cases s.update owner url c now <;> rfl
  | deleteByIds ids =>
    simp only [Store.next, EmbeddedStore.next, outcome, deleteByIds]
    cases s.deleteByIds ids <;> rfl
  | deleteByUrl owner url => rfl

theorem isEmbedded_next (s : Store) (q : StoreRequest) : (s.next q).isEmbedded = s.isEmbedded := by
  cases s with
  | memory s => rw [next_memory, isEmbedded, isEmbedded]
  | embedded s => rw [next_embedded, isEmbedded, isEmbedded]

theorem Anchored.next (ha : s.Anchored) {q : StoreRequest} (hq : s.isEmbedded = true → q.Fit) :
    (s.next q).Anchored := by
  cases s with
  | memory s =>
    rw [next_memory]
    exact MemoryStore.Anchored.next ha q
  | embedded s =>
    rw [next_embedded]
    exact EmbeddedStore.Anchored.next ha (hq rfl)

/-- **Requests of any kind**, with ids used again or not, leave a store anchored. -/
theorem Anchored.after (ha : s.Anchored) {qs : List StoreRequest}
    (hqs : s.isEmbedded = true → ∀ q ∈ qs, q.Fit) : (s.after qs).Anchored := by
  induction qs generalizing s with
  | nil => exact ha
  | cons q qs ih =>
    refine ih (ha.next fun he => hqs he q List.mem_cons_self) fun he x hx => ?_
    rw [isEmbedded_next] at he
    exact hqs he x (List.mem_cons_of_mem q hx)

theorem isEmbedded_after (s : Store) (qs : List StoreRequest) :
    (s.after qs).isEmbedded = s.isEmbedded := by
  induction qs generalizing s with
  | nil => rfl
  | cons q qs ih => exact (ih _).trans (isEmbedded_next s q)

/-- Where both stores begin. -/
def IsEmpty (s : Store) : Prop := s = .memory .empty ∨ s = .embedded .empty

theorem IsEmpty.anchored (h : s.IsEmpty) : s.Anchored := by
  rcases h with rfl | rfl
  · exact MemoryStore.anchored_empty
  · exact EmbeddedStore.anchored_empty

end Store

end RouteSync
