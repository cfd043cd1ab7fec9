import RouteSync.Hub.Lifecycle
import RouteSync.Proofs.Hub.Steady
import RouteSync.Proofs.Hub.Writing

/-!
# The store through a run

What a hub holds in its store and how many ids it has drawn change by writes alone, so what lasts through the
writes lasts through every command (`Enduring.act`).  A store in memory that is sound and has the new ids
free is so after every run (`Runs.inMemory`).
-/

namespace RouteSync

namespace Act

open Hub

/-- No call, write or publication ends what holds of store and drawn ids. -/
structure Enduring (P : Hub → Prop) : Prop where
  lasting : Lasting P
  congr : ∀ h h' : Hub, h'.store = h.store → h'.drawn = h.drawn → P h → P h'

namespace Enduring

variable {P : Hub → Prop} {c : ConnectorId} (hp : Enduring P)
include hp

theorem steady : Steady P where
  lasting := hp.lasting
  publish ev := preserves_modify fun h hh => hp.congr h _ (congrArg Contents.store (contents_publish h ev))
    (congrArg Contents.drawn (contents_publish h ev)) hh
  connector h _ _ _ _ hh := hp.congr h _ rfl rfl hh
  probe h _ hh := hp.congr h _ rfl rfl hh
  congr h h' hb hh := hp.congr h h' (congrArg Base.store hb) (congrArg Base.drawn hb) hh

/-- **What endures** holds after every command. -/
theorem act (cmd : Command) : Preserves P (cmd.act c) :=
  hp.steady.always (fun h _ _ hh => hp.congr h _ rfl rfl hh) cmd

end Enduring

end Act

namespace Hub

/-- The store is kept in memory and sound, and new ids are free. -/
structure InMemory (h : Hub) : Prop where
  memory : h.store.isEmbedded = false
  sound : h.store.Sound
  fresh : h.DrawsFresh

variable {h h₀ : Hub} {c : ConnectorId} {allowed : Hub → Command → Prop}

theorem InMemory.takes (hm : h.InMemory) (r : StoredEndpoint) : h.store.Takes r := by
  intro he
  rw [hm.memory] at he
  cases he

theorem InMemory.distinguishes (hm : h.InMemory) (owner : String) : h.store.Distinguishes owner := by
  intro he
  rw [hm.memory] at he
  cases he

theorem InMemory.stocked (hm : h.InMemory) : h.Stocked :=
  ⟨hm.sound, hm.fresh, fun r _ => hm.distinguishes r.owner⟩

theorem InMemory.accepts (hm : h.InMemory) (N : Nat) (owner : String) (e : Endpoint) :
    h.Accepts N owner e :=
  ⟨hm.distinguishes owner, fun _ _ => hm.takes _⟩

/-- An operation that keeps the store sound and fills no id leaves the store as it should be. -/
theorem InMemory.of_find? {s : Store} (hm : h.InMemory) (he : s.isEmbedded = h.store.isEmbedded)
    (hs : s.Sound) (hf : ∀ id, h.store.find? id = none → s.find? id = none) :
    ({ h with store := s } : Hub).InMemory :=
  ⟨he.trans hm.memory, hs, hm.fresh.of_find? (Nat.le_refl h.drawn) hf⟩

theorem inMemory_create (settings : DiscoverySettings) : (create settings (.memory .empty)).InMemory :=
  ⟨rfl, Store.Reached.memory.sound, fun _ _ => rfl⟩

end Hub

namespace Act

open Hub

theorem left_onStore {α : Type} (f : Store → Except StorageError (Store × α)) (h : Hub) :
    (onStore f).left h = match f h.store with
      | .error _ => h
      | .ok p => { h with store := p.1 } := by
  unfold left onStore
  rw [get_bind]
  cases f h.store <;> rfl

/-- An operation of the store keeps a store in memory if its outcome is one. -/
theorem inMemory_onStore {α : Type} {f : Store → Except StorageError (Store × α)} {h : Hub}
    (hm : h.InMemory) (hf : ∀ s x, f h.store = .ok (s, x) → ({ h with store := s } : Hub).InMemory) :
    ((onStore f).left h).InMemory := by
  rw [left_onStore]
  cases hr : f h.store with
  | error e => exact hm
  | ok p => exact hf p.1 p.2 hr

theorem preserves_inMemory_call (entry : JournalEntry) : Preserves InMemory (call entry) := by
  intro h hm
  rw [left_call]
  exact ⟨hm.memory, hm.sound, hm.fresh⟩

theorem preserves_inMemory_insert (owner : String) (e : Endpoint) : Preserves InMemory (insert owner e) := by
  refine preserves_bind (preserves_inMemory_call _) fun _ h hm => ?_
  -- the id is taken from the free ones before the record is stored
  let h₁ : Hub := { h with drawn := h.drawn + 1 }
  let r := e.stored (drawnId h₁.drawn) owner h₁.clock
  have hm₁ : h₁.InMemory :=
    ⟨hm.memory, hm.sound, hm.fresh.of_find? (Nat.le_succ h.drawn) fun _ hid => hid⟩
  have hfree : h₁.store.find? r.id = none := hm.fresh _ (Nat.lt_succ_self _)
  show InMemory ((onStore fun s => (s.insert r).map fun s => (s, ())).left h₁)
  refine inMemory_onStore hm₁ fun s x hs => ?_
  obtain ⟨s', hi, hx⟩ := map_eq_ok.mp hs
  cases hx
  obtain ⟨hsound, he, hf⟩ := Store.find?_insert hm₁.sound (hm₁.takes r) hfree hi
  exact ⟨he.trans hm₁.memory, hsound, hm.fresh.of_add rfl hf⟩

theorem preserves_inMemory_update (owner : String) (e : Endpoint) : Preserves InMemory (update owner e) := by
  refine preserves_bind (preserves_inMemory_call _) fun _ => preserves_bind preserves_get fun h₁ h hm => ?_
  refine inMemory_onStore hm fun s b hs => ?_
  have hcol : h.store.TakesColumns e.columns := by
    intro he
    rw [hm.memory] at he
    cases he
  obtain ⟨t, b', ht, hsound, he, -, hf⟩ := Store.exists_update hm.sound owner e.url hcol h₁.clock
  rw [hs] at ht
  cases ht
  refine hm.of_find? he hsound fun id hid => ?_
  rw [hf, hid]
  rfl

theorem preserves_inMemory_deleteByIds (ids : List String) : Preserves InMemory (deleteByIds ids) := by
  refine preserves_bind (preserves_inMemory_call _) fun _ h hm => inMemory_onStore hm fun s n hs => ?_
  obtain ⟨t, n', ht, hsound, he, hf⟩ := Store.exists_deleteByIds hm.sound ids
  rw [hs] at ht
  cases ht
  refine hm.of_find? he hsound fun id hid => ?_
  rw [hf, hid]
  exact ite_self none

theorem preserves_inMemory_deleteByUrl (owner url : String) :
    Preserves InMemory (deleteByUrl owner url) := by
  refine preserves_bind (preserves_inMemory_call _) fun _ h hm => inMemory_onStore hm fun s n hs => ?_
  obtain ⟨t, n', ht, hsound, he, hf⟩ := Store.exists_deleteByUrl hm.sound owner url
  rw [hs] at ht
  cases ht
  refine hm.of_find? he hsound fun id hid => ?_
  rw [hf, hid]
  rfl

theorem enduring_inMemory : Enduring InMemory where
  lasting := {
    call := fun entry _ => preserves_inMemory_call entry
    publish := fun e _ => preserves_modify fun h hm => by
      obtain ⟨p, j, m, he⟩ := h.publish_eq e
      rw [he]
      exact ⟨hm.memory, hm.sound, hm.fresh⟩
    count := fun _ _ => preserves_modify fun _ hm => ⟨hm.memory, hm.sound, hm.fresh⟩
    insert := preserves_inMemory_insert
    update := preserves_inMemory_update
    deleteByIds := preserves_inMemory_deleteByIds
    deleteByUrl := preserves_inMemory_deleteByUrl }
  congr h h' hs hd hm := by
    refine ⟨?_, ?_, ?_⟩
    · rw [hs]
      exact hm.memory
    · rw [hs]
      exact hm.sound
    · unfold DrawsFresh
      rw [hs, hd]
      exact hm.fresh

end Act

namespace Hub

variable {h h₀ : Hub} {c : ConnectorId} {allowed : Hub → Command → Prop}

/-- **A store in memory** stays sound through every run. -/
theorem Runs.inMemory (hr : Runs c allowed h₀ h) (hm : h₀.InMemory) : h.InMemory := by
  induction hr with
  | refl => exact hm
  | step _ _ ih => exact Act.enduring_inMemory.act _ _ ih

end Hub

end RouteSync
