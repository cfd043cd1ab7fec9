import RouteSync.Hub.Lifecycle
import RouteSync.Proofs.Hub.Commands

/-!
# Sharing a connector

A hub that begins with nothing registered and one plain connector for all types stays wired through every
run (`Runs.wired`).  An id that leaves takes with it the watches of the keys that nobody else tracks, and
no others (`watchers_leave`).
-/

namespace RouteSync

namespace Wiring

/-- An id is registered and has a key among its watch keys. -/
def Tracks (w : Wiring) (id key : String) : Prop := w.registrations.isTracked id key = true

/-- The connector watches a key. -/
def Watches (w : Wiring) (key : String) : Prop := w.watchers.contains key = true

/-- The listener that watches a key. -/
def installed (w : Wiring) (key : String) : Option SyncListener :=
  match (w.watchers.get? key).bind fun l => w.listeners[l]? with
  | some (.sync x) => some x
  | some (.recording _) => none
  | none => none

variable {w : Wiring} {c : ConnectorId} {id key a k : String}

theorem watches_iff : w.Watches key ↔ ∃ l, w.watchers.get? key = some l := Option.isSome_iff_exists

theorem installed_eq_some_iff {x : SyncListener} :
    w.installed key = some x ↔ ∃ l, w.watchers.get? key = some l ∧ w.listeners[l]? = some (.sync x) := by
  unfold installed
  cases w.watchers.get? key with
  | none => simp
  | some l =>
    simp only [Option.bind_some, Option.some.injEq, exists_eq_left']
    cases w.listeners[l]? with
    | none => simp
    | some y => cases y <;> simp

theorem tracks_join : (w.join c id).Tracks a k ↔ a ≠ id ∧ w.Tracks a k :=
  Registrations.isTracked_add

theorem tracks_watch (hw : Wired c w) {x : SyncListener}
    (hid : w.registrations.connectors.get? x.discoveryId = some c) :
    (w.watch x key).Tracks a k ↔ (a = x.discoveryId ∧ k = key) ∨ w.Tracks a k := by
  have hkeys : (w.registrations.watchKeys.get? x.discoveryId).isSome = true := by
    rw [hw.cached, hid]
    rfl
  exact Registrations.isTracked_track hkeys

theorem tracks_unwatch : (w.unwatch id key).Tracks a k ↔ ¬ (a = id ∧ k = key) ∧ w.Tracks a k :=
  Registrations.isTracked_untrack

end Wiring

namespace Wired

variable {c : ConnectorId} {w w' : Wiring} {cmd : Command} {id key a k : String}

/-- **An id that leaves** takes the watches with it that nobody else tracks. -/
theorem watchers_leave (hw : Wired c w) (k : String) :
    ((∃ a, a ≠ id ∧ w.Tracks a k) → (w.leave c id).watchers.get? k = w.watchers.get? k) ∧
      ((¬ ∃ a, a ≠ id ∧ w.Tracks a k) → (w.leave c id).watchers.get? k = none) := by
  have hothers : ∀ a, (w.registrations.remove id).connectors.get? a = some c ∧
      (w.registrations.remove id).isTracked a k = true ↔ a ≠ id ∧ w.Tracks a k := by
    intro a
    rw [Registrations.isTracked_remove]
    refine ⟨fun h => h.2, fun h => ⟨?_, h⟩⟩
    rw [Registrations.get?_remove, if_neg h.1.symm]
    exact hw.connector_of_isTracked h.2
  have hnone : (¬ ∃ a, a ≠ id ∧ w.Tracks a k) → w.watchers.get? k ≠ none → w.Tracks id k := by
    intro hno hk
    obtain ⟨l, hl⟩ := Option.ne_none_iff_exists'.mp hk
    obtain ⟨a, ha⟩ := hw.tracked k l hl
    by_cases hid : a = id
    · exact hid ▸ ha
    · exact absurd ⟨a, hid, ha⟩ hno
  unfold Wiring.leave
  dsimp only
  by_cases hs : ((w.registrations.remove id).sharers c).isEmpty = true
  · rw [if_pos hs]
    refine ⟨?_, fun _ => rfl⟩
    rintro ⟨a, ha⟩
    have hmem := Registrations.mem_sharers.mpr ((hothers a).mpr ha).1
    rw [List.isEmpty_iff.mp hs] at hmem
    cases hmem
  · rw [if_neg hs]
    dsimp only
    rw [Table.get?_foldl_erase]
    constructor
    · rintro ⟨a, ha⟩
      rw [if_neg]
      rw [Registrations.mem_without]
      rintro ⟨-, hno⟩
      exact hno a ((hothers a).mpr ha).1 ((hothers a).mpr ha).2
    · intro hno
      by_cases hk : w.watchers.get? k = none
      · rw [hk]
        exact ite_self none
      · obtain ⟨keys, hkeys, hmem⟩ := Registrations.isTracked_iff.mp (hnone hno hk)
        rw [if_pos]
        rw [Registrations.mem_without, hkeys]
        exact ⟨hmem, fun a ha ht => hno ⟨a, (hothers a).mp ⟨ha, ht⟩⟩⟩

/-! ### Every step keeps a hub wired -/

theorem join (hw : Wired c w) (hid : w.registrations.connectors.get? id = none) :
    Wired c (w.join c id) where
  present := hw.present
  plain := hw.plain
  shared := hw.shared
  served a k ha := by
    replace ha : (w.registrations.add id c).connectors.get? a = some k := ha
    rw [Registrations.get?_add] at ha
    split_ifs at ha
    · cases ha
      rfl
    · exact hw.served a k ha
  cached a := Registrations.keyed_add (hw.cached a)
  ready _ _ := rfl
  installed := hw.installed
  tracked key l hl := by
    obtain ⟨a, ha⟩ := hw.tracked key l hl
    have hne : a ≠ id := by
      rintro rfl
      rw [hw.connector_of_isTracked ha] at hid
      cases hid
    exact ⟨a, Wiring.tracks_join.mpr ⟨hne, ha⟩⟩

theorem registrations_leave : (w.leave c id).registrations = w.registrations.remove id := by
  unfold Wiring.leave
  dsimp only
  split_ifs <;> rfl

theorem listeners_leave : (w.leave c id).listeners = w.listeners := by
  unfold Wiring.leave
  dsimp only
  split_ifs <;> rfl

theorem watchers_of_leave (hw : Wired c w) {l : ListenerId}
    (hl : (w.leave c id).watchers.get? k = some l) :
    w.watchers.get? k = some l ∧ ∃ a, a ≠ id ∧ w.Tracks a k := by
  by_cases hothers : ∃ a, a ≠ id ∧ w.Tracks a k
  · rw [(hw.watchers_leave k).1 hothers] at hl
    exact ⟨hl, hothers⟩
  · rw [(hw.watchers_leave k).2 hothers] at hl
    cases hl

theorem leave (hw : Wired c w) : Wired c (w.leave c id) where
  present := by
    unfold Wiring.leave
    dsimp only
    split_ifs <;> exact hw.present
  plain := by
    unfold Wiring.leave
    dsimp only
    split_ifs <;> exact hw.plain
  shared := by
    unfold Wiring.leave
    dsimp only
    split_ifs <;> exact hw.shared
  served a k ha := by
    rw [registrations_leave] at ha
    rw [Registrations.get?_remove] at ha
    split_ifs at ha
    exact hw.served a k ha
  cached a := by
    rw [registrations_leave]
    exact Registrations.keyed_remove (hw.cached a)
  ready a ha := by
    rw [registrations_leave] at ha
    have hmem := Registrations.mem_sharers.mpr ha
    rw [Registrations.get?_remove] at ha
    have hready : w.ready = true := by
      split_ifs at ha
      exact hw.ready a ha
    unfold Wiring.leave
    dsimp only
    by_cases hs : ((w.registrations.remove id).sharers c).isEmpty = true
    · rw [List.isEmpty_iff.mp hs] at hmem
      cases hmem
    · rw [if_neg hs]
      exact hready
  installed key l hl := by
    rw [listeners_leave]
    exact hw.installed key l (hw.watchers_of_leave hl).1
  tracked key l hl := by
    obtain ⟨-, a, hne, ha⟩ := hw.watchers_of_leave hl
    refine ⟨a, ?_⟩
    rw [registrations_leave, Registrations.isTracked_remove]
    exact ⟨hne, ha⟩

theorem watch (hw : Wired c w) {x : SyncListener}
    (hid : w.registrations.connectors.get? x.discoveryId = some c) : Wired c (w.watch x key) where
  present := hw.present
  plain := hw.plain
  shared := hw.shared
  served a k ha := hw.served a k (by rwa [← Registrations.connectors_track])
  cached a := by
    show ((w.registrations.track x.discoveryId key).1.watchKeys.get? a).isSome = _
    rw [Registrations.isSome_watchKeys_track, hw.cached]
    exact congrArg (fun t => (Table.get? t a).isSome) Registrations.connectors_track.symm
  ready a ha := hw.ready a (by rwa [← Registrations.connectors_track])
  installed k l hl := by
    replace hl : (w.watchers.insert key w.listeners.length).get? k = some l := hl
    show ∃ y, (w.listeners ++ [.sync x])[l]? = some (.sync y)
    rw [Table.get?_insert] at hl
    split_ifs at hl with hk
    · cases hl
      exact ⟨x, by simp⟩
    · obtain ⟨y, hy⟩ := hw.installed k l hl
      refine ⟨y, ?_⟩
      rw [List.getElem?_append_left (List.getElem?_eq_some_iff.mp hy).1, hy]
  tracked k l hl := by
    replace hl : (w.watchers.insert key w.listeners.length).get? k = some l := hl
    rw [Table.get?_insert] at hl
    split_ifs at hl with hk
    · exact ⟨x.discoveryId, (Wiring.tracks_watch hw hid).mpr (.inl ⟨rfl, hk.symm⟩)⟩
    · obtain ⟨a, ha⟩ := hw.tracked k l hl
      exact ⟨a, (Wiring.tracks_watch hw hid).mpr (.inr ha)⟩

theorem unwatch (hw : Wired c w) : Wired c (w.unwatch id key) where
  present := hw.present
  plain := hw.plain
  shared := hw.shared
  served a k ha := hw.served a k (by rwa [← Registrations.connectors_untrack])
  cached a := by
    show ((w.registrations.untrack id key).1.watchKeys.get? a).isSome = _
    rw [Registrations.isSome_watchKeys_untrack, hw.cached]
    exact congrArg (fun t => (Table.get? t a).isSome) Registrations.connectors_untrack.symm
  ready a ha := hw.ready a (by rwa [← Registrations.connectors_untrack])
  installed k l hl := by
    replace hl : (w.watchers.erase key).get? k = some l := hl
    rw [Table.get?_erase] at hl
    split_ifs at hl
    exact hw.installed k l hl
  tracked k l hl := by
    replace hl : (w.watchers.erase key).get? k = some l := hl
    rw [Table.get?_erase] at hl
    split_ifs at hl with hk
    obtain ⟨a, ha⟩ := hw.tracked k l hl
    exact ⟨a, Wiring.tracks_unwatch.mpr ⟨fun h => hk h.2.symm, ha⟩⟩

theorem build (hw : Wired c w) (x : SyncListener) : Wired c (w.build x) :=
  { hw with
    installed := fun key l hl => by
      obtain ⟨y, hy⟩ := hw.installed key l hl
      refine ⟨y, ?_⟩
      show (w.listeners ++ [.sync x])[l]? = some (.sync y)
      rw [List.getElem?_append_left (List.getElem?_eq_some_iff.mp hy).1, hy] }

/-- Binding a route changes at most the routes of listeners. -/
theorem bindTo_spec (w : Wiring) (id : String) (route : RouteRecord) :
    ∃ ls, w.bindTo id route = { w with listeners := ls } ∧
      ∀ (l : ListenerId) (x : SyncListener), w.listeners[l]? = some (.sync x) →
        ∃ routes, ls[l]? = some (.sync { x with contexts := routes }) := by
  have hsame : ∀ (l : ListenerId) (x : SyncListener), w.listeners[l]? = some (.sync x) →
      ∃ routes, w.listeners[l]? = some (.sync { x with contexts := routes }) :=
    fun l x hx => ⟨x.contexts, hx⟩
  unfold Wiring.bindTo
  cases w.active.get? id with
  | none => exact ⟨w.listeners, rfl, hsame⟩
  | some m =>
    dsimp only
    cases hm : w.listeners[m]? with
    | none => exact ⟨w.listeners, rfl, hsame⟩
    | some y =>
      cases y with
      | recording name => exact ⟨w.listeners, rfl, hsame⟩
      | sync y =>
        refine ⟨_, rfl, fun l x hx => ?_⟩
        by_cases hl : m = l
        · subst hl
          rw [hm] at hx
          cases hx
          refine ⟨(y.bind route).contexts, ?_⟩
          rw [List.getElem?_set_self (List.getElem?_eq_some_iff.mp hm).1]
          unfold SyncListener.bind
          split_ifs <;> rfl
        · rw [List.getElem?_set_ne hl]
          exact hsame l x hx

theorem bindTo (hw : Wired c w) (id : String) (route : RouteRecord) : Wired c (w.bindTo id route) := by
  obtain ⟨ls, he, hls⟩ := bindTo_spec w id route
  rw [he]
  exact { hw with
    installed := fun key l hl => by
      obtain ⟨x, hx⟩ := hw.installed key l hl
      obtain ⟨routes, hx'⟩ := hls l x hx
      exact ⟨_, hx'⟩ }

theorem step (hw : Wired c w) (hs : w.Step c cmd w') : Wired c w' := by
  cases hs with
  | idle => exact hw
  | join hid => exact hw.join hid
  | leave => exact hw.leave
  | watch hid => exact hw.watch hid
  | unwatch => exact hw.unwatch
  | build => exact hw.build _
  | adopt => exact { hw with }
  | bind => exact hw.bindTo _ _

end Wired

namespace Wiring

variable {w : Wiring} {c : ConnectorId} {id key : String}

theorem tracks_leave {a : String} : (w.leave c id).Tracks a key ↔ a ≠ id ∧ w.Tracks a key := by
  rw [Tracks, Wired.registrations_leave, Registrations.isTracked_remove]
  rfl

theorem tracks_bindTo (route : RouteRecord) {a : String} :
    (w.bindTo id route).Tracks a key ↔ w.Tracks a key := by
  obtain ⟨ls, he, -⟩ := Wired.bindTo_spec w id route
  rw [he]
  rfl

end Wiring

namespace Hub

/-- An id is registered and has a key among its watch keys. -/
def Tracks (h : Hub) (id key : String) : Prop := h.registrations.isTracked id key = true

/-- A connector watches a key. -/
def Watches (c : ConnectorId) (h : Hub) (key : String) : Prop :=
  (h.connector c).registry.watchers.contains key = true

/-- The listener that a connector tells about the changes of a key. -/
def installed (c : ConnectorId) (h : Hub) (key : String) : Option SyncListener :=
  (h.wiring c).installed key

instance (h : Hub) (id key : String) : Decidable (h.Tracks id key) :=
  inferInstanceAs (Decidable (h.registrations.isTracked id key = true))

instance (c : ConnectorId) (h : Hub) (key : String) : Decidable (h.Watches c key) :=
  inferInstanceAs (Decidable ((h.connector c).registry.watchers.contains key = true))

/-- Nothing is registered, and `c` is a plain connector for all types. -/
structure Fresh (c : ConnectorId) (h : Hub) : Prop where
  plain : Act.Plain c h
  shared : ∀ t p, h.providers.get? t = some p → p = .shared c
  uncached : ∀ id, h.registrations.connectors.get? id = none ∧ h.registrations.watchKeys.get? id = none
  unwatched : ∀ key, (h.connector c).registry.watchers.get? key = none

variable {c : ConnectorId} {h₀ h : Hub} {allowed : Hub → Command → Prop}

theorem fresh_create (settings : DiscoverySettings) (store : Store) : (create settings store).Fresh 0 where
  plain := ⟨Nat.zero_lt_one, rfl⟩
  shared t p hp := by
    replace hp : (Table.insert .empty (normalizedType LocalRegistry.kindName)
      (Provider.shared 0)).get? t = some p := hp
    rw [Table.get?_insert] at hp
    split_ifs at hp
    · cases hp
      rfl
    · cases hp
  uncached _ := ⟨rfl, rfl⟩
  unwatched _ := rfl

theorem Fresh.wired (hf : h.Fresh c) : Wired c (h.wiring c) where
  present := (Act.plain_iff.mp hf.plain).1
  plain := (Act.plain_iff.mp hf.plain).2
  shared := hf.shared
  served id k hk := by
    replace hk : h.registrations.connectors.get? id = some k := hk
    rw [(hf.uncached id).1] at hk
    cases hk
  cached id := by
    show (h.registrations.watchKeys.get? id).isSome = (h.registrations.connectors.get? id).isSome
    rw [(hf.uncached id).1, (hf.uncached id).2]
    rfl
  ready id hid := by
    replace hid : h.registrations.connectors.get? id = some c := hid
    rw [(hf.uncached id).1] at hid
    cases hid
  installed key l hl := by
    replace hl : (h.connector c).registry.watchers.get? key = some l := hl
    rw [hf.unwatched] at hl
    cases hl
  tracked key l hl := by
    replace hl : (h.connector c).registry.watchers.get? key = some l := hl
    rw [hf.unwatched] at hl
    cases hl

/-- **Being wired is an invariant** of all runs. -/
theorem Runs.wired (hr : Runs c allowed h₀ h) (hf : h₀.Fresh c) : Wired c (h.wiring c) := by
  induction hr with
  | refl => exact hf.wired
  | step _ _ ih => exact ih.step (Act.step_wiring ih _)

theorem Runs.mono {allowed' : Hub → Command → Prop} (hr : Runs c allowed h₀ h)
    (ha : ∀ h cmd, allowed h cmd → allowed' h cmd) : Runs c allowed' h₀ h := by
  induction hr with
  | refl => exact .refl
  | step _ hcmd ih => exact .step ih (ha _ _ hcmd)

theorem Runs.trans {h₁ : Hub} (hr : Runs c allowed h₀ h₁) (hr' : Runs c allowed h₁ h) :
    Runs c allowed h₀ h := by
  induction hr' with
  | refl => exact hr
  | step _ hcmd ih => exact .step ih hcmd

/-- Commands one after another. -/
def afterAll (c : ConnectorId) (h : Hub) (cmds : List Command) : Hub := cmds.foldl (after c) h

theorem runs_afterAll (h₀ : Hub) {cmds : List Command} (ha : ∀ h, ∀ cmd ∈ cmds, allowed h cmd) :
    Runs c allowed h₀ (h₀.afterAll c cmds) := by
  induction cmds generalizing h₀ with
  | nil => exact .refl
  | cons cmd cmds ih =>
    have hstep : Runs c allowed h₀ (h₀.after c cmd) := .step .refl (ha h₀ cmd (by simp))
    exact hstep.trans (ih (h₀.after c cmd) fun h x hx => ha h x (by simp [hx]))

/-- A hub with one instrumented registry inside the process, shared by all who ask for its type. -/
def probed (store : Store) : Hub := ({ store := store } : Hub).registerProbed LocalRegistry.kindName true none

/-- Two ids are registered, and the first one subscribes a key. -/
def firstSubscribes : List Command := [
  .create { id := "d1", registryType := "local" },
  .create { id := "d2", registryType := "local" },
  .subscribe { id := "h1", discoveryId := "d1", listenerNode := "/k" } ⟨"s1", "one", "p", "ns"⟩]

/-- Then the second one subscribes it too. -/
def bothSubscribe : List Command :=
  firstSubscribes ++
    [.subscribe { id := "h2", discoveryId := "d2", listenerNode := "/k" } ⟨"s2", "two", "p", "ns"⟩]

/-- Two ids that have subscribed one key. -/
def sharedKey : Hub := (create {} (.memory .empty)).afterAll 0 bothSubscribe

end Hub

end RouteSync
