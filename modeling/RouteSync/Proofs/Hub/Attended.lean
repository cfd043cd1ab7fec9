import RouteSync.Proofs.Hub.Enrolment

/-!
# Watches that somebody needs

Keys are tracked and watched in one order and given up in another: a subscription tracks its key before it is
watched and takes the track back if that fails, and an id that leaves is written off before the keys that it
leaves to nobody are unwatched.  A plain connector still watches no key that none of its ids tracks
(`watched_keys_attended`), so nothing is watched for an id that has gone.  Of a command it is enough to know that
whoever attended a key that goes on being watched attends it afterwards, or somebody else does (`tends_after`).
-/

namespace RouteSync

namespace Hub

/-- Whom a connector tells, by the keys that are watched. -/
def watchers (k : ConnectorId) (h : Hub) : Table String ListenerId := (h.connector k).registry.watchers

/-- An id that a connector serves has a key among its watch keys. -/
def Attends (k : ConnectorId) (h : Hub) (id key : String) : Prop :=
  h.registrations.connectors.get? id = some k ∧ h.Tracks id key

/-- A key that is watched afterwards is attended then, or it was watched before and nobody has given it up. -/
def Tends (k : ConnectorId) (h h' : Hub) : Prop :=
  ∀ key, h'.Watches k key →
    (∃ id, h'.Attends k id key) ∨ h.Watches k key ∧ ∀ id, h.Attends k id key → h'.Attends k id key

variable {h h' : Hub} {k m : ConnectorId} {f : Connector → Connector} {id key : String} {l : ListenerId}

theorem watches_iff : h.Watches k key ↔ (h.watchers k).get? key ≠ none := by
  rw [Watches, Table.contains, Option.isSome_iff_ne_none]
  rfl

theorem watchers_of_connectors (hconn : h'.connectors = h.connectors) : h'.watchers k = h.watchers k := by
  unfold watchers
  rw [connector_of_connectors hconn]

theorem watchers_modifyConnector
    (hf : m ≠ k ∨ (f (h.connector m)).registry.watchers = (h.connector m).registry.watchers) :
    (h.modifyConnector m f).watchers k = h.watchers k := by
  rcases hf with hne | hsame
  · unfold watchers
    rw [connector_modifyConnector_of_ne hne]
  · exact connector_congr (g := fun x => x.registry.watchers) hsame k

theorem watchers_addProbe (onWatch : Option (String × ChangeKind)) :
    (h.addProbe onWatch).1.watchers k = h.watchers k := by
  unfold watchers
  rw [connector_addProbe]
  split_ifs with hk
  · -- a connector that is not there yet watches nothing
    subst hk
    simp [connector, List.getD, show (default : Connector) = {} from rfl]
  · rfl

/-! ### Steps of one connector -/

namespace Tends

theorem of_watchers (hw : h'.watchers k = h.watchers k)
    (hstay : ∀ id key, h.Attends k id key → h'.Attends k id key) : Tends k h h' := by
  intro key hkey
  rw [watches_iff, hw, ← watches_iff] at hkey
  exact .inr ⟨hkey, fun id => hstay id key⟩

theorem refl : Tends k h h := of_watchers rfl fun _ _ ha => ha

theorem watch (hw : h'.watchers k = (h.watchers k).insert key l) (hnew : h'.Attends k id key)
    (hstay : ∀ id key, h.Attends k id key → h'.Attends k id key) : Tends k h h' := by
  intro a ha
  rw [watches_iff, hw, Table.get?_insert] at ha
  split_ifs at ha with hkey
  · exact .inl ⟨id, hkey ▸ hnew⟩
  · exact .inr ⟨watches_iff.mpr ha, fun id => hstay id a⟩

theorem unwatch (hw : h'.watchers k = (h.watchers k).erase key)
    (hstay : ∀ id a, a ≠ key → h.Attends k id a → h'.Attends k id a) : Tends k h h' := by
  intro a ha
  rw [watches_iff, hw, Table.get?_erase] at ha
  split_ifs at ha with hkey
  · exact absurd rfl ha
  · exact .inr ⟨watches_iff.mpr ha, fun id => hstay id a (Ne.symm hkey)⟩

end Tends

namespace Attends

theorem congr (hregs : h'.registrations = h.registrations) (ha : h.Attends k id key) : h'.Attends k id key := by
  rw [Attends, Tracks, hregs]
  exact ha

/-- A connector serves the ids that it served before another one joined. -/
theorem add {a : String} (hid : h.registrations.connectors.get? id = none)
    (hregs : h'.registrations = h.registrations.add id m) (ha : h.Attends k a key) : h'.Attends k a key := by
  have hne : a ≠ id := by
    rintro rfl
    rw [ha.1] at hid
    cases hid
  rw [Attends, Tracks, hregs, Registrations.isTracked_add]
  refine ⟨?_, hne, ha.2⟩
  rw [Registrations.get?_add, if_neg hne.symm]
  exact ha.1

theorem remove {a : String} (hregs : h'.registrations = h.registrations.remove id) (hne : a ≠ id)
    (ha : h.Attends k a key) : h'.Attends k a key := by
  rw [Attends, Tracks, hregs, Registrations.isTracked_remove]
  refine ⟨?_, hne, ha.2⟩
  rw [Registrations.get?_remove, if_neg hne.symm]
  exact ha.1

theorem untrack {a b : String} (hregs : h'.registrations = (h.registrations.untrack id b).1)
    (hne : ¬ (a = id ∧ key = b)) (ha : h.Attends k a key) : h'.Attends k a key := by
  rw [Attends, Tracks, hregs, Registrations.connectors_untrack, Registrations.isTracked_untrack]
  exact ⟨ha.1, hne, ha.2⟩

theorem subscribing_iff {handler : Handler} {x : SyncListener}
    (hkeys : (h.registrations.watchKeys.get? handler.discoveryId).isSome = true) :
    (h.subscribing handler x).Attends k id key ↔ h.registrations.connectors.get? id = some k ∧
      (id = handler.discoveryId ∧ key = h.watchKey handler ∨ h.Tracks id key) := by
  show (h.registrations.track _ _).1.connectors.get? id = some k ∧
    (h.registrations.track _ _).1.isTracked id key = true ↔ _
  rw [Registrations.connectors_track, Registrations.isTracked_track hkeys]
  rfl

end Attends

/-- Only the registrations and the watchers count. -/
theorem Tends.congr {h'' : Hub} (ht : Tends k h h') (hw : h''.watchers k = h'.watchers k)
    (hregs : h''.registrations = h'.registrations) : Tends k h h'' := by
  intro key hkey
  rw [watches_iff, hw, ← watches_iff] at hkey
  rcases ht key hkey with ⟨id, hnow⟩ | ⟨hbefore, hstay⟩
  · exact .inl ⟨id, hnow.congr hregs⟩
  · exact .inr ⟨hbefore, fun id ha => (hstay id ha).congr hregs⟩

/-- **An id that leaves** its connector: what it tracked is unwatched, unless one of those that stay tracks it. -/
theorem Tends.leave (hw : h'.wiring k = (h.wiring k).leave k id) : Tends k h h' := by
  have hregs : h'.registrations = h.registrations.remove id :=
    (congrArg Wiring.registrations hw).trans Wired.registrations_leave
  have hwatch : h'.watchers k = ((h.wiring k).leave k id).watchers := congrArg Wiring.watchers hw
  intro key hkey
  rw [watches_iff, hwatch] at hkey
  unfold Wiring.leave at hkey
  dsimp only at hkey
  split_ifs at hkey with hlast
  · exact absurd rfl hkey
  · rw [Table.get?_foldl_erase] at hkey
    split_ifs at hkey with hfree
    · exact absurd rfl hkey
    by_cases hid : h.Tracks id key
    · obtain ⟨keys, hkeys, hmem⟩ := Registrations.isTracked_iff.mp hid
      have hshared : ∃ a, h'.Attends k a key := by
        by_contra hnone
        refine hfree (Registrations.mem_without.mpr ⟨?_, fun a ha htracked => hnone ⟨a, ?_⟩⟩)
        · rw [show (h.wiring k).registrations.watchKeys.get? id = some keys from hkeys]
          exact hmem
        · rw [Attends, Tracks, hregs]
          exact ⟨ha, htracked⟩
      exact .inl hshared
    · refine .inr ⟨watches_iff.mpr hkey, fun a ha => ha.remove hregs ?_⟩
      rintro rfl
      exact hid ha.2

end Hub

namespace Act

open Hub

variable {h h₁ : Hub} {k m : ConnectorId}

/-- **The watchers of a connector** are no concern of what is done with another one. -/
theorem apart_watchers (k : ConnectorId) (ws : Table String ListenerId) :
    Apart (· ≠ k) fun h => h.watchers k = ws where
  congr _ _ hconn _ hh := (watchers_of_connectors hconn).trans hh
  connector _ _ _ hf hh := (watchers_modifyConnector hf).trans hh
  probe _ _ hh := (watchers_addProbe _).trans hh

theorem apart_view (k : ConnectorId) (ρ : Roll) (ws : Table String ListenerId) :
    Apart (· ≠ k) fun h => h.roll = ρ ∧ h.watchers k = ws :=
  (apart_watchers k ws).and (apart_roll ρ)

theorem tends_create (c : ConnectorId) (h : Hub) (r : Registration) : Tends k h (h.after c (.create r)) := by
  have hP := apart_watchers k (h.watchers k)
  have hkeep : Preserves (fun g => g.watchers k = h.watchers k) (createDiscovery r) := by
    refine preserves_discard (preserves_bind preserves_get fun h => ?_)
    split_ifs
    · exact preserves_pure _
    · exact preserves_bind (preserves_ofExcept _ _) fun props => preserves_bind (hP.createConnector _) fun m =>
        preserves_bind (hP.setUpRegistry m _) fun _ => preserves_bind (hP.lasting.count _ _) fun _ =>
        preserves_bind (preserves_modify fun _ hg => hg) fun _ =>
        preserves_bind (preserves_modify fun _ hg => hg) fun _ => preserves_pure _
  refine .of_watchers (hkeep h rfl) fun id key ha => ?_
  rcases create_usage c h r with hsame | ⟨hnew, m, hregs, -⟩
  · exact ha.congr (usage_eq_iff.mp hsame).1
  · exact ha.add hnew hregs

theorem tends_remove (hp : Plain k h) (c : ConnectorId) (r : Registration) :
    Tends k h (h.after c (.remove r)) := by
  cases hid : h.registrations.connectors.get? r.id with
  | none =>
    rw [remove_unknown hid]
    exact .refl
  | some m =>
    by_cases hm : m = k
    · subst hm
      exact .leave (remove_plain hp hid)
    have hP := apart_watchers k (h.watchers k)
    have hwatch : (h.after c (.remove r)).watchers k = h.watchers k :=
      left_remove c hid (hP.closeRegistry hm) (hP.unwatchAll hm) (fun _ => hP.lasting.count _ _)
        (preserves_modify fun _ hg => hg) rfl
    refine .of_watchers hwatch fun id key ha => ha.remove (roll_eq_iff.mp (roll_remove c hid)).1 ?_
    rintro rfl
    exact hm (Option.some.inj (hid.symm.trans ha.1))

/-- A watch that is refused leaves all watchers alone, and one that is accepted those of other connectors. -/
theorem watchers_watchInstances (hp : Plain k h) (m : ConnectorId) (key : String) (l : ListenerId) :
    ((watchInstances m key l).left h).watchers k = h.watchers k ∨
      m = k ∧ ∃ h', watchInstances m key l h = .ok () h' ∧ h'.watchers k = (h.watchers k).insert key l := by
  by_cases hm : m = k
  · subst hm
    cases hready : (h.wiring m).ready with
    | true =>
      obtain ⟨h', hok, hw, -⟩ := watchInstances_plain hp hready key l
      exact .inr ⟨rfl, h', hok, congrArg Wiring.watchers hw⟩
    | false =>
      left
      replace hready : (h.connector m).registry.ready = false := hready
      have hno : ¬ (h.connector m).registry.ready = true := by simp [hready]
      unfold left watchInstances
      rw [bind_of_ok (registryCall_plain hp _), get_bind]
      simp only [LocalRegistry.watch, if_neg hno]
      rfl
  · exact .inl ((apart_watchers k (h.watchers k)).watchInstances hm key l h rfl)

theorem registrations_watchInstances (m : ConnectorId) (key : String) (l : ListenerId) (h : Hub) :
    ((watchInstances m key l).left h).registrations = h.registrations :=
  congrArg Roll.registrations ((apart_roll h.roll).watchInstances trivial key l h rfl)

section Subscribing

variable {handler : Handler} {x : SyncListener} {l : ListenerId}
  (hkeys : (h.registrations.watchKeys.get? handler.discoveryId).isSome = true)
include hkeys

/-- To track a key takes nobody's key away. -/
theorem attends_subscribing {id key : String} (ha : h.Attends k id key) : (h.subscribing handler x).Attends k id key :=
  (Attends.subscribing_iff hkeys).mpr ⟨ha.1, .inr ha.2⟩

/-- A watch that is accepted is one for the id that has subscribed. -/
theorem tends_of_watch (hp : Plain k h) (hid : h.registrations.connectors.get? handler.discoveryId = some m) {u : Unit}
    (hok : watchInstances m (h.watchKey handler) l (h.subscribing handler x) = .ok u h₁) : Tends k h h₁ := by
  have hregs := registrations_watchInstances m (h.watchKey handler) l (h.subscribing handler x)
  rw [left_of_ok hok] at hregs
  have hstay : ∀ id key, h.Attends k id key → h₁.Attends k id key := fun id key ha =>
    (attends_subscribing hkeys ha).congr hregs
  have hwatch := watchers_watchInstances (h := h.subscribing handler x) ⟨hp.present, hp.probe⟩ m (h.watchKey handler) l
  rw [left_of_ok hok] at hwatch
  rcases hwatch with hsame | ⟨rfl, h', hok', hinsert⟩
  · exact .of_watchers hsame hstay
  · rw [hok] at hok'
    cases hok'
    have hnew : h₁.Attends m handler.discoveryId (h.watchKey handler) :=
      Attends.congr hregs ((Attends.subscribing_iff hkeys).mpr ⟨hid, .inl ⟨rfl, rfl⟩⟩)
    exact .watch hinsert hnew hstay

/-- For a watch that is refused nothing stays behind, not even the track. -/
theorem tends_of_watch_error (hp : Plain k h)
    (hkey : ¬ h.registrations.isTracked handler.discoveryId (h.watchKey handler) = true) {e : Error}
    (herr : watchInstances m (h.watchKey handler) l (h.subscribing handler x) = .error e h₁) :
    Tends k h { h₁ with
      registrations := (h₁.registrations.untrack handler.discoveryId (h.watchKey handler)).1 } := by
  have hregs := registrations_watchInstances m (h.watchKey handler) l (h.subscribing handler x)
  rw [left_of_error herr] at hregs
  have hsame : h₁.watchers k = h.watchers k := by
    rw [← left_of_error herr]
    rcases watchers_watchInstances (h := h.subscribing handler x) ⟨hp.present, hp.probe⟩ m (h.watchKey handler) l with
      hsame | ⟨-, h', hok, -⟩
    · exact hsame
    · rw [herr] at hok
      cases hok
  refine .of_watchers hsame fun id key ha => ?_
  have ha₁ : h₁.Attends k id key := (attends_subscribing hkeys ha).congr hregs
  refine ha₁.untrack rfl ?_
  rintro ⟨rfl, rfl⟩
  exact hkey ha.2

end Subscribing

section Keyed

variable (hp : Plain k h)
  (hkeyed : ∀ id, (h.registrations.watchKeys.get? id).isSome = (h.registrations.connectors.get? id).isSome)
include hp hkeyed

theorem tends_subscribe (c : ConnectorId) (handler : Handler) (s : Selector) :
    Tends k h (h.after c (.subscribe handler s)) := by
  show Tends k h ((subscribe handler s).left h)
  by_cases hno : h.registrations.connectors.get? handler.discoveryId = none ∨
      h.registrations.isTracked handler.discoveryId (h.watchKey handler) = true
  · rw [left_of_ok (subscribe_idle s hno)]
    exact .refl
  rw [not_or] at hno
  obtain ⟨hcached, hkey⟩ := hno
  obtain ⟨m, hid⟩ := Option.ne_none_iff_exists'.mp hcached
  cases hread : Mapping.read handler.mapping with
  | error e =>
    rw [left_of_error (subscribe_refused s hid hkey hread)]
    exact .refl
  | ok mapping =>
    have hkeys : (h.registrations.watchKeys.get? handler.discoveryId).isSome = true := by
      rw [hkeyed, hid]
      rfl
    cases hout : watchInstances m (h.watchKey handler) h.listeners.length (h.subscribing handler
        ⟨mapping, [.ofHandler s handler], handler.discoveryId, h.settings.defaultProtocol⟩) with
    | ok u h₁ =>
      rw [left_of_ok (subscribe_of_watch hid hkey hread hout)]
      obtain ⟨hroll, hwatch⟩ := (apart_view k h₁.roll (h₁.watchers k)).publish
        (.single .routeSelector .update (.ofSelector s))
        { h₁ with active := h₁.active.insert handler.discoveryId h.listeners.length } ⟨rfl, rfl⟩
      exact (tends_of_watch hkeys hp hid hout).congr hwatch (roll_eq_iff.mp hroll).1
    | error e h₁ =>
      rw [left_of_error (subscribe_of_watch_error hid hkey hread hout)]
      exact tends_of_watch_error hkeys hp hkey hout

theorem tends_unsubscribe (c : ConnectorId) (handler : Handler) (s : Selector) :
    Tends k h (h.after c (.unsubscribe handler s)) := by
  by_cases hkey : h.registrations.isTracked handler.discoveryId (h.watchKey handler) = true
  · obtain ⟨m, hid⟩ : ∃ m, h.registrations.connectors.get? handler.discoveryId = some m := by
      obtain ⟨keys, hkeys, -⟩ := Registrations.isTracked_iff.mp hkey
      rw [← Option.isSome_iff_exists, ← hkeyed, hkeys]
      rfl
    by_cases hm : m = k
    · subst hm
      have hw : (h.after c (.unsubscribe handler s)).wiring m =
          (h.wiring m).unwatch handler.discoveryId (h.watchKey handler) := unsubscribe_plain hp s hid hkey
      exact .unwatch (congrArg Wiring.watchers hw) fun id a hne ha =>
        ha.untrack (congrArg Wiring.registrations hw) fun hboth => hne hboth.2
    · have hP := apart_view k ⟨(h.registrations.untrack handler.discoveryId (h.watchKey handler)).1,
        h.metrics.active⟩ (h.watchers k)
      obtain ⟨hroll, hwatch⟩ := left_unsubscribe c handler s hkey hid (hP.unwatchInstances hm _)
        (fun e => hP.publish e) ⟨rfl, rfl⟩
      refine .of_watchers hwatch fun id key ha => ha.untrack (roll_eq_iff.mp hroll).1 ?_
      rintro ⟨rfl, -⟩
      exact hm (Option.some.inj (hid.symm.trans ha.1))
  · rw [unsubscribe_idle s hkey]
    exact .refl

/-- **Whatever a plain connector watches** after a command is attended, if it was so before. -/
theorem tends_after (c : ConnectorId) (cmd : Command) : Tends k h (h.after c cmd) := by
  have spares : cmd.SparesRoll → Tends k h (h.after c cmd) := fun hcmd => by
    obtain ⟨hroll, hwatch⟩ := (apart_view k h.roll (h.watchers k)).spares hcmd h ⟨rfl, rfl⟩
    exact .of_watchers hwatch fun id key ha => ha.congr (roll_eq_iff.mp hroll).1
  cases cmd with
  | create r => exact tends_create c h r
  | remove r => exact tends_remove hp c r
  | subscribe handler s => exact tends_subscribe hp hkeyed c handler s
  | unsubscribe handler s => exact tends_unsubscribe hp hkeyed c handler s
  | _ => exact spares trivial

end Keyed

/-- A plain connector stays one whatever is done. -/
theorem plain_after (hp : Plain k h) (c : ConnectorId) (cmd : Command) : Plain k (h.after c cmd) := by
  have hset : ∀ r : LocalRegistry, Plain k (h.modifyConnector c fun x => { x with registry := r }) := fun r =>
    ⟨by rw [length_modifyConnector]; exact hp.present,
      (connector_congr (g := Connector.probe) rfl k).trans hp.probe⟩
  cases cmd with
  | register key i => exact (steady_plain k).lasting.registerInstance key i (hset _)
  | deregister key host tcpPort =>
    exact (steady_plain k).lasting.deregisterInstance key host tcpPort (fun _ => hp) fun _ r _ => hset r
  | _ =>
    refine (steady_plain k).act ?_ h hp
    exact not_false

end Act

namespace Hub

variable {h h₀ : Hub} {c k : ConnectorId} {allowed : Hub → Command → Prop}

theorem Runs.plain (hr : Runs c allowed h₀ h) (hp : Act.Plain k h₀) : Act.Plain k h := by
  induction hr with
  | refl => exact hp
  | step _ _ ih => exact Act.plain_after ih c _

/-- **No watch is left behind.**  A hub begins with nothing registered and a plain connector that watches nothing,
beside which there may be others, and those may fail.  After any run, each key that the connector watches is tracked
for an id that it serves, and if it serves none it watches nothing. -/
theorem watched_keys_attended (hp : Act.Plain k h₀) (h0 : h₀.registrations = {}) (hw : ∀ key, ¬ h₀.Watches k key)
    (hr : Runs c allowed h₀ h) :
    (∀ key, h.Watches k key → ∃ id, h.registrations.connectors.get? id = some k ∧ h.Tracks id key) ∧
      ((∀ id, h.registrations.connectors.get? id ≠ some k) → ∀ key, ¬ h.Watches k key) := by
  have hattended : ∀ key, h.Watches k key → ∃ id, h.Attends k id key := by
    induction hr with
    | refl => exact fun key hkey => absurd hkey (hw key)
    | step hr _ ih =>
      intro key hkey
      rcases Act.tends_after (hr.plain hp) (hr.enrolled h0).keyed c _ key hkey with hnow | ⟨hbefore, hstay⟩
      · exact hnow
      · exact (ih key hbefore).imp hstay
  refine ⟨hattended, fun hnone key hkey => ?_⟩
  obtain ⟨id, hid, -⟩ := hattended key hkey
  exact hnone id hid

/-- The three types, of which the one whose connector is shared fails to unwatch a key once. -/
def clingingTypes : Hub :=
  { threeTypes with faults := [⟨"c0.unwatch", .registry (.unreachable "a" "b"), 0, 1⟩] }

/-- Two ids that have subscribed one key with the registry inside the process, of which one has left, and a third id
that has given the key up with the connector that fails to unwatch it. -/
def contestedKey : Hub :=
  clingingTypes.afterAll 0 [
    .create { id := "d1", registryType := "local" },
    .create { id := "d2", registryType := "local" },
    .create { id := "d3", registryType := "probed" },
    .subscribe { id := "h1", discoveryId := "d1", listenerNode := "/k" } ⟨"s1", "one", "p", "ns"⟩,
    .subscribe { id := "h2", discoveryId := "d2", listenerNode := "/k" } ⟨"s2", "two", "p", "ns"⟩,
    .subscribe { id := "h3", discoveryId := "d3", listenerNode := "/k" } ⟨"s3", "three", "p", "ns"⟩,
    .unsubscribe { id := "h3", discoveryId := "d3", listenerNode := "/k" } ⟨"s3", "three", "p", "ns"⟩,
    .remove { id := "d1", registryType := "local" }]

/-- The plain connector lets go of the key with the second id; the other one watches it for nobody. -/
theorem contestedKey_attended :
    contestedKey.Watches 0 "/k" ∧
      (∃ id, contestedKey.registrations.connectors.get? id = some 0 ∧ contestedKey.Tracks id "/k") ∧
      (∀ key, ¬ (contestedKey.after 0 (.remove { id := "d2", registryType := "local" })).Watches 0 key) ∧
      contestedKey.Watches 1 "/k" ∧ ¬ contestedKey.Tracks "d3" "/k" := by
  have hplain : Act.Plain 0 clingingTypes := ⟨by decide, rfl⟩
  have hnothing : ∀ key, ¬ clingingTypes.Watches 0 key := fun _ hkey => watches_iff.mp hkey rfl
  have hr : Runs 0 (fun _ _ => True) clingingTypes contestedKey := runs_afterAll _ fun _ _ _ => trivial
  have hwatched : contestedKey.Watches 0 "/k" := by decide +kernel
  have hlast : (contestedKey.after 0
      (.remove { id := "d2", registryType := "local" })).registrations.connectors.entries = [("d3", 1)] := by
    decide +kernel
  refine ⟨hwatched, (watched_keys_attended hplain rfl hnothing hr).1 "/k" hwatched,
    (watched_keys_attended hplain rfl hnothing (hr.step trivial)).2 fun id hid => ?_,
    by decide +kernel, by decide +kernel⟩
  rw [Table.get?_eq_some_iff, hlast] at hid
  simp at hid

end Hub

end RouteSync
