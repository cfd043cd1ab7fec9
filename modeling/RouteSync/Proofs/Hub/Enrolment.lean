import RouteSync.Proofs.Hub.Lifetimes

/-!
# Who is registered, and how many

The connectors of the registered ids, their watch keys and the gauge that counts them are kept apart, and are
written one after another on several paths.  They agree all the same (`registrations_counted`): an id has a
connector exactly if it has watch keys, and the gauge has moved by the number of these ids.  A command makes an
id join, makes it leave, or changes the keys of the ids that are there (`enrols_after`); whatever fails on the
way comes before the first of the three is written.
-/

namespace RouteSync

/-- A command that neither creates or removes a registration nor subscribes or gives up a key. -/
def Command.SparesRoll : Command → Prop
  | .create _ | .remove _ | .subscribe _ _ | .unsubscribe _ _ => False
  | _ => True

namespace Registrations

variable {r : Registrations} {id a : String} {k : ConnectorId}

theorem size_add (hid : r.connectors.get? id = none) : (r.add id k).size = r.size + 1 := by
  have hkey : id ∉ r.connectors.keys := by
    rw [← Table.contains_iff, Table.contains, hid]
    simp
  exact (Table.size_insert r.connectors id k).trans (if_neg hkey)

theorem size_remove (hid : r.connectors.get? id = some k) : r.size = (r.remove id).size + 1 :=
  Table.size_erase hid

end Registrations

namespace Hub

/-- The registrations and the gauge that counts them. -/
structure Roll where
  registrations : Registrations
  gauge : Int

def roll (h : Hub) : Roll := ⟨h.registrations, h.metrics.active⟩

/-- The properties of a registration can be read, and there is a provider for its type. -/
structure Acceptable (h : Hub) (r : Registration) : Prop where
  props : ∃ props, FlatObject.read "discovery props" r.props = .ok props
  tag : normalizedType r.registryType ≠ ""
  provider : ∃ p, h.providers.get? (normalizedType r.registryType) = some p

/-- The same ids are registered and have watch keys, though perhaps other ones, and the gauge has not moved. -/
structure Rekeyed (g h : Hub) : Prop where
  connectors : h.registrations.connectors = g.registrations.connectors
  watched : ∀ id, (h.registrations.watchKeys.get? id).isSome = (g.registrations.watchKeys.get? id).isSome
  gauge : h.metrics.active = g.metrics.active

/-- All that a command can do to the registrations and their gauge. -/
inductive Enrols (h h' : Hub) : Prop
  | join {id : String} {k : ConnectorId} (hid : h.registrations.connectors.get? id = none)
      (hroll : h'.roll = ⟨h.registrations.add id k, h.metrics.active + 1⟩)
  | leave {id : String} {k : ConnectorId} (hid : h.registrations.connectors.get? id = some k)
      (hroll : h'.roll = ⟨h.registrations.remove id, h.metrics.active + -1⟩)
  | stay (hr : Rekeyed h h')

/-- Every id with a connector has watch keys and no other has, and the gauge has counted them since `h₀`. -/
structure Enrolled (h₀ h : Hub) : Prop where
  keyed : ∀ id, (h.registrations.watchKeys.get? id).isSome = (h.registrations.connectors.get? id).isSome
  counted : h.metrics.active = h₀.metrics.active + h.registrations.size

variable {g h h' h₀ : Hub} {c : ConnectorId}

theorem roll_eq_iff {rs : Registrations} {n : Int} :
    h.roll = ⟨rs, n⟩ ↔ h.registrations = rs ∧ h.metrics.active = n := by
  simp only [roll, Roll.mk.injEq]

theorem roll_publish (h : Hub) (e : ChangeEvent) : (h.publish e).roll = h.roll := by
  unfold publish
  cases h.publisher with
  | recording => rfl
  | queued q =>
    dsimp only
    unfold EventQueue.offer
    split_ifs <;> rfl

namespace Rekeyed

theorem refl : Rekeyed h h := ⟨rfl, fun _ => rfl, rfl⟩

theorem congr (hr : Rekeyed g h) (he : h'.roll = h.roll) : Rekeyed g h' := by
  obtain ⟨hregs, hgauge⟩ := roll_eq_iff.mp he
  exact ⟨by rw [hregs, hr.connectors], fun id => by rw [hregs, hr.watched], hgauge.trans hr.gauge⟩

theorem track (hr : Rekeyed g h) (id key : String) :
    Rekeyed g { h with registrations := (h.registrations.track id key).1 } where
  connectors := Registrations.connectors_track.trans hr.connectors
  watched a := Registrations.isSome_watchKeys_track.trans (hr.watched a)
  gauge := hr.gauge

theorem untrack (hr : Rekeyed g h) (id key : String) :
    Rekeyed g { h with registrations := (h.registrations.untrack id key).1 } where
  connectors := Registrations.connectors_untrack.trans hr.connectors
  watched a := Registrations.isSome_watchKeys_untrack.trans (hr.watched a)
  gauge := hr.gauge

end Rekeyed

/-- **Joining and leaving move the gauge by one**, and what else happens leaves it alone. -/
theorem Enrolled.enrols (he : Enrolled h₀ h) (hs : Enrols h h') : Enrolled h₀ h' := by
  cases hs with
  | @join id k hid hroll =>
    obtain ⟨hregs, hgauge⟩ := roll_eq_iff.mp hroll
    refine ⟨fun a => ?_, ?_⟩
    · rw [hregs]
      exact Registrations.keyed_add (he.keyed a)
    · rw [hregs, hgauge, he.counted, Registrations.size_add hid]
      omega
  | @leave id k hid hroll =>
    obtain ⟨hregs, hgauge⟩ := roll_eq_iff.mp hroll
    have hsize := Registrations.size_remove hid
    refine ⟨fun a => ?_, ?_⟩
    · rw [hregs]
      exact Registrations.keyed_remove (he.keyed a)
    · rw [hregs, hgauge, he.counted]
      omega
  | stay hr =>
    refine ⟨fun a => ?_, ?_⟩
    · rw [hr.watched, hr.connectors]
      exact he.keyed a
    · rw [hr.gauge, he.counted]
      unfold Registrations.size
      rw [hr.connectors]

end Hub

namespace Act

open Hub

variable {P : Hub → Prop} {g h h' : Hub} {c k : ConnectorId} {r : Registration}

/-! ### Actions that are about other connectors -/

/-- What is done with connectors of the kind `p` does not end what holds of the hub, nor what leaves the watchers
of a connector alone; it depends on the connectors, the registrations and their gauge. -/
structure Apart (p : ConnectorId → Prop) (P : Hub → Prop) : Prop where
  congr : ∀ h h' : Hub, h'.connectors = h.connectors → h'.roll = h.roll → P h → P h'
  connector : ∀ (h : Hub) (m : ConnectorId) (f : Connector → Connector),
    p m ∨ (f (h.connector m)).registry.watchers = (h.connector m).registry.watchers →
    P h → P (h.modifyConnector m f)
  probe : ∀ (h : Hub) (onWatch : Option (String × ChangeKind)), P h → P (h.addProbe onWatch).1

theorem apart_of_roll (hP : ∀ h h' : Hub, h'.roll = h.roll → P h → P h') : Apart (fun _ => True) P :=
  ⟨fun h h' _ he => hP h h' he, fun h _ _ _ => hP h _ rfl, fun h _ => hP h _ rfl⟩

theorem apart_roll (ρ : Roll) : Apart (fun _ => True) fun g => g.roll = ρ :=
  apart_of_roll fun _ _ he hg => he.trans hg

theorem apart_rekeyed (g : Hub) : Apart (fun _ => True) (Rekeyed g) := apart_of_roll fun _ _ he hr => hr.congr he

namespace Apart

variable {p : ConnectorId → Prop} {m : ConnectorId} (hP : Apart p P)
include hP

theorem and {Q : Hub → Prop} (hQ : Apart (fun _ => True) Q) : Apart p fun h => Q h ∧ P h where
  congr h h' hconn hroll hh := ⟨hQ.congr h h' hconn hroll hh.1, hP.congr h h' hconn hroll hh.2⟩
  connector h m f hm hh := ⟨hQ.connector h m f (.inl trivial) hh.1, hP.connector h m f hm hh.2⟩
  probe h onWatch hh := ⟨hQ.probe h onWatch hh.1, hP.probe h onWatch hh.2⟩

theorem publish (e : ChangeEvent) : Preserves P (publish e) := by
  refine preserves_modify fun h => hP.congr h _ ?_ (roll_publish h e)
  obtain ⟨p, j, m, he⟩ := h.publish_eq e
  rw [he]

theorem lasting : Lasting P :=
  lasting_of_call (fun _ _ h => hP.congr h _ (by rw [left_call]) (by rw [left_call]; rfl))
    (fun h e _ => hP.publish e h) (fun h _ _ => hP.congr h _ rfl rfl) fun h _ _ => hP.congr h _ rfl rfl

theorem modify {f : Hub → Hub} (hconn : ∀ h, (f h).connectors = h.connectors) (hroll : ∀ h, (f h).roll = h.roll) :
    Preserves P (modify f : Act Unit) :=
  preserves_modify fun h => hP.congr h _ (hconn h) (hroll h)

theorem createConnector (tag : String) : Preserves P (createConnector tag) := by
  unfold Act.createConnector
  dsimp only
  split_ifs
  · exact preserves_throw _
  · refine preserves_bind preserves_get fun h => ?_
    split
    · exact preserves_throw _
    · exact preserves_pure _
    · exact preserves_step fun h => hP.probe h _

theorem setUpRegistry (m : ConnectorId) (connection : Connection) : Preserves P (setUpRegistry m connection) :=
  preserves_bind (hP.lasting.registryCall m _) fun _ => preserves_modify fun h => hP.connector h m _ (.inr rfl)

theorem watchInstances (hm : p m) (key : String) (l : ListenerId) : Preserves P (watchInstances m key l) := by
  refine preserves_bind (hP.lasting.registryCall m _) fun _ => preserves_bind preserves_get fun h => ?_
  refine preserves_bind (preserves_ofExcept _ _) fun r =>
    preserves_bind (preserves_modify fun h => hP.connector h m _ (.inl hm)) fun _ =>
    preserves_bind (preserves_modify fun h => hP.connector h m _ (.inl hm)) fun _ => ?_
  split
  · exact hP.lasting.notify _ _
  · exact preserves_pure _

theorem unwatchInstances (hm : p m) (key : String) : Preserves P (unwatchInstances m key) :=
  preserves_bind (hP.lasting.registryCall m _) fun _ =>
    preserves_bind (preserves_modify fun h => hP.connector h m _ (.inl hm)) fun _ =>
    preserves_modify fun h => hP.connector h m _ (.inl hm)

theorem unwatchAll (hm : p m) (keys : List String) : Preserves P (unwatchAll m keys) := by
  induction keys with
  | nil => exact preserves_pure _
  | cons key keys ih =>
    refine preserves_bind (preserves_attempt (hP.unwatchInstances hm key)) fun o =>
      preserves_bind ih fun rest => ?_
    cases o
    · exact preserves_pure _
    · exact preserves_pure _

theorem closeRegistry (hm : p m) : Preserves P (closeRegistry m) :=
  preserves_bind (hP.lasting.registryCall m _) fun _ =>
    preserves_bind (preserves_modify fun h => hP.connector h m _ (.inl hm)) fun _ =>
    preserves_modify fun h => hP.connector h m _ (.inl hm)

theorem buildListener (handler : Handler) (s : Selector) : Preserves P (buildListener handler s) :=
  preserves_bind (preserves_ofExcept _ _) fun _ => preserves_step fun h => hP.congr h _ rfl rfl

theorem bindHandler (handler : Handler) (s : Selector) : Preserves P (bindHandler handler s) := by
  refine preserves_bind preserves_get fun h => ?_
  split
  · refine preserves_bind preserves_get fun h => ?_
    split
    · exact hP.modify (fun _ => rfl) fun _ => rfl
    · exact hP.modify (fun _ => rfl) fun _ => rfl
    · exact preserves_pure _
  · exact preserves_pure _

/-- The registrations and the watchers are no concern of the other commands. -/
theorem spares {c : ConnectorId} {cmd : Command} (hcmd : cmd.SparesRoll) : Preserves P (cmd.act c) := by
  intro h hh
  cases cmd with
  | fetch handler s => exact hP.lasting.fetchAll handler s h hh
  | build handler s => exact preserves_discard (hP.buildListener handler s) h hh
  | adopt id l => exact hP.congr h _ rfl rfl hh
  | bind handler s => exact hP.bindHandler handler s h hh
  | withdraw s => exact hP.publish _ h hh
  | announce s l => exact hP.publish _ h hh
  | publish e => exact hP.publish e h hh
  | register key i => exact hP.lasting.registerInstance key i (hP.connector h c _ (.inr rfl) hh)
  | deregister key host tcpPort =>
    refine hP.lasting.deregisterInstance key host tcpPort (fun _ => hh) fun i r hd =>
      hP.connector h c _ (.inr ?_) hh
    simp only [LocalRegistry.deregister, Option.map_eq_some_iff, Prod.mk.injEq] at hd
    obtain ⟨j, -, -, rfl⟩ := hd
    rfl
  | wait now => exact hP.congr h _ rfl rfl hh
  | _ => cases hcmd

end Apart

/-! ### Joining -/

theorem createDiscovery_cached (hid : h.registrations.contains r.id = true) :
    createDiscovery r h = .ok () h := by
  refine discard_of_ok (x := false) ?_
  unfold register
  rw [get_bind, if_pos hid]
  rfl

theorem createConnector_unknown (tag : String)
    (hno : ¬ (normalizedType tag ≠ "" ∧ ∃ p, h.providers.get? (normalizedType tag) = some p)) :
    ∃ e, createConnector tag h = .error e h := by
  unfold createConnector
  dsimp only
  by_cases ht : normalizedType tag = ""
  · rw [if_pos ht]
    exact ⟨_, rfl⟩
  · rw [if_neg ht, get_bind]
    cases hp : h.providers.get? (normalizedType tag) with
    | none => exact ⟨_, rfl⟩
    | some p => exact absurd ⟨ht, p, hp⟩ hno

/-- Nothing is called for a registration that cannot be accepted. -/
theorem createDiscovery_refused (hid : h.registrations.contains r.id = false) (hno : ¬ h.Acceptable r) :
    ∃ e, createDiscovery r h = .error e h := by
  have hnew : ¬ h.registrations.contains r.id = true := by simp [hid]
  suffices hreg : ∃ e, register r h = .error e h from hreg.imp fun e he => discard_of_error he
  unfold register
  rw [get_bind, if_neg hnew]
  cases hprops : FlatObject.read "discovery props" r.props with
  | error err => exact ⟨.invalid err, rfl⟩
  | ok props =>
    have hread : (ofExcept .invalid (.ok props) : Act (Table String String)) h = .ok props h := rfl
    obtain ⟨e, he⟩ := createConnector_unknown (h := h) r.registryType
      fun hboth => hno ⟨⟨props, hprops⟩, hboth.1, hboth.2⟩
    rw [bind_of_ok hread, bind_of_error he]
    exact ⟨e, rfl⟩

/-- **A creation** writes the registration and moves the gauge when all else has succeeded. -/
theorem roll_create (hid : h.registrations.contains r.id = false) :
    (∃ e h', createDiscovery r h = .error e h' ∧ h'.roll = h.roll) ∨
      ∃ k h', createDiscovery r h = .ok () h' ∧
        h'.roll = ⟨h.registrations.add r.id k, h.metrics.active + 1⟩ := by
  have hroll := apart_roll h.roll
  have hnew : ¬ h.registrations.contains r.id = true := by simp [hid]
  suffices hreg : (∃ e h', register r h = .error e h' ∧ h'.roll = h.roll) ∨
      ∃ k h', register r h = .ok true h' ∧ h'.roll = ⟨h.registrations.add r.id k, h.metrics.active + 1⟩ by
    rcases hreg with ⟨e, h', he, hsame⟩ | ⟨k, h', hok, hjoined⟩
    · exact .inl ⟨e, h', discard_of_error he, hsame⟩
    · exact .inr ⟨k, h', discard_of_ok hok, hjoined⟩
  unfold register
  rw [get_bind, if_neg hnew]
  cases hprops : FlatObject.read "discovery props" r.props with
  | error err => exact .inl ⟨.invalid err, h, rfl, rfl⟩
  | ok props =>
    have hread : (ofExcept .invalid (.ok props) : Act (Table String String)) h = .ok props h := rfl
    rw [bind_of_ok hread]
    have hmade := hroll.createConnector r.registryType h rfl
    cases hcreate : createConnector r.registryType h with
    | error e h₁ =>
      rw [left_of_error hcreate] at hmade
      exact .inl ⟨e, h₁, bind_of_error hcreate _, hmade⟩
    | ok k h₁ =>
      rw [left_of_ok hcreate] at hmade
      rw [bind_of_ok hcreate]
      have hset := hroll.setUpRegistry k ⟨r.registryType, r.servers, props⟩ h₁ hmade
      cases hsetup : setUpRegistry k ⟨r.registryType, r.servers, props⟩ h₁ with
      | error e h₂ =>
        rw [left_of_error hsetup] at hset
        exact .inl ⟨e, h₂, bind_of_error hsetup _, hset⟩
      | ok u h₂ =>
        rw [left_of_ok hsetup] at hset
        obtain ⟨hregs, hgauge⟩ := roll_eq_iff.mp hset
        refine .inr ⟨k, _, bind_of_ok hsetup _, roll_eq_iff.mpr ⟨?_, ?_⟩⟩
        · show h₂.registrations.add r.id k = _
          rw [hregs]
        · show h₂.metrics.active + 1 = _
          rw [hgauge]

/-! ### Leaving -/

/-- A removal writes the registration off before it closes the connector or unwatches keys, so what holds then and
is not ended by these holds afterwards, also if the connector fails. -/
theorem left_remove (c : ConnectorId) (hid : h.registrations.connectors.get? r.id = some k)
    (hclose : Preserves P (closeRegistry k)) (hunwatch : ∀ keys, Preserves P (unwatchAll k keys))
    (hcount : ∀ n, Preserves P (count (.lifecycle r.registryType "close") n))
    (hdrop : Preserves P (dropActive r.id))
    (hleft : P { h with
      registrations := h.registrations.remove r.id
      metrics := h.metrics.moveActive (-1) }) : P (h.after c (.remove r)) := by
  have hstart : ∀ b : Act Bool, Preserves P b → deregister r h = b { h with
      registrations := h.registrations.remove r.id
      metrics := h.metrics.moveActive (-1) } → P ((deregister r).left h) := by
    intro b hb heq
    have hafter := hb _ hleft
    unfold left at hafter ⊢
    rwa [heq]
  have hderegister : P ((deregister r).left h) := by
    by_cases hlast : ((h.registrations.remove r.id).sharers k).isEmpty = true
    · refine hstart (closeRegistry k >>= fun _ => count (.lifecycle r.registryType "close") 1 >>= fun _ =>
        pure true) ?_ ?_
      · exact preserves_bind hclose fun _ => preserves_bind (hcount 1) fun _ => preserves_pure _
      · unfold deregister
        rw [get_bind]
        simp only [hid, hlast, if_true]
        rfl
    · refine hstart (unwatchAll k (((h.registrations.watchKeys.get? r.id).getD .empty).without
        ((h.registrations.remove r.id).keysOf ((h.registrations.remove r.id).sharers k))) >>= orThrow) ?_ ?_
      · refine preserves_bind (hunwatch _) fun o => ?_
        cases o
        · exact preserves_pure _
        · exact preserves_throw _
      · unfold deregister
        rw [get_bind]
        simp only [hid, if_neg hlast]
        rfl
  show P ((removeDiscovery r).left h)
  unfold removeDiscovery
  refine left_bind_of (by rwa [left_attempt]) fun o h₂ ho => ?_
  have hnow : P h₂ := by
    rw [← left_of_ok ho, left_attempt]
    exact hderegister
  split
  · exact hnow
  · exact hdrop h₂ hnow
  · exact preserves_bind hdrop (fun _ => preserves_throw _) h₂ hnow

theorem roll_remove (c : ConnectorId) (hid : h.registrations.connectors.get? r.id = some k) :
    (h.after c (.remove r)).roll = ⟨h.registrations.remove r.id, h.metrics.active + -1⟩ := by
  have hroll := apart_roll ⟨h.registrations.remove r.id, h.metrics.active + -1⟩
  exact left_remove c hid (hroll.closeRegistry trivial) (hroll.unwatchAll trivial)
    (fun _ => hroll.lasting.count _ _) (hroll.modify (fun _ => rfl) fun _ => rfl) rfl

/-! ### Watching -/

theorem rekeyed_subscribe (handler : Handler) (s : Selector) :
    Preserves (Rekeyed g) (subscribe handler s) := by
  have hP := apart_rekeyed g
  refine preserves_bind preserves_get fun h => ?_
  dsimp only
  split
  · exact preserves_pure _
  · split_ifs
    · exact preserves_pure _
    · refine preserves_bind (hP.buildListener handler s) fun l =>
        preserves_bind (preserves_discard (preserves_step fun h hh => hh.track _ _)) fun _ =>
        preserves_bind (preserves_attempt (hP.watchInstances trivial _ _)) fun o => ?_
      split
      · exact preserves_bind (preserves_discard (preserves_step fun h hh => hh.untrack _ _)) fun _ =>
          preserves_throw _
      · exact preserves_bind (hP.modify (fun _ => rfl) fun _ => rfl) fun _ => hP.publish _

/-- A key is untracked before it is unwatched, so what holds then and is not ended by the rest holds afterwards. -/
theorem left_unsubscribe (c : ConnectorId) (handler : Handler) (s : Selector)
    (hkey : h.registrations.isTracked handler.discoveryId (h.watchKey handler) = true)
    (hid : h.registrations.connectors.get? handler.discoveryId = some k)
    (hunwatch : Preserves P (unwatchInstances k (h.watchKey handler))) (hpublish : ∀ e, Preserves P (publish e))
    (hleft : P { h with
      registrations := (h.registrations.untrack handler.discoveryId (h.watchKey handler)).1 }) :
    P (h.after c (.unsubscribe handler s)) := by
  have hrest : Preserves P (unwatchInstances k (h.watchKey handler) >>= fun _ =>
      publish (.single .routeSelector .delete (.ofSelector s))) := preserves_bind hunwatch fun _ => hpublish _
  have hafter := hrest (h.untracking handler) hleft
  show P ((unsubscribe handler s).left h)
  unfold left at hafter ⊢
  rw [unsubscribe_of_isTracked s hkey, hid]
  exact hafter

theorem rekeyed_unsubscribe (handler : Handler) (s : Selector) :
    Preserves (Rekeyed g) (unsubscribe handler s) := by
  have hP := apart_rekeyed g
  refine preserves_bind preserves_get fun h =>
    preserves_bind (preserves_step fun h hh => hh.untrack _ _) fun b => ?_
  split_ifs
  · refine preserves_bind preserves_get fun h' => ?_
    dsimp only
    split
    · exact preserves_bind (hP.unwatchInstances trivial _) fun _ => hP.publish _
    · exact hP.publish _
  · exact preserves_pure _

end Act

namespace Hub

variable {h h₀ : Hub} {c : ConnectorId} {allowed : Hub → Command → Prop}

/-! ### One step and a run -/

theorem not_contains_iff {id : String} :
    h.registrations.contains id = false ↔ h.registrations.connectors.get? id = none := by
  rw [Registrations.contains, Table.contains, Option.isSome_eq_false_iff, Option.isNone_iff_eq_none]

/-- The other commands are about neither. -/
theorem roll_after {cmd : Command} (hcmd : cmd.SparesRoll) : (h.after c cmd).roll = h.roll :=
  (Act.apart_roll h.roll).spares hcmd h rfl

/-- **Every command** makes an id join, makes one leave, or lets the ids stay. -/
theorem enrols_after (c : ConnectorId) (h : Hub) (cmd : Command) : Enrols h (h.after c cmd) := by
  have spares : cmd.SparesRoll → Enrols h (h.after c cmd) := fun hcmd =>
    .stay (Rekeyed.refl.congr (roll_after hcmd))
  cases cmd with
  | create r =>
    cases hid : h.registrations.contains r.id with
    | true =>
      have hsame : h.after c (.create r) = h := Act.left_of_ok (Act.createDiscovery_cached hid)
      rw [hsame]
      exact .stay .refl
    | false =>
      rcases Act.roll_create hid with ⟨e, h', herr, hroll⟩ | ⟨k, h', hok, hroll⟩
      · rw [show h.after c (.create r) = h' from Act.left_of_error herr]
        exact .stay (Rekeyed.refl.congr hroll)
      · rw [show h.after c (.create r) = h' from Act.left_of_ok hok]
        exact .join (not_contains_iff.mp hid) hroll
  | remove r =>
    cases hid : h.registrations.connectors.get? r.id with
    | none =>
      rw [show h.after c (.remove r) = h from Act.remove_unknown hid]
      exact .stay .refl
    | some k => exact .leave hid (Act.roll_remove c hid)
  | subscribe handler s => exact .stay (Act.rekeyed_subscribe handler s h .refl)
  | unsubscribe handler s => exact .stay (Act.rekeyed_unsubscribe handler s h .refl)
  | _ => exact spares trivial

theorem Runs.enrolled (hr : Runs c allowed h₀ h) (h0 : h₀.registrations = {}) : Enrolled h₀ h := by
  induction hr with
  | refl =>
    refine ⟨fun id => by rw [h0]; rfl, ?_⟩
    rw [h0]
    exact (Int.add_zero _).symm
  | step hr _ ih => exact ih.enrols (enrols_after c _ _)

/-- **The registrations are counted**, whatever types there are, whichever connectors fail and whatever is
registered or subscribed.  To create a registration whose id is there does nothing at all.  One that cannot be
accepted is refused before anything is called, and one that fails in another way leaves every registration, all
watch keys and the gauge as they were. -/
theorem registrations_counted (h0 : h₀.registrations = {}) (hr : Runs c allowed h₀ h) :
    (∀ id, h.registrations.connectors.contains id = h.registrations.watchKeys.contains id) ∧
      h.metrics.active = h₀.metrics.active + h.registrations.size ∧
      ∀ r : Registration,
        (h.registrations.contains r.id = true → Act.createDiscovery r h = .ok () h) ∧
        (h.registrations.contains r.id = false → ¬ h.Acceptable r →
          ∃ e, Act.createDiscovery r h = .error e h) ∧
        ∀ e h', Act.createDiscovery r h = .error e h' →
          h'.registrations = h.registrations ∧ h'.metrics.active = h.metrics.active := by
  have he := hr.enrolled h0
  refine ⟨fun id => (he.keyed id).symm, he.counted, fun r => ⟨Act.createDiscovery_cached,
    Act.createDiscovery_refused, fun e h' hfail => ?_⟩⟩
  cases hid : h.registrations.contains r.id with
  | true =>
    rw [Act.createDiscovery_cached hid] at hfail
    cases hfail
  | false =>
    rcases Act.roll_create hid with ⟨e', h₁, herr, hroll⟩ | ⟨k, h₁, hok, -⟩
    · rw [hfail] at herr
      cases herr
      exact roll_eq_iff.mp hroll
    · rw [hfail] at hok
      cases hok

/-- A connector that cannot be set up at first, properties that cannot be read, an id that is created twice, and
one that is removed and created again with another type. -/
def restlessIds : Hub :=
  { threeTypes with faults := [⟨"c0.init", .registry (.unreachable "a" "b"), 0, 1⟩] }.afterAll 0 [
    .create { id := "d1", registryType := "probed" },
    .create { id := "d1", registryType := "local" },
    .create { id := "d1", registryType := "probed", props := "\x7b" },
    .subscribe { id := "h", discoveryId := "d1" } { id := "s", name := "s", pluginName := "divide" },
    .create { id := "d2", registryType := " Probed " },
    .create { id := "d3", registryType := "own", props := "\x7b" },
    .remove { id := "d2", registryType := "probed" },
    .create { id := "d2", registryType := "own" }]

theorem restlessIds_counted :
    restlessIds.registrations.connectors.contains "d1" = restlessIds.registrations.watchKeys.contains "d1" ∧
      restlessIds.registrations.size = 2 ∧ restlessIds.metrics.active = 2 ∧
      Act.createDiscovery { id := "d1", registryType := "?" } restlessIds = .ok () restlessIds ∧
      ∃ e, Act.createDiscovery { id := "d3", registryType := " " } restlessIds = .error e restlessIds := by
  have hr : Runs 0 (fun _ _ => True)
      { threeTypes with faults := [⟨"c0.init", .registry (.unreachable "a" "b"), 0, 1⟩] } restlessIds :=
    runs_afterAll _ fun _ _ _ => trivial
  obtain ⟨hkeyed, hcounted, hcreate⟩ := registrations_counted rfl hr
  have hsize : restlessIds.registrations.size = 2 := by decide +kernel
  refine ⟨hkeyed "d1", hsize, ?_, (hcreate { id := "d1", registryType := "?" }).1 (by decide +kernel), ?_⟩
  · rw [hcounted, hsize]
    rfl
  · refine (hcreate { id := "d3", registryType := " " }).2.1 (by decide +kernel) fun hacceptable => ?_
    exact hacceptable.tag (by decide +kernel)

end Hub

end RouteSync
