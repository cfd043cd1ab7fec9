import RouteSync.Proofs.Hub.Commands

/-!
# What administration leaves alone

Registrations come and go, keys are watched and listeners bound, and connectors are set up and closed on the
way.  None of this changes the instances that are registered, the labels of instrumented connectors or what
is stored, and at most new instrumented connectors are made; what is published says that a selector comes or
goes.  What depends on these alone holds after every quiet command (`Calm.act`), and after the others too if
neither telling a listener nor registering instances ends it (`Steady.act`, `Steady.always`).
-/

namespace RouteSync

/-- A command that neither concerns an instance nor subscribes a key or makes a pass. -/
def Command.IsQuiet : Command → Prop
  | .subscribe _ _ | .fetch _ _ | .register _ _ | .deregister _ _ _ => False
  | _ => True

namespace Hub

/-- What administration leaves alone, apart from details of the connectors. -/
structure Base where
  connectors : List Connector
  probes : Nat
  store : Store
  drawn : Nat
  faults : List Fault
  outlet : Outlet
  counters : Table Counter Nat

def base (h : Hub) : Base :=
  ⟨h.connectors, h.probes, h.store, h.drawn, h.faults, h.outlet, h.metrics.counters⟩

/-- The label of the instrumented connector that is made as the `n`-th. -/
def probeLabel (n : Nat) : String := "c" ++ toString n

variable {h h' : Hub} {c k : ConnectorId} {f : Connector → Connector}

/-! ### Connectors that change and connectors that come -/

theorem connector_modifyConnector_of_ne (hne : k ≠ c) :
    (h.modifyConnector k f).connector c = h.connector c := by
  simp [connector, modifyConnector, List.getD, hne]

theorem modifyConnector_of_length_le (hk : h.connectors.length ≤ k) : h.modifyConnector k f = h := by
  unfold modifyConnector
  rw [List.modify_eq_self hk]

/-- What a change of one connector leaves alone there is the same at every connector. -/
theorem connector_congr {α : Type} {g : Connector → α} (hf : g (f (h.connector k)) = g (h.connector k))
    (c : ConnectorId) : g ((h.modifyConnector k f).connector c) = g (h.connector c) := by
  by_cases hk : k < h.connectors.length
  · by_cases hc : k = c
    · subst hc
      rw [connector_modifyConnector hk, hf]
    · rw [connector_modifyConnector_of_ne hc]
  · rw [modifyConnector_of_length_le (Nat.le_of_not_lt hk)]

theorem connector_of_connectors (hconn : h'.connectors = h.connectors) : h'.connector c = h.connector c := by
  unfold connector
  rw [hconn]

theorem length_addProbe (onWatch : Option (String × ChangeKind)) :
    (h.addProbe onWatch).1.connectors.length = h.connectors.length + 1 := List.length_append

theorem connector_addConnector (x : Connector) :
    (h.addConnector x).1.connector c = if c = h.connectors.length then x else h.connector c := by
  show (h.connectors ++ [x]).getD c default = if c = h.connectors.length then x else h.connectors.getD c default
  rw [List.getD_eq_getElem?_getD, List.getD_eq_getElem?_getD]
  split_ifs with hc
  · rw [hc, List.getElem?_concat_length, Option.getD_some]
  · rcases Nat.lt_or_gt_of_ne hc with hlt | hgt
    · rw [List.getElem?_append_left hlt]
    · have hbeyond : (h.connectors ++ [x]).length ≤ c := by
        rw [List.length_append, List.length_singleton]
        exact hgt
      rw [List.getElem?_eq_none hbeyond, List.getElem?_eq_none (Nat.le_of_lt hgt)]

theorem connector_addProbe (onWatch : Option (String × ChangeKind)) :
    (h.addProbe onWatch).1.connector c = if c = h.connectors.length then
      { probe := some { label := probeLabel h.probes, onWatch := onWatch } } else h.connector c :=
  connector_addConnector _

end Hub

namespace Act

open Hub

/-- Administration does not end what holds of the hub, as long as it tells no listener and publishes nothing. -/
structure Calm (P : Hub → Prop) : Prop where
  call : ∀ entry, entry.event? = none → Preserves P (call entry)
  count : ∀ registryType action, Preserves P (count (.lifecycle registryType action) 1)
  connector : ∀ (h : Hub) (c : ConnectorId) (f : Connector → Connector),
    (f (h.connector c)).registry.instances = (h.connector c).registry.instances →
    (f (h.connector c)).probe.map Probe.label = (h.connector c).probe.map Probe.label →
    P h → P (h.modifyConnector c f)
  probe : ∀ (h : Hub) (onWatch : Option (String × ChangeKind)), P h → P (h.addProbe onWatch).1
  congr : ∀ h h' : Hub, h'.base = h.base → P h → P h'

namespace Calm

variable {P : Hub → Prop} {c : ConnectorId} (hp : Calm P)
include hp

theorem modify {f : Hub → Hub} (hf : ∀ h, (f h).base = h.base) : Preserves P (modify f : Act Unit) :=
  preserves_modify fun h hh => hp.congr h (f h) (hf h) hh

theorem step {α : Type} {f : Hub → Hub × α} (hf : ∀ h, (f h).1.base = h.base) : Preserves P (step f) :=
  preserves_step fun h hh => hp.congr h (f h).1 (hf h) hh

theorem modifyRegistry (k : ConnectorId) {f : LocalRegistry → LocalRegistry}
    (hf : ∀ r, (f r).instances = r.instances) : Preserves P (modifyRegistry k f) :=
  preserves_modify fun h hh => hp.connector h k _ (hf _) rfl hh

theorem modifyProbe (k : ConnectorId) {f : Probe → Probe} (hf : ∀ p, (f p).label = p.label) :
    Preserves P (modifyProbe k f) := by
  refine preserves_modify fun h hh => hp.connector h k _ rfl ?_ hh
  cases (h.connector k).probe with
  | none => rfl
  | some p => exact congrArg some (hf p)

/-! ### Registrations -/

theorem createConnector (tag : String) : Preserves P (createConnector tag) := by
  unfold Act.createConnector
  dsimp only
  split_ifs
  · exact preserves_throw _
  · refine preserves_bind preserves_get fun h => ?_
    split
    · exact preserves_throw _
    · exact preserves_pure _
    · exact preserves_step fun h hh => hp.probe h _ hh

theorem createDiscovery (r : Registration) : Preserves P (createDiscovery r) := by
  refine preserves_discard (preserves_bind preserves_get fun h => ?_)
  split_ifs
  · exact preserves_pure _
  · refine preserves_bind (preserves_ofExcept _ _) fun props =>
      preserves_bind (hp.createConnector _) fun k => preserves_bind ?_ fun _ =>
      preserves_bind (hp.count _ _) fun _ => ?_
    · exact preserves_bind (preserves_registryCall (fun _ _ => hp.call _ rfl) k _) fun _ =>
        hp.modifyRegistry k fun _ => rfl
    · exact preserves_bind (hp.modify fun _ => rfl) fun _ =>
        preserves_bind (hp.modify fun _ => rfl) fun _ => preserves_pure _

theorem unwatchInstances (k : ConnectorId) (key : String) : Preserves P (unwatchInstances k key) :=
  preserves_bind (preserves_registryCall (fun _ _ => hp.call _ rfl) k _) fun _ =>
    preserves_bind (hp.modifyProbe k fun _ => rfl) fun _ => hp.modifyRegistry k fun _ => rfl

theorem unwatchAll (k : ConnectorId) (keys : List String) : Preserves P (unwatchAll k keys) := by
  induction keys with
  | nil => exact preserves_pure _
  | cons key keys ih =>
    refine preserves_bind (preserves_attempt (hp.unwatchInstances k key)) fun o =>
      preserves_bind ih fun rest => ?_
    cases o
    · exact preserves_pure _
    · exact preserves_pure _

theorem closeRegistry (k : ConnectorId) : Preserves P (closeRegistry k) :=
  preserves_bind (preserves_registryCall (fun _ _ => hp.call _ rfl) k _) fun _ =>
    preserves_bind (hp.modifyProbe k fun _ => rfl) fun _ => hp.modifyRegistry k fun _ => rfl

theorem deregister (r : Registration) : Preserves P (deregister r) := by
  refine preserves_bind preserves_get fun h => ?_
  dsimp only
  split
  · exact preserves_pure _
  · refine preserves_bind (hp.modify fun _ => rfl) fun _ =>
      preserves_bind (hp.modify fun _ => rfl) fun _ => ?_
    split_ifs
    · exact preserves_bind (hp.closeRegistry _) fun _ => preserves_bind (hp.count _ _) fun _ =>
        preserves_pure _
    · refine preserves_bind (hp.unwatchAll _ _) fun o => ?_
      cases o
      · exact preserves_pure _
      · exact preserves_throw _

theorem removeDiscovery (r : Registration) : Preserves P (removeDiscovery r) := by
  have hdrop : Preserves P (dropActive r.id) := hp.modify fun _ => rfl
  refine preserves_bind (preserves_attempt (hp.deregister r)) fun o => ?_
  split
  · exact preserves_pure _
  · exact hdrop
  · exact preserves_bind hdrop fun _ => preserves_throw _

/-! ### Listeners -/

theorem buildListener (handler : Handler) (s : Selector) : Preserves P (buildListener handler s) :=
  preserves_bind (preserves_ofExcept _ _) fun _ => hp.step fun _ => rfl

theorem unsubscribe (handler : Handler) (s : Selector)
    (hpublish : Preserves P (publish (.single .routeSelector .delete (.ofSelector s)))) :
    Preserves P (unsubscribe handler s) := by
  refine preserves_bind preserves_get fun h => preserves_bind (hp.step fun _ => rfl) fun b => ?_
  split_ifs
  · refine preserves_bind preserves_get fun h' => ?_
    dsimp only
    split
    · exact preserves_bind (hp.unwatchInstances _ _) fun _ => hpublish
    · exact hpublish
  · exact preserves_pure _

theorem bindHandler (handler : Handler) (s : Selector) : Preserves P (bindHandler handler s) := by
  refine preserves_bind preserves_get fun h => ?_
  split
  · refine preserves_bind preserves_get fun h' => ?_
    split
    · exact hp.modify fun _ => rfl
    · exact hp.modify fun _ => by simp [base, outlet, JournalEntry.event?]
    · exact preserves_pure _
  · exact preserves_pure _

/-! ### Commands -/

/-- **What is calm** holds after every quiet command, if publishing does not end it. -/
theorem act {cmd : Command} (hpublish : ∀ e, Preserves P (publish e)) (hcmd : cmd.IsQuiet) :
    Preserves P (cmd.act c) := by
  cases cmd with
  | create r => exact hp.createDiscovery r
  | remove r => exact hp.removeDiscovery r
  | subscribe handler s => exact hcmd.elim
  | unsubscribe handler s => exact hp.unsubscribe handler s (hpublish _)
  | fetch handler s => exact hcmd.elim
  | build handler s => exact preserves_discard (hp.buildListener handler s)
  | adopt id l => exact hp.modify fun _ => rfl
  | bind handler s => exact hp.bindHandler handler s
  | withdraw s => exact hpublish _
  | announce s l => exact hpublish _
  | publish e => exact hpublish e
  | register key i => exact hcmd.elim
  | deregister key host tcpPort => exact hcmd.elim
  | wait now => exact hp.modify fun _ => rfl

end Calm

/-! ### Instances -/

namespace Lasting

variable {P : Hub → Prop} {c : ConnectorId} (hp : Lasting P)
include hp

/-- An instance is entered, and then the watcher of its key is told. -/
theorem registerInstance {h : Hub} (key : String) (i : Instance)
    (hset : P (h.modifyConnector c fun k =>
      { k with registry := ((h.connector c).registry.register key i).1 })) :
    P (h.after c (.register key i)) :=
  hp.notifyWatcher c key ((h.connector c).registry.register key i).2 i _ hset

/-- An instance that is there is taken off, and then the watcher of its key is told. -/
theorem deregisterInstance {h : Hub} (key host : String) (tcpPort : UInt16)
    (hnone : (h.connector c).registry.deregister key host tcpPort = none → P h)
    (hset : ∀ i r, (h.connector c).registry.deregister key host tcpPort = some (i, r) →
      P (h.modifyConnector c fun k => { k with registry := r })) :
    P (h.after c (.deregister key host tcpPort)) := by
  show P ((discard (Act.deregisterInstance c key host tcpPort)).left h)
  rw [left_discard]
  unfold left Act.deregisterInstance
  rw [get_bind]
  cases hd : (h.connector c).registry.deregister key host tcpPort with
  | none => exact hnone hd
  | some p =>
    have htell : Preserves P (Act.notifyWatcher c key .deleted p.1 >>= fun _ => (pure true : Act Bool)) :=
      preserves_bind (hp.notifyWatcher c key _ _) fun _ => preserves_pure _
    exact htell _ (hset p.1 p.2 hd)

end Lasting

/-- With what an instrumented connector answers a watch. -/
def answerWatch (key : String) (l : ListenerId) : Option (String × ChangeKind) → Act Unit
  | some (value, kind) => notify l ⟨key, value, kind⟩
  | none => pure ()

/-- Neither the work of listeners and reconciliation nor administration ends what holds of the hub. -/
structure Steady (P : Hub → Prop) : Prop where
  lasting : Lasting P
  publish : ∀ e, Preserves P (publish e)
  connector : ∀ (h : Hub) (c : ConnectorId) (f : Connector → Connector),
    (f (h.connector c)).registry.instances = (h.connector c).registry.instances →
    (f (h.connector c)).probe.map Probe.label = (h.connector c).probe.map Probe.label →
    P h → P (h.modifyConnector c f)
  probe : ∀ (h : Hub) (onWatch : Option (String × ChangeKind)), P h → P (h.addProbe onWatch).1
  congr : ∀ h h' : Hub, h'.base = h.base → P h → P h'

namespace Steady

variable {P : Hub → Prop} {c : ConnectorId} (hp : Steady P)
include hp

theorem calm : Calm P where
  call := hp.lasting.call
  count _ _ := hp.lasting.count _ _
  connector := hp.connector
  probe := hp.probe
  congr := hp.congr

/-! ### Watches -/

/-- The registry that is put back is the one that was read, with one more watcher. -/
theorem watchInstances (k : ConnectorId) (key : String) (l : ListenerId) :
    Preserves P (watchInstances k key l) := by
  refine preserves_bind (hp.lasting.registryCall k _) fun _ h hh => ?_
  cases hr : (h.connector k).registry.watch key l with
  | error e =>
    unfold left
    rw [get_bind, hr]
    exact hh
  | ok r =>
    have hi : r.instances = (h.connector k).registry.instances := by
      unfold LocalRegistry.watch at hr
      split_ifs at hr
      cases hr
      rfl
    have hset : P (h.modifyConnector k fun x => { x with registry := r }) := hp.connector h k _ hi rfl hh
    have hrest : Preserves P (Act.modifyProbe k (fun p => { p with watched := p.watched.insert key l }) >>=
        fun _ => answerWatch key l ((h.connector k).probe.bind Probe.onWatch)) := by
      refine preserves_bind (hp.calm.modifyProbe k fun _ => rfl) fun _ => ?_
      unfold answerWatch
      split
      · exact hp.lasting.notify _ _
      · exact preserves_pure _
    have hdone := hrest _ hset
    unfold left at hdone ⊢
    rw [get_bind, hr]
    exact hdone

theorem subscribe (handler : Handler) (s : Selector) : Preserves P (subscribe handler s) := by
  have htrack : ∀ id key, Preserves P (discard (track id key)) := fun id key =>
    preserves_discard (hp.calm.step fun _ => rfl)
  have huntrack : ∀ id key, Preserves P (discard (untrack id key)) := fun id key =>
    preserves_discard (hp.calm.step fun _ => rfl)
  refine preserves_bind preserves_get fun h => ?_
  dsimp only
  split
  · exact preserves_pure _
  · split_ifs
    · exact preserves_pure _
    · refine preserves_bind (hp.calm.buildListener handler s) fun l => preserves_bind (htrack _ _) fun _ =>
        preserves_bind (preserves_attempt (hp.watchInstances _ _ l)) fun o => ?_
      split
      · exact preserves_bind (huntrack _ _) fun _ => preserves_throw _
      · exact preserves_bind (hp.calm.modify fun _ => rfl) fun _ => hp.publish _

/-! ### Commands -/

/-- **What is steady** holds after every command that registers no instance and takes none off. -/
theorem act {cmd : Command} (hcmd : ¬ cmd.IsChange) : Preserves P (cmd.act c) := by
  cases cmd with
  | subscribe handler s => exact hp.subscribe handler s
  | fetch handler s => exact hp.lasting.fetchAll handler s
  | register key i => exact absurd trivial hcmd
  | deregister key host tcpPort => exact absurd trivial hcmd
  | _ => exact hp.calm.act hp.publish trivial

/-- **What is steady** and does not depend on the connectors holds after every command. -/
theorem always (hf : ∀ (h : Hub) (c : ConnectorId) (f : Connector → Connector), P h → P (h.modifyConnector c f))
    (cmd : Command) : Preserves P (cmd.act c) := by
  intro h hh
  cases cmd with
  | register key i => exact hp.lasting.registerInstance key i (hf h c _ hh)
  | deregister key host tcpPort =>
    exact hp.lasting.deregisterInstance key host tcpPort (fun _ => hh) fun i r _ => hf h c _ hh
  | _ =>
    refine hp.act ?_ h hh
    exact not_false

end Steady

/-! ### What depends on the connectors alone -/

theorem untouched_connectors : Untouched fun h => (h.connectors, h.probes) where
  call _ _ _ := rfl
  publish h e := by
    obtain ⟨p, j, m, he⟩ := h.publish_eq e
    rw [he]
  count _ _ := rfl
  store _ _ _ := rfl

theorem steady_of_connectors {P : Hub → Prop}
    (hP : ∀ h h' : Hub, h'.connectors = h.connectors → h'.probes = h.probes → P h → P h')
    (hf : ∀ (h : Hub) (c : ConnectorId) (f : Connector → Connector),
      (f (h.connector c)).registry.instances = (h.connector c).registry.instances →
      (f (h.connector c)).probe.map Probe.label = (h.connector c).probe.map Probe.label →
      P h → P (h.modifyConnector c f))
    (hprobe : ∀ (h : Hub) (onWatch : Option (String × ChangeKind)), P h → P (h.addProbe onWatch).1) :
    Steady P where
  lasting := untouched_connectors.lasting fun h h' he hh =>
    hP h h' (Prod.mk.inj he).1 (Prod.mk.inj he).2 hh
  publish e := preserves_modify fun h hh =>
    have he := untouched_connectors.publish h e
    hP h _ (Prod.mk.inj he).1 (Prod.mk.inj he).2 hh
  connector := hf
  probe := hprobe
  congr h h' hb hh := hP h h' (congrArg Base.connectors hb) (congrArg Base.probes hb) hh

/-- There goes on to be a plain connector of this number. -/
theorem steady_plain (c : ConnectorId) : Steady (Plain c) := by
  refine steady_of_connectors (fun h h' hconn _ hp => ?_) (fun h k f _ hf hp => ?_) fun h onWatch hp => ?_
  · exact ⟨hconn ▸ hp.present, by rw [connector_of_connectors hconn, hp.probe]⟩
  · refine ⟨by rw [length_modifyConnector]; exact hp.present, ?_⟩
    have hlabel := connector_congr (g := fun x => x.probe.map Probe.label) hf c
    simpa [hp.probe] using hlabel
  · refine ⟨?_, ?_⟩
    · rw [length_addProbe]
      exact Nat.lt_succ_of_lt hp.present
    · rw [connector_addProbe, if_neg (Nat.ne_of_lt hp.present), hp.probe]

end Act

/-- **What is steady** holds after every run in which no instance is registered or taken off. -/
theorem Hub.Runs.steady {P : Hub → Prop} {c : ConnectorId} {allowed : Hub → Command → Prop} {h₀ h : Hub}
    (hr : Runs c allowed h₀ h) (hp : Act.Steady P) (ha : ∀ h cmd, allowed h cmd → ¬ cmd.IsChange)
    (h0 : P h₀) : P h := by
  induction hr with
  | refl => exact h0
  | step _ hcmd ih => exact hp.act (ha _ _ hcmd) _ ih

end RouteSync
