import RouteSync.Hub.Lifecycle
import RouteSync.Proofs.Hub.Steady
import RouteSync.Proofs.LocalRegistry

/-!
# Instances through a run

The instances under the keys of a connector change by registering and taking off alone, at the key that is
named there, whatever becomes of the change afterwards.  Under every key there goes on to be at most one
instance per address (`Runs.distinct`).
-/

namespace RouteSync

namespace Hub

/-- The instances under a key of a connector. -/
def instances (c : ConnectorId) (h : Hub) (key : String) : List Instance :=
  (h.connector c).registry.instancesAt key

/-- Under every key of a connector there is at most one instance per address. -/
def Distinct (c : ConnectorId) (h : Hub) : Prop := (h.connector c).registry.Distinct

variable {h h' h₀ : Hub} {c : ConnectorId} {cmd : Command} {key host k : String} {tcpPort : UInt16}
  {i j : Instance}

theorem instances_of_registry (he : (h'.connector c).registry.instances = (h.connector c).registry.instances) :
    h'.instances c = h.instances c := by
  funext k
  unfold instances LocalRegistry.instancesAt
  rw [he]

theorem Distinct.congr (hd : h.Distinct c) (he : h'.instances c = h.instances c) : h'.Distinct c := by
  intro k
  show ((h'.instances c k).map Instance.url).Nodup
  rw [he]
  exact hd k

end Hub

namespace Act

open Hub

/-- Nothing but registering and taking off changes what instances a connector has. -/
theorem steady_instances (c : ConnectorId) (t : Table String (List Instance)) :
    Steady fun h => c < h.connectors.length ∧ (h.connector c).registry.instances = t := by
  refine steady_of_connectors (fun h h' hconn _ hh => ?_) (fun h k f hf _ hh => ?_) fun h onWatch hh => ?_
  · rw [connector_of_connectors hconn, hconn]
    exact hh
  · have hsame := connector_congr (g := fun x => x.registry.instances) hf c
    rw [length_modifyConnector]
    exact ⟨hh.1, hsame.trans hh.2⟩
  · rw [connector_addProbe, if_neg (Nat.ne_of_lt hh.1), length_addProbe]
    exact ⟨Nat.lt_succ_of_lt hh.1, hh.2⟩

end Act

namespace Hub

variable {h h' h₀ : Hub} {c : ConnectorId} {cmd : Command} {key host k : String} {tcpPort : UInt16}
  {i j : Instance}

/-- A new hub has no instances. -/
theorem distinct_create (settings : DiscoverySettings) (store : Store) : (create settings store).Distinct 0 :=
  fun _ => List.nodup_nil

theorem instances_of_not_change (hc : c < h.connectors.length) (hcmd : ¬ cmd.IsChange) :
    c < (h.after c cmd).connectors.length ∧ (h.after c cmd).instances c = h.instances c := by
  have hsame := (Act.steady_instances c (h.connector c).registry.instances).act (c := c) hcmd h ⟨hc, rfl⟩
  exact ⟨hsame.1, instances_of_registry hsame.2⟩

theorem instances_of_register (hc : c < h.connectors.length) (key : String) (i : Instance) :
    c < (h.after c (.register key i)).connectors.length ∧
      (h.after c (.register key i)).instances c = ((h.connector c).registry.register key i).1.instancesAt := by
  have hset := (Act.steady_instances c ((h.connector c).registry.register key i).1.instances).lasting.registerInstance
    key i (h := h) (by rw [length_modifyConnector, connector_modifyConnector hc]; exact ⟨hc, rfl⟩)
  refine ⟨hset.1, ?_⟩
  funext k
  unfold instances LocalRegistry.instancesAt
  rw [hset.2]

theorem instances_of_deregister (hc : c < h.connectors.length) (key host : String) (tcpPort : UInt16) :
    c < (h.after c (.deregister key host tcpPort)).connectors.length ∧
      (h.after c (.deregister key host tcpPort)).instances c =
        match (h.connector c).registry.deregister key host tcpPort with
        | none => h.instances c
        | some (_, r) => r.instancesAt := by
  cases hd : (h.connector c).registry.deregister key host tcpPort with
  | none =>
    have hkeep := (Act.steady_instances c (h.connector c).registry.instances).lasting.deregisterInstance (h := h)
      key host tcpPort (fun _ => ⟨hc, rfl⟩) fun i r hr => by
        rw [hd] at hr
        cases hr
    exact ⟨hkeep.1, instances_of_registry hkeep.2⟩
  | some p =>
    have hset := (Act.steady_instances c p.2.instances).lasting.deregisterInstance (h := h) key host tcpPort
      (fun hn => by
        rw [hd] at hn
        cases hn)
      fun i r hr => by
        rw [hd] at hr
        cases hr
        rw [length_modifyConnector, connector_modifyConnector hc]
        exact ⟨hc, rfl⟩
    refine ⟨hset.1, ?_⟩
    funext k
    unfold instances LocalRegistry.instancesAt
    rw [hset.2]

/-- Registering an instance puts it at its address under its key, and changes nothing else. -/
theorem mem_instances_register (hc : c < h.connectors.length) (hd : h.Distinct c) (key : String) (i : Instance) :
    (∀ k, k ≠ key → (h.after c (.register key i)).instances c k = h.instances c k) ∧
      ∀ j, j ∈ (h.after c (.register key i)).instances c key ↔
        j = i ∨ j ∈ h.instances c key ∧ j.url ≠ i.url := by
  rw [(instances_of_register hc key i).2]
  constructor
  · intro k hk
    rw [LocalRegistry.instancesAt_register, if_neg hk.symm]
    rfl
  · intro j
    rw [LocalRegistry.instancesAt_register, if_pos rfl]
    exact LocalRegistry.mem_place (hd key)

/-- Taking an instance off leaves the others of its key, and changes nothing else. -/
theorem mem_instances_deregister (hc : c < h.connectors.length) (hd : h.Distinct c) (key host : String)
    (tcpPort : UInt16) :
    (∀ k, k ≠ key → (h.after c (.deregister key host tcpPort)).instances c k = h.instances c k) ∧
      ∀ j, j ∈ (h.after c (.deregister key host tcpPort)).instances c key ↔
        j ∈ h.instances c key ∧ j.url ≠ addressOf host tcpPort := by
  rw [(instances_of_deregister hc key host tcpPort).2]
  cases hr : (h.connector c).registry.deregister key host tcpPort with
  | none =>
    refine ⟨fun k _ => rfl, fun j => ?_⟩
    exact (and_iff_left_of_imp (LocalRegistry.deregister_eq_none hr j)).symm
  | some p =>
    obtain ⟨-, -, hinstances⟩ := LocalRegistry.deregister_eq_some hr
    constructor
    · intro k hk
      exact (hinstances k).trans (if_neg hk.symm)
    · intro j
      have hkey := (hinstances key).trans (if_pos rfl)
      dsimp only
      rw [hkey]
      exact LocalRegistry.mem_eraseP (hd key)

theorem Distinct.after (hc : c < h.connectors.length) (hd : h.Distinct c) (cmd : Command) :
    (h.after c cmd).Distinct c := by
  by_cases hcmd : cmd.IsChange
  · cases cmd with
    | register key i =>
      intro k
      show (((h.after c (.register key i)).instances c k).map Instance.url).Nodup
      rw [(instances_of_register hc key i).2]
      exact hd.register key i k
    | deregister key host tcpPort =>
      intro k
      show (((h.after c (.deregister key host tcpPort)).instances c k).map Instance.url).Nodup
      rw [(instances_of_deregister hc key host tcpPort).2]
      cases hr : (h.connector c).registry.deregister key host tcpPort with
      | none => exact hd k
      | some p => exact LocalRegistry.Distinct.deregister hd hr k
    | _ => cases hcmd
  · exact hd.congr (instances_of_not_change hc hcmd).2

/-- **Addresses stay distinct** through every run. -/
theorem Runs.distinct {allowed : Hub → Command → Prop} (hr : Runs c allowed h₀ h)
    (hc : c < h₀.connectors.length) (hd : h₀.Distinct c) : c < h.connectors.length ∧ h.Distinct c := by
  induction hr with
  | refl => exact ⟨hc, hd⟩
  | @step h cmd hr hcmd ih =>
    obtain ⟨hc, hd⟩ := ih
    refine ⟨?_, hd.after hc cmd⟩
    cases cmd with
    | register key i => exact (instances_of_register hc key i).1
    | deregister key host tcpPort => exact (instances_of_deregister hc key host tcpPort).1
    | _ =>
      refine (instances_of_not_change hc ?_).1
      exact not_false

end Hub

end RouteSync
