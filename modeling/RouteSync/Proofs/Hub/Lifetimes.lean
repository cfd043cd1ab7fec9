import RouteSync.Proofs.Hub.Sharing
import RouteSync.Proofs.Hub.Steady

/-!
# The lifetime of a connector

Registrations share connectors, and nobody counts how many do.  Still a connector is closed exactly when the
last registration that uses it leaves: an instrumented connector is called to close then and at no other
step, and a plain one is ready exactly as long as it has users (`closed_when_unused`).  On a hub that knows
the registry inside the process alone, a registered id therefore never finds it unready.
-/

namespace RouteSync

/-- The label of the instrumented connector that a call closes. -/
def JournalEntry.closes? : JournalEntry → Option String
  | .registry label .close => some label
  | _ => none

/-- A command that creates or removes a registration. -/
def Command.IsRegistration : Command → Prop
  | .create _ => True
  | .remove _ => True
  | _ => False

namespace Hub

/-- The label of a connector, if it is instrumented. -/
def label? (h : Hub) (c : ConnectorId) : Option String := (h.connector c).probe.map Probe.label

/-- The closing calls in the journal, by label. -/
def closed (h : Hub) : List String := h.journal.filterMap JournalEntry.closes?

/-- Whether the registry of a connector has been set up and not closed since. -/
def ready (h : Hub) (c : ConnectorId) : Bool := (h.connector c).registry.ready

/-- How many ids are cached with a connector. -/
def users (h : Hub) (c : ConnectorId) : Nat := h.registrations.users c

/-- Instrumented connectors have labels of their own, and none that is still to be given. -/
structure Labelled (h : Hub) : Prop where
  numbered : ∀ c l, h.label? c = some l → ∃ n < h.probes, l = probeLabel n
  distinct : ∀ c c' l, h.label? c = some l → h.label? c' = some l → c = c'

/-- Nothing is registered, and no connector has been set up. -/
structure Unused (h : Hub) : Prop where
  labelled : h.Labelled
  uncached : ∀ id, h.registrations.connectors.get? id = none
  unready : ∀ c, h.ready c = false

/-- What registrations do to connectors. -/
structure Usage where
  registrations : Registrations
  closed : List String
  ready : ConnectorId → Bool

def usage (h : Hub) : Usage := ⟨h.registrations, h.closed, h.ready⟩

variable {h h' : Hub} {c k : ConnectorId}

theorem usage_eq_iff : h'.usage = h.usage ↔
    h'.registrations = h.registrations ∧ h'.closed = h.closed ∧ h'.ready = h.ready := by
  simp [usage]

theorem ready_of_connectors (hconn : h'.connectors = h.connectors) : h'.ready = h.ready := by
  funext c
  unfold ready
  rw [connector_of_connectors hconn]

theorem ready_addProbe (onWatch : Option (String × ChangeKind)) : (h.addProbe onWatch).1.ready = h.ready := by
  funext c
  unfold ready
  rw [connector_addProbe]
  split_ifs with hc
  · -- a connector that is not there yet counts as not ready
    subst hc
    simp [connector, List.getD, show (default : Connector) = {} from rfl]
  · rfl

/-! ### Labels -/

theorem probeLabel_inj {m n : Nat} : probeLabel m = probeLabel n ↔ m = n := by
  unfold probeLabel
  rw [String.append_right_inj, Text.toString_inj]

theorem Labelled.congr (hl : h.Labelled) (hlabel : ∀ c, h'.label? c = h.label? c)
    (hprobes : h'.probes = h.probes) : h'.Labelled where
  numbered c l hc := by
    rw [hprobes]
    exact hl.numbered c l (hlabel c ▸ hc)
  distinct c c' l hc hc' := hl.distinct c c' l (hlabel c ▸ hc) (hlabel c' ▸ hc')

/-- The next label is given to nobody yet. -/
theorem Labelled.addProbe (hl : h.Labelled) (onWatch : Option (String × ChangeKind)) :
    (h.addProbe onWatch).1.Labelled := by
  have hlabel : ∀ c l, (h.addProbe onWatch).1.label? c = some l →
      c = h.connectors.length ∧ l = probeLabel h.probes ∨ h.label? c = some l := by
    intro c l hc
    unfold label? at hc
    rw [connector_addProbe] at hc
    split_ifs at hc with hnew
    · cases hc
      exact .inl ⟨hnew, rfl⟩
    · exact .inr hc
  have hfree : ∀ c, h.label? c ≠ some (probeLabel h.probes) := by
    intro c hc
    obtain ⟨n, hn, he⟩ := hl.numbered c _ hc
    have hnum := probeLabel_inj.mp he
    omega
  constructor
  · intro c l hc
    rcases hlabel c l hc with ⟨-, rfl⟩ | hc
    · exact ⟨h.probes, Nat.lt_succ_self _, rfl⟩
    · obtain ⟨n, hn, rfl⟩ := hl.numbered c l hc
      exact ⟨n, Nat.lt_succ_of_lt hn, rfl⟩
  · intro c c' l hc hc'
    rcases hlabel c l hc with ⟨rfl, rfl⟩ | hc
    · rcases hlabel c' _ hc' with ⟨rfl, -⟩ | hc'
      · rfl
      · exact absurd hc' (hfree c')
    · rcases hlabel c' l hc' with ⟨-, rfl⟩ | hc'
      · exact absurd hc (hfree c)
      · exact hl.distinct c c' l hc hc'

end Hub

namespace Act

open Hub

variable {h h' : Hub} {c k : ConnectorId} {r : Registration}

theorem steady_labelled : Steady Labelled := by
  refine steady_of_connectors (fun h h' hconn hprobes hl => hl.congr (fun c => ?_) hprobes)
    (fun h k f _ hf hl => hl.congr (fun c => ?_) rfl) fun h onWatch hl => hl.addProbe onWatch
  · unfold label?
    rw [connector_of_connectors hconn]
  · exact connector_congr (g := fun x => x.probe.map Probe.label) hf c

/-! ### Creating a registration -/

theorem keeps_usage_registryCall {r : RegistryCall} (hr : r ≠ .close) (k : ConnectorId) :
    Keeps usage (registryCall k r) := by
  refine keeps_bind keeps_get fun h => ?_
  split
  · refine keeps_call fun h fs => ?_
    have hno : ∀ l, JournalEntry.closes? (.registry l r) = none := by
      cases r <;> first | exact fun _ => rfl | exact absurd rfl hr
    simp [usage, closed, hno, show Hub.ready { h with journal := _, faults := fs } = h.ready from rfl]
  · exact keeps_pure _

theorem keeps_connectors_registryCall (r : RegistryCall) (k : ConnectorId) :
    Keeps (fun h => (h.connectors, h.probes)) (registryCall k r) :=
  keeps_iff.mpr fun _ => (untouched_connectors.lasting fun _ _ he hh => he.trans hh).registryCall k r

theorem keeps_registrations_registryCall (r : RegistryCall) (k : ConnectorId) :
    Keeps Hub.registrations (registryCall k r) := by
  refine keeps_bind keeps_get fun h => ?_
  split
  · exact keeps_call fun _ _ => rfl
  · exact keeps_pure _

theorem createConnector_usage (tag : String) (h : Hub) :
    ∃ h₁, h₁.usage = h.usage ∧ h.connectors.length ≤ h₁.connectors.length ∧
      ((∃ k, createConnector tag h = .ok k h₁) ∨ ∃ e, createConnector tag h = .error e h₁) := by
  unfold createConnector
  dsimp only
  split_ifs
  · exact ⟨h, rfl, Nat.le_refl _, .inr ⟨_, rfl⟩⟩
  · rw [get_bind]
    cases hp : h.providers.get? (normalizedType tag) with
    | none => exact ⟨h, rfl, Nat.le_refl _, .inr ⟨_, rfl⟩⟩
    | some p =>
      cases p with
      | shared k => exact ⟨h, rfl, Nat.le_refl _, .inl ⟨k, rfl⟩⟩
      | fresh onWatch =>
        refine ⟨(h.addProbe onWatch).1, usage_eq_iff.mpr ⟨rfl, rfl, ready_addProbe onWatch⟩, ?_,
          .inl ⟨h.connectors.length, rfl⟩⟩
        rw [length_addProbe]
        exact Nat.le_succ _

/-- Setting up a registry makes it ready, unless the call fails. -/
theorem setUpRegistry_usage (k : ConnectorId) (connection : Connection) (h : Hub) :
    (∃ e h₁, setUpRegistry k connection h = .error e h₁ ∧ h₁.usage = h.usage) ∨
      ∃ h₁, setUpRegistry k connection h = .ok () h₁ ∧ h₁.registrations = h.registrations ∧
        h₁.closed = h.closed ∧
        ∀ c < h.connectors.length, h₁.ready c = if k = c then true else h.ready c := by
  have hkeep : Keeps usage (registryCall k (.setUp connection)) := keeps_usage_registryCall (by simp) k
  unfold setUpRegistry
  cases hcall : registryCall k (.setUp connection) h with
  | error e h₁ =>
    rw [bind_of_error hcall]
    exact .inl ⟨e, h₁, rfl, hkeep.of_error hcall⟩
  | ok u h₁ =>
    rw [bind_of_ok hcall]
    obtain ⟨hregs, hclosed, hready⟩ := usage_eq_iff.mp (hkeep.of_ok hcall)
    have hconn : h₁.connectors = h.connectors :=
      congrArg Prod.fst ((keeps_connectors_registryCall _ k).of_ok hcall)
    refine .inr ⟨_, rfl, hregs, hclosed, fun c hc => ?_⟩
    unfold Hub.ready
    by_cases hk : k = c
    · subst hk
      rw [if_pos rfl, connector_modifyConnector (by rwa [hconn])]
      rfl
    · rw [if_neg hk, connector_modifyConnector_of_ne hk]
      exact congrFun hready c

/-- **A registration that is created** caches its id with a connector that is ready then, or nothing has
been done to the connectors that were there. -/
theorem create_usage (c : ConnectorId) (h : Hub) (r : Registration) :
    (h.after c (.create r)).usage = h.usage ∨
      h.registrations.connectors.get? r.id = none ∧
        ∃ k, (h.after c (.create r)).registrations = h.registrations.add r.id k ∧
          (h.after c (.create r)).closed = h.closed ∧
          ∀ m < h.connectors.length, (h.after c (.create r)).ready m = if k = m then true else h.ready m := by
  have hafter : h.after c (.create r) = (register r).left h := left_discard _ h
  rw [hafter]
  unfold register
  rw [left, get_bind]
  by_cases hid : h.registrations.contains r.id = true
  · rw [if_pos hid]
    exact .inl rfl
  rw [if_neg hid]
  cases hprops : FlatObject.read "discovery props" r.props with
  | error e => exact .inl rfl
  | ok props =>
    have hread : (ofExcept .invalid (.ok props) : Act (Table String String)) h = .ok props h := rfl
    rw [bind_of_ok hread]
    obtain ⟨h₁, husage, hlen, ⟨k, hok⟩ | ⟨e, herr⟩⟩ := createConnector_usage r.registryType h
    · rw [bind_of_ok hok]
      rcases setUpRegistry_usage k ⟨r.registryType, r.servers, props⟩ h₁ with
        ⟨e, h₂, hset, husage₂⟩ | ⟨h₂, hset, hregs, hclosed, hready⟩
      · rw [bind_of_error hset]
        exact .inl (husage₂.trans husage)
      · rw [bind_of_ok hset]
        obtain ⟨hregs₁, hclosed₁, hready₁⟩ := usage_eq_iff.mp husage
        refine .inr ⟨?_, k, ?_, hclosed.trans hclosed₁, fun m hm => ?_⟩
        · simpa [Registrations.contains, Table.contains] using hid
        · show h₂.registrations.add r.id k = _
          rw [hregs, hregs₁]
        · refine (hready m (Nat.lt_of_lt_of_le hm hlen)).trans ?_
          rw [hready₁]
    · rw [bind_of_error herr]
      exact .inl husage

/-! ### Removing a registration -/

/-- Closing a connector calls it if it is instrumented; if it is plain it is not ready any more. -/
theorem closeRegistry_usage (k : ConnectorId) (h : Hub) :
    ((closeRegistry k).left h).registrations = h.registrations ∧
      ((closeRegistry k).left h).closed = h.closed ++ (h.label? k).toList ∧
      (∀ c, c ≠ k → ((closeRegistry k).left h).ready c = h.ready c) ∧
      (Plain k h → ((closeRegistry k).left h).ready k = false) := by
  have hrest : ∀ {σ : Type} (view : Hub → σ), (∀ h f, view (h.modifyConnector k f) = view h) →
      view ((closeRegistry k).left h) = view ((registryCall k .close).left h) := fun view hv =>
    view_left_bind (fun _ => keeps_bind (keeps_modify fun h => hv h _) fun _ =>
      keeps_modify fun h => hv h _) h
  have hconn : ((registryCall k .close).left h).connectors = h.connectors :=
    congrArg Prod.fst (keeps_connectors_registryCall .close k h)
  refine ⟨?_, ?_, fun c hc => ?_, fun hp => ?_⟩
  · rw [hrest Hub.registrations fun _ _ => rfl]
    exact keeps_registrations_registryCall .close k h
  · rw [hrest Hub.closed fun _ _ => rfl]
    unfold registryCall label?
    rw [left, get_bind]
    cases hp : (h.connector k).probe with
    | none => exact (List.append_nil _).symm
    | some p =>
      show ((call (.registry p.label .close)).left h).closed = _
      rw [left_call]
      simp [closed, JournalEntry.closes?]
  · rw [hrest (fun h => h.ready c) fun h f => ?_]
    · rw [ready_of_connectors hconn]
    · unfold Hub.ready
      rw [connector_modifyConnector_of_ne hc.symm]
  · obtain ⟨h₁, hok, hw⟩ := closeRegistry_plain hp
    rw [left_of_ok hok]
    exact congrArg Wiring.ready hw

theorem keeps_usage_modifyConnector {k : ConnectorId} {f : Connector → Connector}
    (hf : ∀ x, (f x).registry.ready = x.registry.ready) :
    Keeps usage (modify fun h => h.modifyConnector k f : Act Unit) := by
  refine keeps_modify fun h => usage_eq_iff.mpr ⟨rfl, rfl, ?_⟩
  funext c
  exact connector_congr (g := fun x => x.registry.ready) (hf _) c

theorem keeps_usage_unwatchAll (k : ConnectorId) (keys : List String) : Keeps usage (unwatchAll k keys) := by
  induction keys with
  | nil => exact keeps_pure _
  | cons key keys ih =>
    have hone : Keeps usage (unwatchInstances k key) :=
      keeps_bind (keeps_usage_registryCall (by simp) k) fun _ =>
        keeps_bind (keeps_usage_modifyConnector fun _ => rfl) fun _ =>
          keeps_usage_modifyConnector fun _ => rfl
    have htry : Keeps usage (attempt (unwatchInstances k key)) := fun h => by
      rw [left_attempt]
      exact hone h
    refine keeps_bind htry fun o => keeps_bind ih fun rest => ?_
    cases o
    · exact keeps_pure _
    · exact keeps_pure _

/-- A removal does what the first action of dropping the registration does, for a view that the rest keeps. -/
theorem view_of_deregister {α σ : Type} {view : Hub → σ} {a : Act α} {b : α → Act Bool} {h₁ : Hub}
    (hdrop : Keeps view (dropActive r.id)) (hb : ∀ x, Keeps view (b x))
    (hd : deregister r h = (a >>= b) h₁) : view (h.after c (.remove r)) = view (a.left h₁) := by
  have hafter : view (h.after c (.remove r)) = view ((deregister r).left h) := by
    rw [← left_attempt]
    refine view_left_bind (fun o => ?_) h
    split
    · exact keeps_pure _
    · exact hdrop
    · exact keeps_bind hdrop fun _ _ => rfl
  rw [hafter, ← view_left_bind hb h₁, left, hd]
  rfl

/-- How a removal ends: with the first error that was met, if there was one. -/
def orThrow : Option Error → Act Bool
  | none => return true
  | some e => throw e

/-- **A registration that is removed** has its connector closed if nobody uses it any more, and otherwise
nothing is set up or closed. -/
theorem remove_usage (c : ConnectorId) (hid : h.registrations.connectors.get? r.id = some k) :
    (h.after c (.remove r)).registrations = h.registrations.remove r.id ∧
      ((h.after c (.remove r)).users k = 0 →
        (h.after c (.remove r)).closed = h.closed ++ (h.label? k).toList ∧
          (∀ m, m ≠ k → (h.after c (.remove r)).ready m = h.ready m) ∧
          (Plain k h → (h.after c (.remove r)).ready k = false)) ∧
      ((h.after c (.remove r)).users k ≠ 0 →
        (h.after c (.remove r)).closed = h.closed ∧ (h.after c (.remove r)).ready = h.ready) := by
  let h₁ : Hub := { h with
    registrations := h.registrations.remove r.id
    metrics := h.metrics.moveActive (-1) }
  have hempty : (h.after c (.remove r)).registrations = h.registrations.remove r.id →
      (((h.registrations.remove r.id).sharers k).isEmpty = true ↔ (h.after c (.remove r)).users k = 0) := by
    intro hregs
    rw [Hub.users, hregs, List.isEmpty_iff, Registrations.users, List.length_eq_zero_iff]
  by_cases hlast : ((h.registrations.remove r.id).sharers k).isEmpty = true
  · have hclose : (h.after c (.remove r)).usage = ((closeRegistry k).left h₁).usage := by
      let rest (_ : Unit) : Act Bool := count (.lifecycle r.registryType "close") 1 >>= fun _ => pure true
      refine view_of_deregister (b := rest) (keeps_modify fun _ => rfl)
        (fun _ => keeps_bind (keeps_modify fun _ => rfl) fun _ => keeps_pure _) ?_
      unfold deregister
      rw [get_bind]
      simp only [hid, hlast, if_true]
      rfl
    obtain ⟨hregs, hclosed, hothers, hplain⟩ := closeRegistry_usage k h₁
    obtain ⟨hregs', hclosed', hready'⟩ := usage_eq_iff.mp hclose
    have hafter : (h.after c (.remove r)).registrations = h.registrations.remove r.id := hregs'.trans hregs
    refine ⟨hafter, fun _ => ⟨hclosed'.trans hclosed, fun m hm => ?_, fun hp => ?_⟩,
      fun hne => absurd ((hempty hafter).mp hlast) hne⟩
    · rw [hready']
      exact hothers m hm
    · rw [hready']
      exact hplain ⟨hp.present, hp.probe⟩
  · have hunwatch : (h.after c (.remove r)).usage = h₁.usage := by
      let keys := ((h.registrations.watchKeys.get? r.id).getD .empty).without
        ((h.registrations.remove r.id).keysOf ((h.registrations.remove r.id).sharers k))
      have hrest : ∀ o, Keeps usage (orThrow o) := by
        intro o
        cases o
        · exact keeps_pure _
        · exact fun _ => rfl
      refine (view_of_deregister (keeps_modify fun _ => rfl) hrest ?_).trans (keeps_usage_unwatchAll k keys h₁)
      unfold deregister
      rw [get_bind]
      simp only [hid, if_neg hlast]
      rfl
    obtain ⟨hregs, hclosed, hready⟩ := usage_eq_iff.mp hunwatch
    exact ⟨hregs, fun h0 => absurd ((hempty hregs).mpr h0) hlast, fun _ => ⟨hclosed, hready⟩⟩

/-- A removal takes one user from the connector of its id. -/
theorem users_remove (c m : ConnectorId) (hid : h.registrations.connectors.get? r.id = some k) :
    h.users m = (h.after c (.remove r)).users m + if k = m then 1 else 0 := by
  unfold Hub.users
  rw [(remove_usage c hid).1]
  exact Registrations.users_remove hid

end Act

namespace Hub

variable {h₀ h : Hub} {c m : ConnectorId} {cmd : Command}

/-! ### One step -/

/-- A step closes an instrumented connector exactly if it takes the last user from it. -/
theorem Labelled.count_closed (hl : h.Labelled) (hcmd : cmd.IsRegistration) {l : String}
    (hm : h.label? m = some l) : (h.after c cmd).closed.count l =
      h.closed.count l + if h.users m = 1 ∧ (h.after c cmd).users m = 0 then 1 else 0 := by
  have quiet : (h.after c cmd).closed = h.closed → ¬ (h.users m = 1 ∧ (h.after c cmd).users m = 0) →
      (h.after c cmd).closed.count l =
        h.closed.count l + if h.users m = 1 ∧ (h.after c cmd).users m = 0 then 1 else 0 := by
    intro hsame hno
    rw [hsame, if_neg hno, Nat.add_zero]
  cases cmd with
  | create r =>
    rcases Act.create_usage c h r with husage | ⟨hid, k, hregs, hclosed, -⟩
    · obtain ⟨hregs, hclosed, -⟩ := usage_eq_iff.mp husage
      refine quiet hclosed ?_
      unfold users
      rw [hregs]
      omega
    · refine quiet hclosed ?_
      unfold users
      rw [hregs, Registrations.users_add hid]
      omega
  | remove r =>
    cases hid : h.registrations.connectors.get? r.id with
    | none =>
      have hsame : h.after c (.remove r) = h := Act.remove_unknown hid
      refine quiet (by rw [hsame]) ?_
      rw [hsame]
      omega
    | some k =>
      obtain ⟨-, hlast, hmore⟩ := Act.remove_usage c hid
      have husers := Act.users_remove c m hid
      by_cases h0 : (h.after c (.remove r)).users k = 0
      · rw [(hlast h0).1, List.count_append]
        congr 1
        by_cases hkm : k = m
        · subst hkm
          rw [if_pos rfl] at husers
          rw [hm, if_pos ⟨by omega, by omega⟩]
          simp
        · rw [if_neg hkm] at husers
          rw [if_neg (by omega)]
          -- the label that is called belongs to somebody else
          refine List.count_eq_zero.mpr fun hmem => hkm ?_
          exact hl.distinct k m l (Option.mem_toList.mp hmem) hm
      · refine quiet (hmore h0).1 ?_
        rintro ⟨h1, hnone⟩
        by_cases hkm : k = m
        · subst hkm
          exact h0 hnone
        · rw [if_neg hkm] at husers
          omega
  | _ => cases hcmd

/-- No other label is called to close. -/
theorem count_closed_of_unknown (hcmd : cmd.IsRegistration) {l : String} (hl : ∀ m, h.label? m ≠ some l) :
    (h.after c cmd).closed.count l = h.closed.count l := by
  cases cmd with
  | create r =>
    rcases Act.create_usage c h r with husage | ⟨-, k, -, hclosed, -⟩
    · rw [(usage_eq_iff.mp husage).2.1]
    · rw [hclosed]
  | remove r =>
    cases hid : h.registrations.connectors.get? r.id with
    | none => rw [show h.after c (.remove r) = h from Act.remove_unknown hid]
    | some k =>
      obtain ⟨-, hlast, hmore⟩ := Act.remove_usage c hid
      by_cases h0 : (h.after c (.remove r)).users k = 0
      · have hnone : (h.label? k).toList.count l = 0 :=
          List.count_eq_zero.mpr fun hmem => hl k (Option.mem_toList.mp hmem)
        rw [(hlast h0).1, List.count_append, hnone, Nat.add_zero]
      · rw [(hmore h0).1]
  | _ => cases hcmd

/-- A plain connector that is ready exactly if it has users stays so. -/
theorem ready_iff_users_after (hcmd : cmd.IsRegistration) (hp : Act.Plain m h)
    (hr : h.ready m = true ↔ 0 < h.users m) :
    (h.after c cmd).ready m = true ↔ 0 < (h.after c cmd).users m := by
  cases cmd with
  | create r =>
    rcases Act.create_usage c h r with husage | ⟨hid, k, hregs, -, hready⟩
    · obtain ⟨hregs, -, hready⟩ := usage_eq_iff.mp husage
      unfold users
      rw [hregs, hready]
      exact hr
    · unfold users at hr ⊢
      rw [hregs, hready m hp.present, Registrations.users_add hid]
      by_cases hk : k = m
      · simp [hk]
      · rw [if_neg hk, if_neg hk, Nat.add_zero]
        exact hr
  | remove r =>
    cases hid : h.registrations.connectors.get? r.id with
    | none =>
      rw [show h.after c (.remove r) = h from Act.remove_unknown hid]
      exact hr
    | some k =>
      obtain ⟨-, hlast, hmore⟩ := Act.remove_usage c hid
      have husers := Act.users_remove c m hid
      by_cases h0 : (h.after c (.remove r)).users k = 0
      · obtain ⟨-, hothers, hplain⟩ := hlast h0
        by_cases hkm : k = m
        · subst hkm
          rw [hplain hp, h0]
          simp
        · rw [if_neg hkm, Nat.add_zero] at husers
          rw [hothers m (Ne.symm hkm), ← husers]
          exact hr
      · rw [(hmore h0).2, hr, husers]
        by_cases hkm : k = m
        · subst hkm
          rw [if_pos rfl]
          omega
        · rw [if_neg hkm, Nat.add_zero]
  | _ => cases hcmd

theorem Runs.ready_iff_users (hr : Runs c (fun _ cmd => cmd.IsRegistration) h₀ h) (hu : h₀.Unused)
    (hp : Act.Plain m h₀) : h.ready m = true ↔ 0 < h.users m := by
  have hno : ∀ (h : Hub) (cmd : Command), cmd.IsRegistration → ¬ cmd.IsChange := by
    intro h cmd hcmd
    cases cmd <;> first | exact not_false | cases hcmd
  induction hr with
  | refl =>
    rw [hu.unready m, users, Registrations.users_pos_iff]
    simp [hu.uncached]
  | step hr hcmd ih =>
    exact ready_iff_users_after hcmd (hr.steady (Act.steady_plain m) hno hp) ih

end Hub

/-! ### The registry inside the process -/

/-- An error other than that a registry has not been set up. -/
def Error.IsOther (e : Error) : Prop := ∀ name, e ≠ .registry (.notInitialized name)

namespace Wiring

variable {c : ConnectorId} {w w' : Wiring} {cmd : Command}

/-- A wired connector that is ready exactly if some id is cached stays so, whatever the command. -/
theorem Step.ready_iff (hs : w.Step c cmd w') (hw : Wired c w)
    (hr : w.ready = true ↔ ∃ id, w.registrations.connectors.get? id = some c) :
    w'.ready = true ↔ ∃ id, w'.registrations.connectors.get? id = some c := by
  cases hs with
  | idle => exact hr
  | @join r hid =>
    refine iff_of_true rfl ⟨r.id, ?_⟩
    exact Registrations.get?_add.trans (if_pos rfl)
  | @leave r hid =>
    constructor
    · intro hready
      rw [Wired.registrations_leave]
      unfold Wiring.leave at hready
      dsimp only at hready
      split_ifs at hready with hlast
      rw [← Registrations.users_pos_iff, Registrations.users, List.length_pos_iff]
      exact fun hnil => hlast (List.isEmpty_iff.mpr hnil)
    · rintro ⟨id, hid'⟩
      exact hw.leave.ready id hid'
  | watch =>
    show _ ↔ ∃ id, (w.registrations.track _ _).1.connectors.get? id = some c
    rw [Registrations.connectors_track]
    exact hr
  | unwatch =>
    show _ ↔ ∃ id, (w.registrations.untrack _ _).1.connectors.get? id = some c
    rw [Registrations.connectors_untrack]
    exact hr
  | build => exact hr
  | adopt => exact hr
  | @bind handler s =>
    obtain ⟨ls, he, -⟩ := Wired.bindTo_spec w handler.discoveryId (.ofHandler s handler)
    rw [he]
    exact hr

end Wiring

namespace Act

open Hub

variable {c : ConnectorId} {h : Hub} {handler : Handler} {s : Selector}

/-- A plain connector that is ready, on a hub whose faults claim nothing else. -/
structure Serving (c : ConnectorId) (h : Hub) : Prop where
  plain : Plain c h
  ready : h.ready c = true
  faults : ∀ f ∈ h.faults, f.error.IsOther

theorem Serving.congr {h' : Hub} (hs : Serving c h) (hconn : h'.connectors = h.connectors)
    (hf : ∀ f ∈ h'.faults, f.error.IsOther) : Serving c h' :=
  ⟨⟨hconn ▸ hs.plain.present, by rw [connector_of_connectors hconn, hs.plain.probe]⟩,
    by rw [ready_of_connectors hconn, hs.ready], hf⟩

theorem raises_call (entry : JournalEntry) : Raises (Serving c) Error.IsOther (call entry) := by
  refine ⟨fun h hs => ?_, fun h e h' hs he => (raises_call_of_faults entry).error h e h' hs.faults he⟩
  rw [left_call]
  exact hs.congr rfl (Fault.error_of_consult hs.faults).2

theorem raises_onStore {α : Type} (f : Store → Except StorageError (Store × α)) :
    Raises (Serving c) Error.IsOther (onStore f) :=
  raises_bind raises_get fun _ => raises_bind (raises_ofExcept (fun _ _ => by simp) _) fun _ =>
    raises_bind (raises_modify fun _ hs => hs.congr rfl hs.faults) fun _ => raises_pure _

theorem raises_count (k : Counter) (n : Nat) : Raises (Serving c) Error.IsOther (count k n) :=
  raises_modify fun _ hs => hs.congr rfl hs.faults

theorem raises_selectInstances (key : String) :
    Raises (Serving c) Error.IsOther (selectInstances c key) := by
  have hrun : ∀ h, Serving c h →
      selectInstances c key h = .ok ((h.connector c).registry.instancesAt key) h :=
    fun h hs => selectInstances_plain hs.plain hs.ready key
  refine raises_of_ok (fun h hs => ?_) fun h hs => ⟨_, h, hrun h hs⟩
  rw [left_of_ok (hrun h hs)]
  exact hs

/-- A pass over a registry that is ready fails with errors of the store alone. -/
theorem raises_reconcile : Raises (Serving c) Error.IsOther (reconcile c handler s) := by
  have hselect : Raises (Serving c) Error.IsOther (select handler.id) :=
    raises_bind (raises_call _) fun _ => raises_bind raises_get fun _ =>
      raises_ofExcept (fun _ _ => by simp) _
  have hstale : ∀ ids, Raises (Serving c) Error.IsOther (deleteStale handler.discoveryId ids) := by
    intro ids
    unfold deleteStale
    split_ifs
    · exact raises_pure _
    · exact raises_bind (raises_bind (raises_call _) fun _ => raises_onStore _) fun _ => raises_count _ _
  have hinsert : ∀ l, Raises (Serving c) Error.IsOther (insertAll handler.discoveryId handler.id l) :=
    fun l => raises_forM fun e _ => raises_bind (raises_bind (raises_call _) fun _ =>
      raises_bind (raises_of_ok (preserves_step fun _ hs => hs.congr rfl hs.faults) fun h _ => ⟨_, _, rfl⟩)
        fun _ => raises_bind raises_get fun _ => raises_onStore _) fun _ => raises_count _ _
  exact raises_bind raises_get fun h => raises_bind (raises_selectInstances _) fun live =>
    raises_bind hselect fun stored => raises_bind (hstale _) fun _ =>
      raises_bind (hinsert _) fun _ => raises_pure _

theorem fetchAll_isOther {e : Error} {h' : Hub} (hs : Serving c h)
    (hid : h.registrations.connectors.get? handler.discoveryId = some c)
    (hfail : fetchAll handler s h = .error e h') : e.IsOther := by
  unfold fetchAll at hfail
  rw [get_bind] at hfail
  simp only [hid] at hfail
  have hpublish : ∀ ev, Raises (Serving c) Error.IsOther (publish ev) := fun ev =>
    raises_modify fun h hs => by
      obtain ⟨p, j, m, he⟩ := h.publish_eq ev
      rw [he]
      exact hs.congr rfl hs.faults
  have hreconcile : Raises (Serving c) Error.IsOther (reconcile c handler s) := raises_reconcile
  refine Raises.error ?_ h e h' hs hfail
  exact raises_attempt_bind hreconcile (fun live => raises_bind (raises_count _ _) fun _ => hpublish _)
    fun e he => raises_bind (raises_count _ _) fun _ => raises_throw he

/-- A subscription does not consult the registry before its connector is known to be ready. -/
theorem subscribe_isOther {e : Error} {h' : Hub} (hw : Wired c (h.wiring c))
    (hfail : subscribe handler s h = .error e h') : e.IsOther := by
  by_cases hno : h.registrations.connectors.get? handler.discoveryId = none ∨
      h.registrations.isTracked handler.discoveryId (h.watchKey handler) = true
  · rw [subscribe_idle s hno] at hfail
    cases hfail
  rw [not_or] at hno
  obtain ⟨k, hid⟩ := Option.ne_none_iff_exists'.mp hno.1
  obtain rfl := hw.served _ _ hid
  cases hread : Mapping.read handler.mapping with
  | error err =>
    rw [subscribe_refused s hid hno.2 hread] at hfail
    cases hfail
    exact fun _ => by simp
  | ok m =>
    obtain ⟨h₁, hok, -⟩ := subscribe_wired hw s hid hno.2 hread
    rw [hok] at hfail
    cases hfail

/-- Faults keep their errors whatever happens. -/
theorem steady_faults (p : Error → Prop) : Steady fun h => ∀ f ∈ h.faults, p f.error where
  lasting := by
    refine lasting_of_call (fun entry _ h hh => ?_) (fun h e _ hh => ?_) (fun _ _ _ hh => hh) fun _ _ _ hh => hh
    · rw [left_call]
      exact (Fault.error_of_consult hh).2
    · obtain ⟨_, _, _, he⟩ := h.publish_eq e
      rw [he]
      exact hh
  publish e := by
    refine preserves_modify fun h hh => ?_
    obtain ⟨_, _, _, he⟩ := h.publish_eq e
    rw [he]
    exact hh
  connector _ _ _ _ _ hh := hh
  probe _ _ hh := hh
  congr h h' hb hh := by
    rw [show h'.faults = h.faults from congrArg Base.faults hb]
    exact hh

end Act

namespace Hub

variable {h₀ h : Hub} {c : ConnectorId} {allowed : Hub → Command → Prop}

/-- On a hub with one plain connector for all types, that connector is ready exactly if an id is cached. -/
theorem Runs.ready_iff_cached (hr : Runs c allowed h₀ h) (hf : h₀.Fresh c) (h0 : h₀.ready c = false) :
    h.ready c = true ↔ ∃ id, h.registrations.connectors.get? id = some c := by
  induction hr with
  | refl => simp [h0, (hf.uncached _).1]
  | step hr _ ih => exact (Act.step_wiring (hr.wired hf) _).ready_iff (hr.wired hf) ih

theorem Runs.faults {p : Error → Prop} (hr : Runs c allowed h₀ h) (h0 : ∀ f ∈ h₀.faults, p f.error) :
    ∀ f ∈ h.faults, p f.error := by
  induction hr with
  | refl => exact h0
  | step _ _ ih => exact (Act.steady_faults p).always (fun _ _ _ hh => hh) _ _ ih

/-! ### Hubs that are unused -/

theorem unused_default : ({} : Hub).Unused where
  labelled := ⟨nofun, nofun⟩
  uncached _ := rfl
  unready _ := rfl

theorem Unused.withLocalRegistry (hu : h.Unused) : h.withLocalRegistry.Unused := by
  -- a number without a connector stands for an unused plain one already
  have hconn : ∀ c, h.withLocalRegistry.connector c = h.connector c := by
    intro c
    refine (connector_addConnector (h := h) {}).trans ?_
    split_ifs with hc
    · rw [connector, List.getD_eq_getElem?_getD, hc, List.getElem?_eq_none (Nat.le_refl _)]
      rfl
    · rfl
  refine ⟨hu.labelled.congr (fun c => ?_) rfl, hu.uncached, fun c => ?_⟩
  · unfold label?
    rw [hconn]
  · unfold ready
    rw [hconn]
    exact hu.unready c

theorem Unused.registerProbed (hu : h.Unused) (tag : String) (isShared : Bool)
    (onWatch : Option (String × ChangeKind)) : (h.registerProbed tag isShared onWatch).Unused := by
  unfold Hub.registerProbed
  split_ifs
  · have hlabelled := hu.labelled.addProbe onWatch
    have hready := ready_addProbe (h := h) onWatch
    exact ⟨⟨hlabelled.numbered, hlabelled.distinct⟩, hu.uncached,
      fun c => (congrFun hready c).trans (hu.unready c)⟩
  · exact ⟨⟨hu.labelled.numbered, hu.labelled.distinct⟩, hu.uncached, hu.unready⟩

/-! ### The lifetime of a connector -/

/-- **A connector is closed exactly when the last registration that uses it leaves.**  After any creations and
removals, one more of these closes an instrumented connector exactly if it takes the number of ids that use
it from one to zero, and a plain connector is ready exactly as long as it has users.  A hub that begins with
the registry inside the process alone has it ready exactly if an id is cached, whatever it is told to do, so
nobody with a cached id is told that it is not. -/
theorem closed_when_unused (hu : h₀.Unused) (hr : Runs c (fun _ cmd => cmd.IsRegistration) h₀ h) :
    (∀ cmd : Command, cmd.IsRegistration →
      (∀ m l, h.label? m = some l → (h.after c cmd).closed.count l =
        h.closed.count l + if h.users m = 1 ∧ (h.after c cmd).users m = 0 then 1 else 0) ∧
      ∀ l, (∀ m, h.label? m ≠ some l) → (h.after c cmd).closed.count l = h.closed.count l) ∧
    (∀ m, Act.Plain m h₀ → (h.ready m = true ↔ 0 < h.users m)) ∧
    ∀ (settings : DiscoverySettings) (store : Store) (faults : List Fault) (h' : Hub),
      (∀ f ∈ faults, f.error.IsOther) →
      Runs 0 (fun _ _ => True) { create settings store with faults := faults } h' →
      (h'.ready 0 = true ↔ ∃ id, h'.registrations.contains id = true) ∧
      ∀ (handler : Handler) (s : Selector) (e : Error) (h'' : Hub),
        h'.registrations.contains handler.discoveryId = true →
        Act.fetchAll handler s h' = .error e h'' ∨ Act.subscribe handler s h' = .error e h'' → e.IsOther := by
  refine ⟨fun cmd hcmd => ⟨fun m l hm => ?_, fun l hl => count_closed_of_unknown hcmd hl⟩,
    fun m hp => hr.ready_iff_users hu hp, ?_⟩
  · have hno : ∀ (h : Hub) (cmd : Command), cmd.IsRegistration → ¬ cmd.IsChange := by
      intro h cmd hcmd
      cases cmd <;> first | exact not_false | cases hcmd
    exact (hr.steady Act.steady_labelled hno hu.labelled).count_closed hcmd hm
  intro settings store faults h' hfaults hr'
  have hfresh : ({ create settings store with faults := faults } : Hub).Fresh 0 :=
    let hf := fresh_create settings store
    ⟨⟨hf.plain.present, hf.plain.probe⟩, hf.shared, hf.uncached, hf.unwatched⟩
  have hw := hr'.wired hfresh
  have hcached : ∀ id, h'.registrations.contains id = true ↔
      h'.registrations.connectors.get? id = some 0 := by
    intro id
    rw [Registrations.contains, Table.contains, Option.isSome_iff_exists]
    constructor
    · rintro ⟨k, hk⟩
      rw [hk, hw.served id k hk]
    · exact fun hid => ⟨0, hid⟩
  have hready : h'.ready 0 = true ↔ ∃ id, h'.registrations.contains id = true := by
    simp only [hcached]
    exact hr'.ready_iff_cached hfresh rfl
  refine ⟨hready, fun handler s e h'' hid hfail => ?_⟩
  rcases hfail with hfetch | hsubscribe
  · exact Act.fetchAll_isOther ⟨Act.plain_of_wired hw, hready.mpr ⟨_, hid⟩, hr'.faults hfaults⟩
      ((hcached _).mp hid) hfetch
  · exact Act.subscribe_isOther hw hsubscribe

/-- A hub that knows the registry inside the process and two instrumented types. -/
def threeTypes : Hub :=
  (({} : Hub).withLocalRegistry.registerProbed "probed" true none).registerProbed "own" false none

/-- Two ids that share an instrumented connector and one with the registry inside the process, after the first
of the two has left. -/
def lastSharer : Hub :=
  threeTypes.afterAll 0 [
    .create { id := "d1", registryType := "probed" },
    .create { id := "d2", registryType := "probed" },
    .create { id := "d3", registryType := "local" },
    .remove { id := "d1", registryType := "probed" }]

theorem closed_by_lastSharer :
    lastSharer.closed.count "c0" = 0 ∧
    (lastSharer.after 0 (.remove { id := "d2", registryType := "probed" })).closed.count "c0" = 1 ∧
    (lastSharer.ready 0 = true ↔ 0 < lastSharer.users 0) ∧ lastSharer.users 0 = 1 ∧
    ((create {} (.memory .empty)).after 0 (.create { id := "d1", registryType := "local" })).ready 0 = true := by
  have hu : threeTypes.Unused := (unused_default.withLocalRegistry.registerProbed _ _ _).registerProbed _ _ _
  have hr : Runs 0 (fun _ cmd => cmd.IsRegistration) threeTypes lastSharer := by
    refine runs_afterAll threeTypes fun _ cmd hcmd => ?_
    simp only [List.mem_cons, List.not_mem_nil, or_false] at hcmd
    rcases hcmd with rfl | rfl | rfl | rfl <;> exact trivial
  have hplain : Act.Plain 0 threeTypes := ⟨by decide, rfl⟩
  obtain ⟨hclosed, hready, hlocal⟩ := closed_when_unused hu hr
  have hlast := (hclosed (.remove { id := "d2", registryType := "probed" }) trivial).1 1 "c0"
    (by decide +kernel)
  have hnone : lastSharer.closed.count "c0" = 0 := by decide +kernel
  have hcreated : Runs 0 (fun _ _ => True) { create {} (.memory .empty) with faults := [] }
      ((create {} (.memory .empty)).after 0 (.create { id := "d1", registryType := "local" })) :=
    .step .refl trivial
  refine ⟨hnone, ?_, hready 0 hplain, by decide +kernel, ?_⟩
  · rw [hlast, hnone, if_pos (by decide +kernel)]
  · exact (hlocal {} _ [] _ nofun hcreated).1.mpr ⟨"d1", by decide +kernel⟩

end Hub

end RouteSync
