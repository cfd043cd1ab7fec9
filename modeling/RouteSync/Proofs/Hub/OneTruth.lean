import RouteSync.Proofs.Hub.Agreement
import RouteSync.Proofs.Hub.Lifetimes

/-!
# One truth

A subscription writes what changes under its key, a pass writes what the registry lists there, and both are
about the same records.  The listener that a subscription installs keeps every record of its handler to an
instance of the key (`Attended`), the first pass adds the instances that came before the subscription, and
from then on records and instances are the same, whatever is registered and taken off under any key, and no
later pass finds anything to write (`watch_and_reconcile_agree`).  The store has to tell owners apart, which
the embedded one does unless an owner holds a zero character (`exists_pass_deletes_foreign`).
-/

namespace RouteSync

/-- Instances come and go, and time passes. -/
def Command.IsTraffic : Command → Prop
  | .register _ _ => True
  | .deregister _ _ _ => True
  | .wait _ => True
  | _ => False

namespace Hub

variable {h h' h₀ : Hub} {c : ConnectorId} {cmd : Command} {handler : Handler} {s : Selector} {key : String}
  {change : RegistryChange} {x : SyncListener} {es : List Endpoint} {P : Hub → Command → Prop}

/-! ### Changes and what they write -/

/-- The store can write down what the change of a command makes a listener write. -/
def TakesChange (c : ConnectorId) (h : Hub) (cmd : Command) : Prop :=
  ∀ change x es, h.changeOf c cmd = some change → h.installed c change.key = some x →
    Payload.read x.mapping change.value = .ok es → h.TakesWrites (x.contexts.flatMap (x.writes es))

theorem InMemory.takesChange (hm : h.InMemory) : h.TakesChange c cmd :=
  fun _ _ _ _ _ _ w _ => hm.accepts _ w.1 w.2

/-- What need only be asked of the embedded store holds of the one in memory by itself. -/
theorem Runs.takesChange {b : Bool} (hr : Runs c (fun h cmd => P h cmd ∧ (b = true → h.TakesChange c cmd)) h₀ h)
    (hm : b = false → h₀.InMemory) : Runs c (fun h cmd => P h cmd ∧ h.TakesChange c cmd) h₀ h := by
  cases b with
  | true => exact hr.mono fun h cmd ha => ⟨ha.1, ha.2 rfl⟩
  | false =>
    induction hr with
    | refl => exact .refl
    | step hr ha ih => exact .step ih ⟨ha.1, (hr.inMemory (hm rfl)).takesChange⟩

theorem faultless_after (hf : h.faults = []) (cmd : Command) : (h.after c cmd).faults = [] := by
  have hnone : ∀ f ∈ h.faults, False := by
    rw [hf]
    exact nofun
  have hafter := (Act.steady_faults fun _ => False).always (c := c) (fun _ _ _ hh => hh) cmd h hnone
  exact List.eq_nil_iff_forall_not_mem.mpr hafter

/-- A change that is told to a listener is written for its routes. -/
theorem wrote_of_told (hw : Wired c (h.wiring c)) (hf : h.faults = []) (hs : h.Stocked) (hcmd : cmd.IsChange)
    (ht : h.TakesChange c cmd) (hch : h.changeOf c cmd = some change)
    (hx : h.installed c change.key = some x) (hread : Payload.read x.mapping change.value = .ok es)
    (hes : es ≠ []) : Wrote change.kind (x.contexts.flatMap (x.writes es)) h (h.after c cmd) := by
  have hdelivers := delivers_of_change hw hcmd hch hx hread hes
  have htake := ht change x es hch hx hread
  obtain ⟨h₁, hok⟩ := hdelivers.succeeds hf hs htake
  have hafter : h.after c cmd = h₁ := Act.left_of_ok hok
  rw [hafter]
  exact hdelivers.wrote hs htake h₁ hok

/-- A change leaves the contents alone or is written for the routes of the listener of its key. -/
theorem wrote_of_change (hw : Wired c (h.wiring c)) (hf : h.faults = []) (hs : h.Stocked) (hcmd : cmd.IsChange)
    (ht : h.TakesChange c cmd) : (h.after c cmd).contents = h.contents ∨
      ∃ change x es, h.changeOf c cmd = some change ∧ h.installed c change.key = some x ∧
        Wrote change.kind (x.contexts.flatMap (x.writes es)) h (h.after c cmd) := by
  rcases reached_of_change hw hcmd with hsame | ⟨change, x, h₁, hch, hx, hc₁, hrun⟩
  · exact .inl hsame
  · have hidle : ∀ {r : EStateM.Result Error Hub Unit}, Act.syncChange x change h₁ = r →
        (r = .ok () h₁ ∨ ∃ e, r = .error e h₁) → (h.after c cmd).contents = h.contents := by
      rintro r hr (rfl | ⟨e, rfl⟩)
      · rw [after, Act.left_of_ok (hrun.trans hr), hc₁]
      · rw [after, Act.left_of_error (hrun.trans hr), hc₁]
    cases hread : Payload.read x.mapping change.value with
    | error e =>
      refine .inl (hidle rfl ?_)
      unfold Act.syncChange
      split_ifs
      · exact .inl rfl
      · rw [hread]
        exact .inr ⟨_, rfl⟩
    | ok es =>
      cases es with
      | nil =>
        refine .inl (hidle rfl (.inl ?_))
        unfold Act.syncChange
        split_ifs
        · rfl
        · rw [hread]
          rfl
      | cons e es =>
        exact .inr ⟨change, x, e :: es, hch, hx,
          wrote_of_told hw hf hs hcmd ht hch hx hread (List.cons_ne_nil e es)⟩

/-! ### A handler that is attended to -/

/-- The records of a handler follow one key: the listener of this key writes for its route alone, and no
other listener writes for it. -/
structure Attended (c : ConnectorId) (h : Hub) (handler : Handler) (s : Selector) (key : String) : Prop where
  wired : Wired c (h.wiring c)
  cached : h.registrations.connectors.get? handler.discoveryId = some c
  watched : h.watchKey handler = key
  faultless : h.faults = []
  stocked : h.Stocked
  apart : h.store.Distinguishes handler.id
  distinct : h.Distinct c
  attends : ∃ x, h.installed c key = some x ∧ x.mapping = .plain ∧ x.contexts = [.ofHandler s handler]
  alone : ∀ k x, k ≠ key → h.installed c k = some x → ∀ route ∈ x.contexts, route.owner ≠ some handler.id

namespace Attended

variable (ha : h.Attended c handler s key)
include ha

theorem present : c < h.connectors.length := (Act.plain_of_wired ha.wired).present

theorem congr (hw : h'.wiring c = h.wiring c) (hf : h'.faults = []) (hs : h'.Stocked)
    (he : h'.store.isEmbedded = h.store.isEmbedded) (hd : h'.Distinct c) : h'.Attended c handler s key where
  wired := by
    rw [hw]
    exact ha.wired
  cached := by
    rw [show h'.registrations = h.registrations from congrArg Wiring.registrations hw]
    exact ha.cached
  watched := (congrArg (fun w => w.watchKey handler) hw).trans ha.watched
  faultless := hf
  stocked := hs
  apart := by
    unfold Store.Distinguishes
    rw [he]
    exact ha.apart
  distinct := hd
  attends := by
    unfold installed
    rw [hw]
    exact ha.attends
  alone := by
    unfold installed
    rw [hw]
    exact ha.alone

theorem reported : h.reported c key = h.instances c key := by
  unfold Hub.reported
  rw [(Act.plain_of_wired ha.wired).probe]
  rfl

end Attended

/-! ### Traffic -/

/-- What traffic does to the records of a handler and to the instances under its key. -/
inductive Follows (c : ConnectorId) (h h' : Hub) (handler : Handler) (key : String) : Prop
  | idle (hsame : SameOwned handler.id h h') (hinstances : h'.instances c key = h.instances c key)
  | placed {i : Instance} {kind : ChangeKind} {e : Endpoint} (hw : Wrote kind [(handler.id, e)] h h')
      (hkind : kind = .added ∨ kind = .updated) (he : e.url = i.url ∧ e.weight = i.weight ∧ e.status = i.status)
      (hinstances : ∀ j, j ∈ h'.instances c key ↔ j = i ∨ j ∈ h.instances c key ∧ j.url ≠ i.url)
  | removed {e : Endpoint} (hw : Wrote .deleted [(handler.id, e)] h h')
      (hinstances : ∀ j, j ∈ h'.instances c key ↔ j ∈ h.instances c key ∧ j.url ≠ e.url)

theorem Follows.within (hf : Follows c h h' handler key) (hw : h.Within handler.id (h.instances c key)) :
    h'.Within handler.id (h'.instances c key) := by
  cases hf with
  | idle hsame hinstances =>
    rw [hinstances]
    exact hw.congr hsame
  | placed hwrote hkind he hinstances => exact within_of_upsert hinstances hwrote hkind he hw
  | removed hwrote hinstances => exact within_of_delete hinstances hwrote hw

theorem Follows.covers (hf : Follows c h h' handler key) (hc : h.Covers handler.id (h.instances c key)) :
    h'.Covers handler.id (h'.instances c key) := by
  cases hf with
  | idle hsame hinstances =>
    rw [hinstances]
    exact hc.congr hsame
  | placed hwrote hkind he hinstances => exact covers_of_upsert hinstances hwrote hkind he hc
  | removed hwrote hinstances => exact covers_of_delete hinstances hwrote hc

theorem Follows.agrees (hf : Follows c h h' handler key) (ha : h.Agrees handler.id (h.instances c key)) :
    h'.Agrees handler.id (h'.instances c key) := by
  obtain ⟨hwithin, hcovers⟩ := agrees_iff.mp ha
  exact agrees_iff.mpr ⟨hf.within hwithin, hf.covers hcovers⟩

namespace Attended

variable (ha : h.Attended c handler s key)
include ha

/-- What the listener of the key is told about an instance, it writes for the handler. -/
theorem wrote_here {kind : ChangeKind} {i : Instance} (hcmd : cmd.IsChange) (ht : h.TakesChange c cmd)
    (hch : h.changeOf c cmd = some (LocalRegistry.change key kind i)) :
    ∃ e, Wrote kind [(handler.id, e)] h (h.after c cmd) ∧
      e.url = i.url ∧ e.weight = i.weight ∧ e.status = i.status := by
  obtain ⟨x, hx, hplain, hcontexts⟩ := ha.attends
  have hread : Payload.read x.mapping (LocalRegistry.change key kind i).value =
      .ok [LocalRegistry.described i] := by
    rw [hplain]
    exact LocalRegistry.read_payload i
  have hwrote := wrote_of_told ha.wired ha.faultless ha.stocked hcmd ht hch hx hread (List.cons_ne_nil _ _)
  rw [hcontexts] at hwrote
  exact ⟨x.stamp (.ofHandler s handler) handler.id (LocalRegistry.described i), hwrote, rfl, rfl, rfl⟩

/-- A change of another key is written for others. -/
theorem sameOwned_of_elsewhere (hcmd : cmd.IsChange) (ht : h.TakesChange c cmd)
    (hk : ∀ change, h.changeOf c cmd = some change → change.key ≠ key) :
    SameOwned handler.id h (h.after c cmd) := by
  rcases wrote_of_change ha.wired ha.faultless ha.stocked hcmd ht with hsame | ⟨change, x, es, hch, hx, hwrote⟩
  · exact .of_contents hsame
  · intro r ho
    refine hwrote.others_of_owner fun route hroute => ?_
    rw [ho]
    exact ha.alone change.key x (hk change hch) hx route hroute

theorem follows_register (k : String) (i : Instance) (ht : h.TakesChange c (.register k i)) :
    Follows c h (h.after c (.register k i)) handler key := by
  have hcmd : (Command.register k i).IsChange := trivial
  obtain ⟨helse, hhere⟩ := mem_instances_register ha.present ha.distinct k i
  by_cases hk : key = k
  · subst hk
    obtain ⟨e, hwrote, he⟩ := ha.wrote_here hcmd ht rfl
    exact .placed hwrote (Act.kind_register _ _ _) he hhere
  · refine .idle (ha.sameOwned_of_elsewhere hcmd ht ?_) (helse key hk)
    rintro change hch rfl
    exact hk (congrArg RegistryChange.key (Option.some.inj hch)).symm

theorem follows_deregister (k host : String) (tcpPort : UInt16)
    (ht : h.TakesChange c (.deregister k host tcpPort)) :
    Follows c h (h.after c (.deregister k host tcpPort)) handler key := by
  have hcmd : (Command.deregister k host tcpPort).IsChange := trivial
  obtain ⟨helse, hhere⟩ := mem_instances_deregister ha.present ha.distinct k host tcpPort
  cases hd : (h.connector c).registry.deregister k host tcpPort with
  | none =>
    -- nothing is taken off, and nobody is told
    have hrun : h.after c (.deregister k host tcpPort) = h := Act.left_of_ok (Act.deregisterInstance_none hd)
    rw [hrun]
    exact .idle (fun _ _ => Iff.rfl) rfl
  | some p =>
    have hch : h.changeOf c (.deregister k host tcpPort) = some (LocalRegistry.change k .deleted p.1) := by
      simp [changeOf, hd]
    by_cases hk : key = k
    · subst hk
      obtain ⟨e, hwrote, hurl, -⟩ := ha.wrote_here hcmd ht hch
      obtain ⟨-, haddress, -⟩ := LocalRegistry.deregister_eq_some hd
      refine .removed hwrote fun j => ?_
      rw [hurl, haddress]
      exact hhere j
    · refine .idle (ha.sameOwned_of_elsewhere hcmd ht ?_) (helse key hk)
      rintro change hch' rfl
      rw [hch] at hch'
      exact hk (congrArg RegistryChange.key (Option.some.inj hch')).symm

/-- **Traffic is followed** by the records of the handler. -/
theorem follows (hcmd : cmd.IsTraffic) (ht : h.TakesChange c cmd) :
    Follows c h (h.after c cmd) handler key := by
  cases cmd with
  | register k i => exact ha.follows_register k i ht
  | deregister k host tcpPort => exact ha.follows_deregister k host tcpPort ht
  | wait now => exact .idle (fun _ _ => Iff.rfl) rfl
  | _ => cases hcmd

/-- **Traffic** leaves a handler attended. -/
theorem after_traffic (hcmd : cmd.IsTraffic) (ht : h.TakesChange c cmd) :
    (h.after c cmd).Attended c handler s key := by
  have hchange : cmd.IsChange → (h.after c cmd).Attended c handler s key := by
    intro hch
    have hkept : (h.after c cmd).Stocked ∧ (h.after c cmd).store.isEmbedded = h.store.isEmbedded := by
      rcases wrote_of_change ha.wired ha.faultless ha.stocked hch ht with hsame | ⟨_, _, _, -, -, hwrote⟩
      · exact ⟨ha.stocked.congr hsame, by rw [(contents_eq_iff.mp hsame).1]⟩
      · exact ⟨hwrote.stocked, hwrote.isEmbedded⟩
    exact ha.congr (Act.keeps_wiring_change hch) (faultless_after ha.faultless cmd) hkept.1 hkept.2
      (ha.distinct.after ha.present cmd)
  cases cmd with
  | register k i => exact hchange trivial
  | deregister k host tcpPort => exact hchange trivial
  | wait now => exact ha.congr rfl ha.faultless (ha.stocked.of_store rfl rfl) rfl ha.distinct
  | _ => cases hcmd

/-! ### Passes -/

/-- A pass leaves wiring and instances alone. -/
theorem after_fetch (hok : Act.fetchAll handler s h = .ok () h') (hs : h'.Stocked)
    (he : h'.store.isEmbedded = h.store.isEmbedded) :
    h'.Attended c handler s key ∧ h'.instances c = h.instances c := by
  have hcmd : ¬ (Command.fetch handler s).IsChange := not_false
  have hafter : h.after c (.fetch handler s) = h' := Act.left_of_ok hok
  have hwiring : h'.wiring c = h.wiring c := by
    rw [← hafter]
    exact Act.keeps_wiring_fetchAll handler s h
  have hinstances : h'.instances c = h.instances c := by
    rw [← hafter]
    exact (instances_of_not_change ha.present hcmd).2
  have hfaults : h'.faults = [] := by
    rw [← hafter]
    exact faultless_after ha.faultless _
  exact ⟨ha.congr hwiring hfaults hs he (ha.distinct.congr hinstances), hinstances⟩

/-- **The first pass** adds what has been there before the subscription. -/
theorem agrees_of_fetch (hwithin : h.Within handler.id (h.instances c key))
    (ht : h.TakesNew handler s (h.instances c key)) (hok : Act.fetchAll handler s h = .ok () h') :
    h'.Attended c handler s key ∧ h'.Agrees handler.id (h'.instances c key) := by
  have htake : h.TakesNew handler s (h.reported c (h.watchKey handler)) := by
    rw [ha.watched, ha.reported]
    exact ht
  have hpassed := passed_of_fetchAll ha.stocked.sound ha.stocked.fresh htake ha.cached hok
  rw [ha.watched, ha.reported] at hpassed
  obtain ⟨hstocked, hembedded⟩ := Act.stocked_of_fetchAll ha.stocked ha.apart htake ha.cached hok
  obtain ⟨hattended, hinstances⟩ := ha.after_fetch hok hstocked hembedded
  refine ⟨hattended, ?_⟩
  rw [hinstances]
  exact hpassed.agrees ha.stocked ha.apart (ha.distinct key) hwithin

/-- **A later pass** finds nothing to write. -/
theorem settled (hagrees : h.Agrees handler.id (h.instances c key)) :
    ∃ h', Act.fetchAll handler s h = .ok () h' ∧ h'.store = h.store ∧
      h'.storeCalls = h.storeCalls ++ [.select handler.id] ∧ h'.Attended c handler s key ∧
      h'.Agrees handler.id (h'.instances c key) := by
  have hurls : ∀ u, (∃ r ∈ h.store, r.owner = handler.id ∧ r.url = u) ↔
      ∃ i ∈ h.instances c (h.watchKey handler), i.url = u := by
    obtain ⟨hwithin, hcovers⟩ := agrees_iff.mp hagrees
    intro u
    rw [ha.watched]
    constructor
    · rintro ⟨r, hr, ho, rfl⟩
      obtain ⟨i, hi, hshow⟩ := hwithin r hr ho
      exact ⟨i, hi, hshow.url.symm⟩
    · rintro ⟨i, hi, rfl⟩
      obtain ⟨r, hr, ho, hshow⟩ := hcovers i hi
      exact ⟨r, hr, ho, hshow.url⟩
  obtain ⟨h', hok, hstore, hdrawn, hcalls⟩ :=
    Act.fetchAll_settled (s := s) ha.wired ha.faultless ha.stocked ha.apart ha.cached hurls
  obtain ⟨hattended, hinstances⟩ :=
    ha.after_fetch hok (ha.stocked.of_store hstore hdrawn) (congrArg Store.isEmbedded hstore)
  refine ⟨h', hok, hstore, hcalls, hattended, ?_⟩
  unfold Agrees
  rw [hinstances, hstore]
  exact hagrees

end Attended

/-! ### Subscriptions -/

theorem attended_of_subscribe (hw : Wired c (h.wiring c)) (hf : h.faults = []) (hs : h.Stocked)
    (hz : h.store.Distinguishes handler.id) (hd : c < h.connectors.length ∧ h.Distinct c)
    (hblank : Text.isBlank handler.mapping = true) (hadmits : h.Admits handler)
    (halone : ∀ k x, h.installed c k = some x → ∀ route ∈ x.contexts, route.owner ≠ some handler.id)
    (hok : Act.subscribe handler s h = .ok () h') :
    h'.Attended c handler s (h.watchKey handler) ∧ h'.store = h.store ∧ h'.instances c = h.instances c := by
  obtain ⟨k, hcached⟩ := Option.isSome_iff_exists.mp hadmits.1
  obtain rfl := hw.served _ _ hcached
  have hcmd : ¬ (Command.subscribe handler s).IsChange := not_false
  have hafter : h.after k (.subscribe handler s) = h' := Act.left_of_ok hok
  obtain ⟨h₁, hok₁, hwiring, hstore, hdrawn⟩ :=
    Act.subscribe_wired hw s hcached hadmits.2 (Mapping.read_of_isBlank hblank)
  rw [hok] at hok₁
  cases hok₁
  have hinstances : h'.instances k = h.instances k := by
    rw [← hafter]
    exact (instances_of_not_change hd.1 hcmd).2
  refine ⟨?_, hstore, hinstances⟩
  have hinstalled : ∀ key, h'.installed k key = ((h.wiring k).watch ⟨.plain, [.ofHandler s handler],
      handler.discoveryId, h.settings.defaultProtocol⟩ (h.watchKey handler)).installed key := by
    intro key
    unfold installed
    rw [hwiring]
  refine ⟨?_, ?_, ?_, ?_, hs.of_store hstore hdrawn, ?_, hd.2.congr hinstances, ?_, ?_⟩
  · rw [← hafter]
    exact hw.step (Act.step_wiring hw _)
  · rw [show h'.registrations = _ from congrArg Wiring.registrations hwiring]
    exact (congrArg (fun t => t.get? handler.discoveryId) Registrations.connectors_track).trans hcached
  · exact congrArg (fun w => w.watchKey handler) hwiring
  · rw [← hafter]
    exact faultless_after hf _
  · rw [hstore]
    exact hz
  · exact ⟨_, (hinstalled _).trans Wiring.installed_watch_self, rfl, rfl⟩
  · intro key x hkey hx
    rw [hinstalled, Wiring.installed_watch_of_ne hw hkey] at hx
    exact halone key x hx

/-! ### Runs -/

/-- Until the first pass every record shows an instance. -/
theorem Runs.within (hr : Runs c (fun h cmd => cmd.IsTraffic ∧ h.TakesChange c cmd) h₀ h)
    (ha : h₀.Attended c handler s key) (hw : h₀.Within handler.id (h₀.instances c key)) :
    h.Attended c handler s key ∧ h.Within handler.id (h.instances c key) := by
  induction hr with
  | refl => exact ⟨ha, hw⟩
  | step _ hcmd ih => exact ⟨ih.1.after_traffic hcmd.1 hcmd.2, (ih.1.follows hcmd.1 hcmd.2).within ih.2⟩

/-- From the first pass on, records and instances agree. -/
theorem Runs.agrees
    (hr : Runs c (fun h cmd => (cmd.IsTraffic ∨ cmd = .fetch handler s) ∧ h.TakesChange c cmd) h₀ h)
    (ha : h₀.Attended c handler s key) (hagrees : h₀.Agrees handler.id (h₀.instances c key)) :
    h.Attended c handler s key ∧ h.Agrees handler.id (h.instances c key) := by
  induction hr with
  | refl => exact ⟨ha, hagrees⟩
  | @step h cmd _ hcmd ih =>
    obtain ⟨ha, hagrees⟩ := ih
    obtain ⟨htraffic | rfl, ht⟩ := hcmd
    · exact ⟨ha.after_traffic htraffic ht, (ha.follows htraffic ht).agrees hagrees⟩
    · obtain ⟨h', hok, -, -, hdone⟩ := ha.settled hagrees
      have hafter : h.after c (.fetch handler s) = h' := Act.left_of_ok hok
      rw [hafter]
      exact hdone

/-- **One truth.**  A handler with a blank mapping subscribes a key, no other route is bound to its id, and it
has no records; then instances come and go under any keys, and one pass succeeds.  From then on its records are
exactly the instances under the key, by address, weight and status, whatever instances come and go and however
often a pass is made in between; and every further pass succeeds, asks the store for the records once and
writes nothing.  Of the embedded store this is so if no owner holds a zero character and what is written fits. -/
theorem watch_and_reconcile_agree {settings : DiscoverySettings} {store : Store} {h h₁ h₂ h₃ h' : Hub}
    {handler : Handler} {s : Selector} (hstore : store.Reached) (hfresh : (create settings store).DrawsFresh)
    (hr : Runs 0 (fun _ _ => True) (create settings store) h)
    (hembedded : store.isEmbedded = true → h.Stocked ∧ '\x00' ∉ handler.id.toList)
    (hblank : Text.isBlank handler.mapping = true) (hadmits : h.Admits handler)
    (halone : ∀ key x, h.installed 0 key = some x → ∀ route ∈ x.contexts, route.owner ≠ some handler.id)
    (hnone : ∀ r ∈ h.store, r.owner ≠ handler.id) (hsubscribe : Act.subscribe handler s h = .ok () h₁)
    (hwait : Runs 0 (fun h cmd => cmd.IsTraffic ∧ (store.isEmbedded = true → h.TakesChange 0 cmd)) h₁ h₂)
    (htake : store.isEmbedded = true → h₂.TakesNew handler s (h₂.instances 0 (h.watchKey handler)))
    (hfetch : Act.fetchAll handler s h₂ = .ok () h₃)
    (hlater : Runs 0 (fun h cmd => (cmd.IsTraffic ∨ cmd = .fetch handler s) ∧
      (store.isEmbedded = true → h.TakesChange 0 cmd)) h₃ h') :
    h'.Agrees handler.id (h'.instances 0 (h.watchKey handler)) ∧
      ∃ h'', Act.fetchAll handler s h' = .ok () h'' ∧ h''.store = h'.store ∧
        h''.storeCalls = h'.storeCalls ++ [.select handler.id] := by
  have hw : Wired 0 (h.wiring 0) := hr.wired (fresh_create settings store)
  have hfaults : h.faults = [] := List.eq_nil_iff_forall_not_mem.mpr (hr.faults (p := fun _ => False) nofun)
  -- the store in memory needs no assumption about what is in it
  have hmemory : store.isEmbedded = false → h.InMemory ∧ h₁.InMemory ∧ h₂.InMemory ∧ h₃.InMemory := by
    intro he
    have hm : h.InMemory := hr.inMemory ⟨he, hstore.sound, hfresh⟩
    have hm₁ : h₁.InMemory := by
      rw [← Act.left_of_ok hsubscribe]
      exact Act.enduring_inMemory.act (c := 0) (.subscribe handler s) h hm
    have hm₂ : h₂.InMemory := hwait.inMemory hm₁
    refine ⟨hm, hm₁, hm₂, ?_⟩
    rw [← Act.left_of_ok hfetch]
    exact Act.enduring_inMemory.act (c := 0) (.fetch handler s) h₂ hm₂
  have hstocked : h.Stocked ∧ h.store.Distinguishes handler.id ∧
      h₂.TakesNew handler s (h₂.instances 0 (h.watchKey handler)) := by
    cases he : store.isEmbedded with
    | true => exact ⟨(hembedded he).1, fun _ => (hembedded he).2, htake he⟩
    | false =>
      obtain ⟨hm, -, hm₂, -⟩ := hmemory he
      exact ⟨hm.stocked, hm.distinguishes handler.id, fun _ _ _ _ => hm₂.takes _⟩
  obtain ⟨hstock, hapart, hnew⟩ := hstocked
  have hdistinct := hr.distinct (fresh_create settings store).plain.present (distinct_create settings store)
  -- before the subscription there is no record to be shown
  obtain ⟨ha₁, hstore₁, -⟩ :=
    attended_of_subscribe hw hfaults hstock hapart hdistinct hblank hadmits halone hsubscribe
  have hwithin₁ : h₁.Within handler.id (h₁.instances 0 (h.watchKey handler)) := by
    intro r hr ho
    rw [hstore₁] at hr
    exact absurd ho (hnone r hr)
  obtain ⟨ha₂, hwithin₂⟩ := (hwait.takesChange fun he => (hmemory he).2.1).within ha₁ hwithin₁
  obtain ⟨ha₃, hagrees₃⟩ := ha₂.agrees_of_fetch hwithin₂ hnew hfetch
  obtain ⟨ha', hagrees'⟩ := (hlater.takesChange fun he => (hmemory he).2.2.2).agrees ha₃ hagrees₃
  obtain ⟨h'', hok, hsame, hcalls, -⟩ := ha'.settled hagrees'
  exact ⟨hagrees', h'', hok, hsame, hcalls⟩

/-- A handler that follows a key, and its selector. -/
def follower : Handler := { id := "h", discoveryId := "d1", listenerNode := "/k" }

def followed : Selector := ⟨"s1", "one", "p", "ns"⟩

/-- An instance comes before the subscription, one before the first pass and one under another key after it;
the first one leaves, and the second one changes. -/
theorem watch_and_reconcile_agree_after_traffic :
    let h := (create {} (.memory .empty)).afterAll 0 [
      .create { id := "d1", registryType := "local" }, .register "/k" ⟨"a", 1, 50, 0⟩]
    let h₁ := h.after 0 (.subscribe follower followed)
    let h₂ := h₁.afterAll 0 [.register "/k" ⟨"b", 2, 50, 0⟩]
    let h₃ := h₂.after 0 (.fetch follower followed)
    let h' := h₃.afterAll 0 [.wait 7, .register "/other" ⟨"a", 1, 50, 0⟩, .deregister "/k" "a" 1,
      .fetch follower followed, .register "/k" ⟨"b", 2, 99, 1⟩]
    h'.instances 0 "/k" = [⟨"b", 2, 99, 1⟩] ∧ h'.Agrees "h" (h'.instances 0 "/k") ∧
      ∃ h'', Act.fetchAll follower followed h' = .ok () h'' ∧ h''.store = h'.store ∧
        h''.storeCalls = h'.storeCalls ++ [.select "h"] := by
  intro h h₁ h₂ h₃ h'
  have hr : Runs 0 (fun _ _ => True) (create {} (.memory .empty)) h := runs_afterAll _ fun _ _ _ => trivial
  have hadmits : h.Admits follower := by decide +kernel
  have hunwatched : ∀ key, h.installed 0 key = none := by
    have hentries : (h.wiring 0).watchers.entries = [] := by decide +kernel
    intro key
    have hno : (h.wiring 0).watchers.get? key = none := by
      unfold Table.get?
      rw [hentries]
      rfl
    unfold installed Wiring.installed
    rw [hno]
    rfl
  have hempty : ∀ r ∈ h.store, r.owner ≠ follower.id := by
    intro r hr
    have hnothing : h.store.find? r.id = none := rfl
    rw [Store.mem_iff, hnothing] at hr
    cases hr
  have hwait : Runs 0 (fun h cmd => cmd.IsTraffic ∧ (false = true → h.TakesChange 0 cmd)) h₁ h₂ := by
    refine runs_afterAll h₁ fun _ cmd hcmd => ⟨?_, nofun⟩
    rw [List.mem_singleton.mp hcmd]
    exact trivial
  have hlater : Runs 0 (fun h cmd => (cmd.IsTraffic ∨ cmd = .fetch follower followed) ∧
      (false = true → h.TakesChange 0 cmd)) h₃ h' := by
    refine runs_afterAll h₃ fun _ cmd hcmd => ⟨?_, nofun⟩
    simp only [List.mem_cons, List.not_mem_nil, or_false] at hcmd
    rcases hcmd with rfl | rfl | rfl | rfl | rfl
    · exact .inl trivial
    · exact .inl trivial
    · exact .inl trivial
    · exact .inr rfl
    · exact .inl trivial
  have hsubscribe := Act.eq_ok_of_isOk
    (show (Act.subscribe follower followed).isOk h = true by decide +kernel)
  have hfetch := Act.eq_ok_of_isOk
    (show (Act.fetchAll follower followed).isOk h₂ = true by decide +kernel)
  refine ⟨by decide +kernel, ?_⟩
  exact watch_and_reconcile_agree .memory (fun _ _ => rfl) hr nofun (by decide) hadmits
    (fun key x hx => by rw [hunwatched] at hx; cases hx) hempty hsubscribe hwait nofun hfetch hlater

/-- With zero characters in owners a later pass over the embedded store may delete a record of another
handler, which has been written by the listener of another key. -/
theorem exists_pass_deletes_foreign :
    let foreign : Handler := { id := "h\x00x", discoveryId := "d1", listenerNode := "/other" }
    let h := (probed (.embedded .empty)).afterAll 0 [
      .create { id := "d1", registryType := "local" }, .subscribe foreign ⟨"s2", "two", "p", "ns"⟩]
    let h₁ := h.after 0 (.subscribe follower followed)
    let h₂ := h₁.after 0 (.fetch follower followed)
    let h₃ := h₂.after 0 (.register "/other" ⟨"a", 1, 50, 0⟩)
    let h₄ := h₃.after 0 (.fetch follower followed)
    h.Admits follower ∧ (h.store.select "h").toOption = some [] ∧
      (Act.subscribe follower followed).isOk h = true ∧ (Act.fetchAll follower followed).isOk h₁ = true ∧
      (Act.fetchAll follower followed).isOk h₃ = true ∧
      (h₃.store.find? "gen-1").map StoredEndpoint.owner = some "h\x00x" ∧
      (h₄.storeCalls.drop h₃.storeCalls.length).map StoreCall.name = ["select", "delete_by_ids"] ∧
      h₄.store.find? "gen-1" = none := by
  decide +kernel

end Hub

end RouteSync
