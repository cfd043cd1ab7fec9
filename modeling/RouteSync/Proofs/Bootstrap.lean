import RouteSync.Node
import RouteSync.Proofs.Hub.Enrolment

/-!
# Coming up and going down

A node creates the registrations of its settings one after another and removes them again at its end.
Settings that pass validation name no id twice, so every registration that has no flaw joins a hub that does
not know its id (`createDiscovery_of_sound`), and one that has a flaw ends the start before anything is done
for it (`createDiscovery_of_flaw`).  While the node is up, commands that neither create nor remove a
registration let the ids stay; at the end the ids leave in their order, and the connector that they share is
closed as the last of them goes (`metrics_of_removals`).  So a node goes down with what it came up with
(`start_and_stop_balance`).
-/

namespace RouteSync

/-! ### Registrations that cannot be created -/

/-- Why a registration cannot be created on a node, which knows the registry inside the process alone. -/
def Registration.flaw? (r : Registration) : Option Error :=
  match FlatObject.read "discovery props" r.props with
  | .error e => some (.invalid e)
  | .ok _ =>
    if normalizedType r.registryType = "" then some (.invalid .blankRegistryType)
    else if normalizedType r.registryType = LocalRegistry.kindName then none
    else some (.registry (.unknownType (normalizedType r.registryType)))

/-- The ids of registrations that pass the check are given and differ, also from those seen before. -/
theorem nodup_of_checkIds {l : List Registration} {seen : List String} (h : checkIds seen l = .ok ()) :
    (l.map Registration.id).Nodup ∧ ∀ r ∈ l, Text.isBlank r.id = false ∧ r.id ∉ seen := by
  induction l generalizing seen with
  | nil => exact ⟨List.nodup_nil, nofun⟩
  | cons r l ih =>
    unfold checkIds at h
    split_ifs at h with hblank hseen
    obtain ⟨hnodup, hrest⟩ := ih h
    rw [List.map_cons, List.nodup_cons, List.forall_mem_cons]
    refine ⟨⟨?_, hnodup⟩, ⟨by simpa using hblank, by simpa using hseen⟩, fun x hx => ?_⟩
    · intro hid
      obtain ⟨x, hx, hsame⟩ := List.mem_map.mp hid
      exact (hrest x hx).2 (hsame ▸ List.mem_cons_self)
    · exact ⟨(hrest x hx).1, fun hin => (hrest x hx).2 (List.mem_cons_of_mem _ hin)⟩

theorem OnFiles.bind_eq_ok {α β : Type} {a : OnFiles α} {f : α → OnFiles β} {t t' : FileTree} {y : β}
    (h : (a >>= f) t = .ok y t') : ∃ x t₁, a t = .ok x t₁ ∧ f x t₁ = .ok y t' := by
  replace h : EStateM.bind a f t = .ok y t' := h
  unfold EStateM.bind at h
  cases ha : a t with
  | ok x t₁ => exact ⟨x, t₁, rfl, by rw [ha] at h; exact h⟩
  | error e t₁ => rw [ha] at h; cases h

theorem Settings.nodup_of_validate {s : Settings} {files files' : FileTree}
    (h : s.validate files = .ok () files') : (s.registrations.map Registration.id).Nodup := by
  obtain ⟨-, t₁, -, h⟩ := OnFiles.bind_eq_ok h
  obtain ⟨-, t₂, -, h⟩ := OnFiles.bind_eq_ok h
  obtain ⟨-, t₃, -, h⟩ := OnFiles.bind_eq_ok h
  obtain ⟨-, t₄, -, h⟩ := OnFiles.bind_eq_ok h
  cases hids : checkIds [] s.registrations with
  | ok => exact (nodup_of_checkIds hids).1
  | error e => rw [hids] at h; cases h

namespace Hub

/-- A registration has joined connector `c`, which is set up for it. -/
def enrolled (c : ConnectorId) (h : Hub) (r : Registration) : Hub :=
  let h := (h.modifyConnector c fun k => { k with registry := k.registry.setUp }).count
    (.lifecycle r.registryType "init") 1
  { h with registrations := h.registrations.add r.id c, metrics := h.metrics.moveActive 1 }

/-- The registry inside the process is the only type, and its connector is `c`. -/
structure LocalOnly (c : ConnectorId) (h : Hub) : Prop where
  plain : Act.Plain c h
  providers : ∀ t, h.providers.get? t = if LocalRegistry.kindName = t then some (.shared c) else none

/-- The connectors that are cached are those of these registrations, in their order. -/
def Caches (c : ConnectorId) (l : List Registration) (h : Hub) : Prop :=
  h.registrations.connectors.entries = l.map fun r => (r.id, c)

variable {c : ConnectorId} {h h₀ : Hub} {r : Registration} {l : List Registration}

theorem localOnly_create (settings : DiscoverySettings) (store : Store) :
    (create settings store).LocalOnly 0 where
  plain := (fresh_create settings store).plain
  providers t := by
    have hname : normalizedType LocalRegistry.kindName = LocalRegistry.kindName := by decide
    show (Table.insert .empty (normalizedType LocalRegistry.kindName) (Provider.shared 0)).get? t = _
    rw [Table.get?_insert, hname]
    rfl

theorem LocalOnly.enrolled (hl : h.LocalOnly c) (r : Registration) : (h.enrolled c r).LocalOnly c where
  plain := by
    have hlen : (h.enrolled c r).connectors.length = h.connectors.length := length_modifyConnector ..
    have hconn : (h.enrolled c r).connector c =
        { h.connector c with registry := (h.connector c).registry.setUp } :=
      connector_modifyConnector hl.plain.present _
    exact ⟨hlen ▸ hl.plain.present, hconn ▸ hl.plain.probe⟩
  providers := hl.providers

end Hub

namespace Act

open Hub

variable {c : ConnectorId} {h h₀ : Hub} {r : Registration} {l : List Registration}

/-- **A registration without a flaw** joins a hub that does not know its id. -/
theorem createDiscovery_of_sound (hl : h.LocalOnly c) (hid : h.registrations.contains r.id = false)
    (hr : r.flaw? = none) : createDiscovery r h = .ok () (h.enrolled c r) := by
  refine discard_of_ok (x := true) ?_
  unfold register
  rw [get_bind, if_neg (by simp [hid])]
  unfold Registration.flaw? at hr
  cases hprops : FlatObject.read "discovery props" r.props with
  | error e => rw [hprops] at hr; cases hr
  | ok props =>
    rw [hprops] at hr
    dsimp only at hr
    split_ifs at hr with hblank hlocal
    have hread : (ofExcept .invalid (.ok props) : Act (Table String String)) h = .ok props h := rfl
    have hconnector : createConnector r.registryType h = .ok c h := by
      unfold createConnector
      dsimp only
      rw [if_neg hblank, get_bind, hl.providers, if_pos hlocal.symm]
      rfl
    have hset : setUpRegistry c ⟨r.registryType, r.servers, props⟩ h =
        .ok () (h.modifyConnector c fun k => { k with registry := k.registry.setUp }) := by
      unfold setUpRegistry
      rw [bind_of_ok (registryCall_plain hl.plain _)]
      rfl
    rw [bind_of_ok hread, bind_of_ok hconnector, bind_of_ok hset]
    rfl

/-- **A registration with a flaw** is refused with it, and nothing is done. -/
theorem createDiscovery_of_flaw (hl : h.LocalOnly c) (hid : h.registrations.contains r.id = false)
    {e : Error} (hr : r.flaw? = some e) : createDiscovery r h = .error e h := by
  refine discard_of_error ?_
  unfold register
  rw [get_bind, if_neg (by simp [hid])]
  unfold Registration.flaw? at hr
  cases hprops : FlatObject.read "discovery props" r.props with
  | error err =>
    rw [hprops] at hr
    obtain rfl := Option.some.inj hr
    rfl
  | ok props =>
    rw [hprops] at hr
    have hread : (ofExcept .invalid (.ok props) : Act (Table String String)) h = .ok props h := rfl
    have hconnector : createConnector r.registryType h = .error e h := by
      unfold createConnector
      dsimp only at hr ⊢
      split_ifs at hr with hblank hlocal
      · obtain rfl := Option.some.inj hr
        rw [if_pos hblank]
        rfl
      · obtain rfl := Option.some.inj hr
        rw [if_neg hblank, get_bind, hl.providers, if_neg (Ne.symm hlocal)]
        rfl
    rw [bind_of_ok hread, bind_of_error hconnector]

/-! ### Coming up -/

/-- What a hub is when registrations have joined it one after another. -/
structure Enlisted (c : ConnectorId) (l : List Registration) (h₀ h : Hub) : Prop where
  localOnly : h.LocalOnly c
  cached : h.Caches c l
  watchKeys : h.registrations.watchKeys.entries = l.map fun r => (r.id, .empty)
  gauge : h.metrics.active = h₀.metrics.active + l.length
  unclosed (t : String) : h.metrics.count (.lifecycle t "close") = h₀.metrics.count (.lifecycle t "close")
  runs : Runs c (fun _ cmd => cmd.IsRegistration) h₀ h

theorem Enlisted.nil (hl : h₀.LocalOnly c) (h0 : h₀.registrations = {}) : Enlisted c [] h₀ h₀ where
  localOnly := hl
  cached := by rw [Caches, h0]; rfl
  watchKeys := by rw [h0]; rfl
  gauge := (Int.add_zero _).symm
  unclosed _ := rfl
  runs := .refl

theorem Enlisted.contains_eq_false (he : Enlisted c l h₀ h) {id : String}
    (hid : id ∉ l.map Registration.id) : h.registrations.contains id = false := by
  rw [Bool.eq_false_iff, Ne, Registrations.contains, Table.contains_iff, Table.keys, he.cached, List.map_map]
  exact hid

theorem Enlisted.enrolled (he : Enlisted c l h₀ h) (hid : r.id ∉ l.map Registration.id)
    (hr : r.flaw? = none) : Enlisted c (l ++ [r]) h₀ (h.enrolled c r) := by
  have hnew := he.contains_eq_false hid
  have hunkeyed : h.registrations.watchKeys.get? r.id = none := by
    rw [← Option.isNone_iff_eq_none, ← Option.isSome_eq_false_iff, Bool.eq_false_iff]
    intro hin
    refine hid ?_
    have hkey : r.id ∈ h.registrations.watchKeys.keys := (Table.contains_iff _ _).mp hin
    rw [Table.keys, he.watchKeys, List.map_map] at hkey
    exact hkey
  refine ⟨he.localOnly.enrolled r, ?_, ?_, ?_, fun t => ?_, ?_⟩
  · rw [Caches, List.map_append, ← he.cached]
    exact Table.assign_of_find_eq_none (not_contains_iff.mp hnew)
  · rw [List.map_append, ← he.watchKeys]
    exact Table.assign_of_find_eq_none hunkeyed
  · show h.metrics.active + 1 = _
    rw [he.gauge, List.length_append, List.length_singleton]
    omega
  · refine Eq.trans ?_ (he.unclosed t)
    show (h.metrics.add (.lifecycle r.registryType "init") 1).count (.lifecycle t "close") = _
    rw [Metrics.count_add, if_neg (by simp)]
  · have hafter : h.after c (.create r) = h.enrolled c r :=
      left_of_ok (createDiscovery_of_sound he.localOnly hnew hr)
    exact hafter ▸ .step he.runs trivial

/-- Registrations without flaws all join. -/
theorem createAll_of_sound {l' : List Registration} (he : Enlisted c l h₀ h)
    (hids : ((l ++ l').map Registration.id).Nodup) (hsound : ∀ r ∈ l', r.flaw? = none) :
    ∃ h', createAll l' h = .ok () h' ∧ Enlisted c (l ++ l') h₀ h' := by
  induction l' generalizing l h with
  | nil => exact ⟨h, rfl, by rwa [List.append_nil]⟩
  | cons r l' ih =>
    have hsplit : l ++ r :: l' = (l ++ [r]) ++ l' := by simp
    have hid : r.id ∉ l.map Registration.id := by
      rw [List.map_append, List.nodup_append] at hids
      exact fun hin => hids.2.2 _ hin _ List.mem_cons_self rfl
    have hnew := he.contains_eq_false hid
    have hr := hsound r List.mem_cons_self
    obtain ⟨h', hrest, he'⟩ := ih (he.enrolled hid hr) (hsplit ▸ hids)
      fun x hx => hsound x (List.mem_cons_of_mem _ hx)
    exact ⟨h', (bind_of_ok (createDiscovery_of_sound he.localOnly hnew hr) _).trans hrest, hsplit ▸ he'⟩

/-- The first registration with a flaw ends the loop with it. -/
theorem createAll_of_flaw {good : List Registration} (rest : List Registration) {e : Error}
    (he : Enlisted c [] h₀ h)
    (hids : ((good ++ r :: rest).map Registration.id).Nodup) (hsound : ∀ x ∈ good, x.flaw? = none)
    (hr : r.flaw? = some e) :
    ∃ h', createAll good h = .ok () h' ∧ Enlisted c good h₀ h' ∧
      createAll (good ++ r :: rest) h = .error e h' := by
  rw [List.map_append, List.nodup_append] at hids
  obtain ⟨h', hgood, he'⟩ := createAll_of_sound he hids.1 hsound
  have hnew := he'.contains_eq_false fun hin => hids.2.2 _ hin _ List.mem_cons_self rfl
  exact ⟨h', hgood, he', forM_of_error hgood (createDiscovery_of_flaw he'.localOnly hnew hr)⟩

/-! ### Going down -/

theorem removeAll_eq (c : ConnectorId) (l : List Registration) (h : Hub) :
    removeAll l h = .ok () (h.afterAll c (l.map .remove)) := by
  induction l generalizing h with
  | nil => rfl
  | cons r l ih =>
    have hone : discard (attempt (removeDiscovery r)) h = .ok () (h.after c (.remove r)) := by
      cases hr : removeDiscovery r h with
      | ok u h' =>
        rw [show h.after c (.remove r) = h' from left_of_ok hr]
        exact discard_of_ok (attempt_of_ok hr)
      | error e h' =>
        rw [show h.after c (.remove r) = h' from left_of_error hr]
        exact discard_of_ok (attempt_eq_ok.mpr (.inr ⟨e, rfl, hr⟩))
    exact (bind_of_ok hone _).trans (ih _)

theorem keeps_metrics_registryCall (k : ConnectorId) (call : RegistryCall) :
    Keeps Hub.metrics (registryCall k call) := by
  refine keeps_bind keeps_get fun h => ?_
  split
  · exact keeps_call fun _ _ => rfl
  · exact keeps_pure _

theorem keeps_metrics_closeRegistry (k : ConnectorId) : Keeps Hub.metrics (closeRegistry k) :=
  keeps_bind (keeps_metrics_registryCall k .close) fun _ =>
    keeps_bind (keeps_modify fun _ => rfl) fun _ => keeps_modify fun _ => rfl

theorem keeps_metrics_unwatchAll (k : ConnectorId) (keys : List String) :
    Keeps Hub.metrics (unwatchAll k keys) := by
  induction keys with
  | nil => exact keeps_pure _
  | cons key keys ih =>
    have hone : Keeps Hub.metrics (unwatchInstances k key) :=
      keeps_bind (keeps_metrics_registryCall k (.unwatch key)) fun _ =>
        keeps_bind (keeps_modify fun _ => rfl) fun _ => keeps_modify fun _ => rfl
    have htry : Keeps Hub.metrics (attempt (unwatchInstances k key)) := fun h => by
      rw [left_attempt]
      exact hone h
    refine keeps_bind htry fun o => keeps_bind ih fun rest => ?_
    cases o
    · exact keeps_pure _
    · exact keeps_pure _

/-- **A removal** is counted as closing the connector exactly if nobody uses it any more. -/
theorem metrics_remove (hp : Plain c h) (hid : h.registrations.connectors.get? r.id = some c) :
    (h.after c (.remove r)).metrics =
      if (h.registrations.remove r.id).users c = 0 then
        (h.metrics.moveActive (-1)).add (.lifecycle r.registryType "close") 1
      else h.metrics.moveActive (-1) := by
  let h₁ : Hub := { h with
    registrations := h.registrations.remove r.id
    metrics := h.metrics.moveActive (-1) }
  have hdrop : Keeps Hub.metrics (dropActive r.id) := keeps_modify fun _ => rfl
  have hlast : ((h.registrations.remove r.id).sharers c).isEmpty = true ↔
      (h.registrations.remove r.id).users c = 0 := by
    rw [Registrations.users, List.isEmpty_iff, List.length_eq_zero_iff]
  by_cases hnone : (h.registrations.remove r.id).users c = 0
  · obtain ⟨h₂, hclose, -⟩ := closeRegistry_plain (h := h₁) ⟨hp.present, hp.probe⟩
    have hmetrics : h₂.metrics = h₁.metrics := (keeps_metrics_closeRegistry c).of_ok hclose
    have hd : deregister r h =
        (count (.lifecycle r.registryType "close") 1 >>= fun _ => (pure true : Act Bool)) h₂ := by
      unfold deregister
      rw [get_bind]
      simp only [hid, hlast.mpr hnone, if_true]
      exact bind_of_ok hclose _
    rw [if_pos hnone, view_of_deregister (c := c) hdrop (fun _ => keeps_pure _) hd]
    show h₂.metrics.add _ 1 = _
    rw [hmetrics]
  · have hd : deregister r h = (unwatchAll c (((h.registrations.watchKeys.get? r.id).getD .empty).without
        ((h.registrations.remove r.id).keysOf ((h.registrations.remove r.id).sharers c))) >>= orThrow) h₁ := by
      unfold deregister
      rw [get_bind]
      simp only [hid, if_neg (fun hs => hnone (hlast.mp hs))]
      rfl
    have hthrow : ∀ o, Keeps Hub.metrics (orThrow o) := by
      intro o
      cases o
      · exact keeps_pure _
      · exact fun _ => rfl
    rw [if_neg hnone, view_of_deregister (c := c) hdrop hthrow hd]
    exact keeps_metrics_unwatchAll c _ h₁

end Act

namespace Hub

variable {c : ConnectorId} {h h₀ : Hub} {r : Registration} {l before rest : List Registration}
  {allowed : Hub → Command → Prop}

theorem Caches.get? (hc : h.Caches c (r :: l)) : h.registrations.connectors.get? r.id = some c := by
  rw [Table.get?_eq_some_iff, hc]
  exact List.mem_cons_self

theorem Caches.remove (hc : h.Caches c (r :: l)) (hids : ((r :: l).map Registration.id).Nodup) :
    (h.registrations.remove r.id).connectors.entries = l.map fun r => (r.id, c) := by
  rw [List.map_cons, List.nodup_cons] at hids
  have hfilter : Table.discard r.id (l.map fun r => (r.id, c)) = l.map fun r => (r.id, c) :=
    Table.discard_of_not_mem (by rw [List.map_map]; exact hids.1)
  show Table.discard r.id h.registrations.connectors.entries = _
  rw [hc, List.map_cons]
  simpa [Table.discard] using hfilter

theorem Caches.users (hc : h.Caches c l) : h.users c = l.length := by
  rw [Hub.users, Registrations.users, Registrations.sharers, hc, List.length_map, List.filter_eq_self.mpr,
    List.length_map]
  intro e he
  obtain ⟨r, -, rfl⟩ := List.mem_map.mp he
  simp

/-- The first of the cached registrations leaves. -/
theorem Caches.after (hc : h.Caches c (r :: l)) (hids : ((r :: l).map Registration.id).Nodup) :
    (h.after c (.remove r)).Caches c l := by
  have hregs := (Act.remove_usage c hc.get?).1
  rw [Caches, hregs]
  exact hc.remove hids

theorem Caches.afterAll (hc : h.Caches c (before ++ rest))
    (hids : ((before ++ rest).map Registration.id).Nodup) :
    (h.afterAll c (before.map .remove)).Caches c rest := by
  induction before generalizing h with
  | nil => exact hc
  | cons r before ih =>
    have hids' := hids
    rw [List.cons_append, List.map_cons, List.nodup_cons] at hids'
    exact ih (hc.after hids) hids'.2

/-- **The removal of all cached registrations** takes the gauge back by their number and closes their
connector once, for the last of them. -/
theorem metrics_of_removals (hw : Wired c (h.wiring c)) (hc : h.Caches c l)
    (hids : (l.map Registration.id).Nodup) :
    (h.afterAll c (l.map .remove)).metrics.active = h.metrics.active - l.length ∧
      ∀ t, (h.afterAll c (l.map .remove)).metrics.count (.lifecycle t "close") =
        h.metrics.count (.lifecycle t "close") +
          if l.getLast?.map Registration.registryType = some t then 1 else 0 := by
  induction l generalizing h with
  | nil => exact ⟨(Int.sub_zero _).symm, fun _ => rfl⟩
  | cons r l ih =>
    have hmetrics := Act.metrics_remove (Act.plain_of_wired hw) hc.get?
    have hafter := hc.after hids
    have husers : (h.registrations.remove r.id).users c = l.length := by
      rw [← (Act.remove_usage c hc.get?).1]
      exact hafter.users
    rw [husers] at hmetrics
    have hids' := hids
    rw [List.map_cons, List.nodup_cons] at hids'
    obtain ⟨hgauge, hclosed⟩ := ih (hw.step (Act.step_wiring hw (.remove r))) hafter hids'.2
    have hactive : (h.after c (.remove r)).metrics.active = h.metrics.active - 1 := by
      rw [hmetrics]
      split_ifs <;> rfl
    refine ⟨?_, fun t => (hclosed t).trans ?_⟩
    · refine hgauge.trans ?_
      rw [hactive, List.length_cons]
      omega
    · rw [hmetrics]
      cases l with
      | nil =>
        show (Metrics.add _ _ 1).count _ + 0 = _
        rw [Metrics.count_add]
        by_cases ht : r.registryType = t
        · subst ht
          simp [Metrics.moveActive, Metrics.count]
        · simp [ht, Metrics.moveActive, Metrics.count]
      | cons x l =>
        rw [if_neg (by simp), List.getLast?_cons_cons]
        rfl

/-! ### In between -/

theorem rekeyed_after {g : Hub} (hg : Rekeyed g h) {cmd : Command} (hcmd : ¬ cmd.IsRegistration) :
    Rekeyed g (h.after c cmd) := by
  cases cmd with
  | create r => exact absurd trivial hcmd
  | remove r => exact absurd trivial hcmd
  | subscribe handler s => exact Act.rekeyed_subscribe handler s h hg
  | unsubscribe handler s => exact Act.rekeyed_unsubscribe handler s h hg
  | _ => exact hg.congr (roll_after trivial)

/-- Commands that neither create nor remove a registration let the ids stay. -/
theorem Runs.rekeyed (hr : Runs c (fun _ cmd => ¬ cmd.IsRegistration) h₀ h) : Rekeyed h₀ h := by
  induction hr with
  | refl => exact .refl
  | step _ hcmd ih => exact rekeyed_after ih hcmd

theorem Caches.exists_iff (hc : h.Caches c l) :
    (∃ id, h.registrations.connectors.get? id = some c) ↔ l ≠ [] := by
  rw [← Registrations.users_pos_iff]
  have husers : h.registrations.users c = l.length := hc.users
  rw [husers, List.length_pos_iff]

/-- What is left when registrations have gone: no connector is cached and no key watched, the gauge is back,
and the connector has been closed once, with the last registration, if there was one. -/
structure Dismissed (c : ConnectorId) (l : List Registration) (gauge : Int) (h h' : Hub) : Prop where
  connectors : h'.registrations.connectors.entries = []
  watchKeys : h'.registrations.watchKeys.entries = []
  gauge : h'.metrics.active = gauge
  closed (t : String) : h'.metrics.count (.lifecycle t "close") = h.metrics.count (.lifecycle t "close") +
    if l.getLast?.map Registration.registryType = some t then 1 else 0
  ready (before rest : List Registration) (hl : l = before ++ rest) :
    ((Act.removeAll before).left h).ready c = true ↔ rest ≠ []

theorem dismissed_of_removals (hf : h₀.Fresh c) (hready : h₀.ready c = false) (h0 : h₀.registrations = {})
    (hr : Runs c allowed h₀ h) (hc : h.Caches c l) (hids : (l.map Registration.id).Nodup)
    (hgauge : h.metrics.active = h₀.metrics.active + l.length) :
    Dismissed c l h₀.metrics.active h (h.afterAll c (l.map .remove)) := by
  have hruns (before : List Registration) :
      Runs c (fun _ _ => True) h₀ (h.afterAll c (before.map .remove)) :=
    (hr.mono fun _ _ _ => trivial).trans (runs_afterAll h fun _ _ _ => trivial)
  have hcached : ∀ before rest, l = before ++ rest → (h.afterAll c (before.map .remove)).Caches c rest :=
    fun before rest hl => Caches.afterAll (hl ▸ hc) (hl ▸ hids)
  have hnone : (h.afterAll c (l.map .remove)).Caches c [] := hcached l [] (List.append_nil l).symm
  obtain ⟨hback, hclosed⟩ := metrics_of_removals (hr.wired hf) hc hids
  refine ⟨hnone, ?_, ?_, hclosed, fun before rest hl => ?_⟩
  · have hkeyed := ((hruns l).enrolled h0).keyed
    refine List.eq_nil_iff_forall_not_mem.mpr fun e he => ?_
    have hget := Table.get?_eq_some_iff.mpr he
    have hsome := hkeyed e.1
    rw [hget, Table.get?, hnone] at hsome
    cases hsome
  · rw [hback, hgauge]
    omega
  · rw [Act.left_of_ok (Act.removeAll_eq c before h), (hruns before).ready_iff_cached hf hready]
    exact (hcached before rest hl).exists_iff

end Hub

/-! ### A node -/

namespace Node

/-- All goes well until the registrations are created: the settings are loaded and accepted, the log opens and
so does the store. -/
structure Prepared (env : Environment) (files : FileTree) (s : Settings) (store : Store)
    (files' : FileTree) : Prop where
  loaded : Settings.load files env = .ok s
  opened : ∃ files₁ files₂, s.validate files = .ok () files₁ ∧
    OnFiles.openAppend ((FilePath.read s.logDirectory).append logName) files₁ = .ok () files₂ ∧
    s.storage.open files₂ = .ok store files'

/-- A node that is prepared starts as its registrations can be created. -/
theorem start_of_prepared {env : Environment} {files files' : FileTree} {s : Settings} {store : Store}
    (hp : Prepared env files s store files') : start env files =
      match Act.createAll s.registrations (Hub.create s.discovery store) with
      | .ok _ hub => .ok ⟨s, hub⟩ files'
      | .error e _ => .error e files' := by
  obtain ⟨files₁, files₂, hvalidate, hlog, hstore⟩ := hp.opened
  have bind_of_ok : ∀ {α β : Type} {a : OnFiles α} {t t' : FileTree} {x : α}, a t = .ok x t' →
      ∀ f : α → OnFiles β, (a >>= f) t = f x t' := by
    intro α β a t t' x ha f
    show EStateM.bind a f t = f x t'
    unfold EStateM.bind
    rw [ha]
  have hload : (OnFiles.ofExcept .settings (Settings.load files env) : OnFiles Settings) files =
      .ok s files := by
    rw [hp.loaded]
    rfl
  show ((OnFiles.ofExcept .settings (Settings.load files env) : OnFiles Settings) >>= _) files = _
  rw [bind_of_ok hload, bind_of_ok hvalidate, bind_of_ok hlog, bind_of_ok hstore]
  cases Act.createAll s.registrations (Hub.create s.discovery store) <;> rfl

/-- **A node goes down with what it came up with.**  If no registration of settings that pass validation has a
flaw, all of them are created, in their order, and each has a connector.  Whatever is subscribed in between, at
the end no connector is cached and no key watched, the gauge shows what it showed before, and the connector has
been closed once, unless there was nothing to close it for.  Otherwise the error of the first registration
with a flaw ends the start, with those before it created and nothing done for those after it. -/
theorem start_and_stop_balance {s : Settings} {files files' : FileTree}
    (hv : s.validate files = .ok () files') (store : Store) :
    ((∀ r ∈ s.registrations, r.flaw? = none) →
      ∃ h, Act.createAll s.registrations (Hub.create s.discovery store) = .ok () h ∧
        Act.Enlisted 0 s.registrations (Hub.create s.discovery store) h ∧
        (∀ env t t', Prepared env t s store t' → start env t = .ok ⟨s, h⟩ t') ∧
        ∀ h₁, Hub.Runs 0 (fun _ cmd => ¬ cmd.IsRegistration) h h₁ →
          Hub.Dismissed 0 s.registrations (Hub.create s.discovery store).metrics.active h₁ (stop ⟨s, h₁⟩)) ∧
    ∀ good r rest e, s.registrations = good ++ r :: rest → (∀ x ∈ good, x.flaw? = none) →
      r.flaw? = some e →
      ∃ h, Act.createAll good (Hub.create s.discovery store) = .ok () h ∧
        Act.Enlisted 0 good (Hub.create s.discovery store) h ∧
        Act.createAll s.registrations (Hub.create s.discovery store) = .error e h ∧
        ∀ env t t', Prepared env t s store t' → start env t = .error e t' := by
  have hids := Settings.nodup_of_validate hv
  have hstart : Act.Enlisted 0 [] (Hub.create s.discovery store) (Hub.create s.discovery store) :=
    .nil (Hub.localOnly_create s.discovery store) rfl
  refine ⟨fun hsound => ?_, fun good r rest e hsplit hsound hflaw => ?_⟩
  · obtain ⟨h, hcreated, he⟩ := Act.createAll_of_sound hstart hids hsound
    refine ⟨h, hcreated, he, fun env t t' hp => ?_, fun h₁ hr => ?_⟩
    · rw [start_of_prepared hp, hcreated]
    · have hrekeyed := hr.rekeyed
      have hstop : stop ⟨s, h₁⟩ = h₁.afterAll 0 (s.registrations.map .remove) := by
        rw [stop, Act.removeAll_eq 0]
      have hruns := (he.runs.mono fun _ _ _ => trivial).trans (hr.mono fun _ _ _ => (trivial : True))
      rw [hstop]
      refine Hub.dismissed_of_removals (Hub.fresh_create s.discovery store) rfl rfl hruns ?_ hids ?_
      · exact (congrArg Table.entries hrekeyed.connectors).trans he.cached
      · exact hrekeyed.gauge.trans he.gauge
  · obtain ⟨h, hgood, he, hfail⟩ := Act.createAll_of_flaw rest hstart (hsplit ▸ hids) hsound hflaw
    rw [← hsplit] at hfail
    refine ⟨h, hgood, he, hfail, fun env t t' hp => ?_⟩
    rw [start_of_prepared hp, hfail]

/-- A machine with a settings file that spells one type in two ways. -/
def twoSpellings : FileTree :=
  { FileTree.fresh "work" with
    root := [("work", .directory [("n.toml", .file ("[[registrations]]\nid = \"a\"\ntype = \"Local\"\n" ++
      "[[registrations]]\nid = \"b\"\ntype = \"LOCAL\"\n"))])] }

/-- The settings in this file. -/
def twoLocals : Settings where
  registrations := [{ id := "a", registryType := "Local" }, { id := "b", registryType := "LOCAL" }]

/-- The second type is unknown, and the properties of the third registration cannot be read either. -/
def unknownSecond : Settings where
  registrations := [{ id := "a", registryType := " local " }, { id := "b", registryType := "zk" },
    { id := "c", registryType := "local", props := "?" }]

theorem prepared_twoLocals :
    ∃ t, Prepared (.ofList [("CONFIG_PATH", "n.toml")]) twoSpellings twoLocals (.memory .empty) t := by
  have hload : (Settings.load twoSpellings (.ofList [("CONFIG_PATH", "n.toml")])).toOption =
      some twoLocals := by decide +kernel
  refine ⟨_, ?_, _, _, rfl, rfl, rfl⟩
  cases hl : Settings.load twoSpellings (.ofList [("CONFIG_PATH", "n.toml")]) with
  | error e => rw [hl] at hload; cases hload
  | ok s => rw [hl] at hload; exact congrArg Except.ok (Option.some.inj hload)

/-- Both registrations of the file are created, and both are let go after one has been subscribed.  A type
that nobody provides ends the start before the next registration is tried. -/
theorem two_spellings_balance :
    (∃ h t, start (.ofList [("CONFIG_PATH", "n.toml")]) twoSpellings = .ok ⟨twoLocals, h⟩ t ∧
      h.metrics.active = 2 ∧
      let h₁ := h.after 0 (.subscribe { id := "h", discoveryId := "a" } ⟨"s", "s", "p", ""⟩)
      Hub.Dismissed 0 twoLocals.registrations 0 h₁ (stop ⟨twoLocals, h₁⟩)) ∧
    ∃ h, Act.createAll unknownSecond.registrations (Hub.create unknownSecond.discovery (.memory .empty)) =
        .error (.registry (.unknownType "zk")) h ∧
      h.registrations.connectors.entries = [("a", 0)] := by
  obtain ⟨files₁, hv⟩ : ∃ files₁, twoLocals.validate twoSpellings = .ok () files₁ := ⟨_, rfl⟩
  obtain ⟨files₂, hv'⟩ : ∃ files₂, unknownSecond.validate twoSpellings = .ok () files₂ := ⟨_, rfl⟩
  obtain ⟨t, hp⟩ := prepared_twoLocals
  obtain ⟨h, -, he, hstart, hstop⟩ := (start_and_stop_balance hv (.memory .empty)).1 (by decide +kernel)
  obtain ⟨h', -, he', hfail, -⟩ := (start_and_stop_balance hv' (.memory .empty)).2
    [{ id := "a", registryType := " local " }] { id := "b", registryType := "zk" }
    [{ id := "c", registryType := "local", props := "?" }] (.registry (.unknownType "zk")) rfl
    (by decide +kernel) (by decide +kernel)
  exact ⟨⟨h, t, hstart _ _ _ hp, he.gauge, hstop _ (.step .refl not_false)⟩, h', hfail, he'.cached⟩

end Node

end RouteSync
