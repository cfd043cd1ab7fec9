import Mathlib.Data.List.Perm.Subperm
import RouteSync.Proofs.Hub.Lifetimes
import RouteSync.Proofs.Hub.Notifying

/-!
# Announcing and withdrawing selectors

A subscription announces its selector when its id begins to track a key, and a withdrawal follows when the id
gives the key up.  Both go by the id and the key alone, and the event names whatever selector the caller names.
So every withdrawal closes an announcement of the same key of the same id, and no announcement is closed twice
(`withdrawals_close_announcements`); but it may name a selector that was never announced.
-/

namespace RouteSync

/-- An event about a route itself, not about its endpoints. -/
def ChangeEvent.isRoute (e : ChangeEvent) : Bool := e.group == .routeSelector

/-- An event that announces or withdraws the selector with this id. -/
def ChangeEvent.tells (a : EventAction) (selectorId : String) (e : ChangeEvent) : Bool :=
  e.isRoute && e.action == a && e.payload.any fun r => r.selectorId == selectorId

/-- A command that does not make up an event about a route. -/
def Command.SparesRoutes : Command → Prop
  | .publish e => e.group = .discoveredEndpoint
  | _ => True

/-- A selector is announced because an id begins to track a key, or withdrawn because it ceases to. -/
structure Notice where
  action : EventAction
  id : String
  key : String
  selector : Selector
  deriving DecidableEq

namespace Notice

/-- Which id tracks which key. -/
def place (n : Notice) : String × String := (n.id, n.key)

def event (n : Notice) : ChangeEvent := .single .routeSelector n.action (.ofSelector n.selector)

/-- The notices that announce a selector. -/
def announcements (l : List Notice) : List Notice := l.filter fun n => n.action == .update

/-- The notices that withdraw a selector. -/
def withdrawals (l : List Notice) : List Notice := l.filter fun n => n.action == .delete

/-- The announcements that are open after one more notice, at most one for a key of an id. -/
def settle (n : Notice) (opened : List Notice) : List Notice :=
  let others := opened.filter fun a => a.place != n.place
  match n.action with
  | .update => n :: others
  | .delete => others

/-- The withdrawals among notices, each with the open announcement of its place, which it closes. -/
def closings (opened : List Notice) : List Notice → List (Notice × Notice)
  | [] => []
  | n :: rest =>
    match n.action, opened.find? fun a => a.place == n.place with
    | .delete, some a => (n, a) :: closings (n.settle opened) rest
    | _, _ => closings (n.settle opened) rest

end Notice

namespace Hub

/-- These events about routes have been published between two states, and perhaps others about endpoints. -/
def RoutesPublished (routes : List ChangeEvent) (h h' : Hub) : Prop :=
  ∃ events : List ChangeEvent,
    h'.outlet = events.foldl Outlet.push h.outlet ∧ events.filter ChangeEvent.isRoute = routes

/-- The notice that a command gives: a selector is announced by a subscription that is admitted and succeeds,
and withdrawn when a key that is tracked is given up. -/
def notice? (h : Hub) : Command → Option Notice
  | .subscribe handler s =>
    if h.Admits handler ∧ (Act.subscribe handler s).isOk h = true then
      some ⟨.update, handler.discoveryId, h.watchKey handler, s⟩
    else none
  | .unsubscribe handler s =>
    if h.Tracks handler.discoveryId (h.watchKey handler) ∧ (Act.unsubscribe handler s).isOk h = true then
      some ⟨.delete, handler.discoveryId, h.watchKey handler, s⟩
    else none
  | _ => none

/-- The notices of a run. -/
def notices (c : ConnectorId) (h : Hub) : List Command → List Notice
  | [] => []
  | cmd :: cmds => (h.notice? cmd).toList ++ (h.after c cmd).notices c cmds

/-- Between two states no registration has changed, and nothing but endpoints has been published. -/
structure Relayed (h h' : Hub) : Prop where
  registrations : h'.registrations = h.registrations
  published : RoutesPublished [] h h'

/-- All that a command can do to the keys that are tracked and to the events about routes. -/
inductive Notes (h h' : Hub) : Option Notice → Prop
  | quiet (hp : RoutesPublished [] h h') (ht : ∀ id key, h'.Tracks id key → h.Tracks id key) : Notes h h' none
  | announce {n : Notice} (hn : n.action = .update) (hp : RoutesPublished [n.event] h h')
      (ht : ∀ id key, h'.Tracks id key → n.place = (id, key) ∨ h.Tracks id key) : Notes h h' (some n)
  | withdraw {n : Notice} (hn : n.action = .delete) (hp : RoutesPublished [n.event] h h')
      (ho : h.Tracks n.id n.key)
      (ht : ∀ id key, h'.Tracks id key → n.place ≠ (id, key) ∧ h.Tracks id key) : Notes h h' (some n)

variable {h h' h'' : Hub} {routes routes' : List ChangeEvent}

/-! ### Events about routes -/

theorem RoutesPublished.of_outlet (ho : h'.outlet = h.outlet) : RoutesPublished [] h h' := ⟨[], ho, rfl⟩

theorem RoutesPublished.trans (hp : RoutesPublished routes h h') (hp' : RoutesPublished routes' h' h'') :
    RoutesPublished (routes ++ routes') h h'' := by
  obtain ⟨events, ho, rfl⟩ := hp
  obtain ⟨events', ho', rfl⟩ := hp'
  refine ⟨events ++ events', ?_, List.filter_append ..⟩
  rw [ho', ho, List.foldl_append]

theorem routesPublished_publish (h : Hub) (e : ChangeEvent) :
    RoutesPublished ([e].filter ChangeEvent.isRoute) h (h.publish e) :=
  ⟨[e], outlet_publish h e, rfl⟩

theorem registrations_publish (h : Hub) (e : ChangeEvent) : (h.publish e).registrations = h.registrations := by
  obtain ⟨p, j, m, he⟩ := h.publish_eq e
  rw [he]

theorem Relayed.refl : Relayed h h := ⟨rfl, .of_outlet rfl⟩

theorem Relayed.trans (hr : Relayed h h') (hr' : Relayed h' h'') : Relayed h h'' :=
  ⟨hr'.registrations.trans hr.registrations, hr.published.trans hr'.published⟩

theorem Relayed.of_eq (hr : h'.registrations = h.registrations) (ho : h'.outlet = h.outlet) : Relayed h h' :=
  ⟨hr, .of_outlet ho⟩

theorem Relayed.tracks {id key : String} (hr : Relayed h h') (ht : h'.Tracks id key) : h.Tracks id key := by
  unfold Tracks at ht
  rwa [hr.registrations] at ht

theorem Relayed.notes (hr : Relayed h h') : Notes h h' none := .quiet hr.published fun _ _ => hr.tracks

end Hub

namespace Act

open Hub

variable {h g : Hub} {c k : ConnectorId} {handler : Handler} {s : Selector}

theorem calm_routesPublished (g : Hub) : Calm (RoutesPublished [] g) where
  call _ he h hp := hp.trans (.of_outlet (keeps_outlet_call he h))
  count _ _ _ hp := hp
  connector _ _ _ _ _ hp := hp
  probe _ _ hp := hp
  congr _ _ hb hp := hp.trans (.of_outlet (congrArg Base.outlet hb))

theorem lasting_relayed (g : Hub) : Lasting (Relayed g) := by
  refine lasting_of_call (fun entry he h hr => hr.trans ?_) (fun h e he hr => hr.trans ?_)
    (fun h k n hr => hr.trans (.of_eq rfl rfl)) fun h t n hr => hr.trans (.of_eq rfl rfl)
  · refine .of_eq ?_ (keeps_outlet_call he h)
    rw [left_call]
  · refine ⟨registrations_publish h e, ?_⟩
    have hp := routesPublished_publish h e
    rwa [List.filter_cons_of_neg (by simp [ChangeEvent.isRoute, he]), List.filter_nil] at hp

theorem relayed_modify {f : Hub → Hub} (hr : ∀ h, (f h).registrations = h.registrations)
    (ho : ∀ h, (f h).outlet = h.outlet) : Preserves (Relayed g) (modify f : Act Unit) :=
  preserves_modify fun h hh => hh.trans (.of_eq (hr h) (ho h))

/-- Whoever is told at once publishes endpoints only. -/
theorem relayed_watchInstances (key : String) (l : ListenerId) :
    Preserves (Relayed g) (watchInstances k key l) :=
  (lasting_relayed g).watchInstances (fun _ _ _ hh => hh.trans (.of_eq rfl rfl)) k key l

theorem relayed_unwatchInstances (key : String) : Preserves (Relayed g) (unwatchInstances k key) :=
  preserves_bind ((lasting_relayed g).registryCall k _) fun _ =>
    preserves_bind (relayed_modify (fun _ => rfl) fun _ => rfl) fun _ => relayed_modify (fun _ => rfl) fun _ => rfl

theorem relayed_bindHandler : Preserves (Relayed g) (bindHandler handler s) := by
  refine preserves_bind preserves_get fun h => ?_
  split
  · refine preserves_bind preserves_get fun h => ?_
    split
    · exact relayed_modify (fun _ => rfl) fun _ => rfl
    · exact relayed_modify (fun _ => rfl) fun _ => by simp [outlet, JournalEntry.event?]
    · exact preserves_pure _
  · exact preserves_pure _

/-! ### Subscriptions -/

/-- A subscription that is admitted tracks its key and announces the selector, or fails and leaves no track. -/
theorem subscribe_admitted (s : Selector) (ha : h.Admits handler) :
    (∃ e, subscribe handler s h = .error e h) ∨
      ∃ l h₁, Relayed (h.subscribing handler l) h₁ ∧
        ((∃ t, subscribe handler s h =
          .ok () ({ h₁ with active := t }.publish (.single .routeSelector .update (.ofSelector s)))) ∨
        ∃ e, subscribe handler s h = .error e { h₁ with
          registrations := (h₁.registrations.untrack handler.discoveryId (h.watchKey handler)).1 }) := by
  obtain ⟨k, hid⟩ := Option.isSome_iff_exists.mp ha.1
  have hkey : ¬ h.registrations.isTracked handler.discoveryId (h.watchKey handler) = true := ha.2
  cases hm : Mapping.read handler.mapping with
  | error e => exact .inl ⟨.invalid e, subscribe_refused s hid hkey hm⟩
  | ok m =>
    let h₂ := h.subscribing handler
      ⟨m, [.ofHandler s handler], handler.discoveryId, h.settings.defaultProtocol⟩
    have hrelayed := relayed_watchInstances (k := k) (h.watchKey handler) h.listeners.length h₂ .refl
    right
    cases hwatch : watchInstances k (h.watchKey handler) h.listeners.length h₂ with
    | ok u h₃ =>
      rw [left_of_ok hwatch] at hrelayed
      exact ⟨_, h₃, hrelayed, .inl ⟨_, subscribe_of_watch hid hkey hm hwatch⟩⟩
    | error e h₃ =>
      rw [left_of_error hwatch] at hrelayed
      exact ⟨_, h₃, hrelayed, .inr ⟨e, subscribe_of_watch_error hid hkey hm hwatch⟩⟩

/-- A key that is tracked is given up, and the selector withdrawn unless the connector fails. -/
theorem unsubscribe_tracked (s : Selector) (ht : h.Tracks handler.discoveryId (h.watchKey handler)) :
    ∃ h₁, Relayed { h with
        registrations := (h.registrations.untrack handler.discoveryId (h.watchKey handler)).1 } h₁ ∧
      (unsubscribe handler s h = .ok () (h₁.publish (.single .routeSelector .delete (.ofSelector s))) ∨
        ∃ e, unsubscribe handler s h = .error e h₁) := by
  have hrelayed : ∀ k, Relayed (h.untracking handler)
      ((unwatchInstances k (h.watchKey handler)).left (h.untracking handler)) :=
    fun k => relayed_unwatchInstances (h.watchKey handler) (h.untracking handler) .refl
  rw [unsubscribe_of_isTracked s ht]
  cases hid : h.registrations.connectors.get? handler.discoveryId with
  | none => exact ⟨h.untracking handler, .refl, .inl rfl⟩
  | some k =>
    specialize hrelayed k
    cases hunwatch : unwatchInstances k (h.watchKey handler) (h.untracking handler) with
    | ok u h₁ =>
      rw [left_of_ok hunwatch] at hrelayed
      exact ⟨h₁, hrelayed, .inl (bind_of_ok hunwatch _)⟩
    | error e h₁ =>
      rw [left_of_error hunwatch] at hrelayed
      exact ⟨h₁, hrelayed, .inr ⟨e, bind_of_error hunwatch _⟩⟩

end Act

namespace Hub

/-! ### One step -/

variable {h : Hub} {c : ConnectorId} {cmd : Command} {handler : Handler} {s : Selector}

/-- **A subscription** announces its selector exactly if it succeeds in making its id track the key. -/
theorem notes_subscribe (c : ConnectorId) (h : Hub) (handler : Handler) (s : Selector) :
    Notes h (h.after c (.subscribe handler s)) (h.notice? (.subscribe handler s)) := by
  show Notes h ((Act.subscribe handler s).left h) _
  by_cases ha : h.Admits handler
  · have hnot : ∀ e h₁, Act.subscribe handler s h = .error e h₁ → h.notice? (.subscribe handler s) = none :=
      fun e h₁ hfail => if_neg fun hboth => by simp [Act.isOk, hfail] at hboth
    rcases Act.subscribe_admitted s ha with ⟨e, hfail⟩ | ⟨l, h₁, hr, ⟨t, hok⟩ | ⟨e, hfail⟩⟩
    · rw [Act.left_of_error hfail, hnot e h hfail]
      exact Relayed.refl.notes
    · have hnotice : h.notice? (.subscribe handler s) =
          some ⟨.update, handler.discoveryId, h.watchKey handler, s⟩ :=
        if_pos ⟨ha, by simp [Act.isOk, hok]⟩
      rw [Act.left_of_ok hok, hnotice]
      refine .announce rfl ?_ fun id key ht => ?_
      · exact (RoutesPublished.trans (.of_outlet rfl) hr.published).trans
          ((RoutesPublished.of_outlet rfl).trans (routesPublished_publish { h₁ with active := t } _))
      · unfold Tracks at ht
        rw [registrations_publish] at ht
        rcases Registrations.isTracked_of_track (hr.tracks ht) with ⟨rfl, rfl⟩ | hbefore
        · exact .inl rfl
        · exact .inr hbefore
    · -- the watch has failed, and the key is untracked again
      rw [Act.left_of_error hfail, hnot e _ hfail]
      refine .quiet (hr.published.trans (.of_outlet rfl)) fun id key ht => ?_
      obtain ⟨hne, ht⟩ := Registrations.isTracked_untrack.mp ht
      exact (Registrations.isTracked_of_track (hr.tracks ht)).resolve_left hne
  · have hidle : Act.subscribe handler s h = .ok () h := Act.subscribe_idle s (not_admits_iff.mp ha)
    rw [Act.left_of_ok hidle, notice?, if_neg fun hboth => ha hboth.1]
    exact Relayed.refl.notes

/-- What an id gives up is a key of its own; whatever else is tracked goes on to be. -/
theorem tracks_unsubscribe (c : ConnectorId) (s : Selector) {id key : String} :
    (h.after c (.unsubscribe handler s)).Tracks id key ↔
      ¬ (id = handler.discoveryId ∧ key = h.watchKey handler) ∧ h.Tracks id key := by
  by_cases ht : h.Tracks handler.discoveryId (h.watchKey handler)
  · obtain ⟨h₁, hr, hok | ⟨e, hfail⟩⟩ := Act.unsubscribe_tracked s ht
    · show ((Act.unsubscribe handler s).left h).Tracks id key ↔ _
      rw [Act.left_of_ok hok, Tracks, registrations_publish, hr.registrations]
      exact Registrations.isTracked_untrack
    · show ((Act.unsubscribe handler s).left h).Tracks id key ↔ _
      rw [Act.left_of_error hfail, Tracks, hr.registrations]
      exact Registrations.isTracked_untrack
  · rw [Act.unsubscribe_idle s ht]
    refine ⟨fun htracks => ⟨?_, htracks⟩, fun hboth => hboth.2⟩
    rintro ⟨rfl, rfl⟩
    exact ht htracks

/-- **A key that is given up** makes known that the selector is withdrawn exactly if it was tracked and the
connector does not fail. -/
theorem notes_unsubscribe (c : ConnectorId) (h : Hub) (handler : Handler) (s : Selector) :
    Notes h (h.after c (.unsubscribe handler s)) (h.notice? (.unsubscribe handler s)) := by
  have htracks : ∀ id key, (h.after c (.unsubscribe handler s)).Tracks id key →
      (handler.discoveryId, h.watchKey handler) ≠ (id, key) ∧ h.Tracks id key := by
    intro id key ht
    obtain ⟨hne, hbefore⟩ := (tracks_unsubscribe c s).mp ht
    refine ⟨?_, hbefore⟩
    rintro ⟨⟩
    exact hne ⟨rfl, rfl⟩
  by_cases ht : h.Tracks handler.discoveryId (h.watchKey handler)
  · obtain ⟨h₁, hr, hok | ⟨e, hfail⟩⟩ := Act.unsubscribe_tracked s ht
    · have hafter : h.after c (.unsubscribe handler s) =
          h₁.publish (.single .routeSelector .delete (.ofSelector s)) := Act.left_of_ok hok
      have hnotice : h.notice? (.unsubscribe handler s) =
          some ⟨.delete, handler.discoveryId, h.watchKey handler, s⟩ :=
        if_pos ⟨ht, by simp [Act.isOk, hok]⟩
      rw [hafter] at htracks ⊢
      rw [hnotice]
      refine .withdraw rfl ?_ ht htracks
      exact (RoutesPublished.trans (.of_outlet rfl) hr.published).trans (routesPublished_publish h₁ _)
    · have hafter : h.after c (.unsubscribe handler s) = h₁ := Act.left_of_error hfail
      have hnotice : h.notice? (.unsubscribe handler s) = none :=
        if_neg fun hboth => by simp [Act.isOk, hfail] at hboth
      rw [hafter] at htracks ⊢
      rw [hnotice]
      exact .quiet (RoutesPublished.trans (.of_outlet rfl) hr.published) fun id key hk => (htracks id key hk).2
  · rw [Act.unsubscribe_idle s ht, notice?, if_neg fun hboth => ht hboth.1]
    exact Relayed.refl.notes

/-- **Every command** keeps its notices to what it does to the keys that are tracked. -/
theorem notes_after (c : ConnectorId) (h : Hub) (hcmd : cmd.SparesRoutes) :
    Notes h (h.after c cmd) (h.notice? cmd) := by
  have publishes : ∀ e : ChangeEvent, e.group = .discoveredEndpoint → Notes h (h.publish e) none := fun e he =>
    ((Act.lasting_relayed h).publish e he h .refl).notes
  have calm := Act.calm_routesPublished h
  have lasting := Act.lasting_relayed h
  cases cmd with
  | create r =>
    refine .quiet (calm.createDiscovery r h (.of_outlet rfl)) fun id key ht => ?_
    rcases Act.create_usage c h r with husage | ⟨-, k, hregs, -⟩
    · unfold Tracks at ht
      rwa [(usage_eq_iff.mp husage).1] at ht
    · unfold Tracks at ht
      rw [hregs] at ht
      exact (Registrations.isTracked_add.mp ht).2
  | remove r =>
    refine .quiet (calm.removeDiscovery r h (.of_outlet rfl)) fun id key ht => ?_
    cases hid : h.registrations.connectors.get? r.id with
    | none =>
      rw [show h.after c (.remove r) = h from Act.remove_unknown hid] at ht
      exact ht
    | some k =>
      unfold Tracks at ht
      rw [(Act.remove_usage c hid).1] at ht
      exact (Registrations.isTracked_remove.mp ht).2
  | subscribe handler s => exact notes_subscribe c h handler s
  | unsubscribe handler s => exact notes_unsubscribe c h handler s
  | fetch handler s => exact (lasting.fetchAll handler s h .refl).notes
  | build handler s =>
    have hbuild : Act.Preserves (Relayed h) (discard (Act.buildListener handler s)) :=
      Act.preserves_discard (Act.preserves_bind (Act.preserves_ofExcept _ _) fun _ =>
        Act.preserves_step fun g hg => hg.trans (.of_eq rfl rfl))
    exact (hbuild h .refl).notes
  | adopt id l => exact Relayed.notes (.of_eq rfl rfl)
  | bind handler s => exact (Act.relayed_bindHandler h .refl).notes
  | withdraw s => exact publishes _ rfl
  | announce s l => exact publishes _ rfl
  | publish e => exact publishes e hcmd
  | register key i => exact (lasting.registerInstance key i (.of_eq rfl rfl)).notes
  | deregister key host tcpPort =>
    exact (lasting.deregisterInstance key host tcpPort (fun _ => .refl) fun _ _ _ => .of_eq rfl rfl).notes
  | wait now => exact Relayed.notes (.of_eq rfl rfl)

end Hub

namespace Notice

/-! ### Withdrawals and the announcements they close -/

variable {n a : Notice} {opened l : List Notice} {p : Notice × Notice}

theorem mem_settle : a ∈ n.settle opened ↔ n.action = .update ∧ a = n ∨ a ∈ opened ∧ a.place ≠ n.place := by
  unfold settle
  cases hn : n.action <;> simp

theorem closings_announce (hn : n.action = .update) :
    closings opened (n :: l) = closings (n.settle opened) l := by
  rw [closings, hn]

theorem closings_withdraw (hn : n.action = .delete) (ha : opened.find? (fun a => a.place == n.place) = some a) :
    closings opened (n :: l) = (n, a) :: closings (n.settle opened) l := by
  rw [closings, hn, ha]

theorem closings_stray (ha : opened.find? (fun a => a.place == n.place) = none) :
    closings opened (n :: l) = closings (n.settle opened) l := by
  rw [closings, ha]
  cases n.action <;> rfl

/-- A withdrawal closes an announcement of its place. -/
theorem place_of_mem_closings (hp : p ∈ closings opened l) : p.2.place = p.1.place := by
  induction l generalizing opened with
  | nil => cases hp
  | cons n l ih =>
    cases hn : n.action with
    | update =>
      rw [closings_announce hn] at hp
      exact ih hp
    | delete =>
      cases ha : opened.find? fun a => a.place == n.place with
      | none =>
        rw [closings_stray ha] at hp
        exact ih hp
      | some a =>
        rw [closings_withdraw hn ha] at hp
        rcases List.mem_cons.mp hp with rfl | hp
        · simpa using List.find?_some ha
        · exact ih hp

/-- What is open and what is announced later is closed once at most: a withdrawal takes what it closes off what is
open. -/
theorem closings_subperm (opened l : List Notice) :
    ((closings opened l).map Prod.snd).Subperm (opened ++ announcements l) := by
  induction l generalizing opened with
  | nil => exact List.nil_subperm
  | cons n l ih =>
    have hothers : (opened.filter fun a => a.place != n.place).Subperm opened := List.filter_sublist.subperm
    have hrest := ih (n.settle opened)
    cases hn : n.action with
    | update =>
      have hopen : n.settle opened = n :: opened.filter fun a => a.place != n.place := by
        rw [settle, hn]
      have hnext : announcements (n :: l) = n :: announcements l := by simp [announcements, hn]
      -- an announcement moves from what is announced later to what is open
      rw [closings_announce hn, hnext, hopen]
      rw [hopen, List.cons_append] at hrest
      exact hrest.trans (List.perm_middle.symm.subperm.trans ((List.subperm_append_right _).mpr hothers))
    | delete =>
      have hopen : n.settle opened = opened.filter fun a => a.place != n.place := by
        rw [settle, hn]
      have hnext : announcements (n :: l) = announcements l := by simp [announcements, hn]
      rw [hnext]
      rw [hopen] at hrest
      cases ha : opened.find? fun a => a.place == n.place with
      | none =>
        rw [closings_stray ha, hopen]
        exact hrest.trans ((List.subperm_append_right _).mpr hothers)
      | some a =>
        have hmem : a ∈ opened.filter fun a => !(a.place != n.place) := by
          rw [List.mem_filter]
          exact ⟨List.mem_of_find?_eq_some ha, by simpa using List.find?_some ha⟩
        -- what it closes and what stays open are both open before
        have htaken : (a :: opened.filter fun a => a.place != n.place).Subperm opened := by
          refine List.Subperm.trans ?_ (List.filter_append_perm (fun a => a.place != n.place) opened).subperm
          refine (List.perm_append_singleton a _).symm.subperm.trans ?_
          exact (List.subperm_append_left _).mpr (List.singleton_subperm_iff.mpr hmem)
        rw [closings_withdraw hn ha, hopen, List.map_cons]
        exact ((List.subperm_cons a).mpr hrest).trans ((List.subperm_append_right _).mpr htaken)

/-- Withdrawals that close announcements are as many as these, but for those that differ in what is counted. -/
theorem countP_withdrawals_le (q : Notice → Bool) (hl : (closings [] l).map Prod.fst = withdrawals l) :
    (withdrawals l).countP q ≤
      (announcements l).countP q + (closings [] l).countP fun p => q p.1 && !q p.2 := by
  have hsplit : (closings [] l).countP (fun p => q p.1) ≤
      (closings [] l).countP (fun p => q p.2) + (closings [] l).countP fun p => q p.1 && !q p.2 := by
    rw [List.countP_eq_countP_filter_add _ (fun p : Notice × Notice => q p.1) fun p => q p.2, List.countP_filter,
      List.countP_filter]
    exact Nat.add_le_add_right (List.countP_mono_left fun p _ hq => (Bool.and_eq_true_iff.mp hq).2) _
  calc (withdrawals l).countP q
      = (closings [] l).countP (fun p => q p.1) := by rw [← hl, List.countP_map]; rfl
    _ ≤ (closings [] l).countP (fun p => q p.2) + (closings [] l).countP fun p => q p.1 && !q p.2 := hsplit
    _ = ((closings [] l).map Prod.snd).countP q + (closings [] l).countP fun p => q p.1 && !q p.2 := by
        rw [List.countP_map]; rfl
    _ ≤ (announcements l).countP q + (closings [] l).countP fun p => q p.1 && !q p.2 :=
        Nat.add_le_add_right ((closings_subperm [] l).countP_le q) _

/-- The events about routes with a selector are counted by the notices that name it. -/
theorem countP_tells {events : List ChangeEvent} (ht : events.filter ChangeEvent.isRoute = l.map event)
    (action : EventAction) (selectorId : String) : events.countP (ChangeEvent.tells action selectorId) =
      (l.filter fun n => n.action == action).countP fun n => n.selector.id == selectorId := by
  have hroute : events.countP (ChangeEvent.tells action selectorId) =
      (events.filter ChangeEvent.isRoute).countP (ChangeEvent.tells action selectorId) := by
    rw [List.countP_filter]
    refine List.countP_congr fun e _ => ?_
    simp [ChangeEvent.tells]
    tauto
  rw [hroute, ht, List.countP_map, List.countP_filter]
  refine List.countP_congr fun n _ => ?_
  simp [ChangeEvent.tells, ChangeEvent.isRoute, event, ChangeEvent.single, RouteRecord.ofSelector]
  tauto

end Notice

namespace Hub

open Notice

/-! ### Runs -/

variable {h h' h₀ : Hub} {c : ConnectorId} {cmds : List Command} {o : Option Notice} {opened : List Notice}

theorem Notes.published (hn : Notes h h' o) : RoutesPublished (o.toList.map Notice.event) h h' := by
  cases hn with
  | quiet hp _ => exact hp
  | announce _ hp _ => exact hp
  | withdraw _ hp _ _ => exact hp

/-- A run publishes about routes what its notices say. -/
theorem routesPublished_afterAll (hcmds : ∀ cmd ∈ cmds, cmd.SparesRoutes) :
    RoutesPublished ((h.notices c cmds).map Notice.event) h (h.afterAll c cmds) := by
  induction cmds generalizing h with
  | nil => exact .of_outlet rfl
  | cons cmd cmds ih =>
    have hstep := (notes_after c h (hcmds cmd (by simp))).published
    have hrest := ih (h := h.after c cmd) fun x hx => hcmds x (by simp [hx])
    rw [notices, List.map_append]
    exact hstep.trans hrest

/-- For every key that an id tracks there is an open announcement. -/
def Accounted (opened : List Notice) (h : Hub) : Prop :=
  ∀ id key, h.Tracks id key → ∃ a ∈ opened, a.place = (id, key)

/-- **A withdrawal** in a run finds an open announcement of its place. -/
theorem closings_notices (hc : Accounted opened h) (hcmds : ∀ cmd ∈ cmds, cmd.SparesRoutes) :
    (closings opened (h.notices c cmds)).map Prod.fst = withdrawals (h.notices c cmds) := by
  -- along the run every key that is tracked stays accounted for
  induction cmds generalizing h opened with
  | nil => rfl
  | cons cmd cmds ih =>
    have hnotes := notes_after c h (hcmds cmd (by simp))
    have hrest : ∀ opened', Accounted opened' (h.after c cmd) →
        (closings opened' ((h.after c cmd).notices c cmds)).map Prod.fst =
          withdrawals ((h.after c cmd).notices c cmds) :=
      fun opened' hc' => ih hc' fun x hx => hcmds x (by simp [hx])
    rw [notices]
    cases ho : h.notice? cmd with
    | none =>
      rw [ho] at hnotes
      cases hnotes with
      | quiet _ ht => exact hrest opened fun id key hk => hc id key (ht id key hk)
    | some n =>
      rw [ho] at hnotes
      show (closings opened (n :: (h.after c cmd).notices c cmds)).map Prod.fst =
        withdrawals (n :: (h.after c cmd).notices c cmds)
      cases hnotes with
      | announce hn _ ht =>
        have haccounted : Accounted (n.settle opened) (h.after c cmd) := by
          intro id key hk
          by_cases hplace : n.place = (id, key)
          · exact ⟨n, mem_settle.mpr (.inl ⟨hn, rfl⟩), hplace⟩
          · obtain ⟨a, ha, hap⟩ := hc id key ((ht id key hk).resolve_left hplace)
            exact ⟨a, mem_settle.mpr (.inr ⟨ha, fun h => hplace (h.symm.trans hap)⟩), hap⟩
        rw [closings_announce hn, hrest _ haccounted]
        simp [withdrawals, hn]
      | withdraw hn _ htracked ht =>
        have haccounted : Accounted (n.settle opened) (h.after c cmd) := by
          intro id key hk
          obtain ⟨hplace, hbefore⟩ := ht id key hk
          obtain ⟨a, ha, hap⟩ := hc id key hbefore
          exact ⟨a, mem_settle.mpr (.inr ⟨ha, fun h => hplace (h.symm.trans hap)⟩), hap⟩
        obtain ⟨a, ha⟩ : ∃ a, opened.find? (fun a => a.place == n.place) = some a := by
          obtain ⟨a, ha, hap⟩ := hc n.id n.key htracked
          exact Option.isSome_iff_exists.mp (List.find?_isSome.mpr ⟨a, ha, beq_iff_eq.mpr hap⟩)
        rw [closings_withdraw hn ha, List.map_cons, hrest _ haccounted]
        simp [withdrawals, hn]

/-- How withdrawals and announcements balance. -/
structure Balanced (notices : List Notice) (events : List ChangeEvent) : Prop where
  /-- The events about routes are those of the notices, in order. -/
  told : events.filter ChangeEvent.isRoute = notices.map Notice.event
  /-- Every withdrawal closes an announcement that is open, -/
  closes : (closings [] notices).map Prod.fst = withdrawals notices
  /-- of the same key of the same id. -/
  place : ∀ p ∈ closings [] notices, p.2.place = p.1.place
  /-- No announcement is closed twice. -/
  once : ((closings [] notices).map Prod.snd).Subperm (announcements notices)
  /-- A key of an id is not withdrawn more often than it has been announced. -/
  byPlace : ∀ place, (withdrawals notices).countP (fun n => n.place == place) ≤
    (announcements notices).countP fun n => n.place == place
  /-- A selector is withdrawn more often than it has been announced at most by the withdrawals that close an
  announcement of another selector. -/
  bySelector : ∀ selectorId, events.countP (ChangeEvent.tells .delete selectorId) ≤
    events.countP (ChangeEvent.tells .update selectorId) +
      (closings [] notices).countP fun p => p.1.selector.id == selectorId && p.2.selector.id != selectorId
  /-- So it never is, if every withdrawal names the selector that was announced. -/
  faithful : (∀ p ∈ closings [] notices, p.2.selector.id = p.1.selector.id) → ∀ selectorId,
    events.countP (ChangeEvent.tells .delete selectorId) ≤ events.countP (ChangeEvent.tells .update selectorId)

theorem Balanced.of_run {notices : List Notice} {events : List ChangeEvent}
    (ht : events.filter ChangeEvent.isRoute = notices.map Notice.event)
    (hc : (closings [] notices).map Prod.fst = withdrawals notices) : Balanced notices events := by
  have hplace : ∀ p ∈ closings [] notices, p.2.place = p.1.place := fun p hp => place_of_mem_closings hp
  have hselector : ∀ selectorId, events.countP (ChangeEvent.tells .delete selectorId) ≤
      events.countP (ChangeEvent.tells .update selectorId) +
        (closings [] notices).countP fun p => p.1.selector.id == selectorId && p.2.selector.id != selectorId := by
    intro selectorId
    rw [countP_tells ht, countP_tells ht]
    exact countP_withdrawals_le (fun n => n.selector.id == selectorId) hc
  refine ⟨ht, hc, hplace, closings_subperm [] notices, fun place => ?_, hselector, fun hsame selectorId => ?_⟩
  · have hle := countP_withdrawals_le (fun n => n.place == place) hc
    have hnone : (closings [] notices).countP (fun p => p.1.place == place && !(p.2.place == place)) = 0 := by
      refine List.countP_eq_zero.mpr fun p hp => ?_
      rw [hplace p hp]
      simp
    rwa [hnone, Nat.add_zero] at hle
  · have hle := hselector selectorId
    have hnone : (closings [] notices).countP
        (fun p => p.1.selector.id == selectorId && p.2.selector.id != selectorId) = 0 := by
      refine List.countP_eq_zero.mpr fun p hp => ?_
      rw [hsame p hp]
      simp
    rwa [hnone, Nat.add_zero] at hle

/-- **Withdrawals close announcements.** In every run from a hub where nothing is tracked, each withdrawal closes
an open announcement of the same key of the same id, and none is closed twice.  A key of an id that is given up
leaves all others tracked. -/
theorem withdrawals_close_announcements (hfree : ∀ id key, ¬ h₀.Tracks id key)
    (hcmds : ∀ cmd ∈ cmds, cmd.SparesRoutes) :
    (∃ events : List ChangeEvent, (h₀.afterAll c cmds).outlet = events.foldl Outlet.push h₀.outlet ∧
      Balanced (h₀.notices c cmds) events) ∧
    ∀ (handler : Handler) (s : Selector) (id key : String),
      (((h₀.afterAll c cmds).after c (.unsubscribe handler s)).Tracks id key ↔
        ¬ (id = handler.discoveryId ∧ key = (h₀.afterAll c cmds).watchKey handler) ∧
          (h₀.afterAll c cmds).Tracks id key) := by
  obtain ⟨events, hout, htold⟩ := routesPublished_afterAll (h := h₀) (c := c) hcmds
  have hstart : Accounted [] h₀ := fun id key hk => absurd hk (hfree id key)
  have hclosed := closings_notices (c := c) hstart hcmds
  exact ⟨⟨events, hout, .of_run htold hclosed⟩, fun handler s id key => tracks_unsubscribe c s⟩

/-- A hub that enters its events in the journal. -/
def journaling : Hub := { create {} (.memory .empty) with publisher := .recording }

/-- Two keys of an id are subscribed by the same selector, and one of them is given up. -/
def twoKeys : List Command := [
  .create { id := "d1", registryType := "local" },
  .subscribe { id := "h1", discoveryId := "d1", listenerNode := "/k" } ⟨"s1", "one", "p", "ns"⟩,
  .subscribe { id := "h2", discoveryId := "d1", listenerNode := "/l" } ⟨"s1", "one", "p", "ns"⟩,
  .unsubscribe { id := "h1", discoveryId := "d1", listenerNode := "/k" } ⟨"s1", "one", "p", "ns"⟩]

theorem withdrawals_close_announcements_twoKeys :
    (∀ id key, ¬ journaling.Tracks id key) ∧ (∀ cmd ∈ twoKeys, cmd.SparesRoutes) ∧
      (withdrawals (journaling.notices 0 twoKeys)).map Notice.key = ["/k"] ∧
      (announcements (journaling.notices 0 twoKeys)).map Notice.key = ["/k", "/l"] ∧
      ∃ events : List ChangeEvent,
        (journaling.afterAll 0 twoKeys).outlet = events.foldl Outlet.push journaling.outlet ∧
        Balanced (journaling.notices 0 twoKeys) events := by
  have hfree : ∀ id key, ¬ journaling.Tracks id key := fun id key ht => by cases ht
  have hcmds : ∀ cmd ∈ twoKeys, cmd.SparesRoutes := by
    simp [twoKeys, Command.SparesRoutes]
  exact ⟨hfree, hcmds, by decide +kernel, by decide +kernel, (withdrawals_close_announcements hfree hcmds).1⟩

/-- Whoever gives up a key names the selector: here it is one that was never announced, and the selector that was
announced is neither withdrawn nor subscribed any more. -/
theorem exists_withdrawn_unannounced :
    let h := journaling.afterAll 0 [
      .create { id := "d1", registryType := "local" },
      .subscribe { id := "h1", discoveryId := "d1", listenerNode := "/k" } ⟨"s1", "one", "p", "ns"⟩,
      .unsubscribe { id := "h1", discoveryId := "d1", listenerNode := "/k" } ⟨"s2", "two", "p", "ns"⟩]
    h.outlet.events.countP (ChangeEvent.tells .update "s2") = 0 ∧
      h.outlet.events.countP (ChangeEvent.tells .delete "s2") = 1 ∧
      h.outlet.events.countP (ChangeEvent.tells .update "s1") = 1 ∧
      h.outlet.events.countP (ChangeEvent.tells .delete "s1") = 0 ∧ ¬ h.Tracks "d1" "/k" := by
  decide +kernel

end Hub

end RouteSync
