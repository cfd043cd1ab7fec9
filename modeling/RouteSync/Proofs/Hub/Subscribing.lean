import RouteSync.Proofs.Hub.Announcing
import RouteSync.Proofs.Hub.Calling
import RouteSync.Proofs.Hub.Enrolment

/-!
# Subscribing at most once, and all or nothing

A subscription tracks its key before the connector is asked to watch it, so that a refusal has a track to take back,
and the connector may tell the new listener of a change before it answers.  All the same a subscription has done
everything or nothing that the administration of discovery goes by (`subscribe_all_or_nothing`): what is taken back
is the key that was added, for a key that was tracked before is not subscribed, and a listener that is told of a
change makes calls to the store alone.
-/

namespace RouteSync

/-- A call to an instrumented connector, with its label. -/
def JournalEntry.registryCall? : JournalEntry → Option (String × RegistryCall)
  | .registry label call => some (label, call)
  | _ => none

namespace Hub

/-- The calls to instrumented connectors in the journal. -/
def registryCalls (h : Hub) : List (String × RegistryCall) := h.journal.filterMap JournalEntry.registryCall?

/-- The listener that a handler's subscription makes. -/
def listenerFor (h : Hub) (handler : Handler) (s : Selector) (m : Mapping) : SyncListener :=
  ⟨m, [.ofHandler s handler], handler.discoveryId, h.settings.defaultProtocol⟩

/-- What a subscription has done when it succeeds. -/
structure Subscribed (h : Hub) (handler : Handler) (s : Selector) (h' : Hub) : Prop where
  /-- The key was added to those of the id, -/
  key : ∃ keys, h.registrations.watchKeys.get? handler.discoveryId = some keys ∧ h.watchKey handler ∉ keys ∧
    h'.registrations.watchKeys.get? handler.discoveryId = some (keys.insert (h.watchKey handler))
  /-- and no other key to anybody's. -/
  others : ∀ id, id ≠ handler.discoveryId →
    h'.registrations.watchKeys.get? id = h.registrations.watchKeys.get? id
  connectors : h'.registrations.connectors = h.registrations.connectors
  /-- The listener of the id is a new one, and the other ids have theirs. -/
  listener : ∃ m, Mapping.read handler.mapping = .ok m ∧
    h'.listeners = h.listeners ++ [.sync (h.listenerFor handler s m)] ∧
    h'.active = h.active.insert handler.discoveryId h.listeners.length
  /-- The selector was announced once, and nothing else about routes. -/
  announced : RoutesPublished [.single .routeSelector .update (.ofSelector s)] h h'

/-- What a subscription has not done when it fails. -/
structure Unsubscribed (h h' : Hub) : Prop where
  registrations : h'.registrations = h.registrations
  active : h'.active = h.active
  unannounced : RoutesPublished [] h h'

/-- What an id is administered by. -/
structure Books where
  registrations : Registrations
  active : Table String ListenerId
  listeners : List Listener

def books (h : Hub) : Books := ⟨h.registrations, h.active, h.listeners⟩

theorem registryCalls_publish (h : Hub) (e : ChangeEvent) : (h.publish e).registryCalls = h.registryCalls := by
  unfold publish
  cases h.publisher with
  | recording => simp [registryCalls, JournalEntry.registryCall?]
  | queued q => rfl

theorem books_publish (h : Hub) (e : ChangeEvent) : (h.publish e).books = h.books := by
  obtain ⟨p, j, m, he⟩ := h.publish_eq e
  rw [he]
  rfl

end Hub

namespace Act

open Hub

variable {h h' : Hub} {k : ConnectorId} {handler : Handler} {s : Selector} {m : Mapping}

/-! ### What a watch does -/

/-- Calls to the store are no calls to connectors. -/
theorem preserves_registryCalls_store (v : List (String × RegistryCall)) (c : StoreCall) :
    Preserves (fun g => g.registryCalls = v) (call (.store c)) := by
  rintro h rfl
  rw [left_call]
  simp [registryCalls, JournalEntry.registryCall?]

theorem lastingFor_registryCalls (v : List (String × RegistryCall)) :
    LastingFor (fun _ => True) (fun _ _ => True) fun g => g.registryCalls = v := by
  have hcall := preserves_registryCalls_store v
  have honStore : ∀ {α : Type} (f : Store → Except StorageError (Store × α)),
      Preserves (fun g => g.registryCalls = v) (onStore f) := fun f =>
    preserves_bind preserves_get fun _ => preserves_bind (preserves_ofExcept _ _) fun _ =>
      preserves_bind (preserves_modify fun _ hh => hh) fun _ => preserves_pure _
  refine ⟨fun owner _ => ?_, fun owner e _ _ => ?_, fun owner e _ _ => ?_, fun owner e _ _ => ?_,
    fun ev _ h hh => (registryCalls_publish h ev).trans hh⟩
  · exact preserves_bind (hcall _) fun _ => preserves_bind preserves_get fun _ => preserves_ofExcept _ _
  · exact preserves_bind (hcall _) fun _ => preserves_bind (preserves_step fun _ hh => hh) fun _ =>
      preserves_bind preserves_get fun _ => honStore _
  · exact preserves_bind (hcall _) fun _ => preserves_bind preserves_get fun _ => honStore _
  · exact preserves_bind (hcall _) fun _ => honStore _

/-- Whoever is told of a change calls no connector. -/
theorem keeps_registryCalls_notify (l : ListenerId) (change : RegistryChange) :
    Keeps registryCalls (notify l change) := by
  refine keeps_iff.mpr fun v => preserves_bind preserves_get fun h => ?_
  split
  · exact (lastingFor_registryCalls v).syncChange fun _ _ _ _ => ⟨trivial, fun _ _ _ _ => trivial⟩
  · rintro h rfl
    rw [left_call]
    simp [registryCalls, JournalEntry.registryCall?]
  · exact preserves_pure _

/-- **A watch** is one call. -/
theorem registryCalls_watchInstances (k : ConnectorId) (key : String) (l : ListenerId) (h : Hub) :
    ((watchInstances k key l).left h).registryCalls =
      h.registryCalls ++ (h.label? k).toList.map fun label => (label, .watch key) := by
  have hrest : ((watchInstances k key l).left h).registryCalls =
      ((registryCall k (.watch key)).left h).registryCalls := by
    refine view_left_bind (fun _ => (keeps_bind keeps_get fun g => ?_ : Keeps registryCalls _)) h
    refine keeps_bind (keeps_ofExcept _ _) fun r => keeps_bind (keeps_modify fun _ => rfl) fun _ =>
      keeps_bind (keeps_modify fun _ => rfl) fun _ => ?_
    split
    · exact keeps_registryCalls_notify _ _
    · exact keeps_pure _
  have hcall : (registryCall k (.watch key)).left h = h.called k (.watch key) := by
    unfold left
    rw [registryCall_eq]
    exact left_reply
  rw [hrest, hcall]
  unfold registryCalls
  rw [journal_called, List.filterMap_append]
  unfold trace?
  cases h.label? k <;> rfl

theorem untouched_books : Untouched books where
  call _ _ _ := rfl
  publish := books_publish
  count _ _ := rfl
  store _ _ _ := rfl

/-- A watch leaves the books alone, also if the new watcher is told of a change. -/
theorem keeps_books_watchInstances (k : ConnectorId) (key : String) (l : ListenerId) :
    Keeps books (watchInstances k key l) :=
  keeps_iff.mpr fun _ => (untouched_books.lasting fun _ _ he hh => he.trans hh).watchInstances
    (fun _ _ _ hh => hh) k key l

/-! ### What a subscription does -/

/-- **A subscription that is watched** has been done. -/
theorem subscribed_of_watch {u : Unit} {h₁ : Hub} (hm : Mapping.read handler.mapping = .ok m)
    (hkeys : (h.registrations.watchKeys.get? handler.discoveryId).isSome = true)
    (hno : ¬ h.Tracks handler.discoveryId (h.watchKey handler))
    (hwatch : watchInstances k (h.watchKey handler) h.listeners.length
      (h.subscribing handler (h.listenerFor handler s m)) = .ok u h₁) :
    Subscribed h handler s ({ h₁ with active := h₁.active.insert handler.discoveryId h.listeners.length }.publish
      (.single .routeSelector .update (.ofSelector s))) := by
  have hbooks : h₁.books = (h.subscribing handler (h.listenerFor handler s m)).books :=
    (keeps_books_watchInstances k _ _).of_ok hwatch
  have hrelayed : Relayed (h.subscribing handler (h.listenerFor handler s m)) h₁ :=
    (relayed_watchInstances _ _).of_ok .refl hwatch
  have hafter := books_publish { h₁ with active := h₁.active.insert handler.discoveryId h.listeners.length }
    (.single .routeSelector .update (.ofSelector s))
  have hregs : h₁.registrations = (h.registrations.track handler.discoveryId (h.watchKey handler)).1 :=
    congrArg Books.registrations hbooks
  obtain ⟨hkey, hothers⟩ := Registrations.track_spec hkeys hno
  refine ⟨?_, ?_, ?_, ⟨m, hm, ?_, ?_⟩, ?_⟩
  · rw [show Hub.registrations _ = h₁.registrations from congrArg Books.registrations hafter, hregs]
    exact hkey
  · rw [show Hub.registrations _ = h₁.registrations from congrArg Books.registrations hafter, hregs]
    exact hothers
  · rw [show Hub.registrations _ = h₁.registrations from congrArg Books.registrations hafter, hregs]
    exact Registrations.connectors_track
  · exact (congrArg Books.listeners hafter).trans (congrArg Books.listeners hbooks)
  · refine (congrArg Books.active hafter).trans ?_
    show h₁.active.insert _ _ = _
    rw [show h₁.active = h.active from congrArg Books.active hbooks]
  · exact RoutesPublished.trans (.trans (.of_outlet rfl) hrelayed.published)
      (routesPublished_publish { h₁ with active := _ } _)

/-- **A subscription that is refused** has not been done: what is taken back is what was added. -/
theorem unsubscribed_of_watch_error {e : Error} {h₁ : Hub}
    (hno : ¬ h.Tracks handler.discoveryId (h.watchKey handler))
    (hwatch : watchInstances k (h.watchKey handler) h.listeners.length
      (h.subscribing handler (h.listenerFor handler s m)) = .error e h₁) :
    Unsubscribed h { h₁ with
      registrations := (h₁.registrations.untrack handler.discoveryId (h.watchKey handler)).1 } := by
  have hbooks : h₁.books = (h.subscribing handler (h.listenerFor handler s m)).books :=
    (keeps_books_watchInstances k _ _).of_error hwatch
  have hrelayed : Relayed (h.subscribing handler (h.listenerFor handler s m)) h₁ := by
    rw [← left_of_error hwatch]
    exact relayed_watchInstances _ _ _ .refl
  have hregs : h₁.registrations = (h.registrations.track handler.discoveryId (h.watchKey handler)).1 :=
    congrArg Books.registrations hbooks
  refine ⟨?_, congrArg Books.active hbooks, hrelayed.published⟩
  show (h₁.registrations.untrack _ _).1 = _
  rw [hregs]
  exact Registrations.untrack_track hno

/-- A subscription that gets as far as its connector makes the call of its watch and fails exactly if this fails. -/
theorem subscribe_calls (hid : h.registrations.connectors.get? handler.discoveryId = some k)
    (hno : ¬ h.Tracks handler.discoveryId (h.watchKey handler)) (hm : Mapping.read handler.mapping = .ok m) :
    ((subscribe handler s).left h).registryCalls =
        h.registryCalls ++ (h.label? k).toList.map (fun label => (label, .watch (h.watchKey handler))) ∧
      (subscribe handler s).isOk h = (watchInstances k (h.watchKey handler) h.listeners.length).isOk
        (h.subscribing handler (h.listenerFor handler s m)) := by
  have hcalls := registryCalls_watchInstances k (h.watchKey handler) h.listeners.length
    (h.subscribing handler (h.listenerFor handler s m))
  unfold isOk
  cases hwatch : watchInstances k (h.watchKey handler) h.listeners.length
      (h.subscribing handler (h.listenerFor handler s m)) with
  | ok u h₁ =>
    rw [left_of_ok hwatch] at hcalls
    have hrun := subscribe_of_watch hid hno hm hwatch
    rw [left_of_ok hrun, hrun, registryCalls_publish]
    exact ⟨hcalls, rfl⟩
  | error e h₁ =>
    rw [left_of_error hwatch] at hcalls
    have hrun := subscribe_of_watch_error hid hno hm hwatch
    rw [left_of_error hrun, hrun]
    exact ⟨hcalls, rfl⟩

/-- A subscription that fails has not been done, wherever it fails. -/
theorem unsubscribed_of_error {e : Error} (hfail : subscribe handler s h = .error e h') : Unsubscribed h h' := by
  by_cases ha : h.Admits handler
  · obtain ⟨k, hid⟩ := Option.isSome_iff_exists.mp ha.1
    cases hm : Mapping.read handler.mapping with
    | error err =>
      rw [subscribe_refused s hid ha.2 hm] at hfail
      cases hfail
      exact ⟨rfl, rfl, .of_outlet rfl⟩
    | ok m =>
      cases hwatch : watchInstances k (h.watchKey handler) h.listeners.length
          (h.subscribing handler (h.listenerFor handler s m)) with
      | ok u h₁ =>
        rw [subscribe_of_watch hid ha.2 hm hwatch] at hfail
        cases hfail
      | error err h₁ =>
        rw [subscribe_of_watch_error hid ha.2 hm hwatch] at hfail
        cases hfail
        exact unsubscribed_of_watch_error ha.2 hwatch
  · rw [subscribe_idle s (not_admits_iff.mp ha)] at hfail
    cases hfail

/-- A subscription that is admitted and succeeds has been done. -/
theorem subscribed_of_ok (hkeys : (h.registrations.watchKeys.get? handler.discoveryId).isSome = true)
    (ha : h.Admits handler) (hok : subscribe handler s h = .ok () h') : Subscribed h handler s h' := by
  obtain ⟨k, hid⟩ := Option.isSome_iff_exists.mp ha.1
  cases hm : Mapping.read handler.mapping with
  | error err =>
    rw [subscribe_refused s hid ha.2 hm] at hok
    cases hok
  | ok m =>
    cases hwatch : watchInstances k (h.watchKey handler) h.listeners.length
        (h.subscribing handler (h.listenerFor handler s m)) with
    | ok u h₁ =>
      rw [subscribe_of_watch hid ha.2 hm hwatch] at hok
      cases hok
      exact subscribed_of_watch hm hkeys ha.2 hwatch
    | error err h₁ =>
      rw [subscribe_of_watch_error hid ha.2 hm hwatch] at hok
      cases hok

end Act

namespace Hub

variable {h₀ h : Hub} {c : ConnectorId} {allowed : Hub → Command → Prop}

/-- **A subscription is at most once, and all or nothing.**  After any run, a handler whose id is not registered or
tracks its key already changes nothing at all.  Otherwise a mapping that cannot be read refuses it before anything
is done; else the connector gets one call, to watch the key, and the subscription fails exactly if the watch does.
One that fails leaves all keys and listeners as they were and announces nothing, and one that succeeds has added the
key, registered its listener and announced its selector once. -/
theorem subscribe_all_or_nothing (h0 : h₀.registrations = {}) (hr : Runs c allowed h₀ h) (handler : Handler)
    (s : Selector) :
    (¬ h.Admits handler → Act.subscribe handler s h = .ok () h) ∧
    (h.Admits handler → ∃ k, h.registrations.connectors.get? handler.discoveryId = some k ∧
      (∀ e, Mapping.read handler.mapping = .error e → Act.subscribe handler s h = .error (.invalid e) h) ∧
      ∀ m, Mapping.read handler.mapping = .ok m →
        ((Act.subscribe handler s).left h).registryCalls =
          h.registryCalls ++ (h.label? k).toList.map (fun label => (label, .watch (h.watchKey handler))) ∧
        (Act.subscribe handler s).isOk h = (Act.watchInstances k (h.watchKey handler) h.listeners.length).isOk
          (h.subscribing handler (h.listenerFor handler s m))) ∧
    (∀ e h', Act.subscribe handler s h = .error e h' → Unsubscribed h h') ∧
    ∀ h', h.Admits handler → Act.subscribe handler s h = .ok () h' → Subscribed h handler s h' := by
  refine ⟨fun ha => Act.subscribe_idle s (not_admits_iff.mp ha), fun ha => ?_,
    fun e h' => Act.unsubscribed_of_error, fun h' ha => ?_⟩
  · obtain ⟨k, hid⟩ := Option.isSome_iff_exists.mp ha.1
    exact ⟨k, hid, fun e => Act.subscribe_refused s hid ha.2, fun m => Act.subscribe_calls hid ha.2⟩
  · have hkeys : (h.registrations.watchKeys.get? handler.discoveryId).isSome = true :=
      ((hr.enrolled h0).keyed _).trans ha.1
    exact Act.subscribed_of_ok hkeys ha

/-- An id whose connector refuses once to watch a key. -/
def refusedOnce : Hub :=
  { threeTypes with faults := [⟨"c0.watch", .registry (.unreachable "a" "b"), 0, 1⟩] }.afterAll 0 [
    .create { id := "d1", registryType := "probed" }]

/-- The first subscription fails and leaves nothing, the second succeeds, and a third one does nothing. -/
theorem subscribe_all_or_nothing_refusedOnce :
    let handler : Handler := { id := "h1", discoveryId := "d1", listenerNode := "/k" }
    let s : Selector := ⟨"s1", "one", "p", "ns"⟩
    let g := refusedOnce.after 0 (.subscribe handler s)
    let g' := g.after 0 (.subscribe handler s)
    (∃ e, Act.subscribe handler s refusedOnce = .error e g) ∧ Unsubscribed refusedOnce g ∧ g.Admits handler ∧
      Subscribed g handler s g' ∧ Act.subscribe handler s g' = .ok () g' := by
  intro handler s g g'
  have hr : Runs 0 (fun _ _ => True)
      { threeTypes with faults := [⟨"c0.watch", .registry (.unreachable "a" "b"), 0, 1⟩] } refusedOnce :=
    runs_afterAll _ fun _ _ _ => trivial
  have hfails : (Act.subscribe handler s).isOk refusedOnce = false := by decide +kernel
  have hadmits : g.Admits handler := by decide +kernel
  have hsucceeds : (Act.subscribe handler s).isOk g = true := by decide +kernel
  obtain ⟨e, he⟩ := Act.eq_error_of_not_isOk hfails
  obtain ⟨-, -, hnothing, -⟩ := subscribe_all_or_nothing rfl hr handler s
  obtain ⟨-, -, -, hall⟩ := subscribe_all_or_nothing rfl (hr.step trivial) handler s
  obtain ⟨honce, -⟩ := subscribe_all_or_nothing rfl ((hr.step trivial).step trivial) handler s
  exact ⟨⟨e, he⟩, hnothing e _ he, hadmits, hall _ hadmits (Act.eq_ok_of_isOk hsucceeds),
    honce (by decide +kernel)⟩

end Hub

end RouteSync
