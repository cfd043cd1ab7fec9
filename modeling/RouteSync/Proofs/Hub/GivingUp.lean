import RouteSync.Proofs.Hub.Announcing
import RouteSync.Proofs.Hub.LettingGo

/-!
# Giving up a key

An id that gives up a key is taken off the track before its connector is called.  A subscription that is refused
takes its track back, but a connector that refuses to unwatch is met by no such step: the id has forgotten the key,
which the connector goes on watching, and to give it up once more does nothing (`failed_unsubscribe_forgets`).
-/

namespace RouteSync

namespace Hub

/-- What is left of a key that an id has failed to give up. -/
structure Forgotten (h : Hub) (handler : Handler) (h' : Hub) : Prop where
  /-- The id does not track the key any more; all else is tracked as before. -/
  tracks : ∀ id key, h'.Tracks id key ↔
    ¬ (id = handler.discoveryId ∧ key = h.watchKey handler) ∧ h.Tracks id key
  /-- The connectors watch what they watched, for the same listeners. -/
  connectors : h'.connectors = h.connectors
  active : h'.active = h.active
  /-- Nothing is published. -/
  outlet : h'.outlet = h.outlet
  /-- Giving the key up again does nothing, whatever the connector would answer now. -/
  idle : ∀ (s : Selector) (g : Hub), g.registrations = h'.registrations → g.settings = h'.settings →
    Act.unsubscribe handler s g = .ok () g

variable {h : Hub} {k : ConnectorId} {r : RegistryCall} {handler : Handler}

theorem outlet_called : (h.called k r).outlet = h.outlet := by
  unfold called trace?
  cases h.label? k with
  | none => rfl
  | some l => simp [outlet, JournalEntry.event?]

theorem forgotten_called : Forgotten h handler ((h.untracking handler).called k r) := by
  have hregs : ((h.untracking handler).called k r).registrations = (h.untracking handler).registrations := by
    unfold called
    split <;> rfl
  have hactive : ((h.untracking handler).called k r).active = h.active := by
    unfold called
    split <;> rfl
  have hsettings : ((h.untracking handler).called k r).settings = h.settings := by
    unfold called
    split <;> rfl
  have htracks : ∀ id key, ((h.untracking handler).called k r).Tracks id key ↔
      ¬ (id = handler.discoveryId ∧ key = h.watchKey handler) ∧ h.Tracks id key := by
    intro id key
    unfold Tracks
    rw [hregs]
    exact Registrations.isTracked_untrack
  refine ⟨htracks, connectors_called, hactive, outlet_called, fun s g hg hs => Act.unsubscribe_untracked s ?_⟩
  have hkey : g.watchKey handler = h.watchKey handler := by
    unfold watchKey
    rw [hs, hsettings]
  rw [hg, hkey]
  exact fun ht => ((htracks _ _).mp ht).1 ⟨rfl, rfl⟩

end Hub

namespace Act

open Hub

variable {h : Hub} {k : ConnectorId} {handler : Handler}

/-- A key that is tracked is unwatched unless the connector refuses, and then the selector is withdrawn. -/
theorem unsubscribe_eq (s : Selector) (ht : h.Tracks handler.discoveryId (h.watchKey handler))
    (hid : h.registrations.connectors.get? handler.discoveryId = some k) :
    unsubscribe handler s h = (reply (h.answer k (.unwatch (h.watchKey handler))) >>= fun _ =>
      publish (.single .routeSelector .delete (.ofSelector s)))
        ((h.untracking handler).released k (.unwatch (h.watchKey handler))) := by
  have hunwatch : unwatchInstances k (h.watchKey handler) (h.untracking handler) =
      reply (h.answer k (.unwatch (h.watchKey handler)))
        ((h.untracking handler).released k (.unwatch (h.watchKey handler))) := unwatchInstances_eq ..
  rw [unsubscribe_of_isTracked s ht, hid]
  cases ha : h.answer k (.unwatch (h.watchKey handler)) with
  | none =>
    rw [ha] at hunwatch
    exact bind_of_ok hunwatch _
  | some e =>
    rw [ha] at hunwatch
    exact bind_of_error hunwatch _

theorem unsubscribe_eq_error {s : Selector} {e : Error} {h' : Hub} :
    unsubscribe handler s h = .error e h' ↔ h.Tracks handler.discoveryId (h.watchKey handler) ∧
      ∃ k, h.registrations.connectors.get? handler.discoveryId = some k ∧
        h.answer k (.unwatch (h.watchKey handler)) = some e ∧
        h' = (h.untracking handler).called k (.unwatch (h.watchKey handler)) := by
  by_cases ht : h.Tracks handler.discoveryId (h.watchKey handler)
  · cases hid : h.registrations.connectors.get? handler.discoveryId with
    | none =>
      -- without a connector nothing can be refused
      rw [unsubscribe_of_isTracked s ht, hid]
      refine ⟨fun hno => ?_, fun ⟨_, k, hk, _⟩ => ?_⟩
      · cases hno
      · cases hk
    | some k =>
      have hsame : (h.untracking handler).answer k (.unwatch (h.watchKey handler)) =
        h.answer k (.unwatch (h.watchKey handler)) := rfl
      rw [unsubscribe_eq s ht hid]
      cases ha : h.answer k (.unwatch (h.watchKey handler)) with
      | none =>
        refine ⟨fun hno => ?_, fun ⟨_, k', hk', ha', _⟩ => ?_⟩
        · cases hno
        · cases hk'
          rw [ha] at ha'
          cases ha'
      | some e' =>
        rw [released_of_answer (hsame.trans ha)]
        show EStateM.Result.error e' _ = .error e h' ↔ _
        rw [EStateM.Result.error.injEq]
        constructor
        · rintro ⟨rfl, rfl⟩
          exact ⟨ht, k, rfl, ha, rfl⟩
        · rintro ⟨-, k', hk', ha', rfl⟩
          cases hk'
          rw [ha] at ha'
          cases ha'
          exact ⟨rfl, rfl⟩
  · rw [unsubscribe_untracked s ht]
    exact ⟨nofun, fun hboth => absurd hboth.1 ht⟩

end Act

namespace Hub

/-- **A key that cannot be given up is forgotten.**  Giving up a key fails exactly if it is tracked and the
connector refuses to unwatch it.  Then the id does not track it any more, the connector goes on watching it, nothing
is published, and giving it up again does nothing, although the connector may answer by now; a key that is tracked is
unwatched and the selector withdrawn if the connector answers. -/
theorem failed_unsubscribe_forgets (h : Hub) (handler : Handler) (s : Selector) :
    (∀ e, (∃ h', Act.unsubscribe handler s h = .error e h') ↔
      h.Tracks handler.discoveryId (h.watchKey handler) ∧
        ∃ k, h.registrations.connectors.get? handler.discoveryId = some k ∧
          h.answer k (.unwatch (h.watchKey handler)) = some e) ∧
    (∀ e h', Act.unsubscribe handler s h = .error e h' → Forgotten h handler h') ∧
    ∀ k, h.Tracks handler.discoveryId (h.watchKey handler) →
      h.registrations.connectors.get? handler.discoveryId = some k →
      h.answer k (.unwatch (h.watchKey handler)) = none →
      Act.unsubscribe handler s h =
        .ok () (((h.untracking handler).released k (.unwatch (h.watchKey handler))).publish
          (.single .routeSelector .delete (.ofSelector s))) := by
  refine ⟨fun e => ?_, fun e h' hfail => ?_, fun k ht hid ha => ?_⟩
  · simp only [Act.unsubscribe_eq_error]
    constructor
    · rintro ⟨h', ht, k, hid, ha, -⟩
      exact ⟨ht, k, hid, ha⟩
    · rintro ⟨ht, k, hid, ha⟩
      exact ⟨_, ht, k, hid, ha, rfl⟩
  · obtain ⟨-, k, -, -, rfl⟩ := Act.unsubscribe_eq_error.mp hfail
    exact forgotten_called
  · rw [Act.unsubscribe_eq s ht hid, ha]
    rfl

/-- Watches a key for its id. -/
def clinging : Handler := { id := "h1", discoveryId := "d1", listenerNode := "/k" }

/-- An id has subscribed a key with a connector that refuses once to unwatch it. -/
def clingingKey : Hub :=
  clingingTypes.afterAll 0 [
    .create { id := "d1", registryType := "probed" },
    .subscribe clinging ⟨"s1", "one", "p", "ns"⟩]

/-- The key is forgotten; after one more subscription it can be given up. -/
theorem failed_unsubscribe_forgets_clingingKey :
    let s : Selector := ⟨"s1", "one", "p", "ns"⟩
    let g := clingingKey.afterAll 0 [.unsubscribe clinging s, .subscribe clinging s]
    (∃ e h', Act.unsubscribe clinging s clingingKey = .error e h' ∧ Forgotten clingingKey clinging h') ∧
      Act.unsubscribe clinging s g = .ok () (((g.untracking clinging).released 1 (.unwatch "/k")).publish
        (.single .routeSelector .delete (.ofSelector s))) := by
  intro s g
  obtain ⟨-, hforgotten, -⟩ := failed_unsubscribe_forgets clingingKey clinging s
  obtain ⟨-, -, hgiven⟩ := failed_unsubscribe_forgets g clinging s
  have hfails : (Act.unsubscribe clinging s).isOk clingingKey = false := by decide +kernel
  obtain ⟨e, he⟩ := Act.eq_error_of_not_isOk hfails
  have htracks : g.Tracks "d1" "/k" := by decide +kernel
  exact ⟨⟨e, _, he, hforgotten e _ he⟩, hgiven 1 htracks (by decide +kernel) (by decide +kernel)⟩

/-- The connector refuses to unwatch a tracked key, and would not refuse again.  But the key is not tracked any more,
so giving it up once more succeeds and does nothing: the connector watches it still, and the selector that was
announced is not withdrawn. -/
theorem exists_unsubscribe_forgets :
    let s : Selector := ⟨"s1", "one", "p", "ns"⟩
    let failed := clingingKey.after 0 (.unsubscribe clinging s)
    let again := failed.after 0 (.unsubscribe clinging s)
    clingingKey.Tracks "d1" "/k" ∧ (Act.unsubscribe clinging s).isOk clingingKey = false ∧
      ¬ failed.Tracks "d1" "/k" ∧ failed.answer 1 (.unwatch "/k") = none ∧
      (Act.unsubscribe clinging s).isOk failed = true ∧ again.Watches 1 "/k" ∧
      again.outlet.events.countP (ChangeEvent.tells .update "s1") = 1 ∧
      again.outlet.events.countP (ChangeEvent.tells .delete "s1") = 0 := by
  decide +kernel

end Hub

end RouteSync
