import RouteSync.Proofs.Hub.Sharing

/-!
# Watches of shared keys

Two ids on one connector may track the same key, for which the connector has one watch.  Removing a
registration leaves the watches of the others alone.  Removing a subscription does not: it takes the watch
of its key along, whoever else tracks the key.  That is the only way in which a tracked key loses its watch
(`removals_keep_watches_iff`).
-/

namespace RouteSync

/-- The id for which a command removes something. -/
def Command.removes : Command → Option String
  | .remove r => some r.id
  | .unsubscribe handler _ => some handler.discoveryId
  | _ => none

namespace Wiring

/-- A command gives up a key that its id tracks. -/
def GivesUp (w : Wiring) (cmd : Command) (id key : String) : Prop :=
  ∃ handler s, cmd = .unsubscribe handler s ∧ handler.discoveryId = id ∧ w.watchKey handler = key ∧
    w.Tracks id key

/-- Whoever gives up a key is the last to track it. -/
def Considerate (w : Wiring) (cmd : Command) : Prop :=
  ∀ id key, w.GivesUp cmd id key → ∀ a, w.Tracks a key → a = id

/-- Every key that some id tracks is watched. -/
def Complete (w : Wiring) : Prop := ∀ id key, w.Tracks id key → w.Watches key

variable {c : ConnectorId} {w w' : Wiring} {cmd : Command} {d d' id key : String}

theorem watches_bindTo (route : RouteRecord) : (w.bindTo id route).Watches key ↔ w.Watches key := by
  obtain ⟨ls, he, -⟩ := Wired.bindTo_spec w id route
  rw [he]
  rfl

theorem watches_unwatch {k : String} : (w.unwatch id key).Watches k ↔ k ≠ key ∧ w.Watches k := by
  rw [watches_iff, watches_iff]
  show (∃ l, (w.watchers.erase key).get? k = some l) ↔ _
  rw [Table.get?_erase]
  by_cases hk : key = k
  · simp [hk]
  · simp [hk, Ne.symm hk]

/-- **A removal** for one id keeps the watch of a key that another id tracks, unless it gives the key up. -/
theorem Step.watches_iff_of_removes (hs : w.Step c cmd w') (hw : Wired c w) (hd : cmd.removes = some d)
    (hne : d' ≠ d) (ht : w.Tracks d' key) (hk : w.Watches key) :
    w'.Tracks d' key ∧ (w'.Watches key ↔ ¬ w.GivesUp cmd d key) := by
  cases hs with
  | idle hcmd =>
    refine ⟨ht, iff_of_true hk ?_⟩
    rintro ⟨handler, s, rfl, rfl, rfl, hg⟩
    exact hcmd hg
  | leave hid =>
    cases hd
    refine ⟨tracks_leave.mpr ⟨hne, ht⟩, iff_of_true ?_ ?_⟩
    · rw [Watches, Table.contains, (hw.watchers_leave key).1 ⟨d', hne, ht⟩]
      exact hk
    · rintro ⟨handler, s, hcmd, -⟩
      cases hcmd
  | @unwatch handler s hkey =>
    cases hd
    refine ⟨tracks_unwatch.mpr ⟨fun h => hne h.1, ht⟩, ?_⟩
    rw [watches_unwatch]
    constructor
    · rintro ⟨hne', -⟩ ⟨handler', s', hcmd, -, hk', -⟩
      cases hcmd
      exact hne' hk'.symm
    · intro hg
      refine ⟨fun he => hg ⟨handler, s, rfl, rfl, he.symm, he ▸ hkey⟩, hk⟩
  | join => cases hd
  | watch => cases hd
  | build => cases hd
  | adopt => cases hd
  | bind => cases hd

/-- **Exactly considerate commands** keep every tracked key watched. -/
theorem Step.complete_iff (hs : w.Step c cmd w') (hw : Wired c w) (hc : w.Complete) :
    w'.Complete ↔ w.Considerate cmd := by
  have plain : (∀ handler s, cmd ≠ .unsubscribe handler s) → w.Considerate cmd := by
    rintro hcmd id key ⟨handler, s, he, -⟩
    exact absurd he (hcmd handler s)
  cases hs with
  | idle hcmd =>
    refine iff_of_true hc ?_
    rintro id key ⟨handler, s, rfl, rfl, rfl, hg⟩
    exact absurd hg hcmd
  | join hid =>
    refine iff_of_true (fun a k ha => ?_) (plain fun _ _ he => by cases he)
    exact hc a k (tracks_join.mp ha).2
  | leave hid =>
    refine iff_of_true (fun a k ha => ?_) (plain fun _ _ he => by cases he)
    obtain ⟨hne, ha⟩ := tracks_leave.mp ha
    rw [Watches, Table.contains, (hw.watchers_leave k).1 ⟨a, hne, ha⟩]
    exact hc a k ha
  | @watch handler s m hid hkey hm =>
    refine iff_of_true (fun a k ha => ?_) (plain fun _ _ he => by cases he)
    rw [watches_iff]
    show ∃ l, (w.watchers.insert (w.watchKey handler) w.listeners.length).get? k = some l
    rw [Table.get?_insert]
    split_ifs with hk
    · exact ⟨_, rfl⟩
    · rcases (tracks_watch hw hid).mp ha with ⟨-, he⟩ | ha
      · exact absurd he.symm hk
      · exact watches_iff.mp (hc a k ha)
  | @unwatch handler s hkey =>
    constructor
    · rintro hc' id k ⟨handler', s', he, rfl, rfl, -⟩ a ha
      cases he
      by_contra hne
      have ha' : (w.unwatch handler.discoveryId (w.watchKey handler)).Tracks a (w.watchKey handler) :=
        tracks_unwatch.mpr ⟨fun h => hne h.1, ha⟩
      exact (watches_unwatch.mp (hc' a _ ha')).1 rfl
    · intro hcons a k ha
      obtain ⟨hne, ha⟩ := tracks_unwatch.mp ha
      refine watches_unwatch.mpr ⟨?_, hc a k ha⟩
      rintro rfl
      exact hne ⟨hcons handler.discoveryId _ ⟨handler, s, rfl, rfl, rfl, hkey⟩ a ha, rfl⟩
  | build => exact iff_of_true hc (plain fun _ _ he => by cases he)
  | adopt => exact iff_of_true hc (plain fun _ _ he => by cases he)
  | bind =>
    refine iff_of_true (fun a k ha => ?_) (plain fun _ _ he => by cases he)
    exact (watches_bindTo _).mpr (hc a k ((tracks_bindTo _).mp ha))

end Wiring

namespace Hub

variable {c : ConnectorId} {h₀ h : Hub}

theorem Fresh.complete (hf : h₀.Fresh c) : (h₀.wiring c).Complete := by
  intro id key ht
  obtain ⟨keys, hk, -⟩ := Registrations.isTracked_iff.mp ht
  replace hk : h₀.registrations.watchKeys.get? id = some keys := hk
  rw [(hf.uncached id).2] at hk
  cases hk

theorem Runs.complete (hf : h₀.Fresh c) (hr : Runs c (fun h cmd => (h.wiring c).Considerate cmd) h₀ h) :
    (h.wiring c).Complete := by
  induction hr with
  | refl => exact hf.complete
  | step hr ha ih =>
    have hw := hr.wired hf
    exact ((Act.step_wiring hw _).complete_iff hw ih).mpr ha

/-- **Removals and the watches of others.**  A removal for one id leaves a key tracked for another id, and
watched unless the removal gives up this very key.  In runs in which nobody gives up a key that another id
tracks, every tracked key is watched, and the first step that is not of this kind ends that. -/
theorem removals_keep_watches_iff (hf : h₀.Fresh c) (hr : Runs c (fun _ _ => True) h₀ h) :
    (∀ (cmd : Command) (d d' key : String), cmd.removes = some d → d' ≠ d → h.Tracks d' key →
        h.Watches c key →
          (h.after c cmd).Tracks d' key ∧
            ((h.after c cmd).Watches c key ↔ ¬ (h.wiring c).GivesUp cmd d key)) ∧
      (Runs c (fun h cmd => (h.wiring c).Considerate cmd) h₀ h →
        (∀ id key, h.Tracks id key → h.Watches c key) ∧
          ∀ cmd, (∀ id key, (h.after c cmd).Tracks id key → (h.after c cmd).Watches c key) ↔
            (h.wiring c).Considerate cmd) := by
  have hw : Wired c (h.wiring c) := hr.wired hf
  refine ⟨fun cmd d d' key hd hne ht hk => ?_, fun hr' => ⟨Runs.complete hf hr', fun cmd => ?_⟩⟩
  · exact (Act.step_wiring hw cmd).watches_iff_of_removes hw hd hne ht hk
  · exact (Act.step_wiring hw cmd).complete_iff hw (Runs.complete hf hr')

/-- The second id leaves, and the key stays watched for the first. -/
theorem watches_after_remove_shared :
    (sharedKey.after 0 (.remove { id := "d2", registryType := "local" })).Tracks "d1" "/k" ∧
      (sharedKey.after 0 (.remove { id := "d2", registryType := "local" })).Watches 0 "/k" := by
  have hr : Runs 0 (fun _ _ => True) (create {} (.memory .empty)) sharedKey :=
    runs_afterAll _ fun _ _ _ => trivial
  have hkeep := (removals_keep_watches_iff (fresh_create {} (.memory .empty)) hr).1
    (.remove { id := "d2", registryType := "local" }) "d2" "d1" "/k" rfl (by decide)
    (show sharedKey.Tracks "d1" "/k" by decide +kernel) (show sharedKey.Watches 0 "/k" by decide +kernel)
  refine ⟨hkeep.1, hkeep.2.mpr ?_⟩
  rintro ⟨handler, s, hcmd, -⟩
  cases hcmd

/-- The second id gives up the key, and the first one tracks a key that is not watched. -/
theorem not_watches_after_unsubscribe_shared :
    let h := (probed (.memory .empty)).afterAll 0 bothSubscribe
    let h' := h.after 0 (.unsubscribe { id := "h2", discoveryId := "d2", listenerNode := "/k" }
      ⟨"s2", "two", "p", "ns"⟩)
    h.registrations.contains "d1" = true ∧ h.Tracks "d1" "/k" ∧ h.Watches 0 "/k" ∧
      h'.registrations.contains "d1" = true ∧ h'.Tracks "d1" "/k" ∧ ¬ h'.Watches 0 "/k" := by
  decide +kernel

end Hub

end RouteSync
