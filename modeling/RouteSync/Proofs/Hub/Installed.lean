import RouteSync.Proofs.Hub.Sharing

/-!
# Listeners of ids that have left

For every watched key one listener is told about the changes, the one of the latest subscription.  If its id
leaves while another id tracks the key, the watch stays with this listener: it goes on writing and
publishing for a route whose id is gone.  As long as that does not happen, every listener that is told
belongs to an id that tracks the key (`installed_listeners_track_iff`).
-/

namespace RouteSync

namespace Wiring

/-- The listeners that watch keys were made for ids that track them. -/
def Faithful (w : Wiring) : Prop := ∀ key x, w.installed key = some x → w.Tracks x.discoveryId key

/-- An id leaves whose listener watches a key that another id tracks as well. -/
def Abandons (w : Wiring) (cmd : Command) : Prop :=
  ∃ r key x, cmd = .remove r ∧ w.installed key = some x ∧ x.discoveryId = r.id ∧
    ∃ a, a ≠ r.id ∧ w.Tracks a key

variable {c : ConnectorId} {w w' : Wiring} {cmd : Command} {id key k : String} {x y : SyncListener}

theorem installed_leave (hw : Wired c w) :
    (w.leave c id).installed k = some x ↔ w.installed k = some x ∧ ∃ a, a ≠ id ∧ w.Tracks a k := by
  rw [installed_eq_some_iff, installed_eq_some_iff, Wired.listeners_leave]
  constructor
  · rintro ⟨l, hl, hx⟩
    obtain ⟨hl, ha⟩ := hw.watchers_of_leave hl
    exact ⟨⟨l, hl, hx⟩, ha⟩
  · rintro ⟨⟨l, hl, hx⟩, ha⟩
    exact ⟨l, by rw [(hw.watchers_leave k).1 ha, hl], hx⟩

theorem installed_watch_self : (w.watch y key).installed key = some y := by
  rw [installed_eq_some_iff]
  refine ⟨w.listeners.length, ?_, ?_⟩
  · show (w.watchers.insert key w.listeners.length).get? key = some w.listeners.length
    rw [Table.get?_insert, if_pos rfl]
  · show (w.listeners ++ [.sync y])[w.listeners.length]? = some (.sync y)
    simp

theorem installed_unwatch (h : (w.unwatch id key).installed k = some x) :
    k ≠ key ∧ w.installed k = some x := by
  obtain ⟨l, hl, hx⟩ := installed_eq_some_iff.mp h
  replace hl : (w.watchers.erase key).get? k = some l := hl
  rw [Table.get?_erase] at hl
  split_ifs at hl with hk
  exact ⟨Ne.symm hk, installed_eq_some_iff.mpr ⟨l, hl, hx⟩⟩

theorem installed_build (hw : Wired c w) (y : SyncListener) :
    (w.build y).installed k = w.installed k := by
  have hlookup : ((w.watchers.get? k).bind fun l => (w.listeners ++ [Listener.sync y])[l]?) =
      (w.watchers.get? k).bind fun l => w.listeners[l]? := by
    cases hl : w.watchers.get? k with
    | none => rfl
    | some l =>
      obtain ⟨z, hz⟩ := hw.installed k l hl
      exact List.getElem?_append_left (List.getElem?_eq_some_iff.mp hz).1
  unfold installed build
  rw [hlookup]

theorem installed_watch_of_ne (hw : Wired c w) (hk : k ≠ key) :
    (w.watch y key).installed k = w.installed k := by
  rw [← installed_build hw y]
  unfold installed
  have hother : (w.watch y key).watchers.get? k = w.watchers.get? k := by
    show (w.watchers.insert key w.listeners.length).get? k = _
    rw [Table.get?_insert, if_neg hk.symm]
  rw [hother]
  rfl

theorem installed_bindTo (hw : Wired c w) {route : RouteRecord}
    (h : (w.bindTo id route).installed k = some x) :
    ∃ z, w.installed k = some z ∧ z.discoveryId = x.discoveryId := by
  obtain ⟨ls, he, hls⟩ := Wired.bindTo_spec w id route
  rw [he] at h
  obtain ⟨l, hl, hx⟩ := installed_eq_some_iff.mp h
  obtain ⟨z, hz⟩ := hw.installed k l hl
  obtain ⟨routes, hr⟩ := hls l z hz
  rw [hr] at hx
  cases hx
  exact ⟨z, installed_eq_some_iff.mpr ⟨l, hl, hz⟩, rfl⟩

/-- Only a subscription for a registered id makes it track a key. -/
theorem Step.tracks_of (hs : w.Step c cmd w') (hw : Wired c w) {a : String} (h : w'.Tracks a k) :
    w.Tracks a k ∨ w.registrations.connectors.get? a = some c ∧
      ∃ handler s, cmd = .subscribe handler s ∧ handler.discoveryId = a := by
  cases hs with
  | idle => exact .inl h
  | join => exact .inl (tracks_join.mp h).2
  | leave => exact .inl (tracks_leave.mp h).2
  | @watch handler s m hid =>
    rcases (tracks_watch hw hid).mp h with ⟨rfl, -⟩ | h
    · exact .inr ⟨hid, handler, s, rfl, rfl⟩
    · exact .inl h
  | unwatch => exact .inl (tracks_unwatch.mp h).2
  | build => exact .inl h
  | adopt => exact .inl h
  | bind => exact .inl ((tracks_bindTo _).mp h)

/-- **Exactly the steps that abandon no listener** keep the installed listeners faithful. -/
theorem Step.faithful_iff (hs : w.Step c cmd w') (hw : Wired c w) (hf : w.Faithful) :
    w'.Faithful ↔ ¬ w.Abandons cmd := by
  have plain : (∀ r, cmd ≠ .remove r) → ¬ w.Abandons cmd := by
    rintro hcmd ⟨r, key, x, he, -⟩
    exact hcmd r he
  cases hs with
  | idle hcmd =>
    refine iff_of_true hf ?_
    rintro ⟨r, key, x, rfl, hx, hid, -⟩
    have hreg := hw.connector_of_isTracked (hf key x hx)
    rw [hid] at hreg
    rw [show w.registrations.connectors.get? r.id = none from hcmd] at hreg
    cases hreg
  | @join r hid =>
    refine iff_of_true (fun k x hx => ?_) (plain fun _ he => by cases he)
    have ht : w.Tracks x.discoveryId k := hf k x hx
    refine tracks_join.mpr ⟨?_, ht⟩
    intro he
    rw [← he, hw.connector_of_isTracked ht] at hid
    cases hid
  | @leave r hid =>
    constructor
    · rintro hf' ⟨r', k, x, hcmd, hx, hxid, ha⟩
      cases hcmd
      exact (tracks_leave.mp (hf' k x ((installed_leave hw).mpr ⟨hx, ha⟩))).1 hxid
    · intro hno k x hx
      obtain ⟨hx, ha⟩ := (installed_leave hw).mp hx
      exact tracks_leave.mpr ⟨fun hxid => hno ⟨r, k, x, rfl, hx, hxid, ha⟩, hf k x hx⟩
  | @watch handler s m hid hkey hm =>
    refine iff_of_true (fun k x hx => ?_) (plain fun _ he => by cases he)
    refine (tracks_watch hw hid).mpr ?_
    by_cases hk : k = w.watchKey handler
    · subst hk
      rw [installed_watch_self] at hx
      cases hx
      exact .inl ⟨rfl, rfl⟩
    · rw [installed_watch_of_ne hw hk] at hx
      exact .inr (hf k x hx)
  | unwatch hkey =>
    refine iff_of_true (fun k x hx => ?_) (plain fun _ he => by cases he)
    obtain ⟨hk, hx⟩ := installed_unwatch hx
    exact tracks_unwatch.mpr ⟨fun h => hk h.2, hf k x hx⟩
  | build =>
    refine iff_of_true (fun k x hx => ?_) (plain fun _ he => by cases he)
    rw [installed_build hw] at hx
    exact hf k x hx
  | adopt => exact iff_of_true hf (plain fun _ he => by cases he)
  | bind =>
    refine iff_of_true (fun k x hx => ?_) (plain fun _ he => by cases he)
    obtain ⟨z, hz, hid⟩ := installed_bindTo hw hx
    rw [tracks_bindTo, ← hid]
    exact hf k z hz

end Wiring

namespace Hub

variable {c : ConnectorId} {h₀ h h' : Hub} {cmd : Command} {d : String}

theorem Fresh.faithful (hf : h₀.Fresh c) : (h₀.wiring c).Faithful := by
  intro key x hx
  obtain ⟨l, hl, -⟩ := Wiring.installed_eq_some_iff.mp hx
  rw [show (h₀.wiring c).watchers.get? key = none from hf.unwatched key] at hl
  cases hl

theorem Runs.faithful (hf : h₀.Fresh c)
    (hr : Runs c (fun h cmd => ¬ (h.wiring c).Abandons cmd) h₀ h) : (h.wiring c).Faithful := by
  induction hr with
  | refl => exact hf.faithful
  | step hr ha ih =>
    have hw := hr.wired hf
    exact ((Act.step_wiring hw _).faithful_iff hw ih).mpr ha

/-- A command that subscribes a key for a registered id. -/
def Subscribes (h : Hub) (cmd : Command) (d : String) : Prop :=
  h.registrations.contains d = true ∧ ∃ handler s, cmd = .subscribe handler s ∧ handler.discoveryId = d

/-- An id that tracks nothing does so until it is registered and subscribes. -/
theorem Runs.not_tracks (hw : Wired c (h.wiring c)) (hd : ∀ key, ¬ h.Tracks d key)
    (hr : Runs c (fun h cmd => ¬ h.Subscribes cmd d) h h') :
    Wired c (h'.wiring c) ∧ ∀ key, ¬ h'.Tracks d key := by
  induction hr with
  | refl => exact ⟨hw, hd⟩
  | @step h₁ cmd hr ha ih =>
    obtain ⟨hw₁, hd₁⟩ := ih
    have hs := Act.step_wiring hw₁ cmd
    refine ⟨hw₁.step hs, fun key ht => ?_⟩
    rcases hs.tracks_of hw₁ ht with ht | ⟨hreg, hsub⟩
    · exact hd₁ key ht
    · exact ha ⟨Option.isSome_iff_exists.mpr ⟨c, hreg⟩, hsub⟩

/-- A change is told to the installed listener of its key, if there is one, and to nobody else. -/
theorem told_eq (hw : Wired c (h.wiring c)) (hcmd : cmd.IsChange) {change : RegistryChange}
    (hch : h.changeOf c cmd = some change) :
    change.kind ≠ .ignored ∧ ∃ h₁, h₁.contents = h.contents ∧ h₁.faults = h.faults ∧
      h₁.journal = h.journal ∧ cmd.act c h = match h.installed c change.key with
        | some x => Act.syncChange x change h₁
        | none => .ok () h₁ := by
  rcases Act.change_eq (c := c) (h := h) hcmd with
    ⟨hnone, -⟩ | ⟨key, kind, i, h₁, hsome, hkind, hw₁, hc₁, hf₁, hj₁, hrun⟩
  · rw [hnone] at hch
    cases hch
  · rw [hsome] at hch
    cases hch
    refine ⟨hkind, h₁, hc₁, hf₁, hj₁, hrun.trans ?_⟩
    rw [← hw₁] at hw
    rcases Act.notifyWatcher_eq hw key kind i with ⟨hn, hl⟩ | ⟨l, x, hl, hx, hn⟩
    · have hnobody : h.installed c key = none := by
        rw [hw₁] at hl
        unfold installed Wiring.installed
        rw [hl]
        rfl
      rw [show (LocalRegistry.change key kind i).key = key from rfl, hnobody]
      exact hn
    · rw [hw₁] at hl hx
      have hinstalled : h.installed c key = some x := Wiring.installed_eq_some_iff.mpr ⟨l, hl, hx⟩
      rw [show (LocalRegistry.change key kind i).key = key from rfl, hinstalled]
      exact hn

/-- A change reaches store and events through the installed listener of its key alone. -/
theorem reached_of_change (hw : Wired c (h.wiring c)) (hcmd : cmd.IsChange) :
    (h.after c cmd).contents = h.contents ∨
      ∃ change x h₁, h.changeOf c cmd = some change ∧ h.installed c change.key = some x ∧
        h₁.contents = h.contents ∧ cmd.act c h = Act.syncChange x change h₁ := by
  cases hch : h.changeOf c cmd with
  | none =>
    rcases Act.change_eq (c := c) (h := h) hcmd with ⟨-, hrun⟩ | ⟨key, kind, i, h₁, hsome, -⟩
    · left
      rw [after, Act.left_of_ok hrun]
    · rw [hch] at hsome
      cases hsome
  | some change =>
    obtain ⟨-, h₁, hc₁, -, -, hrun⟩ := told_eq hw hcmd hch
    cases hx : h.installed c change.key with
    | none =>
      rw [hx] at hrun
      left
      rw [after, Act.left_of_ok hrun, hc₁]
    | some x =>
      rw [hx] at hrun
      exact .inr ⟨change, x, h₁, rfl, hx, hc₁, hrun⟩

/-- **Listeners of ids that have left.**  In runs in which no id leaves whose listener watches a key for
others, every installed listener belongs to a registered id that tracks its key, and registering or taking
off an instance changes store and events through such a listener only; so no listener of an id that has been
removed is told anything until the id is registered and subscribes again.  The first step that is not of
this kind leaves a listener behind. -/
theorem installed_listeners_track_iff (hf : h₀.Fresh c)
    (hr : Runs c (fun h cmd => ¬ (h.wiring c).Abandons cmd) h₀ h) :
    (∀ key x, h.installed c key = some x →
        h.registrations.contains x.discoveryId = true ∧ h.Tracks x.discoveryId key) ∧
      (∀ cmd : Command, cmd.IsChange → (h.after c cmd).contents = h.contents ∨
        ∃ change x h₁, h.changeOf c cmd = some change ∧ h.installed c change.key = some x ∧
          h.Tracks x.discoveryId change.key ∧ h₁.contents = h.contents ∧
          cmd.act c h = Act.syncChange x change h₁) ∧
      (∀ (r : Registration) (h' : Hub), ¬ (h.wiring c).Abandons (.remove r) →
        Runs c (fun h cmd => ¬ (h.wiring c).Abandons cmd ∧ ¬ h.Subscribes cmd r.id)
          (h.after c (.remove r)) h' →
        ∀ key x, h'.installed c key = some x → x.discoveryId ≠ r.id) ∧
      ∀ cmd, (∀ key x, (h.after c cmd).installed c key = some x →
          (h.after c cmd).Tracks x.discoveryId key) ↔ ¬ (h.wiring c).Abandons cmd := by
  have hw : Wired c (h.wiring c) := hr.wired hf
  have hfaith : (h.wiring c).Faithful := hr.faithful hf
  refine ⟨fun key x hx => ⟨?_, hfaith key x hx⟩, fun cmd hcmd => ?_, fun r h' hno hr' key x hx => ?_,
    fun cmd => (Act.step_wiring hw cmd).faithful_iff hw hfaith⟩
  · have hreg := hw.connector_of_isTracked (hfaith key x hx)
    exact Option.isSome_iff_exists.mpr ⟨c, hreg⟩
  · rcases reached_of_change hw hcmd with hsame | ⟨change, x, h₁, hch, hx, hc₁, hrun⟩
    · exact .inl hsame
    · exact .inr ⟨change, x, h₁, hch, hx, hfaith _ x hx, hc₁, hrun⟩
  · have hafter : Runs c (fun h cmd => ¬ (h.wiring c).Abandons cmd) h₀ (h.after c (.remove r)) :=
      .step hr hno
    have hgone : ∀ k, ¬ (h.after c (.remove r)).Tracks r.id k := by
      intro k ht
      replace ht : ((h.after c (.remove r)).wiring c).Tracks r.id k := ht
      cases hid : h.registrations.connectors.get? r.id with
      | none =>
        rw [Act.remove_unknown hid] at ht
        have hreg := hw.connector_of_isTracked ht
        rw [show (h.wiring c).registrations.connectors.get? r.id = none from hid] at hreg
        cases hreg
      | some m =>
        obtain rfl := hw.served _ _ hid
        rw [Act.remove_plain (Act.plain_of_wired hw) hid] at ht
        exact (Wiring.tracks_leave.mp ht).1 rfl
    have hnot := (Runs.not_tracks (hafter.wired hf) hgone (hr'.mono fun _ _ ha => ha.2)).2
    have hfaith' := (hafter.trans (hr'.mono fun _ _ ha => ha.1)).faithful hf
    intro hid
    have ht := hfaith' key x hx
    rw [hid] at ht
    exact hnot key ht

/-- The first id leaves, whose listener had been replaced; the other one tracks the key still, and no
listener of the first is told anything. -/
theorem installed_after_remove_shared :
    (sharedKey.after 0 (.remove { id := "d1", registryType := "local" })).Tracks "d2" "/k" ∧
      ∀ key x, (sharedKey.after 0 (.remove { id := "d1", registryType := "local" })).installed 0 key =
        some x → x.discoveryId ≠ "d1" := by
  have hr : Runs 0 (fun h cmd => ¬ (h.wiring 0).Abandons cmd) (create {} (.memory .empty)) sharedKey := by
    refine runs_afterAll _ fun h cmd hcmd => ?_
    rintro ⟨r, key, x, rfl, -⟩
    simp [bothSubscribe, firstSubscribes] at hcmd
  have hno : ¬ (sharedKey.wiring 0).Abandons (.remove { id := "d1", registryType := "local" }) := by
    rintro ⟨r, key, x, hcmd, hx, hid, -⟩
    cases hcmd
    obtain ⟨l, hl, -⟩ := Wiring.installed_eq_some_iff.mp hx
    have hentries : (sharedKey.wiring 0).watchers.entries = [("/k", 1)] := by decide +kernel
    have hd : ((sharedKey.wiring 0).installed "/k").map SyncListener.discoveryId = some "d2" := by
      decide +kernel
    rw [Table.get?_eq_some_iff, hentries, List.mem_singleton] at hl
    obtain ⟨rfl, -⟩ := Prod.mk.inj hl
    rw [hx, Option.map_some, hid] at hd
    exact absurd hd (by decide)
  refine ⟨by decide +kernel, ?_⟩
  exact (installed_listeners_track_iff (fresh_create {} (.memory .empty)) hr).2.2.1 _ _ hno .refl

/-- The second id leaves, its listener stays, and an instance that is registered is written for its
handler. -/
theorem ghost_write_after_remove_shared :
    let h := ((probed (.memory .empty)).afterAll 0 bothSubscribe).after 0
      (.remove { id := "d2", registryType := "local" })
    (h.installed 0 "/k").map SyncListener.discoveryId = some "d2" ∧ ¬ h.Tracks "d2" "/k" ∧
      h.registrations.contains "d2" = false ∧
      ((h.after 0 (.register "/k" ⟨"a", 1, 50, 0⟩)).store.find? "gen-1").map StoredEndpoint.owner =
        some "h2" := by
  decide +kernel

end Hub

end RouteSync
