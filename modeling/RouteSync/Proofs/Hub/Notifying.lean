import RouteSync.Proofs.Hub.Installed
import RouteSync.Proofs.Hub.Stock
import RouteSync.Proofs.Hub.Syncing

/-!
# Who is notified

A change of a key is written and published for the routes of the listener that watches the key, and for no
others (`delivers_of_change`).  A subscription that is admitted replaces this listener by one of its own.
Whoever was notified before goes on to track the key and is not notified any more, unless the new route has
the same owner and the same selector (`serves_after_subscribe_iff`).
-/

namespace RouteSync

namespace Hub

/-- The routes that a change of a key is written and published for. -/
def routes (c : ConnectorId) (h : Hub) (key : String) : List RouteRecord :=
  match h.installed c key with
  | some x => x.contexts
  | none => []

/-- Changes of a key are written for an owner and published for its selector. -/
def Serves (c : ConnectorId) (h : Hub) (key owner selectorId : String) : Prop :=
  ∃ route ∈ h.routes c key, route.owner = some owner ∧ route.selectorId = selectorId

/-- A subscription gets as far as a listener: its id is registered and does not track the key. -/
def Admits (h : Hub) (handler : Handler) : Prop :=
  h.registrations.contains handler.discoveryId = true ∧
    ¬ h.Tracks handler.discoveryId (h.watchKey handler)

instance (h : Hub) (handler : Handler) : Decidable (h.Admits handler) :=
  inferInstanceAs (Decidable (_ = true ∧ ¬ h.Tracks handler.discoveryId (h.watchKey handler)))

/-- The store can write down what a change makes a listener write. -/
def TakesWrites (h : Hub) (ws : List (String × Endpoint)) : Prop :=
  ∀ w ∈ ws, h.Accepts (h.drawn + ws.length) w.1 w.2

/-- What becomes of a change that names `es` and is told to a listener by a command. -/
structure Delivers (c : ConnectorId) (h : Hub) (cmd : Command) (kind : ChangeKind) (l : SyncListener)
    (es : List Endpoint) : Prop where
  /-- Every route of the listener is published once, in order, and nothing else. -/
  published : ∀ h', cmd.act c h = .ok () h' → Published l.contexts h h'
  /-- Every endpoint is written for the owner of every route. -/
  wrote : h.Stocked → h.TakesWrites (l.contexts.flatMap (l.writes es)) →
    ∀ h', cmd.act c h = .ok () h' → Wrote kind (l.contexts.flatMap (l.writes es)) h h'
  /-- Nothing is written for an owner without a route. -/
  others : h.Stocked → h.TakesWrites (l.contexts.flatMap (l.writes es)) →
    ∀ h', cmd.act c h = .ok () h' → ∀ r : StoredEndpoint,
      (∀ route ∈ l.contexts, route.owner ≠ some r.owner) → (r ∈ h'.store ↔ r ∈ h.store)
  succeeds : h.faults = [] → h.Stocked → h.TakesWrites (l.contexts.flatMap (l.writes es)) →
    ∃ h', cmd.act c h = .ok () h'

variable {c : ConnectorId} {h₀ h h₁ h' : Hub} {cmd : Command} {rival : Handler} {s : Selector}
  {kind : ChangeKind} {ws : List (String × Endpoint)} {es : List Endpoint}

/-! ### A change and its listener -/

theorem Stocked.of_store (hs : h.Stocked) (hstore : h₁.store = h.store) (hdrawn : h₁.drawn = h.drawn) :
    h₁.Stocked := by
  refine ⟨?_, ?_, ?_⟩
  · rw [hstore]
    exact hs.sound
  · unfold DrawsFresh
    rw [hstore, hdrawn]
    exact hs.fresh
  · rw [hstore]
    exact hs.distinct

theorem Stocked.congr (hs : h.Stocked) (hc : h₁.contents = h.contents) : h₁.Stocked :=
  hs.of_store (contents_eq_iff.mp hc).1 (contents_eq_iff.mp hc).2.1

theorem TakesWrites.congr (ht : h.TakesWrites ws) (hc : h₁.contents = h.contents) : h₁.TakesWrites ws := by
  obtain ⟨hstore, hdrawn, -, -⟩ := contents_eq_iff.mp hc
  intro w hw
  rw [hdrawn]
  exact (ht w hw).congr (by rw [hstore])

theorem Wrote.of_contents_eq (hw : Wrote kind ws h₁ h') (hc : h₁.contents = h.contents) :
    Wrote kind ws h h' := by
  obtain ⟨hstore, hdrawn, hclock, -⟩ := contents_eq_iff.mp hc
  refine ⟨hw.stocked, by rw [hw.isEmbedded, hstore], hw.clock.trans hclock, hdrawn ▸ hw.drawn, ?_,
    hw.reflected⟩
  intro owner url hn
  unfold AsBefore
  rw [← hstore]
  exact hw.others owner url hn

theorem Published.of_contents_eq {routes : List RouteRecord} (hp : Published routes h₁ h')
    (hc : h₁.contents = h.contents) : Published routes h h' := by
  obtain ⟨events, hev, ho⟩ := hp
  rw [(contents_eq_iff.mp hc).2.2.2] at ho
  exact ⟨events, hev, ho⟩

/-- Records of an owner that has no route are as before. -/
theorem Wrote.others_of_owner {l : SyncListener} {routes : List RouteRecord}
    (hw : Wrote kind (routes.flatMap (l.writes es)) h h') {r : StoredEndpoint}
    (hr : ∀ route ∈ routes, route.owner ≠ some r.owner) : r ∈ h'.store ↔ r ∈ h.store := by
  refine hw.others r.owner r.url (latest_eq_none_iff.mpr ?_) r rfl rfl
  rintro w hwmem ⟨howner, -⟩
  obtain ⟨route, hroute, hwrite⟩ := List.mem_flatMap.mp hwmem
  exact hr route hroute ((SyncListener.owner_of_mem_writes hwrite).trans (congrArg some howner))

/-- **A change is delivered** to the routes of the listener that watches its key. -/
theorem delivers_of_change (hw : Wired c (h.wiring c)) (hcmd : cmd.IsChange) {change : RegistryChange}
    (hch : h.changeOf c cmd = some change) {l : SyncListener} (hl : h.installed c change.key = some l)
    (hread : Payload.read l.mapping change.value = .ok es) (hes : es ≠ []) :
    h.Delivers c cmd change.kind l es := by
  obtain ⟨hkind, h₁, hc₁, hf₁, -, hrun⟩ := told_eq hw hcmd hch
  rw [hl] at hrun
  have hserve : ∀ h', cmd.act c h = .ok () h' →
      (l.contexts.forM fun route => Act.syncRoute l change.kind es route) h₁ = .ok () h' := by
    intro h' hok
    obtain ⟨es', hread', -, hserve⟩ := Act.syncChange_eq_ok hkind (hrun ▸ hok)
    obtain rfl : es = es' := Except.ok.inj (hread.symm.trans hread')
    exact hserve hes
  have hwrote : h.Stocked → h.TakesWrites (l.contexts.flatMap (l.writes es)) → ∀ h',
      cmd.act c h = .ok () h' → Wrote change.kind (l.contexts.flatMap (l.writes es)) h h' := by
    intro hs ht h' hok
    exact (Act.wrote_of_serve hkind (hs.congr hc₁) (ht.congr hc₁) (Nat.le_refl _)
      (hserve h' hok)).of_contents_eq hc₁
  refine ⟨?_, hwrote, ?_, ?_⟩
  · intro h' hok
    exact (Act.published_of_serve (hserve h' hok)).of_contents_eq hc₁
  · intro hs ht h' hok r hr
    exact (hwrote hs ht h' hok).others_of_owner hr
  · intro hf hs ht
    obtain ⟨h', hok⟩ := Act.exists_serve hkind (.of_faultless (hf₁.trans hf)) (hs.congr hc₁) (ht.congr hc₁)
      (Nat.le_refl _)
    exact ⟨h', hrun.trans (Act.syncChange_of_ok hkind hread hes hok)⟩

/-! ### Subscriptions -/

theorem not_admits_iff : ¬ h.Admits rival ↔
    h.registrations.connectors.get? rival.discoveryId = none ∨
      h.registrations.isTracked rival.discoveryId (h.watchKey rival) = true := by
  unfold Admits Tracks Registrations.contains Table.contains
  rw [not_and_or, not_not, Bool.not_eq_true, Option.isSome_eq_false_iff, Option.isNone_iff_eq_none]

/-- A subscription that succeeds has done nothing, or installed a listener for its route. -/
theorem subscribe_eq_ok (hw : Wired c (h.wiring c)) (hok : Act.subscribe rival s h = .ok () h') :
    ¬ h.Admits rival ∧ h' = h ∨
      h.Admits rival ∧ ∃ m, Mapping.read rival.mapping = .ok m ∧
        h'.wiring c = (h.wiring c).watch ⟨m, [.ofHandler s rival], rival.discoveryId,
          h.settings.defaultProtocol⟩ (h.watchKey rival) := by
  by_cases ha : h.Admits rival
  · right
    obtain ⟨k, hid⟩ := Option.isSome_iff_exists.mp ha.1
    obtain rfl := hw.served _ _ hid
    cases hm : Mapping.read rival.mapping with
    | error e =>
      rw [Act.subscribe_refused s hid ha.2 hm] at hok
      cases hok
    | ok m =>
      obtain ⟨h₁, hok₁, hw₁, -⟩ := Act.subscribe_wired hw s hid ha.2 hm
      rw [hok] at hok₁
      cases hok₁
      exact ⟨ha, m, rfl, hw₁⟩
  · left
    rw [Act.subscribe_idle s (not_admits_iff.mp ha)] at hok
    cases hok
    exact ⟨ha, rfl⟩

theorem routes_of_installed {key : String} {l : SyncListener} (hl : h.installed c key = some l) :
    h.routes c key = l.contexts := by
  unfold routes
  rw [hl]

/-- **Who is notified after a subscription.**  Everybody who tracked the key goes on to track it, but
changes of the key are then written and published for the route of the subscription alone, if it was admitted.
So an owner and a selector that were served still are exactly if it was not, or if the route is theirs. -/
theorem serves_after_subscribe_iff (hf : h₀.Fresh c) (hr : Runs c (fun _ _ => True) h₀ h)
    (hok : Act.subscribe rival s h = .ok () h') :
    (∀ d key, h.Tracks d key → h'.Tracks d key) ∧
      (∀ owner selectorId, h.Serves c (h.watchKey rival) owner selectorId →
        (h'.Serves c (h.watchKey rival) owner selectorId ↔
          ¬ h.Admits rival ∨ owner = rival.id ∧ selectorId = s.id)) ∧
      (h.Admits rival → h'.routes c (h.watchKey rival) = [.ofHandler s rival]) ∧
      (∀ cmd change l es, cmd.IsChange → h'.changeOf c cmd = some change →
        h'.installed c change.key = some l → Payload.read l.mapping change.value = .ok es → es ≠ [] →
        h'.Delivers c cmd change.kind l es) ∧
      (h₀.InMemory → h'.Stocked ∧ ∀ ws, h'.TakesWrites ws) := by
  have hw : Wired c (h.wiring c) := hr.wired hf
  have hafter : h.after c (.subscribe rival s) = h' := Act.left_of_ok hok
  have hr' : Runs c (fun _ _ => True) h₀ h' := hafter ▸ hr.step trivial
  have hroutes : h.Admits rival → h'.routes c (h.watchKey rival) = [.ofHandler s rival] := by
    intro ha
    rcases subscribe_eq_ok hw hok with ⟨hno, -⟩ | ⟨-, m, -, hw'⟩
    · exact absurd ha hno
    · refine routes_of_installed (l := ⟨m, [.ofHandler s rival], rival.discoveryId,
        h.settings.defaultProtocol⟩) ?_
      unfold installed
      rw [hw']
      exact Wiring.installed_watch_self
  refine ⟨?_, ?_, hroutes, ?_, ?_⟩
  · intro d key ht
    rcases subscribe_eq_ok hw hok with ⟨-, rfl⟩ | ⟨ha, m, -, hw'⟩
    · exact ht
    · obtain ⟨k, hid⟩ := Option.isSome_iff_exists.mp ha.1
      obtain rfl := hw.served _ _ hid
      show (h'.wiring k).Tracks d key
      rw [hw']
      refine (Wiring.tracks_watch hw ?_).mpr (.inr ht)
      exact hid
  · intro owner selectorId hserved
    by_cases ha : h.Admits rival
    · unfold Serves
      rw [hroutes ha]
      constructor
      · rintro ⟨route, hroute, howner, hsel⟩
        obtain rfl := List.mem_singleton.mp hroute
        exact .inr ⟨(Option.some.inj howner).symm, hsel.symm⟩
      · rintro (hno | ⟨rfl, rfl⟩)
        · exact absurd ha hno
        · exact ⟨_, List.mem_singleton.mpr rfl, rfl, rfl⟩
    · rcases subscribe_eq_ok hw hok with ⟨-, rfl⟩ | ⟨ha', -⟩
      · exact iff_of_true hserved (.inl ha)
      · exact absurd ha' ha
  · intro cmd change l es hcmd hch hl hread hes
    exact delivers_of_change (hr'.wired hf) hcmd hch hl hread hes
  · intro hm
    have hm' : h'.InMemory := hr'.inMemory hm
    exact ⟨hm'.stocked, fun ws w _ => hm'.accepts _ w.1 w.2⟩

/-- One id has subscribed a key, and another is registered. -/
def oneSubscribed : Hub := (create {} (.memory .empty)).afterAll 0 firstSubscribes

/-- The second id subscribes the key for the same route, which is served still. -/
theorem serves_after_subscribe_same :
    ((Act.subscribe { id := "h1", discoveryId := "d2", listenerNode := "/k" } ⟨"s1", "one", "p", "ns"⟩).left
        oneSubscribed).Stocked ∧
      ((Act.subscribe { id := "h1", discoveryId := "d2", listenerNode := "/k" } ⟨"s1", "one", "p", "ns"⟩).left
        oneSubscribed).Serves 0 "/k" "h1" "s1" := by
  have hr : Runs 0 (fun _ _ => True) (create {} (.memory .empty)) oneSubscribed :=
    runs_afterAll _ fun _ _ _ => trivial
  have hok := Act.eq_ok_of_isOk
    (show (Act.subscribe { id := "h1", discoveryId := "d2", listenerNode := "/k" }
      ⟨"s1", "one", "p", "ns"⟩).isOk oneSubscribed = true by decide +kernel)
  have hserved : oneSubscribed.Serves 0 "/k" "h1" "s1" := by
    have hroutes : oneSubscribed.routes 0 "/k" = [⟨"p", "s1", "one", "ns", some "h1", none⟩] := by
      decide +kernel
    exact ⟨_, hroutes ▸ List.mem_singleton.mpr rfl, rfl, rfl⟩
  obtain ⟨-, hserves, -, -, hstock⟩ :=
    serves_after_subscribe_iff (fresh_create {} (.memory .empty)) hr hok
  refine ⟨(hstock (inMemory_create {})).1, ?_⟩
  exact (hserves "h1" "s1" hserved).mpr (.inr ⟨rfl, rfl⟩)

/-- The selectors for which endpoints have been published, in order. -/
def publishedSelectors (h : Hub) : List String :=
  (h.outlet.events.filter fun e => e.group = .discoveredEndpoint).flatMap fun e =>
    e.payload.map RouteRecord.selectorId

/-- The second id subscribes the key for a route of its own, the first one tracks the key still, and an
instance that is registered is neither written for its handler nor published for its selector. -/
theorem silenced_after_subscribe :
    let i : Instance := ⟨"a", 1, 50, 0⟩
    let h₀ := (probed (.memory .empty)).afterAll 0 firstSubscribes
    let unrivalled := h₀.after 0 (.register "/k" i)
    let rival : Act Unit :=
      Act.subscribe { id := "h2", discoveryId := "d2", listenerNode := "/k" } ⟨"s2", "two", "p", "ns"⟩
    let h := rival.left h₀
    let h' := h.after 0 (.register "/k" i)
    (unrivalled.store.find? "gen-1").map StoredEndpoint.owner = some "h1" ∧
      unrivalled.publishedSelectors = ["s1"] ∧ rival.isOk h₀ = true ∧ h.Tracks "d1" "/k" ∧
      (Act.registerInstance 0 "/k" i).isOk h = true ∧ (h'.store.select "h1").toOption = some [] ∧
      (h'.store.find? "gen-1").map StoredEndpoint.owner = some "h2" ∧ h'.publishedSelectors = ["s2"] := by
  decide +kernel

end Hub

end RouteSync
