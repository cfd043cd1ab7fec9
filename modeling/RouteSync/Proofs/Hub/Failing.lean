import RouteSync.Proofs.Hub.Syncing

/-!
# Changes that fail halfway

A listener publishes every route as soon as it has been served.  If a call to the store then fails for a
later route, the change fails, and what has been published stays published: exactly the routes before the one
that failed (`published_before_failure`).  So a failed change has published nothing if its first route with
an owner failed, and only then.
-/

namespace RouteSync

theorem Outlet.foldl_push_of_recording {o : Outlet} (ho : o.publisher = .recording)
    (events : List ChangeEvent) :
    events.foldl Outlet.push o = { o with events := o.events ++ events } := by
  induction events generalizing o with
  | nil => simp
  | cons event events ih =>
    have hpush : o.push event = { o with events := o.events ++ [event] } := by
      unfold Outlet.push
      rw [ho]
    have hrest : events.foldl Outlet.push { o with events := o.events ++ [event] } =
        { o with events := o.events ++ [event] ++ events } := ih ho
    rw [List.foldl_cons, hpush, hrest, List.append_assoc, List.singleton_append]

namespace Hub

variable {h h' : Hub} {routes : List RouteRecord}

/-- Routes without an owner are passed over. -/
theorem Published.outlet_eq (hp : Published routes h h') (hno : ∀ route ∈ routes, route.owner = none) :
    h'.outlet = h.outlet := by
  obtain ⟨events, hev, ho⟩ := hp
  have hnone : routes.filter (fun r => r.owner.isSome) = [] :=
    List.filter_eq_nil_iff.mpr fun route hr => by simp [hno route hr]
  rw [hnone] at hev
  cases hev
  exact ho

/-- A journal of events shows whether anything has been published. -/
theorem Published.outlet_eq_iff (hp : Published routes h h') (hr : h.publisher = .recording) :
    h'.outlet = h.outlet ↔ ∀ route ∈ routes, route.owner = none := by
  refine ⟨fun heq => ?_, hp.outlet_eq⟩
  obtain ⟨events, hev, ho⟩ := hp
  rw [ho, Outlet.foldl_push_of_recording (o := h.outlet) hr] at heq
  have hnil : events = [] := by simpa using congrArg Outlet.events heq
  subst hnil
  have hnone : routes.filter (fun r => r.owner.isSome) = [] := List.forall₂_nil_right_iff.mp hev
  intro route hroute
  simpa using List.filter_eq_nil_iff.mp hnone route hroute

end Hub

namespace Act

open Hub

variable {h h' : Hub} {l : SyncListener} {change : RegistryChange} {kind : ChangeKind} {es : List Endpoint}
  {route : RouteRecord} {e : Error}

/-- A route that cannot be served has an owner, and is not published. -/
theorem outlet_of_syncRoute_error (hfail : syncRoute l kind es route h = .error e h') :
    route.owner.isSome = true ∧ h'.outlet = h.outlet := by
  unfold syncRoute at hfail
  cases hroute : route.owner with
  | none =>
    rw [hroute] at hfail
    cases hfail
  | some owner =>
    rw [hroute] at hfail
    refine ⟨rfl, ?_⟩
    have hwrite : Keeps outlet (es.forM fun e => applyChange kind owner (l.stamp route owner e)) :=
      keeps_forM fun e _ => keeps_outlet_applyChange kind owner _
    rcases bind_eq_error.mp hfail with hfail | ⟨u, h₁, hok, hfail⟩
    · exact hwrite.of_error hfail
    rcases bind_eq_error.mp hfail with hfail | ⟨now, h₂, -, hfail⟩
    · exact ((beside_outlet.select owner).of_error hfail).trans (hwrite.of_ok hok)
    · -- publishing itself never fails
      cases hfail

/-- A change fails before anything has been done, or at one of the routes. -/
theorem syncChange_eq_error (hfail : syncChange l change h = .error e h') :
    (h' = h ∧ ∃ err, e = .invalid err ∧ Payload.read l.mapping change.value = .error err) ∨
      ∃ es served route rest h₁, Payload.read l.mapping change.value = .ok es ∧
        l.contexts = served ++ route :: rest ∧
        (served.forM fun r => syncRoute l change.kind es r) h = .ok () h₁ ∧
        syncRoute l change.kind es route h₁ = .error e h' := by
  unfold syncChange at hfail
  split_ifs at hfail with hkind
  · cases hfail
  rcases bind_eq_error.mp hfail with hparse | ⟨es, h₁, hparse, hfail⟩
  · obtain ⟨⟨err, hread, rfl⟩, rfl⟩ := ofExcept_eq_error.mp hparse
    exact .inl ⟨rfl, err, rfl, hread⟩
  · obtain ⟨hread, rfl⟩ := ofExcept_eq_ok.mp hparse
    split_ifs at hfail
    · cases hfail
    obtain ⟨served, route, rest, h₁, hsplit, hserved, hroute⟩ := forM_eq_error hfail
    exact .inr ⟨es, served, route, rest, h₁, hread, hsplit, hserved, hroute⟩

/-- **A change that fails** has been published for the routes before the one that failed, each once and in
order, and for no others; so nothing has been published exactly if none of them has an owner, and always if
only one route has. -/
theorem published_before_failure (hfail : syncChange l change h = .error e h') :
    (∃ served rest, l.contexts = served ++ rest ∧ Published served h h' ∧
      (h.publisher = .recording → (h'.outlet = h.outlet ↔ ∀ route ∈ served, route.owner = none)) ∧
      ((h' = h ∧ served = [] ∧ ∃ err, e = .invalid err ∧ Payload.read l.mapping change.value = .error err) ∨
        ∃ es route later h₁, Payload.read l.mapping change.value = .ok es ∧ rest = route :: later ∧
          route.owner.isSome = true ∧
          (served.forM fun r => syncRoute l change.kind es r) h = .ok () h₁ ∧
          syncRoute l change.kind es route h₁ = .error e h')) ∧
      ((l.contexts.filter fun route => route.owner.isSome).length ≤ 1 → h'.outlet = h.outlet) := by
  rcases syncChange_eq_error hfail with
    ⟨rfl, err, rfl, hread⟩ | ⟨es, served, route, rest, h₁, hread, hsplit, hserved, hroute⟩
  · refine ⟨⟨[], l.contexts, rfl, Published.refl, fun hr => Published.refl.outlet_eq_iff hr,
      .inl ⟨rfl, rfl, err, rfl, hread⟩⟩, fun _ => rfl⟩
  · obtain ⟨howner, houtlet⟩ := outlet_of_syncRoute_error hroute
    have hp : Published served h h' := by
      obtain ⟨events, hev, ho⟩ := published_of_serve hserved
      exact ⟨events, hev, houtlet.trans ho⟩
    refine ⟨⟨served, route :: rest, hsplit, hp, hp.outlet_eq_iff,
      .inr ⟨es, route, rest, h₁, hread, rfl, howner, hserved, hroute⟩⟩, fun hone => ?_⟩
    -- the route that failed is the one that has an owner
    have hfirst : (route :: rest).filter (fun r => r.owner.isSome) =
        route :: rest.filter fun r => r.owner.isSome := List.filter_cons_of_pos howner
    rw [hsplit, List.filter_append, hfirst, List.length_append, List.length_cons] at hone
    have hnone : served.filter (fun r => r.owner.isSome) = [] := List.length_eq_zero_iff.mp (by omega)
    refine hp.outlet_eq fun r hr => ?_
    simpa using List.filter_eq_nil_iff.mp hnone r hr

/-- A listener with one route and a store whose first insertion fails. -/
theorem not_published_one_route :
    let l : SyncListener := ⟨.plain, [⟨"p", "s1", "one", "ns", some "h1", none⟩], "d1", "http://"⟩
    let h : Hub := { faults := [⟨"store.insert", .storage .database, 0, 1⟩] }
    (syncChange l ⟨"/k", "\x7b\"url\":\"a:1\"\x7d", .added⟩).isOk h = false ∧
      ((syncChange l ⟨"/k", "\x7b\"url\":\"a:1\"\x7d", .added⟩).left h).outlet = h.outlet := by
  intro l h
  have hno : (syncChange l ⟨"/k", "\x7b\"url\":\"a:1\"\x7d", .added⟩).isOk h = false := by decide +kernel
  obtain ⟨e, hfail⟩ := eq_error_of_not_isOk hno
  exact ⟨hno, (published_before_failure hfail).2 (by decide +kernel)⟩

/-- The selectors for which the journal shows events. -/
def announcedSelectors (h : Hub) : List String :=
  h.outlet.events.flatMap fun e => e.payload.map RouteRecord.selectorId

/-- The second of two routes cannot be stored; the change fails, and the first one has been published. -/
theorem exists_published_before_failure :
    let l : SyncListener := ⟨.plain, [⟨"p", "s1", "one", "ns", some "h1", none⟩,
      ⟨"p", "s2", "two", "ns", some "h2", none⟩], "d1", "http://"⟩
    let h : Hub := { faults := [⟨"store.insert", .storage .database, 1, 1⟩] }
    let change : RegistryChange := ⟨"/k", "\x7b\"url\":\"a:1\"\x7d", .added⟩
    (syncChange l change).isOk h = false ∧ announcedSelectors ((syncChange l change).left h) = ["s1"] := by
  decide +kernel

end Act

end RouteSync
