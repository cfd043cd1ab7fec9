import RouteSync.Proofs.Hub.Failing
import RouteSync.Proofs.Store.Separation

/-!
# What a change tells of

A listener that takes a change publishes one event for each of its routes that have an owner.  Its routes are
the first ones of their selectors and owners (`foldl_bind`), and what it says of a route is what the store
selects for the owner after the writes for that route, when those for the later routes are still to come
(`Tells`).  All records of the owner are among them; that there are no others holds in memory, and in a
database as long as no owner has a zero character (`told_of_change`).
-/

namespace RouteSync

/-! ### The routes that are bound -/

/-- By selector and owner routes are told apart when they are bound. -/
def RouteRecord.pair (r : RouteRecord) : String × Option String := (r.selectorId, r.owner)

/-- The first routes of their selectors and owners. -/
def firstBound : List RouteRecord → List RouteRecord
  | [] => []
  | r :: rs => r :: (firstBound rs).filter fun c => c.pair ≠ r.pair

theorem mem_firstBound_iff {rs : List RouteRecord} {r : RouteRecord} :
    r ∈ firstBound rs ↔ rs.find? (fun c => c.pair = r.pair) = some r := by
  induction rs with
  | nil => simp [firstBound]
  | cons x rs ih =>
    rw [firstBound, List.mem_cons, List.mem_filter, ih, List.find?_cons]
    by_cases hx : x.pair = r.pair
    · simp [hx, eq_comm]
    · have hne : r ≠ x := by
        rintro rfl
        exact hx rfl
      simp [hx, hne, Ne.symm hx]

theorem firstBound_sublist (rs : List RouteRecord) : (firstBound rs).Sublist rs := by
  induction rs with
  | nil => exact .slnil
  | cons r rs ih => exact (List.filter_sublist.trans ih).cons_cons r

theorem nodup_firstBound (rs : List RouteRecord) : ((firstBound rs).map RouteRecord.pair).Nodup := by
  induction rs with
  | nil => exact .nil
  | cons r rs ih =>
    rw [firstBound, List.map_cons, List.nodup_cons]
    refine ⟨fun hmem => ?_, ih.sublist (List.filter_sublist.map _)⟩
    obtain ⟨c, hc, hpair⟩ := List.mem_map.mp hmem
    simpa [hpair] using (List.mem_filter.mp hc).2

namespace SyncListener

variable {l : SyncListener}

theorem any_bound_iff (r : RouteRecord) :
    (l.contexts.any fun c => c.selectorId == r.selectorId && c.owner == r.owner) = true ↔
      ∃ c ∈ l.contexts, c.pair = r.pair := by
  simp [RouteRecord.pair]

/-- **Binding routes one after another** adds the first ones of those that are not bound already. -/
theorem foldl_bind (l : SyncListener) (bindings : List RouteRecord) :
    bindings.foldl bind l = { l with
      contexts := l.contexts ++ (firstBound bindings).filter fun r => ∀ c ∈ l.contexts, c.pair ≠ r.pair } := by
  induction bindings generalizing l with
  | nil => simp [firstBound]
  | cons r rs ih =>
    rw [List.foldl_cons, ih, bind, firstBound, List.filter_cons, List.filter_filter]
    by_cases hbound : ∃ c ∈ l.contexts, c.pair = r.pair
    · obtain ⟨c, hc, hpair⟩ := hbound
      have hskip : ¬ ∀ c ∈ l.contexts, c.pair ≠ r.pair := fun hall => hall c hc hpair
      rw [if_pos ((any_bound_iff r).mpr ⟨c, hc, hpair⟩), if_neg (by simpa using hskip)]
      congr 2
      refine List.filter_congr fun x _ => ?_
      have himp : (∀ c ∈ l.contexts, c.pair ≠ x.pair) → x.pair ≠ r.pair := fun hall he =>
        hall c hc (hpair.trans he.symm)
      simpa using himp
    · have hfree : ∀ c ∈ l.contexts, c.pair ≠ r.pair := fun c hc hpair => hbound ⟨c, hc, hpair⟩
      rw [if_neg fun h => hbound ((any_bound_iff r).mp h), if_pos (by simpa using hfree)]
      simp only [List.append_assoc, List.singleton_append]
      congr 3
      refine List.filter_congr fun x _ => ?_
      rw [Bool.and_eq_decide]
      refine decide_eq_decide.mpr ?_
      simp only [List.forall_mem_append, List.forall_mem_singleton, decide_eq_true_eq, ne_eq]
      exact and_congr_right' (not_congr eq_comm)

end SyncListener

/-! ### One route after another -/

/-- What is said of a route, with what the store held then. -/
structure Telling where
  route : RouteRecord
  store : Store
  records : List StoredEndpoint

namespace Telling

def event (t : Telling) : ChangeEvent :=
  .single .discoveredEndpoint .update (t.route.withEndpoints (t.records.map Endpoint.ofStored))

/-- All that the owner of the route has is told, once, and nothing else. -/
structure Complete (t : Telling) : Prop where
  nodup : t.records.Nodup
  mem : ∀ r, r ∈ t.records ↔ r ∈ t.store ∧ t.route.owner = some r.owner

variable {t : Telling} {owner : String}

/-- An anchored store may list a record of another place, but it leaves out none of the owner. -/
theorem mem_records (ha : t.store.Anchored) (howner : t.route.owner = some owner)
    (hselect : t.store.select owner = .ok t.records) {r : StoredEndpoint} (hr : r ∈ t.store)
    (hown : t.route.owner = some r.owner) : r ∈ t.records := by
  rw [howner, Option.some.injEq] at hown
  subst hown
  exact ha.mem_of_select hselect hr

/-- What is told of an owner is complete if nothing comes twice and nothing is another's. -/
theorem complete_iff (ha : t.store.Anchored) (howner : t.route.owner = some owner)
    (hselect : t.store.select owner = .ok t.records) :
    t.Complete ↔ t.records.Nodup ∧ ∀ r ∈ t.records, t.route.owner = some r.owner := by
  constructor
  · rintro ⟨hnodup, hmem⟩
    exact ⟨hnodup, fun r hr => ((hmem r).mp hr).2⟩
  · rintro ⟨hnodup, hown⟩
    refine ⟨hnodup, fun r => ⟨fun hr => ⟨?_, hown r hr⟩, fun hr => mem_records ha howner hselect hr.1 hr.2⟩⟩
    exact ha.find?_of_select hselect hr

theorem complete_of_memory (ha : t.store.Anchored) (hm : t.store.isEmbedded = false)
    (howner : t.route.owner = some owner) (hselect : t.store.select owner = .ok t.records) : t.Complete := by
  refine (complete_iff ha howner hselect).mpr ?_
  obtain ⟨route, store, records⟩ := t
  cases store with
  | embedded s => cases hm
  | memory s =>
    cases hselect
    refine ⟨(StoredEndpoint.sort_perm _).nodup_iff.mpr ((MemoryStore.nodup_values ha).filter _), fun r hr => ?_⟩
    have hlisted := (List.mem_filter.mp (StoredEndpoint.mem_sort.mp hr)).2
    exact howner.trans (congrArg some (beq_iff_eq.mp hlisted).symm)

/-- If the store tells owners apart, nothing of another's is told. -/
theorem complete_of_distinguishes (hs : t.store.Sound) (hd : ∀ r ∈ t.store, t.store.Distinguishes r.owner)
    (howner : t.route.owner = some owner) (hz : t.store.Distinguishes owner)
    (hselect : t.store.select owner = .ok t.records) : t.Complete := by
  obtain ⟨records, hselect', hmem⟩ := Store.exists_select hs owner
  rw [hselect] at hselect'
  cases hselect'
  refine ⟨Store.nodup_select hs hselect, fun r => ?_⟩
  rw [hmem, howner, Option.some.injEq]
  refine and_congr_right fun hr => ⟨fun hlists => ?_, ?_⟩
  · exact (Store.owner_eq_of_lists (fun he => ⟨hz he, hd r hr he⟩) hlists).symm
  · rintro rfl
    exact Store.lists_self t.store r

end Telling

namespace Act

open Hub

/-- What a listener says of its routes, in order: for a route with an owner it has written the endpoints of the
change, and tells of what the store then selects. -/
inductive Tells (l : SyncListener) (kind : ChangeKind) (es : List Endpoint) :
    List RouteRecord → Hub → List Telling → Hub → Prop
  | done {h : Hub} : Tells l kind es [] h [] h
  | passed {route : RouteRecord} {routes : List RouteRecord} {h h' : Hub} {ts : List Telling}
      (hroute : route.owner = none) (hrest : Tells l kind es routes h ts h') :
      Tells l kind es (route :: routes) h ts h'
  | told {route : RouteRecord} {routes : List RouteRecord} {h h₁ h₂ h' : Hub} {ts : List Telling}
      {owner : String} {records : List StoredEndpoint} (hroute : route.owner = some owner)
      (hwrite : (es.forM fun e => applyChange kind owner (l.stamp route owner e)) h = .ok () h₁)
      (hselect : h₁.store.select owner = .ok records)
      (hc : h₂.contents =
        { h₁.contents with outlet := h₁.outlet.push (Telling.event ⟨route, h₁.store, records⟩) })
      (hrest : Tells l kind es routes h₂ ts h') :
      Tells l kind es (route :: routes) h (⟨route, h₁.store, records⟩ :: ts) h'

variable {h h' : Hub} {l : SyncListener} {kind : ChangeKind} {es : List Endpoint} {routes : List RouteRecord}
  {ts : List Telling} {change : RegistryChange} {owner : String} {e : Endpoint} {N : Nat}

theorem exists_tells_cons {route : RouteRecord} {h₁ : Hub} (hroute : syncRoute l kind es route h = .ok () h₁)
    (ht : Tells l kind es routes h₁ ts h') : ∃ ts, Tells l kind es (route :: routes) h ts h' := by
  unfold syncRoute at hroute
  cases howner : route.owner with
  | none =>
    rw [howner] at hroute
    obtain ⟨-, rfl⟩ := pure_eq_ok.mp hroute
    exact ⟨ts, .passed howner ht⟩
  | some owner =>
    rw [howner] at hroute
    obtain ⟨u, h₂, hwrite, hroute⟩ := bind_eq_ok.mp hroute
    obtain ⟨records, h₃, hselect, hpublish⟩ := bind_eq_ok.mp hroute
    obtain ⟨hselected, hc⟩ := select_eq_ok hselect
    have hpublished := publish_eq_ok hpublish
    rw [hc, (contents_eq_iff.mp hc).2.2.2] at hpublished
    exact ⟨_, .told howner hwrite hselected hpublished ht⟩

theorem exists_tells (hok : (routes.forM fun route => syncRoute l kind es route) h = .ok () h') :
    ∃ ts, Tells l kind es routes h ts h' := by
  induction routes generalizing h with
  | nil =>
    obtain ⟨-, rfl⟩ := pure_eq_ok.mp hok
    exact ⟨[], .done⟩
  | cons route routes ih =>
    obtain ⟨v, h₁, hroute, hrest⟩ := bind_eq_ok.mp hok
    obtain ⟨ts, ht⟩ := ih hrest
    exact exists_tells_cons hroute ht

namespace Tells

/-- Each route with an owner is told of once, in order. -/
theorem map_route (ht : Tells l kind es routes h ts h') :
    ts.map Telling.route = routes.filter fun r => r.owner.isSome := by
  induction ht with
  | done => rfl
  | passed hroute _ ih => rw [ih, List.filter_cons_of_neg (by simp [hroute])]
  | told hroute _ _ _ _ ih => rw [List.map_cons, ih, List.filter_cons_of_pos (by simp [hroute])]

/-- What is published is what is told. -/
theorem outlet_eq (ht : Tells l kind es routes h ts h') :
    h'.outlet = (ts.map Telling.event).foldl Outlet.push h.outlet := by
  induction ht with
  | done => rfl
  | passed _ _ ih => exact ih
  | @told route routes h h₁ h₂ h' ts owner records _ hwrite _ hc _ ih =>
    have hwritten : Keeps outlet (es.forM fun e => applyChange kind owner (l.stamp route owner e)) :=
      keeps_forM fun e _ => keeps_outlet_applyChange kind owner _
    have ho₂ : h₂.outlet = h₁.outlet.push (Telling.event ⟨route, h₁.store, records⟩) :=
      congrArg Contents.outlet hc
    rw [ih, ho₂, hwritten.of_ok hwrite, List.map_cons, List.foldl_cons]

theorem pairwise_records (ht : Tells l kind es routes h ts h') :
    ∀ t ∈ ts, t.records.Pairwise fun a b => ¬ b.before a = true := by
  induction ht with
  | done => nofun
  | passed _ _ ih => exact ih
  | told _ _ hselect _ _ ih => exact List.forall_mem_cons.mpr ⟨Store.pairwise_select hselect, ih⟩

end Tells

/-! ### What the store holds on the way -/

/-- A good hub on the way from `h₀`, when `n` more ids may be drawn and `N` is the last one. -/
structure Along (good : Hub → Prop) (h₀ : Hub) (N n : Nat) (h : Hub) : Prop where
  good : good h
  isEmbedded : h.store.isEmbedded = h₀.store.isEmbedded
  clock : h.clock = h₀.clock
  drawn : h.drawn + n ≤ N

variable {good : Hub → Prop} {h₀ : Hub} {n : Nat}

theorem Along.of_contents {o : Outlet} (ha : Along good h₀ N n h)
    (hcongr : ∀ h h' : Hub, h'.store = h.store → h'.drawn = h.drawn → good h → good h')
    (hc : h'.contents = { h.contents with outlet := o }) : Along good h₀ N n h' := by
  have hstore : h'.store = h.store := congrArg Contents.store hc
  have hdrawn : h'.drawn = h.drawn := congrArg Contents.drawn hc
  refine ⟨hcongr h h' hstore hdrawn ha.good, ?_, (congrArg Contents.clock hc).trans ha.clock, ?_⟩
  · rw [hstore]
    exact ha.isEmbedded
  · rw [hdrawn]
    exact ha.drawn

theorem along_forM {f : Endpoint → Endpoint}
    (hwrite : ∀ e ∈ es, ∀ n h h', Along good h₀ N (n + 1) h → applyChange kind owner (f e) h = .ok () h' →
      Along good h₀ N n h') (ha : Along good h₀ N (es.length + n) h)
    (hok : (es.forM fun e => applyChange kind owner (f e)) h = .ok () h') : Along good h₀ N n h' := by
  induction es generalizing h with
  | nil =>
    obtain ⟨-, rfl⟩ := pure_eq_ok.mp hok
    simpa using ha
  | cons e es ih =>
    obtain ⟨v, h₁, hstep, hrest⟩ := bind_eq_ok.mp hok
    have hlength : (e :: es).length + n = es.length + n + 1 := by
      rw [List.length_cons]
      omega
    rw [hlength] at ha
    exact ih (fun x hx => hwrite x (List.mem_cons_of_mem e hx))
      (hwrite e List.mem_cons_self _ _ _ ha hstep) hrest

/-- **What holds whenever a route is told of**: what every write of the change keeps. -/
theorem Tells.moments (ht : Tells l kind es routes h ts h')
    (hwrite : ∀ w ∈ routes.flatMap (l.writes es), ∀ n h h', Along good h₀ N (n + 1) h →
      applyChange kind w.1 w.2 h = .ok () h' → Along good h₀ N n h')
    (hcongr : ∀ h h' : Hub, h'.store = h.store → h'.drawn = h.drawn → good h → good h')
    (ha : Along good h₀ N (routes.flatMap (l.writes es)).length h) :
    ∀ t ∈ ts, ∃ h₁ owner, good h₁ ∧ h₁.store = t.store ∧ h₁.store.isEmbedded = h₀.store.isEmbedded ∧
      t.route ∈ routes ∧ t.route.owner = some owner ∧ h₁.store.select owner = .ok t.records := by
  induction ht with
  | done => nofun
  | @passed route routes h h' ts hroute _ ih =>
    have hnone : l.writes es route = [] := by rw [SyncListener.writes, hroute]
    rw [List.flatMap_cons, hnone, List.nil_append] at hwrite ha
    intro t ht
    obtain ⟨h₁, owner, hgood, hstore, hemb, hmem, howner⟩ := ih hwrite ha t ht
    exact ⟨h₁, owner, hgood, hstore, hemb, List.mem_cons_of_mem route hmem, howner⟩
  | @told route routes h h₁ h₂ h' ts owner records hroute hok hselect hc _ ih =>
    have hsome : l.writes es route = es.map fun e => (owner, l.stamp route owner e) := by
      rw [SyncListener.writes, hroute]
    rw [List.flatMap_cons, hsome] at hwrite ha
    rw [List.length_append, List.length_map] at ha
    have hw : ∀ e ∈ es, ∀ n h h', Along good h₀ N (n + 1) h →
        applyChange kind owner (l.stamp route owner e) h = .ok () h' → Along good h₀ N n h' := fun e he =>
      hwrite (owner, l.stamp route owner e) (List.mem_append_left _ (List.mem_map_of_mem he))
    have ha₁ : Along good h₀ N (routes.flatMap (l.writes es)).length h₁ := along_forM hw ha hok
    refine List.forall_mem_cons.mpr ⟨?_, fun t ht => ?_⟩
    · exact ⟨h₁, owner, ha₁.good, rfl, ha₁.isEmbedded, List.mem_cons_self, hroute, hselect⟩
    · obtain ⟨h₃, owner, hgood, hstore, hemb, hmem, howner⟩ :=
        ih (fun w hw => hwrite w (List.mem_append_right _ hw)) (ha₁.of_contents hcongr hc) t ht
      exact ⟨h₃, owner, hgood, hstore, hemb, List.mem_cons_of_mem route hmem, howner⟩

/-! ### Every record of an owner is told -/

theorem along_of_request {q : StoreRequest} {a : StoreAnswer} {k : Nat}
    (ha : Along (fun h => h.store.Anchored) h₀ N (n + k) h) (hout : h.store.outcome q = .ok (h'.store, a))
    (hq : h₀.store.isEmbedded = true → q.Fit) (hclock : h'.clock = h.clock) (hdrawn : h'.drawn = h.drawn + k) :
    Along (fun h => h.store.Anchored) h₀ N n h' := by
  have hnext : h.store.next q = h'.store := by rw [Store.next, hout]
  have hN := ha.drawn
  refine ⟨hnext ▸ ha.good.next fun he => hq (ha.isEmbedded ▸ he), ?_, hclock.trans ha.clock, by omega⟩
  rw [← hnext, Store.isEmbedded_next, ha.isEmbedded]

/-- Each endpoint that is written draws one id at most and leaves the store anchored. -/
theorem along_of_applyChange (ha : Along (fun h => h.store.Anchored) h₀ N (n + 1) h)
    (hfit : ∀ m ≤ N, h₀.store.Takes (e.stored (drawnId m) owner h₀.clock))
    (hok : applyChange kind owner e h = .ok () h') : Along (fun h => h.store.Anchored) h₀ N n h' := by
  have hcol : h₀.store.isEmbedded = true → e.columns.Fit := fun he => (hfit 0 (Nat.zero_le N) he).columns
  have hless : ∀ {h : Hub}, Along (fun h => h.store.Anchored) h₀ N (n + 1) h →
      Along (fun h => h.store.Anchored) h₀ N n h := fun ha =>
    ⟨ha.good, ha.isEmbedded, ha.clock, Nat.le_of_succ_le ha.drawn⟩
  have upsert : (do if !(← update owner e) then insert owner e : Act Unit) h = .ok () h' →
      Along (fun h => h.store.Anchored) h₀ N n h' := by
    intro hok
    obtain ⟨b, h₁, hupdate, hrest⟩ := bind_eq_ok.mp hok
    obtain ⟨s, hs, hc⟩ := update_eq_ok hupdate
    obtain ⟨rfl, hdrawn, hclock, -⟩ := contents_store_iff.mp hc
    have ha₁ : Along (fun h => h.store.Anchored) h₀ N (n + 1) h₁ :=
      along_of_request (q := .update owner e.url e.columns h.clock) (k := 0) ha
        (by rw [Store.outcome, hs]; rfl) hcol hclock hdrawn
    cases b with
    | true =>
      obtain ⟨-, rfl⟩ := pure_eq_ok.mp hrest
      exact hless ha₁
    | false =>
      obtain ⟨s, hs, hc⟩ := insert_eq_ok hrest
      obtain ⟨rfl, hdrawn, hclock, -⟩ := contents_insert_iff.mp hc
      have hN := ha₁.drawn
      have hr : h₀.store.isEmbedded = true → (e.stored (drawnId (h₁.drawn + 1)) owner h₁.clock).Fit := by
        rw [ha₁.clock]
        exact hfit _ (by omega)
      exact along_of_request (q := .insert _) ha₁ (by rw [Store.outcome, hs]; rfl) hr hclock hdrawn
  cases kind with
  | added => exact upsert hok
  | updated => exact upsert hok
  | deleted =>
    obtain ⟨m, h₁, hdelete, hrest⟩ := bind_eq_ok.mp hok
    obtain ⟨-, rfl⟩ := pure_eq_ok.mp hrest
    obtain ⟨s, hs, hc⟩ := deleteByUrl_eq_ok hdelete
    obtain ⟨rfl, hdrawn, hclock, -⟩ := contents_store_iff.mp hc
    exact along_of_request (q := .deleteByUrl owner e.url) (k := 0) (hless ha)
      (by rw [Store.outcome, hs]; rfl) (fun _ => trivial) hclock hdrawn
  | ignored =>
    obtain ⟨-, rfl⟩ := pure_eq_ok.mp hok
    exact hless ha

/-- What is written keeps a store that tells owners apart one that does. -/
theorem stocked_of_applyChange (hkind : kind ≠ .ignored) (ha : Along Stocked h₀ N (n + 1) h)
    (haccepts : h₀.Accepts N owner e) (hok : applyChange kind owner e h = .ok () h') :
    Along Stocked h₀ N n h' := by
  have hN := ha.drawn
  have hw := wrote_of_applyChange hkind ha.good (haccepts.congr ha.isEmbedded) (by omega) hok
  have hdrawn := hw.drawn
  rw [List.length_singleton] at hdrawn
  exact ⟨hw.stocked, hw.isEmbedded.trans ha.isEmbedded, hw.clock.trans ha.clock, by omega⟩

theorem stocked_congr {h h' : Hub} (hstore : h'.store = h.store) (hdrawn : h'.drawn = h.drawn) (hs : h.Stocked) :
    h'.Stocked := by
  obtain ⟨hsound, hfresh, hdistinct⟩ := hs
  unfold DrawsFresh at hfresh
  rw [← hstore] at hsound hfresh hdistinct
  rw [← hdrawn] at hfresh
  exact ⟨hsound, hfresh, hdistinct⟩

namespace Tells

/-- The store is anchored whenever a route is told of. -/
theorem anchored (ht : Tells l kind es routes h ts h') (ha : h.store.Anchored)
    (hfit : ∀ w ∈ routes.flatMap (l.writes es), ∀ n ≤ h.drawn + (routes.flatMap (l.writes es)).length,
      h.store.Takes (w.2.stored (drawnId n) w.1 h.clock)) :
    ∀ t ∈ ts, ∃ owner, t.store.Anchored ∧ t.store.isEmbedded = h.store.isEmbedded ∧
      t.route.owner = some owner ∧ t.store.select owner = .ok t.records := by
  intro t htold
  have hcongr : ∀ h h' : Hub, h'.store = h.store → h'.drawn = h.drawn → h.store.Anchored → h'.store.Anchored :=
    fun _ _ hstore _ ha => hstore ▸ ha
  obtain ⟨h₁, owner, hgood, hstore, hemb, -, howner, hselect⟩ :=
    ht.moments (fun w hw _ _ _ ha hok => along_of_applyChange ha (hfit w hw) hok) hcongr
      ⟨ha, rfl, rfl, Nat.le_refl _⟩ t htold
  rw [hstore] at hgood hemb hselect
  exact ⟨owner, hgood, hemb, howner, hselect⟩

theorem complete_of_stocked (ht : Tells l kind es routes h ts h') (hkind : kind ≠ .ignored) (hne : es ≠ [])
    (hs : h.Stocked) (haccepts : ∀ w ∈ routes.flatMap (l.writes es),
      h.Accepts (h.drawn + (routes.flatMap (l.writes es)).length) w.1 w.2) : ∀ t ∈ ts, t.Complete := by
  intro t htold
  obtain ⟨h₁, owner, hgood, hstore, hemb, hmem, howner, hselect⟩ :=
    ht.moments (fun w hw _ _ _ ha hok => stocked_of_applyChange hkind ha (haccepts w hw) hok)
      (fun _ _ => stocked_congr) ⟨hs, rfl, rfl, Nat.le_refl _⟩ t htold
  obtain ⟨hsound, -, hdistinct⟩ := hgood
  rw [hstore] at hsound hdistinct hemb hselect
  -- the endpoints of the change are written for the owner, so it is one that can be told apart
  obtain ⟨e, he⟩ := List.exists_mem_of_ne_nil es hne
  have hwrite : (owner, l.stamp t.route owner e) ∈ routes.flatMap (l.writes es) := by
    refine List.mem_flatMap.mpr ⟨t.route, hmem, ?_⟩
    rw [SyncListener.writes, howner]
    exact List.mem_map_of_mem he
  have hz : t.store.Distinguishes owner := fun htrue => (haccepts _ hwrite).1 (hemb ▸ htrue)
  exact Telling.complete_of_distinguishes hsound hdistinct howner hz hselect

end Tells

/-! ### Changes -/

/-- **What a change tells.**  Routes have been bound one after another to a listener that was made for the first
of them, and it takes a change.  If the change is ignored or names no endpoints, nothing has happened.
Otherwise the first routes of their selectors and owners have been told of, if they have an owner, once and in
order, and nothing else; each with its owner's records as they were after the writes for it, by date and
address.  None of them is left out (if the store is anchored and the writes fit into it, whatever its history),
so all is told if there is nothing in it twice or of another owner.  This holds in memory; and in a sound
database as long as neither the records nor the routes are of an owner with a zero character. -/
theorem told_of_change {m : SyncListener} {template : RouteRecord} {bindings : List RouteRecord}
    (hl : l.contexts = [template]) (hm : m = bindings.foldl SyncListener.bind l)
    (hok : syncChange m change h = .ok () h') :
    m.contexts = firstBound (template :: bindings) ∧
    (change.kind = .ignored ∨ Payload.read m.mapping change.value = .ok [] → h' = h) ∧
    ∀ es, change.kind ≠ .ignored → Payload.read m.mapping change.value = .ok es → es ≠ [] →
      ∃ ts, Tells m change.kind es m.contexts h ts h' ∧
        ts.map Telling.route = m.contexts.filter (fun r => r.owner.isSome) ∧
        ((ts.map Telling.route).map RouteRecord.pair).Nodup ∧
        h'.outlet = (ts.map Telling.event).foldl Outlet.push h.outlet ∧
        (∀ t ∈ ts, t.records.Pairwise fun a b => ¬ b.before a = true) ∧
        (h.store.Anchored →
          (∀ w ∈ m.contexts.flatMap (m.writes es), ∀ n ≤ h.drawn + (m.contexts.flatMap (m.writes es)).length,
            h.store.Takes (w.2.stored (drawnId n) w.1 h.clock)) →
          ∀ t ∈ ts, (∀ r ∈ t.store, t.route.owner = some r.owner → r ∈ t.records) ∧
            (t.Complete ↔ t.records.Nodup ∧ ∀ r ∈ t.records, t.route.owner = some r.owner)) ∧
        (h.store.Anchored → h.store.isEmbedded = false → ∀ t ∈ ts, t.Complete) ∧
        (h.Stocked →
          (∀ w ∈ m.contexts.flatMap (m.writes es),
            h.Accepts (h.drawn + (m.contexts.flatMap (m.writes es)).length) w.1 w.2) →
          ∀ t ∈ ts, t.Complete) := by
  have hcontexts : m.contexts = firstBound (template :: bindings) := by
    rw [hm, SyncListener.foldl_bind, hl, firstBound]
    simp [eq_comm]
  refine ⟨hcontexts, ?_, fun es hkind hread hne => ?_⟩
  · rintro (hkind | hread)
    · rw [syncChange, if_pos hkind] at hok
      exact (pure_eq_ok.mp hok).2.symm
    · by_cases hkind : change.kind = .ignored
      · rw [syncChange, if_pos hkind] at hok
        exact (pure_eq_ok.mp hok).2.symm
      · obtain ⟨es, hes, hnil, -⟩ := syncChange_eq_ok hkind hok
        exact hnil (Except.ok.inj (hes.symm.trans hread))
  · obtain ⟨es', hes, -, hserve⟩ := syncChange_eq_ok hkind hok
    obtain rfl : es' = es := Except.ok.inj (hes.symm.trans hread)
    obtain ⟨ts, ht⟩ := exists_tells (hserve hne)
    have hpairs : ((ts.map Telling.route).map RouteRecord.pair).Nodup := by
      rw [ht.map_route, hcontexts]
      exact (nodup_firstBound _).sublist (List.filter_sublist.map _)
    refine ⟨ts, ht, ht.map_route, hpairs, ht.outlet_eq, ht.pairwise_records, fun ha hfit t htold => ?_,
      fun ha hmemory t htold => ?_, fun hs haccepts => ht.complete_of_stocked hkind hne hs haccepts⟩
    · obtain ⟨owner, ha, -, howner, hselect⟩ := ht.anchored ha hfit t htold
      exact ⟨fun r hr hown => Telling.mem_records ha howner hselect hr hown,
        Telling.complete_iff ha howner hselect⟩
    · obtain ⟨owner, ha, hemb, howner, hselect⟩ :=
        ht.anchored ha (fun _ _ _ _ => Store.takes_of_inMemory hmemory) t htold
      exact Telling.complete_of_memory ha (hemb.trans hmemory) howner hselect

/-- Of three more routes one is bound already and one has no owner; the other one shares the owner of the first. -/
theorem told_of_change_sharedOwner :
    let one : RouteRecord := ⟨"p", "s1", "one", "ns", some "h", none⟩
    let two : RouteRecord := { one with selectorId := "s2" }
    let l : SyncListener := ⟨.plain, [one], "d", "http://"⟩
    let bindings := [{ one with owner := none }, two, { one with pluginName := "q" }]
    ∃ h', syncChange (bindings.foldl SyncListener.bind l) ⟨"/k", "\x7b\"url\":\"a:1\"\x7d", .added⟩ {} = .ok () h' ∧
      ∃ ts : List Telling, ts.map Telling.route = [one, two] ∧ (∀ t ∈ ts, t.Complete) ∧
        h'.outlet = (ts.map Telling.event).foldl Outlet.push (outlet {}) := by
  intro one two l bindings
  let change : RegistryChange := ⟨"/k", "\x7b\"url\":\"a:1\"\x7d", .added⟩
  have hok := eq_ok_of_isOk (a := syncChange (bindings.foldl SyncListener.bind l) change) (h := {}) (by decide +kernel)
  refine ⟨_, hok, ?_⟩
  obtain ⟨hcontexts, -, htold⟩ := told_of_change rfl rfl hok
  have hread : Payload.read (bindings.foldl SyncListener.bind l).mapping change.value =
      .ok [{ Payload.start with url := "a:1" }] := by
    decide +kernel
  obtain ⟨ts, -, hroutes, -, houtlet, -, -, hcomplete, -⟩ := htold _ (by decide) hread (by simp)
  refine ⟨ts, ?_, hcomplete MemoryStore.anchored_empty rfl, houtlet⟩
  rw [hroutes, hcontexts]
  decide

/-- The addresses in the events that the journal shows. -/
def announcedUrls (h : Hub) : List String :=
  h.outlet.events.flatMap fun e => e.payload.flatMap fun r => (r.endpoints.getD []).map Endpoint.url

/-- An owner is told to have a record of another owner. -/
theorem exists_told_foreign :
    let l : SyncListener := ⟨.plain, [⟨"p", "s1", "one", "ns", some "h", none⟩], "d", "http://"⟩
    let change : RegistryChange := ⟨"/k", "\x7b\"url\":\"b:2\"\x7d", .added⟩
    let h : Hub := { store := (Store.embedded .empty).after [.insert Store.zeroRecord] }
    (syncChange l change).isOk h = true ∧ Store.zeroRecord.owner ≠ "h" ∧
      announcedUrls ((syncChange l change).left h) = ["b:2", Store.zeroRecord.url] := by
  decide +kernel

end Act

end RouteSync
