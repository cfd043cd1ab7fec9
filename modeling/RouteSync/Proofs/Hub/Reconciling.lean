import RouteSync.Hub.Discovery
import RouteSync.Proofs.Hub.Contents
import RouteSync.Proofs.Hub.Lasting
import RouteSync.Proofs.Planning

/-!
# Reconciliation converges

A pass that succeeds leaves for its handler one record per live address: what stood at a live address is
untouched, what is missing is new, and everybody else's records stay (`Converged`).  The store in memory
always does this.  The embedded store selects by a range of bytes, which covers records of another owner
if owners may hold zero characters; the pass then converges exactly if every such record stands at a live
address at which the handler has a record of its own (`Separates`).
-/

namespace RouteSync

namespace Hub

/-- The instances that a connector reports under a key. -/
def reported (h : Hub) (c : ConnectorId) (key : String) : List Instance :=
  match (h.connector c).probe.bind fun p => p.scripted.get? key with
  | some l => l
  | none => (h.connector c).registry.instancesAt key

/-- The connector that serves the handler's discovery id reports `live` under the handler's watch key. -/
def Reports (h : Hub) (handler : Handler) (live : List Instance) : Prop :=
  ∃ c, h.registrations.connectors.get? handler.discoveryId = some c ∧ h.reported c (h.watchKey handler) = live

/-- The record of a live instance that a pass of this moment makes. -/
def newRecord (h : Hub) (handler : Handler) (s : Selector) (i : Instance) (id : String) :
    StoredEndpoint where
  id := id
  owner := handler.id
  url := i.url
  columns := {
    namespaceId := s.namespaceId
    protocol := h.settings.defaultProtocol
    status := i.status
    weight := i.weight
    props := "" }
  created := h.clock
  updated := h.clock

/-- The store can write down what a pass for these instances may insert. -/
def TakesNew (h : Hub) (handler : Handler) (s : Selector) (live : List Instance) : Prop :=
  ∀ i ∈ live, ∀ n, n ≤ h.drawn + live.length → h.store.Takes (h.newRecord handler s i (drawnId n))

/-- The selector with its live instances, as a pass publishes it. -/
def announced (h : Hub) (s : Selector) (live : List Instance) : ChangeEvent :=
  .single .discoveredEndpoint .update ((RouteRecord.ofSelector s).withEndpoints
    ((firstPerUrl live).map fun i => Endpoint.ofInstance i s h.settings.defaultProtocol))

/-- `h'` is `h` after a pass that has made the records of the handler those of the live instances. -/
structure Converged (h h' : Hub) (handler : Handler) (s : Selector) (live : List Instance) : Prop where
  /-- The addresses of the handler's records are the live ones. -/
  urls : ∀ u, (∃ r ∈ h'.store, r.owner = handler.id ∧ r.url = u) ↔ ∃ i ∈ live, i.url = u
  /-- A record at a live address is as before. -/
  kept : ∀ r ∈ h.store, r.owner = handler.id → (∃ i ∈ live, i.url = r.url) → r ∈ h'.store
  /-- Any other record is new and that of the first live instance of its address. -/
  added : ∀ r ∈ h'.store, r.owner = handler.id → r ∈ h.store ∨
    h.store.find? r.id = none ∧ ∃ i, live.find? (fun j => j.url == r.url) = some i ∧
      r = h.newRecord handler s i r.id
  others : ∀ r, r.owner ≠ handler.id → (r ∈ h'.store ↔ r ∈ h.store)
  published : h'.outlet = h.outlet.push (h.announced s live)

/-- What a selection for the handler lists of other owners stands at live addresses of its own. -/
def Separates (h : Hub) (handler : Handler) (live : List Instance) : Prop :=
  ∀ r ∈ h.store, h.store.lists handler.id r = true → r.owner ≠ handler.id →
    (∃ i ∈ live, i.url = r.url) ∧ ∃ q ∈ h.store, q.owner = handler.id ∧ q.url = r.url

end Hub

namespace Act

open Hub

variable {h h' : Hub} {handler : Handler} {s : Selector} {c : ConnectorId}

theorem registryCall_eq_ok {call : RegistryCall} {u : Unit} (hok : registryCall c call h = .ok u h') :
    h'.contents = h.contents ∧ h'.connectors = h.connectors := by
  unfold registryCall at hok
  rw [get_bind] at hok
  cases hp : (h.connector c).probe with
  | none =>
    rw [hp] at hok
    obtain ⟨-, rfl⟩ := pure_eq_ok.mp hok
    exact ⟨rfl, rfl⟩
  | some p =>
    rw [hp] at hok
    refine ⟨contents_of_call rfl hok, ?_⟩
    obtain ⟨fs, rfl⟩ := call_eq_ok hok
    rfl

/-- A selection that succeeds gives what the connector reports. -/
theorem selectInstances_eq_ok {key : String} {l : List Instance}
    (hok : selectInstances c key h = .ok l h') : l = h.reported c key ∧ h'.contents = h.contents := by
  unfold selectInstances at hok
  obtain ⟨u, h₁, hcall, hok⟩ := bind_eq_ok.mp hok
  obtain ⟨hc, hk⟩ := registryCall_eq_ok hcall
  have hkc : h₁.connector c = h.connector c := by rw [connector, connector, hk]
  rw [get_bind, hkc] at hok
  unfold reported
  cases hp : (h.connector c).probe.bind fun p => p.scripted.get? key with
  | some l' =>
    rw [hp] at hok
    obtain ⟨rfl, rfl⟩ := pure_eq_ok.mp hok
    exact ⟨rfl, hc⟩
  | none =>
    rw [hp] at hok
    dsimp only at hok
    rw [ofExcept_eq_ok, LocalRegistry.select] at hok
    obtain ⟨hl, rfl⟩ := hok
    split_ifs at hl
    cases hl
    exact ⟨rfl, hc⟩

/-- The records with these ids have been deleted, and nothing else has happened to store and outlet. -/
structure Cleared (h g : Hub) (ids : List String) : Prop where
  sound : g.store.Sound
  isEmbedded : g.store.isEmbedded = h.store.isEmbedded
  drawn : g.drawn = h.drawn
  clock : g.clock = h.clock
  outlet : g.outlet = h.outlet
  find? : ∀ id, g.store.find? id = if id ∈ ids then none else h.store.find? id

namespace Cleared

variable {g : Hub} {ids : List String}

theorem of_contents (hcl : Cleared h' g ids) (hc : h'.contents = h.contents) : Cleared h g ids := by
  obtain ⟨hstore, hdrawn, hclock, hout⟩ := contents_eq_iff.mp hc
  refine ⟨hcl.sound, ?_, hcl.drawn.trans hdrawn, hcl.clock.trans hclock, hcl.outlet.trans hout, fun id => ?_⟩
  · rw [hcl.isEmbedded, hstore]
  · rw [hcl.find?, hstore]

theorem congr (hcl : Cleared h g ids) (hc : h'.contents = g.contents) : Cleared h h' ids := by
  obtain ⟨hstore, hdrawn, hclock, hout⟩ := contents_eq_iff.mp hc
  refine ⟨?_, ?_, hdrawn.trans hcl.drawn, hclock.trans hcl.clock, hout.trans hcl.outlet, fun id => ?_⟩
  · rw [hstore]
    exact hcl.sound
  · rw [hstore, hcl.isEmbedded]
  · rw [hstore, hcl.find?]

theorem mem (hcl : Cleared h g ids) {r : StoredEndpoint} : r ∈ g.store ↔ r ∈ h.store ∧ r.id ∉ ids := by
  rw [Store.mem_iff, hcl.find?, Store.mem_iff]
  by_cases hid : r.id ∈ ids
  · simp [hid]
  · simp [hid]

theorem drawsFresh (hcl : Cleared h g ids) (hd : h.DrawsFresh) : g.DrawsFresh := by
  refine hd.of_find? (Nat.le_of_eq hcl.drawn.symm) fun id hid => ?_
  rw [hcl.find?, hid]
  exact ite_self none

end Cleared

/-- Deleting records by their ids takes these out of the store and nothing else. -/
theorem cleared_of_deleteByIds {ids : List String} {n : Nat} (hs : h.store.Sound)
    (hok : deleteByIds ids h = .ok n h') : Cleared h h' ids := by
  obtain ⟨s', hs', hc⟩ := deleteByIds_eq_ok hok
  obtain ⟨t, m, ht, hts, hte, htf⟩ := Store.exists_deleteByIds hs ids
  rw [hs'] at ht
  cases ht
  obtain ⟨rfl, hdrawn, hclock, hout⟩ := contents_store_iff.mp hc
  exact ⟨hts, hte, hdrawn, hclock, hout, htf⟩

theorem cleared_of_deleteStale {d : String} {ids : List String} {u : Unit} (hs : h.store.Sound)
    (hok : deleteStale d ids h = .ok u h') : Cleared h h' ids := by
  unfold deleteStale at hok
  split_ifs at hok with hi
  · obtain ⟨-, rfl⟩ := pure_eq_ok.mp hok
    obtain rfl : ids = [] := List.isEmpty_iff.mp hi
    exact ⟨hs, rfl, rfl, rfl, rfl, by simp⟩
  · obtain ⟨n, h₁, hdelete, hcount⟩ := bind_eq_ok.mp hok
    exact (cleared_of_deleteByIds hs hdelete).congr ((keeps_contents_count _ _).of_ok hcount)

/-- The records that inserting endpoints for an owner one after another adds, with the ids drawn for them. -/
def newRecords (h : Hub) (owner : String) (l : List Endpoint) : List StoredEndpoint :=
  l.mapIdx fun j e => e.stored (drawnId (h.drawn + 1 + j)) owner h.clock

theorem mem_newRecords {owner : String} {l : List Endpoint} {r : StoredEndpoint} :
    r ∈ newRecords h owner l ↔
      ∃ (j : Nat) (e : Endpoint), l[j]? = some e ∧ r = e.stored (drawnId (h.drawn + 1 + j)) owner h.clock := by
  unfold newRecords
  constructor
  · intro hr
    obtain ⟨j, hj, rfl⟩ := List.mem_mapIdx.mp hr
    exact ⟨j, l[j], List.getElem?_eq_getElem hj, rfl⟩
  · rintro ⟨j, e, he, rfl⟩
    obtain ⟨hj, rfl⟩ := List.getElem?_eq_some_iff.mp he
    exact List.mem_mapIdx.mpr ⟨j, hj, rfl⟩

/-- The endpoints have been inserted, and nothing else has changed in the store. -/
structure Entered (h h' : Hub) (owner : String) (l : List Endpoint) : Prop where
  sound : h'.store.Sound
  isEmbedded : h'.store.isEmbedded = h.store.isEmbedded
  fresh : h'.DrawsFresh
  drawn : h'.drawn = h.drawn + l.length
  clock : h'.clock = h.clock
  outlet : h'.outlet = h.outlet
  mem : ∀ r, r ∈ h'.store ↔ r ∈ h.store ∨ r ∈ newRecords h owner l

/-- **Inserting endpoints** adds one record for each, under the next free ids. -/
theorem entered_of_insertAll {d owner : String} {l : List Endpoint} {u : Unit} (hs : h.store.Sound)
    (hd : h.DrawsFresh)
    (ht : ∀ e ∈ l, ∀ n, n ≤ h.drawn + l.length → h.store.Takes (e.stored (drawnId n) owner h.clock))
    (hok : insertAll d owner l h = .ok u h') : Entered h h' owner l := by
  induction l generalizing h with
  | nil =>
    obtain ⟨-, rfl⟩ := pure_eq_ok.mp hok
    exact ⟨hs, rfl, hd, rfl, rfl, rfl, fun r => by simp [newRecords]⟩
  | cons e l ih =>
    obtain ⟨v, h₂, hstep, hok⟩ := bind_eq_ok.mp hok
    obtain ⟨w, h₁, hins, hcount⟩ := bind_eq_ok.mp hstep
    obtain ⟨s', hs', hc⟩ := insert_eq_ok hins
    have hc₂ := ((keeps_contents_count _ _).of_ok hcount).trans hc
    obtain ⟨rfl, h2, h3, h4⟩ := contents_insert_iff.mp hc₂
    have hfree : h.store.find? (drawnId (h.drawn + 1)) = none := hd _ (by omega)
    have htake := ht e (by simp) (h.drawn + 1) (by simp)
    obtain ⟨hsound, hemb, hfind⟩ := Store.find?_insert hs htake hfree hs'
    have hrest : Entered h₂ h' owner l := by
      refine ih hsound (hd.of_add h2 hfind) (fun x hx n hn => ?_) hok
      rw [h2] at hn
      rw [Store.Takes, hemb, h3]
      exact ht x (by simp [hx]) n (by simp only [List.length_cons]; omega)
    have hdrawn : h'.drawn = h.drawn + (e :: l).length := by
      rw [hrest.drawn, h2, List.length_cons]
      omega
    -- the later records draw the ids after that of the first one
    have hnew : newRecords h owner (e :: l) =
        e.stored (drawnId (h.drawn + 1)) owner h.clock :: newRecords h₂ owner l := by
      unfold newRecords
      rw [List.mapIdx_cons, h2, h3]
      simp only [Nat.add_assoc, Nat.add_comm, Nat.zero_add]
    refine ⟨hrest.sound, hrest.isEmbedded.trans hemb, hrest.fresh, hdrawn, hrest.clock.trans h3,
      hrest.outlet.trans h4, fun r => ?_⟩
    rw [hrest.mem, Store.mem_add_iff (x := r) hfree hfind, hnew, List.mem_cons, or_assoc, or_left_comm]

/-- A reconciliation that succeeds deletes what is stale and then inserts what is missing. -/
theorem reconcile_eq_ok {l : List Endpoint} (hs : h.store.Sound) (hok : reconcile c handler s h = .ok l h') :
    l = candidates (h.reported c (h.watchKey handler)) s h.settings.defaultProtocol ∧
      ∃ stored g, h.store.select handler.id = .ok stored ∧ Cleared h g (Plan.of stored l).stale ∧
        insertAll handler.discoveryId handler.id (Plan.of stored l).inserts g = .ok () h' := by
  unfold reconcile at hok
  rw [get_bind] at hok
  obtain ⟨live, ha, hsel, hok⟩ := bind_eq_ok.mp hok
  obtain ⟨rfl, hca⟩ := selectInstances_eq_ok hsel
  obtain ⟨stored, hb, hst, hok⟩ := bind_eq_ok.mp hok
  obtain ⟨hst, hcb⟩ := select_eq_ok hst
  obtain ⟨v, g, hdel, hok⟩ := bind_eq_ok.mp hok
  obtain ⟨v', h₂, hins, hlast⟩ := bind_eq_ok.mp hok
  obtain ⟨rfl, rfl⟩ := pure_eq_ok.mp hlast
  have hcb' : hb.contents = h.contents := hcb.trans hca
  have hstore : hb.store = h.store := (contents_eq_iff.mp hcb').1
  rw [(contents_eq_iff.mp hca).1] at hst
  exact ⟨rfl, stored, g, hst, (cleared_of_deleteStale (hstore ▸ hs) hdel).of_contents hcb', hins⟩

/-- A pass that succeeds has reconciled and then published the candidates. -/
theorem fetchAll_eq_ok {u : Unit} (hc : h.registrations.connectors.get? handler.discoveryId = some c)
    (hok : fetchAll handler s h = .ok u h') :
    ∃ l h₁, reconcile c handler s h = .ok l h₁ ∧ h'.contents = { h₁.contents with
      outlet := h₁.outlet.push
        (.single .discoveredEndpoint .update ((RouteRecord.ofSelector s).withEndpoints l)) } := by
  unfold fetchAll at hok
  rw [get_bind, hc] at hok
  obtain ⟨o, h₁, hattempt, hok⟩ := bind_eq_ok.mp hok
  rcases attempt_eq_ok.mp hattempt with ⟨l, rfl, hrec⟩ | ⟨e, rfl, -⟩
  · obtain ⟨v, h₂, hcount, hpub⟩ := bind_eq_ok.mp hok
    have hc₂ := (keeps_contents_count _ _).of_ok hcount
    have hc' := publish_eq_ok hpub
    refine ⟨l, h₁, hrec, ?_⟩
    rw [hc', hc₂, (contents_eq_iff.mp hc₂).2.2.2]
  · obtain ⟨v, h₂, -, hthrow⟩ := bind_eq_ok.mp hok
    exact absurd hthrow throw_eq_ok

/-- What a handler is told depends on neither journal and faults, nor outlet and counters, nor the store. -/
theorem untouched_told : Untouched fun h => (h.settings, h.registrations, h.connectors) where
  call _ _ _ := rfl
  publish h e := by
    obtain ⟨p, j, m, he⟩ := h.publish_eq e
    rw [he]
  count _ _ := rfl
  store _ _ _ := rfl

/-- A pass changes neither the settings nor what a handler is told, however it ends. -/
theorem told_fetchAll (handler : Handler) (s : Selector) (h : Hub) :
    ((fetchAll handler s).left h).settings = h.settings ∧
      ∀ other live, ((fetchAll handler s).left h).Reports other live ↔ h.Reports other live := by
  have hkeeps := keeps_iff.mpr
    (fun v => (untouched_told.lasting fun h h' he (hh : _ = v) => he.trans hh).fetchAll handler s) h
  obtain ⟨hset, hrest⟩ := Prod.mk.inj hkeeps
  obtain ⟨hreg, hconn⟩ := Prod.mk.inj hrest
  refine ⟨hset, fun other live => ?_⟩
  unfold Reports reported watchKey connector
  rw [hset, hreg, hconn]

end Act

namespace Hub

variable {h h' : Hub} {handler : Handler} {s : Selector} {c : ConnectorId} {live : List Instance}

/-- What a plan takes for stale among the records that a selection lists. -/
theorem mem_stale_iff {t : Store} {owner : String} {stored : List StoredEndpoint} {l : List Endpoint}
    (hmem : ∀ r, r ∈ stored ↔ r ∈ t ∧ t.lists owner r = true) {r : StoredEndpoint} (hr : r ∈ t) :
    r.id ∈ (Plan.of stored l).stale ↔ t.lists owner r = true ∧ ¬ ∃ e ∈ l, e.url = r.url := by
  rw [Plan.mem_stale]
  constructor
  · rintro ⟨q, hq, hid, hne⟩
    obtain ⟨hq, hlist⟩ := (hmem q).mp hq
    have hqr : t.find? r.id = some q := hid ▸ hq
    obtain rfl : q = r := Option.some.inj (hqr.symm.trans hr)
    exact ⟨hlist, hne⟩
  · rintro ⟨hlist, hne⟩
    exact ⟨r, (hmem r).mpr ⟨hr, hlist⟩, rfl, hne⟩

/-- A record that a pass inserts has a new id, stands at an address where nothing was listed, and is that of the
first instance of this address. -/
theorem of_mem_newRecords {stored : List StoredEndpoint} {l : List Endpoint} {r : StoredEndpoint}
    (hmem : ∀ r, r ∈ stored ↔ r ∈ h.store ∧ h.store.lists handler.id r = true)
    (hl : ∀ e ∈ l, e ∈ (Plan.of stored (candidates live s h.settings.defaultProtocol)).inserts)
    (hr : r ∈ Act.newRecords h handler.id l) :
    (∃ n, h.drawn < n ∧ r.id = drawnId n) ∧ r.owner = handler.id ∧
      (∀ q ∈ h.store, h.store.lists handler.id q = true → q.url ≠ r.url) ∧
      ∃ i, live.find? (fun j => j.url == r.url) = some i ∧ r = h.newRecord handler s i r.id := by
  obtain ⟨j, e, he, rfl⟩ := Act.mem_newRecords.mp hr
  obtain ⟨hcandidate, hfree⟩ := Plan.mem_inserts.mp (hl e (List.mem_of_getElem? he))
  obtain ⟨i, hi, rfl⟩ := mem_candidates.mp hcandidate
  exact ⟨⟨h.drawn + 1 + j, by omega, rfl⟩, rfl, fun q hq hlist => hfree q ((hmem q).mpr ⟨hq, hlist⟩), i, hi, rfl⟩

/-- **The store of a pass** that has deleted what is stale and inserted some of what is planned. -/
theorem mem_of_entered {g h₁ : Hub} {stored : List StoredEndpoint} {done : List Endpoint}
    (hmem : ∀ r, r ∈ stored ↔ r ∈ h.store ∧ h.store.lists handler.id r = true)
    (hcl : Act.Cleared h g (Plan.of stored (candidates live s h.settings.defaultProtocol)).stale)
    (hent : Act.Entered g h₁ handler.id done) (r : StoredEndpoint) :
    r ∈ h₁.store ↔
      (r ∈ h.store ∧ ¬ (h.store.lists handler.id r = true ∧ ¬ ∃ i ∈ live, i.url = r.url)) ∨
        r ∈ Act.newRecords h handler.id done := by
  have hnew : Act.newRecords g handler.id done = Act.newRecords h handler.id done := by
    unfold Act.newRecords
    rw [hcl.drawn, hcl.clock]
  rw [hent.mem, hcl.mem, hnew]
  refine or_congr_left (and_congr_right fun hr => ?_)
  rw [mem_stale_iff hmem hr, exists_url_candidates]

/-- A store that takes what a pass may insert takes it also after the deletion. -/
theorem TakesNew.of_cleared {g : Hub} {ids : List String} {stored : List StoredEndpoint} {e : Endpoint} {n : Nat}
    (ht : h.TakesNew handler s live) (hcl : Act.Cleared h g ids)
    (he : e ∈ (Plan.of stored (candidates live s h.settings.defaultProtocol)).inserts)
    (hn : n ≤ h.drawn + live.length) : g.store.Takes (e.stored (drawnId n) handler.id g.clock) := by
  obtain ⟨hcandidate, -⟩ := Plan.mem_inserts.mp he
  obtain ⟨i, hi, rfl⟩ := mem_candidates.mp hcandidate
  rw [hcl.clock, Store.Takes, hcl.isEmbedded]
  exact ht i (List.mem_of_find?_eq_some hi) n hn

/-- Some of what is planned is inserted after the deletion. -/
theorem entered_of_cleared {g h₁ : Hub} {ids : List String} {stored : List StoredEndpoint} {done : List Endpoint}
    {d : String} {u : Unit} (hd : h.DrawsFresh) (ht : h.TakesNew handler s live) (hcl : Act.Cleared h g ids)
    (hdone : done <+: (Plan.of stored (candidates live s h.settings.defaultProtocol)).inserts)
    (hok : Act.insertAll d handler.id done g = .ok u h₁) : Act.Entered g h₁ handler.id done := by
  have hlen : done.length ≤ live.length := Nat.le_trans hdone.length_le (Plan.length_inserts_le live)
  refine Act.entered_of_insertAll hcl.sound (hcl.drawsFresh hd) (fun e he n hn => ?_) hok
  rw [hcl.drawn] at hn
  exact ht.of_cleared hcl (hdone.subset he) (by omega)

/-- The store after a pass: everything but what is stale, and a new record for every missing candidate. -/
structure Passed (h h' : Hub) (handler : Handler) (s : Selector) (live : List Instance) : Prop where
  left : ∀ r ∈ h.store, r ∈ h'.store ↔
    ¬ (h.store.lists handler.id r = true ∧ ¬ ∃ i ∈ live, i.url = r.url)
  entered : ∀ r ∈ h'.store, r ∈ h.store ∨ r.owner = handler.id ∧ h.store.find? r.id = none ∧
    (∀ q ∈ h.store, h.store.lists handler.id q = true → q.url ≠ r.url) ∧
    ∃ i, live.find? (fun j => j.url == r.url) = some i ∧ r = h.newRecord handler s i r.id
  filled : ∀ i ∈ live, (∀ q ∈ h.store, h.store.lists handler.id q = true → q.url ≠ i.url) →
    ∃ r ∈ h'.store, r.owner = handler.id ∧ r.url = i.url
  published : h'.outlet = h.outlet.push (h.announced s live)

theorem passed_of_fetchAll {u : Unit} (hs : h.store.Sound) (hd : h.DrawsFresh)
    (ht : h.TakesNew handler s (h.reported c (h.watchKey handler)))
    (hc : h.registrations.connectors.get? handler.discoveryId = some c)
    (hok : Act.fetchAll handler s h = .ok u h') :
    Passed h h' handler s (h.reported c (h.watchKey handler)) := by
  obtain ⟨l, h₁, hrec, hpass⟩ := Act.fetchAll_eq_ok hc hok
  have hstore : h'.store = h₁.store := congrArg Contents.store hpass
  have hout : h'.outlet = h₁.outlet.push (.single .discoveredEndpoint .update
      ((RouteRecord.ofSelector s).withEndpoints l)) := congrArg Contents.outlet hpass
  obtain ⟨hl, stored, g, hsel, hcl, hins⟩ := Act.reconcile_eq_ok hs hrec
  obtain ⟨stored', hsel', hmem⟩ := Store.exists_select hs handler.id
  obtain rfl : stored = stored' := Except.ok.inj (hsel.symm.trans hsel')
  generalize h.reported c (h.watchKey handler) = live at ht hl ⊢
  subst hl
  have hent := entered_of_cleared hd ht hcl List.prefix_rfl hins
  have hafter := mem_of_entered hmem hcl hent
  have hnew := fun r (hr : r ∈ Act.newRecords h handler.id
    (Plan.of stored (candidates live s h.settings.defaultProtocol)).inserts) =>
      of_mem_newRecords hmem (fun _ he => he) hr
  have hfresh : ∀ r : StoredEndpoint, (∃ n, h.drawn < n ∧ r.id = drawnId n) → h.store.find? r.id = none := by
    rintro r ⟨n, hn, hid⟩
    rw [hid]
    exact hd n hn
  refine ⟨fun r hr => ?_, fun r hr => ?_, fun i hi hq => ?_, ?_⟩
  · -- a record of before is there if it has not been deleted
    rw [hstore, hafter]
    constructor
    · rintro (⟨-, hstay⟩ | hr')
      · exact hstay
      · rw [Store.mem_iff, hfresh r (hnew r hr').1] at hr
        cases hr
    · exact fun hstay => .inl ⟨hr, hstay⟩
  · rw [hstore, hafter] at hr
    rcases hr with ⟨hr, -⟩ | hr
    · exact .inl hr
    · obtain ⟨hid, ho, hfree, hfirst⟩ := hnew r hr
      exact .inr ⟨ho, hfresh r hid, hfree, hfirst⟩
  · obtain ⟨e, he, heu⟩ := exists_url_candidates.mpr ⟨i, hi, rfl⟩
    have hplanned : e ∈ (Plan.of stored (candidates live s h.settings.defaultProtocol)).inserts := by
      refine Plan.mem_inserts.mpr ⟨he, fun q hq' => ?_⟩
      rw [heu]
      exact hq q ((hmem q).mp hq').1 ((hmem q).mp hq').2
    obtain ⟨j, hj⟩ := List.mem_iff_getElem?.mp hplanned
    refine ⟨e.stored (drawnId (h.drawn + 1 + j)) handler.id h.clock, ?_, rfl, heu⟩
    rw [hstore, hafter]
    exact .inr (Act.mem_newRecords.mpr ⟨j, e, hj, rfl⟩)
  · rw [hout, hent.outlet, hcl.outlet, announced, candidates_eq]

/-- A pass that has found nothing of others, or only what it leaves alone, has converged. -/
theorem Passed.converged_iff (hp : Passed h h' handler s live) :
    Converged h h' handler s live ↔ h.Separates handler live := by
  constructor
  · intro hconv r hr hlist ho
    have hstay := (hp.left r hr).mp ((hconv.others r ho).mpr hr)
    have hlive : ∃ i ∈ live, i.url = r.url := by
      by_contra hne
      exact hstay ⟨hlist, hne⟩
    refine ⟨hlive, ?_⟩
    obtain ⟨q, hq, hqo, hqu⟩ := (hconv.urls r.url).mpr hlive
    rcases hp.entered q hq with hq | ⟨-, -, hfree, -⟩
    · exact ⟨q, hq, hqo, hqu⟩
    · exact absurd hqu.symm (hfree r hr hlist)
  · intro hsep
    have hown : ∀ r ∈ h.store, r.owner = handler.id → h.store.lists handler.id r = true :=
      fun r _ ho => ho ▸ Store.lists_self h.store r
    refine ⟨fun u => ⟨?_, ?_⟩, fun r hr ho hlive => ?_, fun r hr ho => ?_, fun r ho => ⟨?_, ?_⟩,
      hp.published⟩
    · rintro ⟨r, hr, ho, rfl⟩
      rcases hp.entered r hr with hr₀ | ⟨-, -, -, i, hi, -⟩
      · by_contra hne
        exact (hp.left r hr₀).mp hr ⟨hown r hr₀ ho, hne⟩
      · exact ⟨i, List.mem_of_find?_eq_some hi, by simpa using List.find?_some hi⟩
    · rintro ⟨i, hi, rfl⟩
      by_cases hfree : ∀ q ∈ h.store, h.store.lists handler.id q = true → q.url ≠ i.url
      · exact hp.filled i hi hfree
      · push Not at hfree
        obtain ⟨q, hq, hlist, hqu⟩ := hfree
        have hstay : ∀ r ∈ h.store, r.url = i.url → r ∈ h'.store :=
          fun r hr hru => (hp.left r hr).mpr fun hdel => hdel.2 ⟨i, hi, hru.symm⟩
        by_cases ho : q.owner = handler.id
        · exact ⟨q, hstay q hq hqu, ho, hqu⟩
        · obtain ⟨-, r, hr, hro, hru⟩ := hsep q hq hlist ho
          exact ⟨r, hstay r hr (hru.trans hqu), hro, hru.trans hqu⟩
    · exact (hp.left r hr).mpr fun hdel => hdel.2 hlive
    · rcases hp.entered r hr with hr₀ | ⟨-, hid, -, hi⟩
      · exact .inl hr₀
      · exact .inr ⟨hid, hi⟩
    · intro hr
      rcases hp.entered r hr with hr₀ | ⟨hro, -⟩
      · exact hr₀
      · exact absurd hro ho
    · intro hr
      refine (hp.left r hr).mpr fun hdel => hdel.2 ?_
      exact (hsep r hr hdel.1 ho).1

/-- **Reconciliation converges** exactly if the store separates the handler's records from those of
others.  The store in memory always does, the embedded one as long as no owner holds a zero character. -/
theorem fetchAll_converges_iff (hstore : h.store.Reached) (hd : h.DrawsFresh)
    (ht : h.TakesNew handler s (h.reported c (h.watchKey handler)))
    (hc : h.registrations.connectors.get? handler.discoveryId = some c)
    (hok : Act.fetchAll handler s h = .ok () h') :
    (Converged h h' handler s (h.reported c (h.watchKey handler)) ↔
        h.Separates handler (h.reported c (h.watchKey handler))) ∧
      ((h.store.isEmbedded = true →
          '\x00' ∉ handler.id.toList ∧ ∀ r ∈ h.store, '\x00' ∉ r.owner.toList) →
        Converged h h' handler s (h.reported c (h.watchKey handler))) := by
  have hiff := (passed_of_fetchAll hstore.sound hd ht hc hok).converged_iff
  refine ⟨hiff, fun hz => hiff.mpr fun r hr hlist ho => absurd ?_ ho⟩
  exact Store.owner_eq_of_lists (fun he => ⟨(hz he).1, (hz he).2 r hr⟩) hlist

/-! ### Two stores -/

/-- A hub with one discovery id, at whose registry `live` are registered under one key. -/
def withLive (store : Store) (live : List Instance) : Hub where
  store := store
  connectors := [{ registry := { ready := true, instances := .ofList [("/k", live)] } }]
  registrations := { connectors := .ofList [("d", 0)], watchKeys := .ofList [("d", .empty)] }

/-- What `s` has become by inserting a record. -/
def holding (s : Store) (r : StoredEndpoint) : Store := (s.insert r).toOption.getD s

theorem drawsFresh_holding {s : Store} {r : StoredEndpoint} (hs : s.Sound) (ht : s.Takes r)
    (he : ∀ id, s.find? id = none) (hi : s.insert r = .ok (holding s r))
    (hr : r.id.toList.head? ≠ some 'g') (live : List Instance) :
    (withLive (holding s r) live).DrawsFresh := by
  intro n _
  obtain ⟨-, -, hf⟩ := Store.find?_insert hs ht (he _) hi
  have hne : drawnId n ≠ r.id := (ne_drawnId hr n).symm
  rw [withLive, hf, if_neg hne, he]

def staleRecord : StoredEndpoint := ⟨"id-1", "h", "a:1", ⟨"ns", "http://", 0, 50, ""⟩, 1, 1⟩

/-- A pass over a store with one stale record, for an address that is reported twice. -/
theorem fetchAll_converges_memory :
    let live : List Instance := [⟨"b", 2, 10, 0⟩, ⟨"b", 2, 20, 0⟩]
    let h := withLive (holding (.memory .empty) staleRecord) live
    Converged h ((Act.fetchAll ⟨"h", "d", "/k", "", ""⟩ ⟨"s", "s", "p", "ns"⟩).left h)
      ⟨"h", "d", "/k", "", ""⟩ ⟨"s", "s", "p", "ns"⟩ live := by
  intro live h
  have hi : (Store.memory .empty).insert staleRecord = .ok (holding (.memory .empty) staleRecord) := rfl
  have hstore : h.store.Reached := .insert .memory (fun he => by cases he) rfl hi
  have hd : h.DrawsFresh :=
    drawsFresh_holding Store.Reached.memory.sound (fun he => by cases he) (fun _ => rfl) hi (by decide) live
  have hc : h.registrations.connectors.get? "d" = some 0 := rfl
  have hok := Act.eq_ok_of_isOk
    (show (Act.fetchAll ⟨"h", "d", "/k", "", ""⟩ ⟨"s", "s", "p", "ns"⟩).isOk h = true by decide +kernel)
  exact (fetchAll_converges_iff hstore hd (fun _ _ _ _ he => by cases he) hc hok).2 fun he => by cases he

def foreignRecord : StoredEndpoint := ⟨"id-1", "h\x00x", "a:1", ⟨"ns", "http://", 0, 50, ""⟩, 1, 1⟩

/-- With zero characters in owners a pass over the embedded store may delete records of others. -/
theorem exists_fetchAll_not_converged :
    let h := withLive (holding (.embedded .empty) foreignRecord) []
    let h' := (Act.fetchAll ⟨"h", "d", "/k", "", ""⟩ ⟨"s", "s", "p", "ns"⟩).left h
    h.store.Reached ∧ h.DrawsFresh ∧
      h.TakesNew ⟨"h", "d", "/k", "", ""⟩ ⟨"s", "s", "p", "ns"⟩ (h.reported 0 "/k") ∧
      h.registrations.connectors.get? "d" = some 0 ∧
      Act.fetchAll ⟨"h", "d", "/k", "", ""⟩ ⟨"s", "s", "p", "ns"⟩ h = .ok () h' ∧
      ¬ Converged h h' ⟨"h", "d", "/k", "", ""⟩ ⟨"s", "s", "p", "ns"⟩ (h.reported 0 "/k") := by
  intro h h'
  have hi : (Store.embedded .empty).insert foreignRecord =
      .ok (holding (.embedded .empty) foreignRecord) := rfl
  have ht : (Store.embedded .empty).Takes foreignRecord := fun _ =>
    ⟨by decide +kernel, by decide +kernel, by decide +kernel, by decide +kernel, by decide +kernel,
      by decide +kernel⟩
  refine ⟨.insert .embedded ht rfl hi,
    drawsFresh_holding Store.Reached.embedded.sound ht (fun _ => rfl) hi (by decide) [],
    fun i hlive => ?_, rfl, Act.eq_ok_of_isOk (by decide +kernel), fun hconv => ?_⟩
  · rw [show h.reported 0 "/k" = [] from rfl] at hlive
    cases hlive
  · have hstays := (hconv.others foreignRecord (by decide)).mpr
      (show (holding (.embedded .empty) foreignRecord).find? "id-1" = some foreignRecord by decide +kernel)
    have hgone : h'.store.find? "id-1" = none := by decide +kernel
    rw [Store.mem_iff, show foreignRecord.id = "id-1" from rfl, hgone] at hstays
    cases hstays

end Hub

end RouteSync
