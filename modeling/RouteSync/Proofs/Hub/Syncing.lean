import Mathlib.Data.List.Forall2
import RouteSync.Proofs.Hub.Writing

/-!
# Serving the routes of a listener

A listener takes its routes in order, and publishes each after the endpoints of the change have been written
for its owner (`published_of_serve`).  On a hub whose store fails no call this always succeeds (`exists_serve`).
-/

namespace RouteSync

/-- A route is published with some endpoints. -/
def RouteRecord.Announced (route : RouteRecord) (event : ChangeEvent) : Prop :=
  ∃ now, event = .single .discoveredEndpoint .update (route.withEndpoints now)

namespace Hub

/-- No fault is about a call to the store. -/
def Reliable (h : Hub) : Prop :=
  ∀ call : StoreCall, (JournalEntry.store call).callName ∉ h.faults.map Fault.call

theorem Reliable.of_faultless {h : Hub} (hf : h.faults = []) : h.Reliable := by
  intro call
  rw [hf]
  exact List.not_mem_nil

/-- Every route that has an owner has been published once, in order. -/
def Published (routes : List RouteRecord) (h h' : Hub) : Prop :=
  ∃ events, List.Forall₂ RouteRecord.Announced (routes.filter fun r => r.owner.isSome) events ∧
    h'.outlet = events.foldl Outlet.push h.outlet

variable {h h' h'' : Hub}

theorem Published.refl : Published [] h h := ⟨[], .nil, rfl⟩

theorem Published.append {routes routes' : List RouteRecord} (h₁ : Published routes h h')
    (h₂ : Published routes' h' h'') : Published (routes ++ routes') h h'' := by
  obtain ⟨evs, ha, ho⟩ := h₁
  obtain ⟨evs', ha', ho'⟩ := h₂
  refine ⟨evs ++ evs', ?_, ?_⟩
  · rw [List.filter_append]
    exact List.rel_append ha ha'
  · rw [ho', ho, List.foldl_append]

end Hub

namespace Act

open Hub

variable {h h' : Hub} {kind : ChangeKind} {owner : String} {e : Endpoint} {N : Nat}

/-! ### What is published -/

theorem keeps_outlet_call {entry : JournalEntry} (he : entry.event? = none) : Keeps outlet (call entry) :=
  keeps_call fun h fs => by simp [outlet, he]

theorem beside_outlet : Beside outlet where
  call _ := keeps_outlet_call
  store _ _ _ := rfl

theorem keeps_outlet_applyChange (kind : ChangeKind) (owner : String) (e : Endpoint) :
    Keeps outlet (applyChange kind owner e) :=
  keeps_iff.mpr fun o => preserves_applyChange (fun _ => keeps_iff.mp (beside_outlet.insert owner e) o)
    (fun _ => keeps_iff.mp (beside_outlet.update owner e) o)
    fun _ => keeps_iff.mp (beside_outlet.deleteByUrl owner e.url) o

/-- A route that has an owner is published once. -/
theorem published_of_syncRoute {l : SyncListener} {es : List Endpoint} {route : RouteRecord}
    (hok : syncRoute l kind es route h = .ok () h') : Published [route] h h' := by
  unfold syncRoute at hok
  cases hroute : route.owner with
  | none =>
    rw [hroute] at hok
    obtain ⟨-, rfl⟩ := pure_eq_ok.mp hok
    exact ⟨[], by simp [hroute], rfl⟩
  | some owner =>
    rw [hroute] at hok
    obtain ⟨v, h₁, hwrite, hok⟩ := bind_eq_ok.mp hok
    obtain ⟨now, h₂, hsel, hpub⟩ := bind_eq_ok.mp hok
    have hwritten : Keeps outlet (es.forM fun e => applyChange kind owner (l.stamp route owner e)) :=
      keeps_forM fun e _ => keeps_outlet_applyChange kind owner _
    have ho₁ : h₁.outlet = h.outlet := hwritten.of_ok hwrite
    have ho₂ : h₂.outlet = h₁.outlet := (contents_eq_iff.mp (select_eq_ok hsel).2).2.2.2
    refine ⟨[.single .discoveredEndpoint .update (route.withEndpoints (now.map Endpoint.ofStored))],
      ?_, ?_⟩
    · have hfilter : [route].filter (fun r => r.owner.isSome) = [route] := by simp [hroute]
      rw [hfilter]
      exact .cons ⟨_, rfl⟩ .nil
    · rw [← ho₁, ← ho₂]
      exact congrArg Contents.outlet (publish_eq_ok hpub)

theorem published_of_serve {l : SyncListener} {es : List Endpoint} {routes : List RouteRecord}
    (hok : (routes.forM fun route => syncRoute l kind es route) h = .ok () h') :
    Published routes h h' := by
  induction routes generalizing h with
  | nil =>
    obtain ⟨-, rfl⟩ := pure_eq_ok.mp hok
    exact Published.refl
  | cons route routes ih =>
    obtain ⟨v, h₁, hstep, hrest⟩ := bind_eq_ok.mp hok
    exact (published_of_syncRoute hstep).append (ih hrest)

/-- A change that a listener has taken has been read, and served its routes if it names endpoints. -/
theorem syncChange_eq_ok {l : SyncListener} {change : RegistryChange} (hkind : change.kind ≠ .ignored)
    (hok : syncChange l change h = .ok () h') :
    ∃ es, Payload.read l.mapping change.value = .ok es ∧ (es = [] → h' = h) ∧
      (es ≠ [] → (l.contexts.forM fun route => syncRoute l change.kind es route) h = .ok () h') := by
  unfold syncChange at hok
  rw [if_neg hkind] at hok
  obtain ⟨es, h₁, hread, hok⟩ := bind_eq_ok.mp hok
  rw [ofExcept_eq_ok] at hread
  obtain ⟨hread, rfl⟩ := hread
  refine ⟨es, hread, fun hnil => ?_, fun hne => ?_⟩
  · subst hnil
    exact (pure_eq_ok.mp hok).2.symm
  · rw [if_neg (by simpa using hne)] at hok
    exact hok

/-! ### Without faults -/

theorem call_of_faultless (hf : h.faults = []) (entry : JournalEntry) :
    call entry h = .ok () { h with journal := h.journal ++ [entry] } := by
  unfold call
  rw [hf]
  show EStateM.Result.ok () { h with journal := h.journal ++ [entry], faults := [] } = _
  rw [← hf]

theorem lasting_faultless : Lasting fun h => h.faults = [] := by
  refine lasting_of_call (fun entry _ h hf => ?_) (fun h e _ hf => ?_) (fun _ _ _ hf => hf) fun _ _ _ hf => hf
  · rw [left_of_ok (call_of_faultless hf entry)]
    exact hf
  · obtain ⟨p, j, m, he⟩ := h.publish_eq e
    rw [he]
    exact hf

/-! ### Over a store that fails no call -/

theorem call_of_reliable (hf : h.Reliable) (call : StoreCall) :
    Act.call (.store call) h = .ok () { h with journal := h.journal ++ [.store call] } := by
  unfold Act.call
  dsimp only
  rw [Fault.consult_of_notMem (hf call)]

theorem lasting_reliable : Lasting Reliable := by
  refine lasting_of_call (fun entry _ h hf call => ?_) (fun h e _ hf => ?_) (fun _ _ _ hf => hf) fun _ _ _ hf => hf
  · rw [left_call]
    dsimp only
    rw [Fault.calls_consult]
    exact hf call
  · obtain ⟨p, j, m, he⟩ := h.publish_eq e
    rw [he]
    exact hf

theorem exists_call (hf : h.Reliable) (call : StoreCall) : ∃ h', Act.call (.store call) h = .ok () h' :=
  ⟨_, call_of_reliable hf call⟩

theorem onStore_of_ok {α : Type} {f : Store → Except StorageError (Store × α)} {s : Store} {x : α}
    (hf : f h.store = .ok (s, x)) : onStore f h = .ok x { h with store := s } := by
  unfold onStore
  rw [get_bind, hf]
  rfl

theorem exists_update (hf : h.Reliable) (hs : h.Stocked) (ha : h.Accepts N owner e) :
    ∃ b h', update owner e h = .ok b h' := by
  obtain ⟨h₁, hcall⟩ := exists_call hf (.update owner e.url)
  obtain ⟨hstore, -, hclock, -⟩ := contents_eq_iff.mp (contents_of_call rfl hcall)
  have hcol : h.store.TakesColumns e.columns := fun he => (ha.2 0 (Nat.zero_le N) he).columns
  obtain ⟨s, b, hup, -⟩ := Store.exists_update hs.sound owner e.url hcol h.clock
  rw [← hstore, ← hclock] at hup
  refine ⟨b, { h₁ with store := s }, ?_⟩
  unfold update
  rw [bind_of_ok hcall, get_bind]
  exact onStore_of_ok hup

theorem exists_insert (hf : h.Reliable) (hs : h.Stocked)
    (hfree : ∀ r ∈ h.store, ¬ h.store.Hits owner e.url r) : ∃ h', insert owner e h = .ok () h' := by
  obtain ⟨h₁, hcall⟩ := exists_call hf (.insert owner e.url)
  obtain ⟨hstore, -, -, -⟩ := contents_eq_iff.mp (contents_of_call rfl hcall)
  let r := e.stored (drawnId (h₁.drawn + 1)) owner h₁.clock
  obtain ⟨s, hins⟩ := Store.exists_insert (r := r) hs.sound hfree
  rw [← hstore] at hins
  have hdraw : drawId h₁ = .ok (drawnId (h₁.drawn + 1)) { h₁ with drawn := h₁.drawn + 1 } := rfl
  refine ⟨{ h₁ with drawn := h₁.drawn + 1, store := s }, ?_⟩
  unfold insert
  rw [bind_of_ok hcall, bind_of_ok hdraw, get_bind]
  refine onStore_of_ok (f := fun s => (s.insert r).map fun s => (s, ())) ?_
  show (h₁.store.insert r).map (fun s => (s, ())) = .ok (s, ())
  rw [hins]
  rfl

/-- A call that goes through reaches the store. -/
theorem exists_onStore {α : Type} {f : Store → Except StorageError (Store × α)} {s : Store} {x : α}
    (hf : h.Reliable) (call : StoreCall) (hop : f h.store = .ok (s, x)) :
    ∃ h', (do Act.call (.store call); onStore f : Act α) h = .ok x h' :=
  ⟨_, (bind_of_ok (call_of_reliable hf call) _).trans (onStore_of_ok hop)⟩

theorem exists_deleteByIds (hf : h.Reliable) (hs : h.Stocked) (ids : List String) :
    ∃ n h', deleteByIds ids h = .ok n h' := by
  obtain ⟨s, n, hdel, -⟩ := Store.exists_deleteByIds hs.sound ids
  exact ⟨n, exists_onStore hf _ hdel⟩

theorem exists_deleteByUrl (hf : h.Reliable) (hs : h.Stocked) (owner url : String) :
    ∃ n h', deleteByUrl owner url h = .ok n h' := by
  obtain ⟨s, n, hdel, -⟩ := Store.exists_deleteByUrl hs.sound owner url
  exact ⟨n, exists_onStore hf _ hdel⟩

theorem exists_select (hf : h.Reliable) (hs : h.Stocked) (owner : String) :
    ∃ l h', select owner h = .ok l h' := by
  obtain ⟨h₁, hcall⟩ := exists_call hf (.select owner)
  obtain ⟨hstore, -, -, -⟩ := contents_eq_iff.mp (contents_of_call rfl hcall)
  obtain ⟨l, hsel, -⟩ := Store.exists_select hs.sound owner
  rw [← hstore] at hsel
  refine ⟨l, h₁, ?_⟩
  unfold select
  rw [bind_of_ok hcall, get_bind, hsel]
  rfl

theorem exists_applyChange (kind : ChangeKind) (hf : h.Reliable) (hs : h.Stocked)
    (ha : h.Accepts N owner e) : ∃ h', applyChange kind owner e h = .ok () h' := by
  have upsert : (kind = .added ∨ kind = .updated) →
      ∃ h', (do if !(← update owner e) then insert owner e : Act Unit) h = .ok () h' := by
    intro hup
    obtain ⟨b, h₁, hupdate⟩ := exists_update hf hs ha
    rw [bind_of_ok hupdate]
    cases b with
    | true => exact ⟨h₁, rfl⟩
    | false =>
      obtain ⟨hw, hfree⟩ := wrote_update hup hs ha hupdate
      exact exists_insert ((lasting_reliable.update owner e).of_ok hf hupdate) hw.stocked (hfree rfl)
  cases kind with
  | added => exact upsert (.inl rfl)
  | updated => exact upsert (.inr rfl)
  | deleted =>
    obtain ⟨n, h₁, hdel⟩ := exists_deleteByUrl hf hs owner e.url
    exact ⟨h₁, bind_of_ok hdel _⟩
  | ignored => exact ⟨h, rfl⟩

theorem exists_forM {f : Endpoint → Endpoint} (hkind : kind ≠ .ignored) {es : List Endpoint}
    (hf : h.Reliable) (hs : h.Stocked) (ha : ∀ e ∈ es, h.Accepts N owner (f e))
    (hN : h.drawn + es.length ≤ N) :
    ∃ h', (es.forM fun e => applyChange kind owner (f e)) h = .ok () h' := by
  induction es generalizing h with
  | nil => exact ⟨h, rfl⟩
  | cons e es ih =>
    rw [List.length_cons] at hN
    obtain ⟨h₁, hstep⟩ := exists_applyChange kind hf hs (ha e (by simp))
    have hw := wrote_of_applyChange hkind hs (ha e (by simp)) (by omega) hstep
    have hdrawn := hw.drawn
    rw [List.length_singleton] at hdrawn
    have hf₁ : h₁.Reliable := (lasting_reliable.applyChange kind owner (f e)).of_ok hf hstep
    obtain ⟨h₂, hrest⟩ := ih hf₁ hw.stocked
      (fun x hx => (ha x (by simp [hx])).congr hw.isEmbedded) (by omega)
    exact ⟨h₂, (bind_of_ok hstep _).trans hrest⟩

theorem exists_syncRoute {l : SyncListener} {es : List Endpoint} {route : RouteRecord}
    (hkind : kind ≠ .ignored) (hf : h.Reliable) (hs : h.Stocked)
    (ha : ∀ w ∈ l.writes es route, h.Accepts N w.1 w.2)
    (hN : h.drawn + (l.writes es route).length ≤ N) :
    ∃ h', syncRoute l kind es route h = .ok () h' := by
  unfold syncRoute
  unfold SyncListener.writes at ha hN
  cases hroute : route.owner with
  | none => exact ⟨h, rfl⟩
  | some owner =>
    rw [hroute] at ha hN
    have ha₁ : ∀ e ∈ es, h.Accepts N owner (l.stamp route owner e) := fun e he =>
      ha _ (List.mem_map_of_mem he)
    have hN₁ : h.drawn + es.length ≤ N := by simpa using hN
    obtain ⟨h₁, hwrite⟩ := exists_forM hkind hf hs ha₁ hN₁
    have hw := wrote_of_forM hkind hs ha₁ hN₁ hwrite
    have hf₁ : h₁.Reliable :=
      (preserves_forM fun e _ => lasting_reliable.applyChange kind owner (l.stamp route owner e)).of_ok hf hwrite
    obtain ⟨now, h₂, hsel⟩ := exists_select hf₁ hw.stocked owner
    refine ⟨h₂.publish (.single .discoveredEndpoint .update
      (route.withEndpoints (now.map Endpoint.ofStored))), ?_⟩
    dsimp only
    rw [bind_of_ok hwrite, bind_of_ok hsel]
    rfl

/-- **Serving the routes succeeds** on a hub whose store fails no call. -/
theorem exists_serve {l : SyncListener} {es : List Endpoint} {routes : List RouteRecord}
    (hkind : kind ≠ .ignored) (hf : h.Reliable) (hs : h.Stocked)
    (ha : ∀ w ∈ routes.flatMap (l.writes es), h.Accepts N w.1 w.2)
    (hN : h.drawn + (routes.flatMap (l.writes es)).length ≤ N) :
    ∃ h', (routes.forM fun route => syncRoute l kind es route) h = .ok () h' := by
  induction routes generalizing h with
  | nil => exact ⟨h, rfl⟩
  | cons route routes ih =>
    rw [List.flatMap_cons] at ha hN
    rw [List.length_append] at hN
    have ha₁ : ∀ w ∈ l.writes es route, h.Accepts N w.1 w.2 := fun w hw =>
      ha w (List.mem_append_left _ hw)
    obtain ⟨h₁, hstep⟩ := exists_syncRoute hkind hf hs ha₁ (by omega)
    have hw := wrote_of_syncRoute hkind hs ha₁ (by omega) hstep
    have hdrawn := hw.drawn
    have hf₁ : h₁.Reliable := (lasting_reliable.syncRoute l kind es route).of_ok hf hstep
    obtain ⟨h₂, hrest⟩ := ih hf₁ hw.stocked (fun w hw' =>
      (ha w (List.mem_append_right _ hw')).congr hw.isEmbedded) (by omega)
    exact ⟨h₂, (bind_of_ok hstep _).trans hrest⟩

/-- A listener that can read a change and serve its routes takes it. -/
theorem syncChange_of_ok {l : SyncListener} {change : RegistryChange} {es : List Endpoint}
    (hkind : change.kind ≠ .ignored) (hread : Payload.read l.mapping change.value = .ok es) (hne : es ≠ [])
    (hok : (l.contexts.forM fun route => syncRoute l change.kind es route) h = .ok () h') :
    syncChange l change h = .ok () h' := by
  have hparse : ofExcept .invalid (Payload.read l.mapping change.value) h = .ok es h :=
    ofExcept_eq_ok.mpr ⟨hread, rfl⟩
  unfold syncChange
  rw [if_neg hkind, bind_of_ok hparse, if_neg (by simpa using hne)]
  exact hok

end Act

end RouteSync
