import RouteSync.Proofs.Hub.Stock
import RouteSync.Proofs.Hub.Agreement

/-!
# Passes that are repeated

After a pass the addresses of the handler's records are the live ones.  A second pass that is told the same
instances then finds nothing to do: it asks the store for the records once, writes nothing, and publishes what
the first one has published (`fetchAll_idempotent`).
-/

namespace RouteSync

namespace Hub

/-- What a pass publishes when it succeeds; a pass for an id that is not registered publishes nothing. -/
def passEvents (h : Hub) (handler : Handler) (s : Selector) : List ChangeEvent :=
  match h.registrations.connectors.get? handler.discoveryId with
  | none => []
  | some c => [h.announced s (h.reported c (h.watchKey handler))]

/-- Nothing has been written, and the store has been asked for the records of one owner only. -/
structure Untroubled (owner : String) (h h' : Hub) : Prop where
  store : h'.store = h.store
  drawn : h'.drawn = h.drawn
  calls : ∃ calls, h'.storeCalls = h.storeCalls ++ calls ∧ ∀ call ∈ calls, call = .select owner

variable {h h' h₁ : Hub} {handler : Handler} {s : Selector} {c c₁ : ConnectorId} {owner : String}

theorem Untroubled.refl (owner : String) (h : Hub) : Untroubled owner h h where
  store := rfl
  drawn := rfl
  calls := ⟨[], by simp⟩

theorem Untroubled.of_calls (hu : Untroubled owner h h₁) (hs : h'.store = h₁.store) (hd : h'.drawn = h₁.drawn)
    {calls : List StoreCall} (hc : h'.storeCalls = h₁.storeCalls ++ calls)
    (hall : ∀ call ∈ calls, call = .select owner) : Untroubled owner h h' := by
  obtain ⟨before, hbefore, hselects⟩ := hu.calls
  have hcalls : h'.storeCalls = h.storeCalls ++ (before ++ calls) := by
    rw [hc, hbefore, List.append_assoc]
  exact ⟨hs.trans hu.store, hd.trans hu.drawn, before ++ calls, hcalls,
    List.forall_mem_append.mpr ⟨hselects, hall⟩⟩

theorem Untroubled.of_eq (hu : Untroubled owner h h₁) (hs : h'.store = h₁.store) (hd : h'.drawn = h₁.drawn)
    (hc : h'.storeCalls = h₁.storeCalls) : Untroubled owner h h' := by
  have hcalls : h'.storeCalls = h₁.storeCalls ++ [] := by rw [hc, List.append_nil]
  exact hu.of_calls hs hd hcalls (by simp)

/-- Two hubs that report the same to a handler publish the same when a pass succeeds. -/
theorem passEvents_congr (hset : h₁.settings = h.settings)
    (hsame : ∀ live, h₁.Reports handler live ↔ h.Reports handler live) :
    h₁.passEvents handler s = h.passEvents handler s := by
  have hevent : ∀ live, h₁.announced s live = h.announced s live := by
    intro live
    unfold announced
    rw [hset]
  unfold passEvents
  cases hc : h.registrations.connectors.get? handler.discoveryId with
  | none =>
    cases hc₁ : h₁.registrations.connectors.get? handler.discoveryId with
    | none => rfl
    | some c₁ =>
      obtain ⟨c, hreg, -⟩ := (hsame _).mp ⟨c₁, hc₁, rfl⟩
      rw [hc] at hreg
      cases hreg
  | some c =>
    obtain ⟨c₁, hc₁, hreported⟩ := (hsame _).mpr ⟨c, hc, rfl⟩
    rw [hc₁]
    simp only [hreported, hevent]

end Hub

namespace Act

open Hub

variable {h h' h₁ : Hub} {handler : Handler} {s : Selector} {c : ConnectorId} {owner : String}

/-! ### Looking things up -/

theorem preserves_untroubled_registry (label : String) (r : RegistryCall) :
    Preserves (Untroubled owner h) (call (.registry label r)) := by
  intro h₁ hu
  rw [left_call]
  exact hu.of_eq rfl rfl (by simp [storeCalls])

theorem preserves_untroubled_select (owner : String) : Preserves (Untroubled owner h) (select owner) := by
  have hcall : Preserves (Untroubled owner h) (call (.store (.select owner))) := by
    intro h₁ hu
    rw [left_call]
    have hcalls : ({ h₁ with
        journal := h₁.journal ++ [.store (.select owner)],
        faults := (Fault.consult (JournalEntry.store (.select owner)).callName h₁.faults).2 } : Hub).storeCalls =
        h₁.storeCalls ++ [.select owner] := by simp [storeCalls]
    exact hu.of_calls rfl rfl hcalls (by simp)
  exact preserves_bind hcall fun _ => preserves_bind preserves_get fun _ => preserves_ofExcept _ _

theorem preserves_untroubled_inspect (c : ConnectorId) (handler : Handler) (s : Selector) :
    Preserves (Untroubled handler.id h) (inspect c handler s) :=
  preserves_bind preserves_get fun _ =>
    preserves_bind (preserves_selectInstances preserves_untroubled_registry c _) fun _ =>
      preserves_bind (preserves_discard (preserves_untroubled_select _)) fun _ => preserves_pure _

/-- **A pass over the right addresses** leaves everything alone, however it ends. -/
theorem untroubled_of_settled (hs : h.store.Sound)
    (hurls : ∀ c, h.registrations.connectors.get? handler.discoveryId = some c → ∀ u,
      (∃ r ∈ h.store, h.store.lists handler.id r = true ∧ r.url = u) ↔
        ∃ i ∈ h.reported c (h.watchKey handler), i.url = u) :
    Untroubled handler.id h ((fetchAll handler s).left h) := by
  unfold fetchAll
  rw [left_get_bind]
  cases hc : h.registrations.connectors.get? handler.discoveryId with
  | none => exact .refl _ h
  | some c =>
    have hattempt : Untroubled handler.id h ((attempt (reconcile c handler s)).left h) := by
      rw [left_attempt]
      unfold left
      rw [reconcile_of_settled hs (hurls c hc)]
      exact preserves_untroubled_inspect c handler s h (.refl _ h)
    have hcount : ∀ k n, Preserves (Untroubled handler.id h) (count k n) :=
      fun k n => preserves_modify fun h₁ hu => hu.of_eq rfl rfl rfl
    have hpublish : ∀ ev, Preserves (Untroubled handler.id h) (publish ev) := by
      refine fun ev => preserves_modify fun h₁ hu => hu.of_eq ?_ ?_ (storeCalls_publish h₁ ev)
      · exact congrArg Contents.store (contents_publish h₁ ev)
      · exact congrArg Contents.drawn (contents_publish h₁ ev)
    refine left_bind_of hattempt fun o h₁ ho => ?_
    have hu : Untroubled handler.id h h₁ := by
      rw [← left_of_ok ho]
      exact hattempt
    split
    · exact preserves_bind (hcount _ _) (fun _ => preserves_throw _) h₁ hu
    · exact preserves_bind (hcount _ _) (fun _ => hpublish _) h₁ hu

/-! ### What a pass publishes -/

/-- **A pass that succeeds** has published its event, whatever it had to write. -/
theorem outlet_of_fetchAll (hs : h.store.Sound) (hd : h.DrawsFresh)
    (ht : ∀ c, h.registrations.connectors.get? handler.discoveryId = some c →
      h.TakesNew handler s (h.reported c (h.watchKey handler)))
    (hok : fetchAll handler s h = .ok () h') :
    h'.outlet = (h.passEvents handler s).foldl Outlet.push h.outlet := by
  unfold passEvents
  cases hc : h.registrations.connectors.get? handler.discoveryId with
  | none =>
    unfold fetchAll at hok
    rw [get_bind, hc] at hok
    obtain ⟨-, rfl⟩ := pure_eq_ok.mp hok
    rfl
  | some c => exact (passed_of_fetchAll hs hd (ht c hc) hc hok).published

/-- A pass over the right addresses succeeds if both calls that it makes do. -/
theorem isOk_of_settled (hf : h.faults = []) (hs : h.Stocked)
    (hurls : ∀ c, h.registrations.connectors.get? handler.discoveryId = some c → ∀ u,
      (∃ r ∈ h.store, h.store.lists handler.id r = true ∧ r.url = u) ↔
        ∃ i ∈ h.reported c (h.watchKey handler), i.url = u)
    (hlive : ∀ c, h.registrations.connectors.get? handler.discoveryId = some c →
      (selectInstances c (h.watchKey handler)).isOk h = true) :
    (fetchAll handler s).isOk h = true := by
  unfold isOk fetchAll
  rw [get_bind]
  cases hc : h.registrations.connectors.get? handler.discoveryId with
  | none => rfl
  | some c =>
    have hanswer : ∃ live h₁, selectInstances c (h.watchKey handler) h = .ok live h₁ := by
      have hisOk := hlive c hc
      unfold isOk at hisOk
      cases hr : selectInstances c (h.watchKey handler) h with
      | ok live h₁ => exact ⟨live, h₁, rfl⟩
      | error e h₁ => simp [hr] at hisOk
    obtain ⟨live, h₁, hanswer⟩ := hanswer
    obtain ⟨-, hcontents⟩ := selectInstances_eq_ok hanswer
    obtain ⟨hstore, hdrawn, -, -⟩ := contents_eq_iff.mp hcontents
    have hf₁ : h₁.faults = [] := (lasting_faultless.selectInstances c _).of_ok hf hanswer
    have hs₁ : h₁.Stocked := by
      refine ⟨?_, ?_, ?_⟩
      · rw [hstore]
        exact hs.sound
      · unfold DrawsFresh
        rw [hstore, hdrawn]
        exact hs.fresh
      · rw [hstore]
        exact hs.distinct
    obtain ⟨stored, h₂, hsel⟩ := exists_select (.of_faultless hf₁) hs₁ handler.id
    have hinspect : inspect c handler s h = .ok (candidates live s h.settings.defaultProtocol) h₂ := by
      unfold inspect
      rw [get_bind, bind_of_ok hanswer]
      exact bind_of_ok (discard_of_ok hsel) _
    rw [← reconcile_of_settled hs.sound (hurls c hc)] at hinspect
    dsimp only
    rw [bind_of_ok (attempt_of_ok hinspect)]
    rfl

end Act

namespace Hub

variable {h h' h₁ : Hub} {handler : Handler} {s : Selector} {c : ConnectorId}

/-- In memory a selection lists the records of the owner. -/
theorem InMemory.lists_iff (hm : h.InMemory) {owner : String} {r : StoredEndpoint} (hr : r ∈ h.store) :
    h.store.lists owner r = true ↔ r.owner = owner :=
  hm.stocked.lists_iff (hm.distinguishes owner) hr

/-- In memory every pass that succeeds converges. -/
theorem InMemory.converged (hm : h.InMemory)
    (hc : h.registrations.connectors.get? handler.discoveryId = some c)
    (hok : Act.fetchAll handler s h = .ok () h') :
    Converged h h' handler s (h.reported c (h.watchKey handler)) := by
  have hp := passed_of_fetchAll hm.sound hm.fresh (fun i _ n _ => hm.takes _) hc hok
  exact hp.converged_iff.mpr fun r hr hlist ho => absurd ((hm.lists_iff hr).mp hlist) ho

/-- **Reconciliation is idempotent.**  A second pass that is told the same instances finds nothing to do: it
makes no call to the store but the selection of the handler's records, leaves every record as it is, and
publishes what the first one has published.  It succeeds if its two calls do. -/
theorem fetchAll_idempotent (hm : h.InMemory) (hok : Act.fetchAll handler s h = .ok () h')
    (hstore : h₁.store = h'.store) (hdrawn : h₁.drawn = h'.drawn) (hset : h₁.settings = h.settings)
    (hsame : ∀ live, h₁.Reports handler live ↔ h.Reports handler live) :
    h'.outlet = (h.passEvents handler s).foldl Outlet.push h.outlet ∧
      Untroubled handler.id h₁ ((Act.fetchAll handler s).left h₁) ∧
      ((Act.fetchAll handler s).isOk h₁ = true →
        ((Act.fetchAll handler s).left h₁).outlet = (h.passEvents handler s).foldl Outlet.push h₁.outlet) ∧
      (h₁.faults = [] →
        (∀ c, h₁.registrations.connectors.get? handler.discoveryId = some c →
          (Act.selectInstances c (h₁.watchKey handler)).isOk h₁ = true) →
        (Act.fetchAll handler s).isOk h₁ = true) := by
  have hm₁ : h₁.InMemory :=
    Act.enduring_inMemory.congr h' h₁ hstore hdrawn
      ((Act.enduring_inMemory.lasting.fetchAll handler s).of_ok hm hok)
  -- the first pass has made the addresses of the records those that are reported
  have hurls : ∀ c, h₁.registrations.connectors.get? handler.discoveryId = some c → ∀ u,
      (∃ r ∈ h₁.store, h₁.store.lists handler.id r = true ∧ r.url = u) ↔
        ∃ i ∈ h₁.reported c (h₁.watchKey handler), i.url = u := by
    intro c₁ hc₁ u
    obtain ⟨c, hc, hreported⟩ := (hsame _).mp ⟨c₁, hc₁, rfl⟩
    have hconv := hm.converged hc hok
    have howned : (∃ r ∈ h₁.store, h₁.store.lists handler.id r = true ∧ r.url = u) ↔
        ∃ r ∈ h'.store, r.owner = handler.id ∧ r.url = u := by
      rw [← hstore]
      exact exists_congr fun r => and_congr_right fun hr => and_congr_left' (hm₁.lists_iff hr)
    rw [howned, hconv.urls u, hreported]
  refine ⟨Act.outlet_of_fetchAll hm.sound hm.fresh (fun c _ i _ n _ => hm.takes _) hok,
    Act.untroubled_of_settled hm₁.sound hurls, fun hok₁ => ?_, fun hf hlive => ?_⟩
  · rw [← passEvents_congr hset hsame]
    exact Act.outlet_of_fetchAll hm₁.sound hm₁.fresh (fun c _ i _ n _ => hm₁.takes _)
      (Act.eq_ok_of_isOk hok₁)
  · exact Act.isOk_of_settled hf hm₁.stocked hurls hlive

/-- Two passes, the second some time later, over a store with a stale record; one address is reported twice. -/
theorem fetchAll_idempotent_twiceReported :
    let live : List Instance := [⟨"b", 2, 10, 0⟩, ⟨"c", 3, 10, 0⟩, ⟨"b", 2, 20, 0⟩]
    let h := withLive (holding (.memory .empty) staleRecord) live
    let pass := Act.fetchAll ⟨"h", "d", "/k", "", ""⟩ ⟨"s", "s", "p", "ns"⟩
    let h₁ : Hub := { pass.left h with clock := 9 }
    h.InMemory ∧ Untroubled "h" h₁ (pass.left h₁) ∧ (pass.left h₁).store.size = 2 ∧
      (pass.left h₁).outlet = h₁.outlet.push (h.announced ⟨"s", "s", "p", "ns"⟩ live) := by
  intro live h pass h₁
  have hi : (Store.memory .empty).insert staleRecord = .ok (holding (.memory .empty) staleRecord) := rfl
  have hstore : h.store.Reached := .insert .memory (fun he => by cases he) rfl hi
  have hm : h.InMemory := ⟨rfl, hstore.sound,
    drawsFresh_holding Store.Reached.memory.sound (fun he => by cases he) (fun _ => rfl) hi (by decide) live⟩
  have hok : pass h = .ok () (pass.left h) :=
    Act.eq_ok_of_isOk (show pass.isOk h = true by decide +kernel)
  have hevents : h.passEvents ⟨"h", "d", "/k", "", ""⟩ ⟨"s", "s", "p", "ns"⟩ =
      [h.announced ⟨"s", "s", "p", "ns"⟩ live] := rfl
  -- stated for any hub that the first pass may leave, so that nothing has to be computed
  have hsecond : ∀ h' : Hub, pass h = .ok () h' → h'.settings = h.settings →
      (∀ l, h'.Reports ⟨"h", "d", "/k", "", ""⟩ l ↔ h.Reports ⟨"h", "d", "/k", "", ""⟩ l) →
      Untroubled "h" { h' with clock := 9 } (pass.left { h' with clock := 9 }) ∧
        (pass.isOk { h' with clock := 9 } = true →
          (pass.left { h' with clock := 9 }).outlet =
            ({ h' with clock := 9 } : Hub).outlet.push (h.announced ⟨"s", "s", "p", "ns"⟩ live)) := by
    intro h' hok hset hsame
    have hstore : ({ h' with clock := 9 } : Hub).store = h'.store := rfl
    obtain ⟨-, hu, hout, -⟩ := fetchAll_idempotent hm hok hstore rfl hset hsame
    rw [hevents] at hout
    exact ⟨hu, hout⟩
  obtain ⟨hset, hsame⟩ := Act.told_fetchAll ⟨"h", "d", "/k", "", ""⟩ ⟨"s", "s", "p", "ns"⟩ h
  obtain ⟨hu, hout⟩ := hsecond _ hok hset (hsame _)
  exact ⟨hm, hu, by decide +kernel, hout (by decide +kernel)⟩

end Hub

end RouteSync
