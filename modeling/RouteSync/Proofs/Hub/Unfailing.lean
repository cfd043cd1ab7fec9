import RouteSync.Proofs.Hub.Delivering
import RouteSync.Proofs.Hub.Retrying
import RouteSync.Proofs.Store.Ledger

/-!
# A store in memory is never the reason

A store in memory refuses nothing but an insertion at an address that is taken.  A listener inserts where an update
has just found nothing, and a reconciliation inserts at addresses that differ from one another and from those of
the handler's records (`exists_insertAll`).  So a listener fails at a payload that it cannot read
(`syncChange_eq_error_iff`) and a pass at the registry (`fetchAll_eq_error_iff`), and at nothing else.
-/

namespace RouteSync

/-- An error that another layer than the store has raised. -/
def Error.NotStorage (e : Error) : Prop := ∀ cause, e ≠ .storage cause

namespace Hub

variable {h h' : Hub} {owner url : String}

/-- Errors are grouped by the layer that raises them: calls that are failed from outside have none of the store. -/
def Layered (h : Hub) : Prop := ∀ f ∈ h.faults, f.error.NotStorage

/-- In memory a record stands in the way of another one at its own place only. -/
theorem InMemory.hits_iff (hm : h.InMemory) {r : StoredEndpoint} :
    h.store.Hits owner url r ↔ r.owner = owner ∧ r.url = url := by
  rw [Store.hits_iff_of_inMemory hm.memory, Prod.mk.injEq]

theorem AsBefore.occupied_iff (hb : AsBefore owner url h h') : h'.Occupied owner url ↔ h.Occupied owner url := by
  constructor
  · rintro ⟨r, hr, rfl, rfl⟩
    exact ⟨r, (hb r rfl rfl).mp hr, rfl, rfl⟩
  · rintro ⟨r, hr, rfl, rfl⟩
    exact ⟨r, (hb r rfl rfl).mpr hr, rfl, rfl⟩

end Hub

namespace Act

open Hub

variable {h h' : Hub} {l : SyncListener} {change : RegistryChange} {handler : Handler} {s : Selector}
  {c : ConnectorId} {d owner : String} {e : Error}

/-! ### A change that is told to a listener -/

/-- **A listener fails** at a payload that it cannot read, before it has done anything. -/
theorem syncChange_eq_error_iff (hf : h.Reliable) (hm : h.InMemory) : syncChange l change h = .error e h' ↔
    h' = h ∧ change.kind ≠ .ignored ∧
      ∃ cause, Payload.read l.mapping change.value = .error cause ∧ e = .invalid cause := by
  by_cases hkind : change.kind = .ignored
  · have hnothing : syncChange l change h = .ok () h := by
      unfold syncChange
      rw [if_pos hkind]
      rfl
    simp [hnothing, hkind]
  cases hread : Payload.read l.mapping change.value with
  | error cause =>
    have hrefused : syncChange l change h = .error (.invalid cause) h := by
      unfold syncChange
      rw [if_neg hkind, hread]
      rfl
    rw [hrefused]
    constructor
    · rintro ⟨⟩
      exact ⟨rfl, hkind, cause, rfl, rfl⟩
    · rintro ⟨rfl, -, _, ⟨⟩, rfl⟩
      rfl
  | ok es =>
    have hok : ∃ h₁, syncChange l change h = .ok () h₁ := by
      by_cases hes : es = []
      · refine ⟨h, ?_⟩
        unfold syncChange
        rw [if_neg hkind, hread, hes]
        rfl
      · obtain ⟨h₁, hserve⟩ := exists_serve hkind hf hm.stocked (fun _ _ => hm.accepts _ _ _) (Nat.le_refl _)
        exact ⟨h₁, syncChange_of_ok hkind hread hes hserve⟩
    obtain ⟨h₁, hok⟩ := hok
    simp [hok]

/-! ### A pass -/

/-- **Endpoints are inserted** one after another if their addresses differ and hold nothing of the owner. -/
theorem exists_insertAll {l : List Endpoint} (hf : h.Reliable) (hm : h.InMemory)
    (hfree : ∀ e ∈ l, ¬ h.Occupied owner e.url) (hl : l.Pairwise fun a b => a.url ≠ b.url) :
    ∃ h', insertAll d owner l h = .ok () h' := by
  induction l generalizing h with
  | nil => exact ⟨h, rfl⟩
  | cons e l ih =>
    obtain ⟨hne, hl⟩ := List.pairwise_cons.mp hl
    have hroom : ∀ r ∈ h.store, ¬ h.store.Hits owner e.url r := fun r hr hh =>
      hfree e List.mem_cons_self ⟨r, hr, hm.hits_iff.mp hh⟩
    obtain ⟨h₁, hinsert⟩ := exists_insert hf hm.stocked hroom
    have hwrote := wrote_insert (.inl rfl) hm.stocked (hm.accepts _ owner e) (Nat.le_refl _) hinsert
    have hf₁ : h₁.Reliable := (lasting_reliable.insert owner e).of_ok hf hinsert
    have hm₁ : h₁.InMemory := (preserves_inMemory_insert owner e).of_ok hm hinsert
    -- the record of `e` takes no address of those that are to come
    have hfree₁ : ∀ x ∈ l, ¬ h₁.Occupied owner x.url := by
      intro x hx
      have hbefore : AsBefore owner x.url h h₁ := hwrote.others owner x.url (by simp [latest_single, hne x hx])
      rw [hbefore.occupied_iff]
      exact hfree x (List.mem_cons_of_mem e hx)
    have hstep : (do insert owner e; count (.inserted d) 1 : Act Unit) h =
        .ok () (h₁.count (.inserted d) 1) := bind_of_ok hinsert _
    obtain ⟨h', hrest⟩ := ih (h := h₁.count (.inserted d) 1) hf₁ ⟨hm₁.memory, hm₁.sound, hm₁.fresh⟩ hfree₁ hl
    exact ⟨h', (bind_of_ok hstep _).trans hrest⟩

theorem exists_deleteStale (hf : h.Reliable) (hm : h.InMemory) (ids : List String) :
    ∃ h', deleteStale d ids h = .ok () h' := by
  unfold deleteStale
  split_ifs
  · exact ⟨h, rfl⟩
  · obtain ⟨n, h₁, hdelete⟩ := exists_deleteByIds hf hm.stocked ids
    exact ⟨_, bind_of_ok hdelete _⟩

/-- **A reconciliation succeeds** once the registry has answered. -/
theorem exists_reconcile {live : List Instance} {h₁ : Hub} (hf : h.Reliable) (hm : h.InMemory)
    (hlive : selectInstances c (h.watchKey handler) h = .ok live h₁) :
    ∃ es h', reconcile c handler s h = .ok es h' := by
  let found := candidates live s h.settings.defaultProtocol
  have hf₁ : h₁.Reliable := (lasting_reliable.selectInstances c _).of_ok hf hlive
  have hm₁ : h₁.InMemory := (enduring_inMemory.lasting.selectInstances c _).of_ok hm hlive
  obtain ⟨stored, h₂, hselect⟩ := exists_select hf₁ hm₁.stocked handler.id
  have hf₂ : h₂.Reliable := (lasting_reliable.select _).of_ok hf₁ hselect
  have hm₂ : h₂.InMemory := (enduring_inMemory.lasting.select _).of_ok hm₁ hselect
  let plan := Plan.of stored found
  obtain ⟨h₃, hdelete⟩ := exists_deleteStale (d := handler.discoveryId) hf₂ hm₂ plan.stale
  have hf₃ : h₃.Reliable := (lasting_reliable.deleteStale _ _).of_ok hf₂ hdelete
  have hm₃ : h₃.InMemory := (enduring_inMemory.lasting.deleteStale _ _).of_ok hm₂ hdelete
  -- what the handler has left has been listed, so no insertion is planned at its address
  have hfree : ∀ x ∈ plan.inserts, ¬ h₃.Occupied handler.id x.url := by
    rintro x hx ⟨r, hr, ho, hu⟩
    obtain ⟨hstored, hc₂⟩ := select_eq_ok hselect
    obtain ⟨records, hrecords, hmem⟩ := Store.exists_select hm₁.sound handler.id
    obtain rfl : stored = records := Except.ok.inj (hstored.symm.trans hrecords)
    have hr₂ : r ∈ h₂.store := ((cleared_of_deleteStale hm₂.sound hdelete).mem.mp hr).1
    rw [(contents_eq_iff.mp hc₂).1] at hr₂
    have hlisted : r ∈ stored :=
      (hmem r).mpr ⟨hr₂, (Store.lists_iff_of_inMemory hm₁.memory).mpr ho⟩
    exact (Plan.mem_inserts.mp hx).2 r hlisted hu
  obtain ⟨h₄, hinsert⟩ := exists_insertAll (d := handler.discoveryId) hf₃ hm₃ hfree (Plan.pairwise_inserts live)
  refine ⟨found, h₄, ?_⟩
  unfold reconcile
  rw [get_bind, bind_of_ok hlive]
  dsimp only
  rw [bind_of_ok hselect, bind_of_ok hdelete, bind_of_ok hinsert]
  rfl

/-- **A pass fails** as the registry does. -/
theorem fetchAll_eq_error_iff (hf : h.Reliable) (hm : h.InMemory)
    (hc : h.registrations.connectors.get? handler.discoveryId = some c) :
    fetchAll handler s h = .error e h' ↔ ∃ h₁, selectInstances c (h.watchKey handler) h = .error e h₁ ∧
      h' = h₁.count (.reconcileFailures handler.discoveryId) 1 := by
  cases hlive : selectInstances c (h.watchKey handler) h with
  | ok live h₁ =>
    obtain ⟨es, h₂, hreconcile⟩ := exists_reconcile (s := s) hf hm hlive
    unfold fetchAll
    rw [get_bind, hc]
    dsimp only
    rw [bind_of_ok (attempt_of_ok hreconcile)]
    constructor
    · rintro ⟨⟩
    · rintro ⟨_, ⟨⟩, -⟩
  | error cause h₁ =>
    rw [fetchAll_of_error hc (reconcile_eq_error.mpr (.inl hlive))]
    constructor
    · rintro ⟨⟩
      exact ⟨h₁, rfl, rfl⟩
    · rintro ⟨_, ⟨⟩, rfl⟩
      rfl

theorem keeps_contents_selectInstances (c : ConnectorId) (key : String) :
    Keeps contents (selectInstances c key) :=
  keeps_selectInstances (fun _ _ => keeps_contents_call rfl) c key

/-- Neither the registry inside the process nor a fault has errors of the store. -/
theorem raises_selectInstances_of_layered (c : ConnectorId) (key : String) :
    Raises Layered Error.NotStorage (selectInstances c key) := by
  have hcall : Raises Layered Error.NotStorage (registryCall c (.select key)) := by
    refine raises_bind raises_get fun h => ?_
    split
    · exact raises_call_of_faults (p := Error.NotStorage) _
    · exact raises_pure _
  refine raises_bind hcall fun _ => raises_bind raises_get fun h => ?_
  dsimp only
  split
  · exact raises_pure _
  · exact raises_ofExcept (fun _ _ => nofun) _

end Act

namespace Hub

variable {h : Hub}

/-- **Storage errors are unreachable in memory.**  Whatever store in memory has been reached, and as long as no
call to it is failed from outside: a listener fails exactly if a change is not to be ignored and its payload cannot
be read, and then nothing has changed; a pass over a registered discovery fails exactly if the registry does not
say what is live, with the error of the registry, and then store and outlet are as before.  Neither ever fails
with an error of the store, such as a duplicate, unless a connector has one to offer. -/
theorem storage_errors_unreachable (hstore : h.store.Reached) (hmemory : h.store.isEmbedded = false)
    (hd : h.DrawsFresh) (hf : h.Reliable) :
    (∀ (l : SyncListener) (change : RegistryChange),
      ((∃ e h', Act.syncChange l change h = .error e h') ↔
        change.kind ≠ .ignored ∧ ∃ cause, Payload.read l.mapping change.value = .error cause) ∧
      ∀ e h', Act.syncChange l change h = .error e h' → h' = h ∧ e.NotStorage) ∧
    (∀ (handler : Handler) (s : Selector) (c : ConnectorId),
      h.registrations.connectors.get? handler.discoveryId = some c →
      ((∃ e h', Act.fetchAll handler s h = .error e h') ↔
        ∃ e h', Act.selectInstances c (h.watchKey handler) h = .error e h') ∧
      ∀ e h', Act.fetchAll handler s h = .error e h' → h'.store = h.store ∧ h'.outlet = h.outlet ∧
        ∃ h₁, Act.selectInstances c (h.watchKey handler) h = .error e h₁) ∧
    (h.Layered → ∀ (handler : Handler) (s : Selector) (e : Error) (h' : Hub),
      Act.fetchAll handler s h = .error e h' → e.NotStorage) := by
  have hm : h.InMemory := ⟨hmemory, hstore.sound, hd⟩
  refine ⟨fun l change => ⟨?_, fun e h' hfail => ?_⟩, fun handler s c hc => ⟨?_, fun e h' hfail => ?_⟩,
    fun hlayers handler s e h' hfail => ?_⟩
  · constructor
    · rintro ⟨e, h', hfail⟩
      obtain ⟨-, hkind, cause, hread, -⟩ := (Act.syncChange_eq_error_iff hf hm).mp hfail
      exact ⟨hkind, cause, hread⟩
    · rintro ⟨hkind, cause, hread⟩
      exact ⟨_, h, (Act.syncChange_eq_error_iff hf hm).mpr ⟨rfl, hkind, cause, hread, rfl⟩⟩
  · obtain ⟨rfl, -, cause, -, rfl⟩ := (Act.syncChange_eq_error_iff hf hm).mp hfail
    exact ⟨rfl, fun _ => nofun⟩
  · constructor
    · rintro ⟨e, h', hfail⟩
      obtain ⟨h₁, hlive, -⟩ := (Act.fetchAll_eq_error_iff hf hm hc).mp hfail
      exact ⟨e, h₁, hlive⟩
    · rintro ⟨e, h₁, hlive⟩
      exact ⟨e, _, (Act.fetchAll_eq_error_iff hf hm hc).mpr ⟨h₁, hlive, rfl⟩⟩
  · obtain ⟨h₁, hlive, rfl⟩ := (Act.fetchAll_eq_error_iff hf hm hc).mp hfail
    obtain ⟨hstore₁, -, -, hout⟩ := contents_eq_iff.mp ((Act.keeps_contents_selectInstances _ _).of_error hlive)
    exact ⟨hstore₁, hout, h₁, hlive⟩
  · cases hc : h.registrations.connectors.get? handler.discoveryId with
    | none =>
      unfold Act.fetchAll at hfail
      rw [Act.get_bind, hc] at hfail
      cases hfail
    | some c =>
      obtain ⟨h₁, hlive, -⟩ := (Act.fetchAll_eq_error_iff hf hm hc).mp hfail
      exact (Act.raises_selectInstances_of_layered c _).error h e h₁ hlayers hlive

/-- One discovery over a registry that reports an address twice and another one that is stored already, and one
over a registry that cannot be reached. -/
theorem storage_errors_unreachable_twoDiscoveries :
    let live : List Instance := [⟨"a", 1, 10, 0⟩, ⟨"b", 2, 10, 0⟩, ⟨"b", 2, 20, 0⟩]
    let g := withLive (holding (.memory .empty) staleRecord) live
    let h : Hub := { g with
      connectors := g.connectors ++ [{ probe := some { label := "c0" } }]
      registrations := { connectors := .ofList [("d", 0), ("e", 1)] }
      faults := [⟨"c0.select", .registry (.unreachable "b:2" "refused"), 0, 1⟩] }
    let l : SyncListener := ⟨.plain, [⟨"p", "s1", "one", "n1", some "h", none⟩], "d", "http://"⟩
    let s : Selector := ⟨"s", "s", "p", "ns"⟩
    (∃ h', Act.fetchAll ⟨"h", "d", "/k", "", ""⟩ s h = .ok () h') ∧
      (∃ e h', Act.fetchAll ⟨"h", "e", "/k", "", ""⟩ s h = .error e h' ∧ e.NotStorage ∧ h'.store = h.store) ∧
      (∃ e, Act.syncChange l ⟨"/k", "[", .updated⟩ h = .error e h) ∧
      ∃ h', Act.syncChange l ⟨"/k", "\x7b\"url\":\"a:1\"\x7d", .added⟩ h = .ok () h' := by
  intro live g h l s
  have hi : (Store.memory .empty).insert staleRecord = .ok (holding (.memory .empty) staleRecord) := rfl
  have hstore : h.store.Reached := .insert .memory (fun he => by cases he) rfl hi
  have hd : h.DrawsFresh :=
    drawsFresh_holding Store.Reached.memory.sound (fun he => by cases he) (fun _ => rfl) hi (by decide) live
  have hf : h.Reliable := by
    intro call hcall
    have hname : (JournalEntry.store call).callName = "c0.select" := List.mem_singleton.mp hcall
    cases call <;> simp [JournalEntry.callName, StoreCall.name] at hname
  have hlayers : h.Layered := by
    intro f hf
    obtain rfl := List.mem_singleton.mp hf
    exact fun _ => nofun
  have hsucceeds : ∀ {a : Act Unit}, (¬ ∃ e h', a h = .error e h') → ∃ h', a h = .ok () h' := by
    intro a hno
    cases hr : a h with
    | ok u h' => exact ⟨h', rfl⟩
    | error e h' => exact absurd ⟨e, h', hr⟩ hno
  obtain ⟨htold, hpass, hlayered⟩ := storage_errors_unreachable hstore rfl hd hf
  have hkey : ∀ d, h.watchKey ⟨"h", d, "/k", "", ""⟩ = "/k" := fun d => by
    show (⟨"h", "d", "/k", "", ""⟩ : Handler).watchKey h.settings.defaultListenerNode = "/k"
    decide +kernel
  refine ⟨hsucceeds fun hfail => ?_, ?_, ?_, hsucceeds fun hfail => ?_⟩
  · obtain ⟨e, h₁, hrefused⟩ := (hpass _ s 0 rfl).1.mp hfail
    have hanswer : Act.selectInstances 0 (h.watchKey ⟨"h", "d", "/k", "", ""⟩) h = .ok live h := by
      rw [hkey]
      rfl
    rw [hanswer] at hrefused
    cases hrefused
  · obtain ⟨cause, hrefused⟩ := Act.eq_error_of_not_isOk
      (show (Act.selectInstances 1 "/k").isOk h = false by decide +kernel)
    rw [← hkey "e"] at hrefused
    obtain ⟨e, h', hfail⟩ := (hpass ⟨"h", "e", "/k", "", ""⟩ s 1 rfl).1.mpr ⟨_, _, hrefused⟩
    exact ⟨e, h', hfail, hlayered hlayers _ s e h' hfail, ((hpass _ s 1 rfl).2 e h' hfail).1⟩
  · have hnone : (Payload.read l.mapping "[").toOption = none := by decide +kernel
    cases hread : Payload.read l.mapping "[" with
    | ok es =>
      rw [hread] at hnone
      cases hnone
    | error cause =>
      obtain ⟨e, h', hfail⟩ := (htold l ⟨"/k", "[", .updated⟩).1.mpr ⟨nofun, cause, hread⟩
      obtain ⟨rfl, -⟩ := (htold l _).2 e h' hfail
      exact ⟨e, hfail⟩
  · obtain ⟨-, cause, hread⟩ := (htold l _).1.mp hfail
    have hsome : (Payload.read l.mapping "\x7b\"url\":\"a:1\"\x7d").toOption.isSome = true := by decide +kernel
    rw [hread] at hsome
    cases hsome

end Hub

end RouteSync
