import RouteSync.Proofs.Hub.Sparing

/-!
# Keys and the handlers behind them

A change of a key makes calls to the store for the owners of the routes that the listener of the key serves,
and for no others (`callsFor_change`); the records of others are untouched, also by a change that fails
halfway (`sameOwned_of_change`).  So which handlers a change can reach is settled by who was bound to the
listener: handlers that watch its key, and those that were bound while it was the active listener of their
id (`reached_handlers_bound`).
-/

namespace RouteSync

/-- The owner for whom a call to the store is made. -/
def StoreCall.owner? : StoreCall → Option String
  | .select owner => some owner
  | .insert owner _ => some owner
  | .deleteByIds _ => none
  | .update owner _ => some owner
  | .deleteByUrl owner _ => some owner

namespace Hub

/-- The calls to the store that have come to those in `base` are for certain owners. -/
def CallsFor (p : String → Prop) (base : List StoreCall) (h : Hub) : Prop :=
  ∃ calls, h.storeCalls = base ++ calls ∧ ∀ call ∈ calls, ∃ owner, call.owner? = some owner ∧ p owner

theorem callsFor_refl (p : String → Prop) (h : Hub) : CallsFor p h.storeCalls h :=
  ⟨[], (List.append_nil _).symm, by simp⟩

end Hub

namespace Act

open Hub

variable {owner : String} {p : String → Prop} {base : List StoreCall}

theorem callsFor_call {call : StoreCall} (ho : call.owner? = some owner) (hp : p owner) :
    Preserves (CallsFor p base) (Act.call (.store call)) := by
  rintro h ⟨calls, hcalls, hall⟩
  refine ⟨calls ++ [call], ?_, ?_⟩
  · rw [left_call, ← List.append_assoc, ← hcalls]
    simp [storeCalls]
  · rw [List.forall_mem_append]
    exact ⟨hall, List.forall_mem_singleton.mpr ⟨owner, ho, hp⟩⟩

theorem callsFor_onStore {α : Type} (f : Store → Except StorageError (Store × α)) :
    Preserves (CallsFor p base) (onStore f) :=
  preserves_bind preserves_get fun _ => preserves_bind (preserves_ofExcept _ _) fun _ =>
    preserves_bind (preserves_modify fun _ hh => hh) fun _ => preserves_pure _

theorem lastingFor_callsFor : LastingFor p (fun _ _ => True) (CallsFor p base) where
  select owner hp := preserves_bind (callsFor_call rfl hp) fun _ => preserves_bind preserves_get fun _ =>
    preserves_ofExcept _ _
  insert owner e hp _ := preserves_bind (callsFor_call rfl hp) fun _ =>
    preserves_bind (preserves_step fun _ hh => hh) fun _ => preserves_bind preserves_get fun _ =>
      callsFor_onStore _
  update owner e hp _ := preserves_bind (callsFor_call rfl hp) fun _ => preserves_bind preserves_get fun _ =>
    callsFor_onStore _
  deleteByUrl owner e hp _ := preserves_bind (callsFor_call rfl hp) fun _ => callsFor_onStore _
  publish ev _ := by
    rintro h ⟨calls, hcalls, hall⟩
    exact ⟨calls, (storeCalls_publish h ev).trans hcalls, hall⟩

end Act

namespace Hub

variable {c : ConnectorId} {h h₀ : Hub} {cmds : List Command} {cmd : Command} {change : RegistryChange}
  {o : String}

/-- A change calls the store for the owners that the listener of its key serves. -/
theorem callsFor_change (hw : Wired c (h.wiring c)) (hch : h.changeOf c cmd = some change) :
    CallsFor (fun owner => ∃ l route, (h.wiring c).Holds change.key l route ∧ route.owner = some owner)
      h.storeCalls (h.after c cmd) := by
  obtain ⟨-, h₁, -, -, hj₁, hrun⟩ := told_eq hw (isChange_of_changeOf hch) hch
  have hcalls : h₁.storeCalls = h.storeCalls := congrArg (List.filterMap _) hj₁
  rw [← hcalls]
  cases hx : h.installed c change.key with
  | none =>
    rw [hx] at hrun
    rw [after, Act.left_of_ok hrun]
    exact callsFor_refl _ h₁
  | some x =>
    rw [hx] at hrun
    have hserved : ∀ route ∈ x.contexts, ∀ owner, route.owner = some owner →
        ∃ l route, (h.wiring c).Holds change.key l route ∧ route.owner = some owner := by
      intro route hroute owner howner
      obtain ⟨l, hl⟩ := holds_of_installed hx hroute
      exact ⟨l, route, hl, howner⟩
    have hafter : CallsFor _ h₁.storeCalls ((Act.syncChange x change).left h₁) :=
      Act.lastingFor_callsFor.syncChange
        (fun route hroute owner howner => ⟨hserved route hroute owner howner, fun _ _ _ _ => trivial⟩)
        h₁ (callsFor_refl _ h₁)
    unfold Act.left at hafter
    rw [after, Act.left, hrun]
    exact hafter

/-- A change at the end of a run leaves the records of an owner alone that the listener of its key does not
serve. -/
theorem sameOwned_of_change (hf : h₀.Fresh c) (hs : h₀.Stocked) (ht : h₀.TakesRun c (cmds ++ [cmd]))
    (hch : (h₀.afterAll c cmds).changeOf c cmd = some change)
    (ho : ∀ l route, ((h₀.afterAll c cmds).wiring c).Holds change.key l route → route.owner ≠ some o) :
    SameOwned o (h₀.afterAll c cmds) ((h₀.afterAll c cmds).after c cmd) := by
  have hlast : ((h₀.afterAll c cmds).after c cmd).drawn ≤ (h₀.afterAll c (cmds ++ [cmd])).drawn :=
    Nat.le_of_eq (congrArg drawn (afterAll_append_singleton h₀ cmds cmd).symm)
  have hstocked : (h₀.afterAll c cmds).Stocked :=
    stocked_afterAll hf hs
      (fun before x rest w hsplit => ht before x (rest ++ [cmd]) w (split_append hsplit cmd))
      (drawn_le_append cmds cmd)
  have hspared : Spared (· ≠ o) (h₀.afterAll c cmds) ((h₀.afterAll c cmds).after c cmd) :=
    spared_of_change (wired_afterAll hf cmds) hch hstocked (ht cmds cmd [] · rfl) hlast
      fun l route owner hroute howner he => ho l route hroute (howner.trans (congrArg some he))
  exact hspared.others o fun hno => hno rfl

/-! ### Whom a change can reach -/

/-- Under a key a run serves a handler of this name.  It was bound to the listener of the key, and it watches
this key unless the run has left keys that are not isolated and it was bound to an active listener. -/
def Reached (c : ConnectorId) (h₀ : Hub) (cmds : List Command) (key owner : String) : Prop :=
  ∃ handler l cmd, handler.id = owner ∧ (h₀.afterAll c cmds).watcher c key = some l ∧
    BoundBy c h₀ cmds l handler cmd ∧
    (h₀.watchKey handler = key ∨ ¬ Isolated c h₀ cmds ∧ ∃ s, cmd = .bind handler s)

theorem reached_of_holds (hf : h₀.Fresh c) {key owner : String} {l : ListenerId} {route : RouteRecord}
    (h : ((h₀.afterAll c cmds).wiring c).Holds key l route) (ho : route.owner = some owner) :
    Reached c h₀ cmds key owner := by
  by_cases hi : Isolated c h₀ cmds
  · obtain ⟨handler, by', hid, hkey, hb⟩ := hi key l route owner h ho
    exact ⟨handler, l, by', hid, h.1, hb, .inl hkey⟩
  · obtain ⟨handler, s, by', rfl, hb, hown⟩ := boundBy_of_holds hf cmds h
    exact ⟨handler, l, by', Option.some.inj ho, h.1, hb, hown.imp_right fun hbind => ⟨hi, hbind⟩⟩

/-- **Whom a change reaches.**  After any run, a change of a key calls the store for handlers alone that a
command of the run has bound to the listener of this key, either a handler that watches the key or one that
was bound while this listener was the active one of its id; the records of all others are as before, however
the change ends.  Keys are isolated, so that the second kind does not occur, after every run that misbinds no
handler, and the first command that does misbind one ends this.  Of the embedded store the records are
untouched if no owner holds a zero character and what is written fits. -/
theorem reached_handlers_bound (hf : h₀.Fresh c) (cmds : List Command) :
    (∀ cmd change, (h₀.afterAll c cmds).changeOf c cmd = some change →
      CallsFor (Reached c h₀ cmds change.key) (h₀.afterAll c cmds).storeCalls
        ((h₀.afterAll c cmds).after c cmd)) ∧
      (∀ cmd change owner, (h₀.afterAll c cmds).changeOf c cmd = some change → h₀.Stocked →
        (h₀.store.isEmbedded = true → h₀.TakesRun c (cmds ++ [cmd])) →
        ¬ Reached c h₀ cmds change.key owner →
        SameOwned owner (h₀.afterAll c cmds) ((h₀.afterAll c cmds).after c cmd)) ∧
      ((∀ before cmd rest, cmds = before ++ cmd :: rest → ¬ Misbinds c h₀ before cmd) →
        Isolated c h₀ cmds) ∧
      (Isolated c h₀ cmds → ∀ cmd, Isolated c h₀ (cmds ++ [cmd]) ↔ ¬ Misbinds c h₀ cmds cmd) := by
  have hw := wired_afterAll hf cmds
  refine ⟨fun cmd change hch => ?_, fun cmd change owner hch hs ht hno => ?_, isolated_of_not_misbinds hf,
    fun hi cmd => isolated_append_iff hf hi cmd⟩
  · obtain ⟨calls, hcalls, hall⟩ := callsFor_change hw hch
    refine ⟨calls, hcalls, fun call hcall => ?_⟩
    obtain ⟨owner, howner, l, route, hroute, ho⟩ := hall call hcall
    exact ⟨owner, howner, reached_of_holds hf hroute ho⟩
  · exact sameOwned_of_change hf hs (hs.takesRun ht) hch fun l route hroute ho =>
      hno (reached_of_holds hf hroute ho)

/-- A handler is bound under the key that the latest subscription of its id is for. -/
def ownKeyed : List Command := [
  .create { id := "d1", registryType := "local" },
  .subscribe { id := "h1", discoveryId := "d1", listenerNode := "/a" } ⟨"s1", "one", "p", "ns"⟩,
  .bind { id := "h2", discoveryId := "d1", listenerNode := "/a" } ⟨"s2", "two", "p", "ns"⟩]

theorem isolated_ownKeyed :
    let h₀ := create {} (.memory .empty)
    let h := h₀.afterAll 0 ownKeyed
    Isolated 0 h₀ ownKeyed ∧ (h.changeOf 0 (.register "/a" ⟨"a", 1, 50, 0⟩)).isSome = true ∧
      SameOwned "h3" h (h.after 0 (.register "/a" ⟨"a", 1, 50, 0⟩)) := by
  intro h₀ h
  obtain ⟨-, hsame, hisolated, -⟩ :=
    reached_handlers_bound (fresh_create {} (.memory .empty)) ownKeyed
  obtain ⟨change, hch⟩ : ∃ change, h.changeOf 0 (.register "/a" ⟨"a", 1, 50, 0⟩) = some change :=
    Option.isSome_iff_exists.mp (by decide +kernel)
  refine ⟨hisolated ?_, by rw [hch]; rfl, hsame _ change "h3" hch (inMemory_create {}).stocked nofun ?_⟩
  · rintro before cmd rest hsplit ⟨handler, s, key, l, rfl, -, hl, hne, -⟩
    -- the only binding is the last command
    rcases before with _ | ⟨b₁, _ | ⟨b₂, _ | ⟨b₃, before⟩⟩⟩
    · cases hsplit
    · cases hsplit
    · cases hsplit
      let h := (create {} (.memory .empty)).afterAll 0 (ownKeyed.take 2)
      have hwatchers : (h.connector 0).registry.watchers.entries = [("/a", 0)] := by decide +kernel
      have hmem : (key, l) ∈ [("/a", 0)] := by
        rw [← hwatchers]
        exact Table.get?_eq_some_iff.mp hl
      obtain ⟨rfl, -⟩ := Prod.mk.inj (List.mem_singleton.mp hmem)
      exact hne (by decide)
    · simp [ownKeyed] at hsplit
  · rintro ⟨handler, l, cmd, hid, -, ⟨before, rest, hsplit, hb⟩, -⟩
    have hmem : cmd ∈ ownKeyed := by simp [hsplit]
    have hids : handler.id = "h1" ∨ handler.id = "h2" := by
      cases hb with
      | made =>
        left
        simp only [ownKeyed, List.mem_cons, List.not_mem_nil, or_false, Command.subscribe.injEq, reduceCtorEq,
          false_or] at hmem
        rw [hmem.1]
      | attached =>
        right
        simp only [ownKeyed, List.mem_cons, List.not_mem_nil, or_false, Command.bind.injEq, reduceCtorEq,
          false_or] at hmem
        rw [hmem.1]
    rw [hid] at hids
    exact absurd hids (by decide)

/-- An id subscribes two keys, and then a handler of the first one is bound. -/
def crossKeyed : List Command := [
  .create { id := "d1", registryType := "local" },
  .subscribe { id := "h1", discoveryId := "d1", listenerNode := "/a" } ⟨"s1", "one", "p", "ns"⟩,
  .subscribe { id := "h2", discoveryId := "d1", listenerNode := "/b" } ⟨"s2", "two", "p", "ns"⟩,
  .bind { id := "h3", discoveryId := "d1", listenerNode := "/a" } ⟨"s3", "three", "p", "ns"⟩]

/-- An instance that is registered under the second key is written for the handler, though nobody has bound
a handler of this name that watches this key. -/
theorem exists_write_across_keys :
    let h₀ := probed (.memory .empty)
    let h := h₀.afterAll 0 crossKeyed
    (h.changeOf 0 (.register "/b" ⟨"a", 1, 50, 0⟩)).map RegistryChange.key = some "/b" ∧
      h.store.find? "gen-2" = none ∧
      ((h.after 0 (.register "/b" ⟨"a", 1, 50, 0⟩)).store.find? "gen-2").map StoredEndpoint.owner =
        some "h3" ∧
      ¬ ∃ handler l cmd, handler.id = "h3" ∧ h.watcher 0 "/b" = some l ∧
        BoundBy 0 h₀ crossKeyed l handler cmd ∧ h₀.watchKey handler = "/b" := by
  refine ⟨by decide +kernel, by decide +kernel, by decide +kernel, ?_⟩
  rintro ⟨handler, l, cmd, hid, -, ⟨before, rest, hsplit, hb⟩, hkey⟩
  have hmem : cmd ∈ crossKeyed := by simp [hsplit]
  cases hb with
  | made =>
    simp only [crossKeyed, List.mem_cons, List.not_mem_nil, or_false, Command.subscribe.injEq, reduceCtorEq,
      false_or] at hmem
    rcases hmem with ⟨rfl, -⟩ | ⟨rfl, -⟩
    · exact absurd hid (by decide)
    · exact absurd hid (by decide)
  | attached =>
    simp only [crossKeyed, List.mem_cons, List.not_mem_nil, or_false, Command.bind.injEq, reduceCtorEq,
      false_or] at hmem
    obtain ⟨rfl, -⟩ := hmem
    exact absurd hkey (by decide)

end Hub

end RouteSync
