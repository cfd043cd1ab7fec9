import RouteSync.Proofs.Hub.Agreement
import RouteSync.Proofs.Hub.Bindings

/-!
# Whose records are touched

Between two hubs that are `Spared` the records of certain owners alone have been touched, and the store is
stocked still.  So it is with every call to the store, whether it succeeds or fails, and hence with a listener
that is told a change and the owners of its routes (`spared_of_syncChange`), however this ends.  A run leaves
the store stocked as long as the store can write down what the commands of the run may write
(`stocked_afterAll`).
-/

namespace RouteSync

/-- What a change names is written for every route that has an owner. -/
theorem SyncListener.mem_writes {l : SyncListener} {es : List Endpoint} {route : RouteRecord} {owner : String}
    {e : Endpoint} (ho : route.owner = some owner) (he : e ∈ es) :
    (owner, l.stamp route owner e) ∈ l.writes es route := by
  unfold writes
  rw [ho]
  exact List.mem_map_of_mem he

namespace Hub

/-- The store is stocked still, and only records of owners in `p` have been touched. -/
structure Spared (p : String → Prop) (h h' : Hub) : Prop where
  stocked : h'.Stocked
  isEmbedded : h'.store.isEmbedded = h.store.isEmbedded
  others : ∀ o, ¬ p o → SameOwned o h h'

/-- Unless more than `N` ids have been drawn, only records of owners in `p` have been touched since `h`. -/
def SparedSince (N : Nat) (p : String → Prop) (h h' : Hub) : Prop := h'.drawn ≤ N → Spared p h h'

variable {h h' h'' : Hub} {p : String → Prop} {kind : ChangeKind} {ws : List (String × Endpoint)}

theorem Spared.of_store (hs : h.Stocked) (hstore : h'.store = h.store) (hd : h.drawn ≤ h'.drawn) :
    Spared p h h' where
  stocked := by
    refine ⟨?_, hs.fresh.of_find? hd fun id hid => ?_, ?_⟩
    · rw [hstore]
      exact hs.sound
    · rw [hstore]
      exact hid
    · rw [hstore]
      exact hs.distinct
  isEmbedded := congrArg Store.isEmbedded hstore
  others _ _ := .of_store hstore

theorem Spared.refl (hs : h.Stocked) : Spared p h h := .of_store hs rfl (Nat.le_refl _)

theorem Spared.trans (h₁ : Spared p h h') (h₂ : Spared p h' h'') : Spared p h h'' where
  stocked := h₂.stocked
  isEmbedded := h₂.isEmbedded.trans h₁.isEmbedded
  others o ho := (h₁.others o ho).trans (h₂.others o ho)

theorem Wrote.spared (hw : Wrote kind ws h h') (hp : ∀ w ∈ ws, p w.1) : Spared p h h' where
  stocked := hw.stocked
  isEmbedded := hw.isEmbedded
  others _ ho := hw.sameOwned fun w hmem he => ho (he ▸ hp w hmem)

end Hub

namespace Act

open Hub

variable {α β : Type} {h h' : Hub} {l : SyncListener} {change : RegistryChange} {owner : String} {e : Endpoint}
  {err : Error} {N : Nat} {p : String → Prop} {c : ConnectorId} {handler : Handler} {s : Selector}

/-- Ids that have been drawn are not given back. -/
theorem enduring_drawn (n : Nat) : Enduring fun h => n ≤ h.drawn := by
  have hcall : ∀ entry, Preserves (fun h => n ≤ h.drawn) (call entry) := by
    intro entry h hh
    rw [left_call]
    exact hh
  have honStore : ∀ {α : Type} (f : Store → Except StorageError (Store × α)),
      Preserves (fun h => n ≤ h.drawn) (onStore f) := fun f =>
    preserves_bind preserves_get fun _ => preserves_bind (preserves_ofExcept _ _) fun _ =>
      preserves_bind (preserves_modify fun _ hh => hh) fun _ => preserves_pure _
  refine ⟨⟨fun entry _ => hcall entry, fun ev _ h hh => ?_, fun _ _ => preserves_modify fun _ hh => hh,
    fun owner e => ?_, fun owner e => ?_, fun ids => ?_, fun owner url => ?_⟩, fun h h' _ hd hh => hd ▸ hh⟩
  · show n ≤ (h.publish ev).drawn
    rw [show (h.publish ev).drawn = h.drawn from congrArg Contents.drawn (contents_publish h ev)]
    exact hh
  · exact preserves_bind (hcall _) fun _ => preserves_bind (preserves_step fun h hh => Nat.le_succ_of_le hh)
      fun _ => preserves_bind preserves_get fun _ => honStore _
  · exact preserves_bind (hcall _) fun _ => preserves_bind preserves_get fun _ => honStore _
  · exact preserves_bind (hcall _) fun _ => honStore _
  · exact preserves_bind (hcall _) fun _ => honStore _

/-! ### Calls to the store -/

theorem keeps_store_call (entry : JournalEntry) : Keeps Hub.store (call entry) := keeps_call fun _ _ => rfl

/-- **A call to the store** touches the records it is for if it does so when it succeeds. -/
theorem spared_of_call {a : Act α} (hs : h.Stocked) (hd : h.drawn ≤ (a.left h).drawn)
    (hok : ∀ x h', a h = .ok x h' → Spared p h h')
    (hfail : ∀ e h', a h = .error e h' → h'.store = h.store) : Spared p h (a.left h) := by
  cases hrun : a h with
  | ok x h' =>
    rw [left_of_ok hrun]
    exact hok x h' hrun
  | error e h' =>
    rw [left_of_error hrun] at hd ⊢
    exact .of_store hs (hfail e h' hrun) hd

theorem spared_insert (hs : h.Stocked) (ha : h.Accepts N owner e)
    (hN : ((insert owner e).left h).drawn ≤ N) (ho : p owner) : Spared p h ((insert owner e).left h) := by
  refine spared_of_call hs ((enduring_drawn _).lasting.insert owner e h (Nat.le_refl _)) (fun u h' hok => ?_)
    fun err h' hfail => ?_
  · obtain ⟨t, -, hc⟩ := insert_eq_ok hok
    rw [left_of_ok hok, show h'.drawn = h.drawn + 1 from congrArg Contents.drawn hc] at hN
    exact (wrote_insert (.inl rfl) hs ha hN hok).spared (List.forall_mem_singleton.mpr ho)
  · exact (insert_eq_error hfail).1

theorem spared_update (hs : h.Stocked) (ha : h.Accepts N owner e) (ho : p owner) :
    Spared p h ((update owner e).left h) := by
  refine spared_of_call hs ((enduring_drawn _).lasting.update owner e h (Nat.le_refl _)) (fun b h' hok => ?_)
    fun err h' hfail => ?_
  · refine (wrote_update (.inl rfl) hs ha hok).1.spared fun w hw => ?_
    split_ifs at hw
    · rw [List.mem_singleton.mp hw]
      exact ho
    · cases hw
  · exact congrArg Contents.store (update_eq_error hfail)

theorem spared_deleteByUrl (hs : h.Stocked) (ha : h.Accepts N owner e) (ho : p owner) :
    Spared p h ((deleteByUrl owner e.url).left h) := by
  refine spared_of_call hs ((enduring_drawn _).lasting.deleteByUrl owner e.url h (Nat.le_refl _))
    (fun n h' hok => ?_) fun err h' hfail => ?_
  · exact (wrote_delete hs ha hok).spared (List.forall_mem_singleton.mpr ho)
  · exact congrArg Contents.store (deleteByUrl_eq_error hfail)

theorem spared_deleteByIds (hs : h.Stocked) (ids : List String) :
    Spared (fun _ => True) h ((deleteByIds ids).left h) := by
  refine spared_of_call hs ((enduring_drawn _).lasting.deleteByIds ids h (Nat.le_refl _)) (fun n h' hok => ?_)
    fun err h' hfail => ?_
  · have hcl := cleared_of_deleteByIds hs.sound hok
    exact ⟨hcl.stocked hs, hcl.isEmbedded, fun _ hno => absurd trivial hno⟩
  · exact congrArg Contents.store (deleteByIds_eq_error hfail)

/-! ### What is made of these calls -/

theorem preserves_sparedSince {a : Act α} (hd : ∀ n, Preserves (fun h => n ≤ h.drawn) a)
    (hstep : ∀ h₁, Spared p h h₁ → (a.left h₁).drawn ≤ N → Spared p h₁ (a.left h₁)) :
    Preserves (SparedSince N p h) a := by
  intro h₁ hh hN
  have hle : h₁.drawn ≤ (a.left h₁).drawn := hd h₁.drawn h₁ (Nat.le_refl _)
  have hs : Spared p h h₁ := hh (Nat.le_trans hle hN)
  exact hs.trans (hstep h₁ hs hN)

theorem preserves_sparedSince_of_keeps {a : Act α} (hstore : Keeps Hub.store a)
    (hd : ∀ n, Preserves (fun h => n ≤ h.drawn) a) : Preserves (SparedSince N p h) a :=
  preserves_sparedSince hd fun h₁ hs _ => .of_store hs.stocked (hstore h₁) (hd _ h₁ (Nat.le_refl _))

theorem lastingFor_sparedSince : LastingFor p (h.Accepts N) (SparedSince N p h) where
  select owner _ := preserves_sparedSince_of_keeps
    (keeps_bind (keeps_store_call _) fun _ => keeps_bind keeps_get fun _ => keeps_ofExcept _ _)
    fun n => (enduring_drawn n).lasting.select owner
  insert owner e ho ha := preserves_sparedSince (fun n => (enduring_drawn n).lasting.insert owner e)
    fun _ hs hN => spared_insert hs.stocked (ha.congr hs.isEmbedded) hN ho
  update owner e ho ha := preserves_sparedSince (fun n => (enduring_drawn n).lasting.update owner e)
    fun _ hs _ => spared_update hs.stocked (ha.congr hs.isEmbedded) ho
  deleteByUrl owner e ho ha := preserves_sparedSince (fun n => (enduring_drawn n).lasting.deleteByUrl owner e.url)
    fun _ hs _ => spared_deleteByUrl hs.stocked (ha.congr hs.isEmbedded) ho
  publish ev hev := preserves_sparedSince_of_keeps
    (keeps_modify fun h => congrArg Contents.store (contents_publish h ev))
    fun n => (enduring_drawn n).lasting.publish ev hev

/-- **A listener** that is told a change touches records of the owners of its routes alone, however this ends. -/
theorem spared_of_syncChange (hs : h.Stocked)
    (hserve : ∀ route ∈ l.contexts, ∀ owner, route.owner = some owner → p owner ∧
      ∀ es, Payload.read l.mapping change.value = .ok es → ∀ e ∈ es, h.Accepts N owner (l.stamp route owner e))
    (hN : ((syncChange l change).left h).drawn ≤ N) : Spared p h ((syncChange l change).left h) :=
  lastingFor_sparedSince.syncChange hserve h (fun _ => .refl hs) hN

/-! ### Passes -/

theorem preserves_sparedSince_call {entry : JournalEntry} (he : entry.event? = none) :
    Preserves (SparedSince N p h) (call entry) :=
  preserves_sparedSince_of_keeps (keeps_store_call entry) fun n => (enduring_drawn n).lasting.call entry he

theorem preserves_sparedSince_count (k : Counter) (m : Nat) : Preserves (SparedSince N p h) (count k m) :=
  preserves_sparedSince_of_keeps (keeps_modify fun _ => rfl) fun n => (enduring_drawn n).lasting.count k m

theorem preserves_sparedSince_deleteStale (d : String) (ids : List String) :
    Preserves (SparedSince N (fun _ => True) h) (deleteStale d ids) := by
  unfold deleteStale
  split_ifs
  · exact preserves_pure _
  · refine preserves_bind (preserves_sparedSince (fun n => (enduring_drawn n).lasting.deleteByIds ids)
      fun _ hs _ => ?_) fun _ => preserves_sparedSince_count _ _
    exact spared_deleteByIds hs.stocked ids

/-- What a reconciliation inserts comes from what the connector reports when it begins. -/
theorem sparedSince_reconcile (hs : h.Stocked)
    (ha : ∀ e ∈ candidates (h.reported c (h.watchKey handler)) s h.settings.defaultProtocol,
      h.Accepts N handler.id e) :
    SparedSince N (fun _ => True) h ((reconcile c handler s).left h) := by
  have hfor : LastingFor (fun _ => True) (h.Accepts N) (SparedSince N (fun _ => True) h) :=
    lastingFor_sparedSince
  have hstart : SparedSince N (fun _ => True) h h := fun _ => .refl hs
  have hselect : Preserves (SparedSince N (fun _ => True) h) (selectInstances c (h.watchKey handler)) :=
    preserves_selectInstances (fun _ _ => preserves_sparedSince_call rfl) c _
  unfold reconcile
  rw [left_get_bind]
  refine left_bind_of (hselect h hstart) fun live h₁ hlive => ?_
  obtain ⟨rfl, -⟩ := selectInstances_eq_ok hlive
  have hinsert : ∀ l : List Endpoint, (∀ e ∈ l, h.Accepts N handler.id e) →
      Preserves (SparedSince N (fun _ => True) h) (insertAll handler.discoveryId handler.id l) := fun l hl =>
    preserves_forM fun e he => preserves_bind (hfor.insert _ e trivial (hl e he)) fun _ =>
      preserves_sparedSince_count _ _
  refine preserves_bind (hfor.select _ trivial) (fun stored => preserves_bind
    (preserves_sparedSince_deleteStale _ _) fun _ => preserves_bind (hinsert _ fun e he => ?_) fun _ =>
      preserves_pure _) h₁ (hselect.of_ok hstart hlive)
  exact ha e (Plan.mem_inserts.mp he).1

/-- **A pass** leaves the store stocked, however it ends. -/
theorem spared_of_fetchAll (hs : h.Stocked)
    (ha : ∀ k, h.registrations.connectors.get? handler.discoveryId = some k →
      ∀ e ∈ candidates (h.reported k (h.watchKey handler)) s h.settings.defaultProtocol,
        h.Accepts N handler.id e)
    (hN : ((fetchAll handler s).left h).drawn ≤ N) :
    Spared (fun _ => True) h ((fetchAll handler s).left h) := by
  suffices hpass : SparedSince N (fun _ => True) h ((fetchAll handler s).left h) from hpass hN
  unfold fetchAll
  rw [left_get_bind]
  cases hk : h.registrations.connectors.get? handler.discoveryId with
  | none => exact fun _ => .refl hs
  | some k =>
    have hattempt : SparedSince N (fun _ => True) h ((attempt (reconcile k handler s)).left h) := by
      rw [left_attempt]
      exact sparedSince_reconcile hs (ha k hk)
    refine left_bind_of hattempt fun o h₁ ho => ?_
    rw [left_of_ok ho] at hattempt
    cases o with
    | error err =>
      exact preserves_bind (preserves_sparedSince_count _ _) (fun _ => preserves_throw _) h₁ hattempt
    | ok live =>
      exact preserves_bind (preserves_sparedSince_count _ _)
        (fun _ => (lastingFor_sparedSince (p := fun _ => True)).publish _ rfl) h₁ hattempt

end Act

namespace Hub

variable {c : ConnectorId} {h h₀ : Hub} {cmds : List Command} {cmd : Command} {change : RegistryChange}
  {N : Nat} {p : String → Prop}

/-! ### Commands -/

/-- What a command may write, with its owner. -/
inductive MayWrite (c : ConnectorId) (h : Hub) : Command → String × Endpoint → Prop
  /-- A change is written for the routes of the listener of its key. -/
  | change {cmd : Command} {change : RegistryChange} {x : SyncListener} {es : List Endpoint}
      {w : String × Endpoint} (hch : h.changeOf c cmd = some change)
      (hx : h.installed c change.key = some x) (hread : Payload.read x.mapping change.value = .ok es)
      (hw : w ∈ x.contexts.flatMap (x.writes es)) : MayWrite c h cmd w
  /-- A pass inserts what the connector reports. -/
  | pass {handler : Handler} {s : Selector} {k : ConnectorId} {e : Endpoint}
      (hk : h.registrations.connectors.get? handler.discoveryId = some k)
      (he : e ∈ candidates (h.reported k (h.watchKey handler)) s h.settings.defaultProtocol) :
      MayWrite c h (.fetch handler s) (handler.id, e)

theorem isChange_of_changeOf (hch : h.changeOf c cmd = some change) : cmd.IsChange := by
  cases cmd with
  | register => trivial
  | deregister => trivial
  | _ => cases hch

theorem holds_of_installed {key : String} {x : SyncListener} {route : RouteRecord}
    (hx : h.installed c key = some x) (hroute : route ∈ x.contexts) :
    ∃ l, (h.wiring c).Holds key l route := by
  obtain ⟨l, hl, hx⟩ := Wiring.installed_eq_some_iff.mp hx
  exact ⟨l, hl, x, hx, hroute⟩

/-- **A change** touches records of the owners alone that the listener of its key serves. -/
theorem spared_of_change (hw : Wired c (h.wiring c)) (hch : h.changeOf c cmd = some change) (hs : h.Stocked)
    (ht : ∀ w, h.MayWrite c cmd w → h.Accepts N w.1 w.2) (hN : (h.after c cmd).drawn ≤ N)
    (hp : ∀ l route owner, (h.wiring c).Holds change.key l route → route.owner = some owner → p owner) :
    Spared p h (h.after c cmd) := by
  obtain ⟨-, h₁, hc₁, -, -, hrun⟩ := told_eq hw (isChange_of_changeOf hch) hch
  obtain ⟨hstore, hdrawn, -, -⟩ := contents_eq_iff.mp hc₁
  have hstart : Spared p h h₁ := .of_store hs hstore (Nat.le_of_eq hdrawn.symm)
  refine hstart.trans ?_
  cases hx : h.installed c change.key with
  | none =>
    rw [hx] at hrun
    rw [after, Act.left_of_ok hrun]
    exact .refl hstart.stocked
  | some x =>
    rw [hx] at hrun
    have hafter : h.after c cmd = (Act.syncChange x change).left h₁ := by
      unfold after Act.left
      rw [hrun]
    rw [hafter] at hN ⊢
    refine Act.spared_of_syncChange hstart.stocked (fun route hroute owner howner => ?_) hN
    obtain ⟨l, hl⟩ := holds_of_installed hx hroute
    refine ⟨hp l route owner hl howner, fun es hread e he => ?_⟩
    have hmay : h.MayWrite c cmd (owner, x.stamp route owner e) :=
      .change hch hx hread (List.mem_flatMap.mpr ⟨route, hroute, SyncListener.mem_writes howner he⟩)
    exact (ht _ hmay).congr hstart.isEmbedded

/-- Administration that tells no listener leaves the store alone. -/
theorem calm_stored (t : Store) (n : Nat) : Act.Calm fun h => h.store = t ∧ h.drawn = n where
  call entry _ h hh := by
    rw [Act.left_call]
    exact hh
  count _ _ _ hh := hh
  connector _ _ _ _ _ hh := hh
  probe _ _ hh := hh
  congr h h' hb hh := ⟨(congrArg Base.store hb).trans hh.1, (congrArg Base.drawn hb).trans hh.2⟩

theorem stored_of_subscribe (hw : Wired c (h.wiring c)) (handler : Handler) (s : Selector) :
    (h.after c (.subscribe handler s)).store = h.store ∧ (h.after c (.subscribe handler s)).drawn = h.drawn := by
  show ((Act.subscribe handler s).left h).store = h.store ∧ ((Act.subscribe handler s).left h).drawn = h.drawn
  by_cases hno : h.registrations.connectors.get? handler.discoveryId = none ∨
      h.registrations.isTracked handler.discoveryId (h.watchKey handler) = true
  · rw [Act.left_of_ok (Act.subscribe_idle s hno)]
    exact ⟨rfl, rfl⟩
  · rw [not_or] at hno
    obtain ⟨k, hid⟩ := Option.ne_none_iff_exists'.mp hno.1
    obtain rfl := hw.served _ _ hid
    cases hread : Mapping.read handler.mapping with
    | error e =>
      rw [Act.left_of_error (Act.subscribe_refused s hid hno.2 hread)]
      exact ⟨rfl, rfl⟩
    | ok m =>
      obtain ⟨h', hok, -, hstored⟩ := Act.subscribe_wired hw s hid hno.2 hread
      rw [Act.left_of_ok hok]
      exact hstored

/-- **A command** leaves the store stocked if the store can write down what the command may write. -/
theorem spared_after (hw : Wired c (h.wiring c)) (hs : h.Stocked)
    (ht : ∀ w, h.MayWrite c cmd w → h.Accepts N w.1 w.2) (hN : (h.after c cmd).drawn ≤ N) :
    Spared (fun _ => True) h (h.after c cmd) := by
  have stored : (h.after c cmd).store = h.store ∧ (h.after c cmd).drawn = h.drawn →
      Spared (fun _ => True) h (h.after c cmd) :=
    fun hstored => .of_store hs hstored.1 (Nat.le_of_eq hstored.2.symm)
  have quiet : cmd.IsQuiet → (h.after c cmd).store = h.store ∧ (h.after c cmd).drawn = h.drawn := by
    refine fun hcmd => (calm_stored h.store h.drawn).act (fun ev g hg => ?_) hcmd h ⟨rfl, rfl⟩
    have hc := contents_publish g ev
    exact ⟨(congrArg Contents.store hc).trans hg.1, (congrArg Contents.drawn hc).trans hg.2⟩
  by_cases hchange : cmd.IsChange
  · cases hch : h.changeOf c cmd with
    | some change => exact spared_of_change hw hch hs ht hN fun _ _ _ _ _ => trivial
    | none =>
      rcases Act.change_eq (c := c) (h := h) hchange with ⟨-, hrun⟩ | ⟨key, kind, i, h₁, hsome, -⟩
      · rw [after, Act.left_of_ok hrun]
        exact .refl hs
      · rw [hch] at hsome
        cases hsome
  · cases cmd with
    | subscribe handler s => exact stored (stored_of_subscribe hw handler s)
    | fetch handler s => exact Act.spared_of_fetchAll hs (fun k hk e he => ht _ (.pass hk he)) hN
    | register key i => exact absurd trivial hchange
    | deregister key host tcpPort => exact absurd trivial hchange
    | _ => exact stored (quiet trivial)

/-! ### Runs -/

/-- The store can write down, under all ids that a run draws, what the commands of the run may write. -/
def TakesRun (c : ConnectorId) (h₀ : Hub) (cmds : List Command) : Prop :=
  ∀ before cmd rest w, cmds = before ++ cmd :: rest → (h₀.afterAll c before).MayWrite c cmd w →
    (h₀.afterAll c before).Accepts (h₀.afterAll c cmds).drawn w.1 w.2

theorem InMemory.takesRun (hm : h₀.InMemory) (cmds : List Command) : h₀.TakesRun c cmds := by
  intro before cmd rest w _ _
  have hr : Runs c (fun _ _ => True) h₀ (h₀.afterAll c before) := runs_afterAll h₀ fun _ _ _ => trivial
  exact (hr.inMemory hm).accepts _ _ _

/-- What need only be asked of the embedded store holds of the one in memory by itself. -/
theorem Stocked.takesRun (hs : h₀.Stocked) (ht : h₀.store.isEmbedded = true → h₀.TakesRun c cmds) :
    h₀.TakesRun c cmds := by
  cases he : h₀.store.isEmbedded with
  | true => exact ht he
  | false => exact InMemory.takesRun ⟨he, hs.sound, hs.fresh⟩ cmds

theorem drawn_le_append (cmds : List Command) (cmd : Command) :
    (h₀.afterAll c cmds).drawn ≤ (h₀.afterAll c (cmds ++ [cmd])).drawn := by
  rw [afterAll_append_singleton]
  exact (Act.enduring_drawn _).act cmd _ (Nat.le_refl _)

/-- **A run** leaves the store stocked. -/
theorem stocked_afterAll (hf : h₀.Fresh c) (hs : h₀.Stocked)
    (ht : ∀ before cmd rest w, cmds = before ++ cmd :: rest → (h₀.afterAll c before).MayWrite c cmd w →
      (h₀.afterAll c before).Accepts N w.1 w.2) (hN : (h₀.afterAll c cmds).drawn ≤ N) :
    (h₀.afterAll c cmds).Stocked := by
  induction cmds using List.reverseRecOn with
  | nil => exact hs
  | append_singleton cmds cmd ih =>
    have hs₁ : (h₀.afterAll c cmds).Stocked :=
      ih (fun before x rest w hsplit => ht before x (rest ++ [cmd]) w (split_append hsplit cmd))
        (Nat.le_trans (drawn_le_append cmds cmd) hN)
    rw [afterAll_append_singleton] at hN ⊢
    exact (spared_after (wired_afterAll hf cmds) hs₁ (ht cmds cmd [] · rfl) hN).stocked

end Hub

end RouteSync
