import Mathlib.Data.List.Induction
import RouteSync.Proofs.Hub.Sharing

/-!
# Who has bound a route

A route comes to the listener of a key in one of two ways: the subscription of the key makes the listener for
it, or a handler is bound while the listener is the active one of the handler's id (`Step.holds_of`).  The
second way goes by the id and not by the key: the active listener is the one of the latest subscription,
whatever key that was for.  So a handler may come to be served under a key that it does not watch, and the
commands that bring this about are exactly those that `Misbinds` describes (`isolated_append_iff`).
-/

namespace RouteSync

namespace SyncListener

variable {l : SyncListener} {r route : RouteRecord}

theorem mem_bind (h : route ∈ (l.bind r).contexts) : route ∈ l.contexts ∨ route = r := by
  unfold bind at h
  split_ifs at h
  · exact .inl h
  · simpa using h

/-- A listener that has been bound to a route serves its owner. -/
theorem exists_mem_bind (l : SyncListener) (r : RouteRecord) :
    ∃ route ∈ (l.bind r).contexts, route.owner = r.owner := by
  unfold bind
  split_ifs with hbound
  · obtain ⟨route, hmem, hsame⟩ := List.any_eq_true.mp hbound
    rw [Bool.and_eq_true] at hsame
    exact ⟨route, hmem, beq_iff_eq.mp hsame.2⟩
  · exact ⟨r, by simp, rfl⟩

end SyncListener

namespace Wiring

variable {c : ConnectorId} {w w' : Wiring} {cmd : Command} {id key : String} {l : ListenerId}
  {route : RouteRecord}

/-- The listener `l` watches a key and serves a route. -/
def Holds (w : Wiring) (key : String) (l : ListenerId) (route : RouteRecord) : Prop :=
  w.watchers.get? key = some l ∧ ∃ x, w.listeners[l]? = some (.sync x) ∧ route ∈ x.contexts

/-- More listeners do not matter to those that watch. -/
theorem holds_of_append (hw : Wired c w) {more : List Listener} (hl : w.watchers.get? key = some l)
    (hx : ∃ x, (w.listeners ++ more)[l]? = some (.sync x) ∧ route ∈ x.contexts) : w.Holds key l route := by
  obtain ⟨x, hx, hroute⟩ := hx
  obtain ⟨y, hy⟩ := hw.installed key l hl
  rw [List.getElem?_append_left (List.getElem?_eq_some_iff.mp hy).1] at hx
  exact ⟨hl, x, hx, hroute⟩

/-- A route that is bound goes to the active listener of the id, and to no other. -/
theorem holds_of_bindTo {new : RouteRecord} (h : (w.bindTo id new).Holds key l route) :
    w.Holds key l route ∨ route = new ∧ w.active.get? id = some l ∧ w.watchers.get? key = some l ∧
      l < w.listeners.length := by
  unfold bindTo at h
  cases ha : w.active.get? id with
  | none =>
    rw [ha] at h
    exact .inl h
  | some m =>
    simp only [ha] at h
    cases hm : w.listeners[m]? with
    | none =>
      rw [hm] at h
      exact .inl h
    | some y =>
      rw [hm] at h
      cases y with
      | recording name => exact .inl h
      | sync y =>
        obtain ⟨hl, x, hx, hroute⟩ := h
        replace hl : w.watchers.get? key = some l := hl
        replace hx : (w.listeners.set m (.sync (y.bind new)))[l]? = some (.sync x) := hx
        have hlength : m < w.listeners.length := (List.getElem?_eq_some_iff.mp hm).1
        by_cases hml : m = l
        · subst hml
          rw [List.getElem?_set_self hlength] at hx
          cases hx
          rcases SyncListener.mem_bind hroute with hold | rfl
          · exact .inl ⟨hl, y, hm, hold⟩
          · exact .inr ⟨rfl, rfl, hl, hlength⟩
        · rw [List.getElem?_set_ne hml] at hx
          exact .inl ⟨hl, x, hx, hroute⟩

/-- The active listener of an id serves the owner of a route that is bound for this id. -/
theorem exists_holds_bindTo (hw : Wired c w) (new : RouteRecord) (ha : w.active.get? id = some l)
    (hl : w.watchers.get? key = some l) :
    ∃ route, (w.bindTo id new).Holds key l route ∧ route.owner = new.owner := by
  obtain ⟨x, hx⟩ := hw.installed key l hl
  obtain ⟨route, hroute, howner⟩ := x.exists_mem_bind new
  have hbound : w.bindTo id new = { w with listeners := w.listeners.set l (.sync (x.bind new)) } := by
    unfold bindTo
    simp only [ha, hx]
  refine ⟨route, ?_, howner⟩
  rw [hbound]
  exact ⟨hl, x.bind new, List.getElem?_set_self (List.getElem?_eq_some_iff.mp hx).1, hroute⟩

/-- **Where a route comes from**: it was there, the listener is made for it, or it is bound. -/
theorem Step.holds_of (hs : w.Step c cmd w') (hw : Wired c w) (h : w'.Holds key l route) :
    w.Holds key l route ∨
      (∃ handler s, cmd = .subscribe handler s ∧ route = .ofHandler s handler ∧
        l = w.listeners.length ∧ key = w.watchKey handler) ∨
      (∃ handler s, cmd = .bind handler s ∧ route = .ofHandler s handler ∧
        w.active.get? handler.discoveryId = some l ∧ w.watchers.get? key = some l ∧
        l < w.listeners.length) := by
  cases hs with
  | idle => exact .inl h
  | join => exact .inl h
  | leave =>
    obtain ⟨hl, x, hx, hroute⟩ := h
    rw [Wired.listeners_leave] at hx
    exact .inl ⟨(hw.watchers_of_leave hl).1, x, hx, hroute⟩
  | @watch handler s m =>
    obtain ⟨hl, hx⟩ := h
    replace hl : (w.watchers.insert (w.watchKey handler) w.listeners.length).get? key = some l := hl
    rw [Table.get?_insert] at hl
    split_ifs at hl with hkey
    · cases hl
      obtain ⟨x, hx, hroute⟩ := hx
      replace hx : (w.listeners ++ [Listener.sync _])[w.listeners.length]? = some (.sync x) := hx
      rw [List.getElem?_concat_length] at hx
      cases hx
      exact .inr (.inl ⟨handler, s, rfl, List.mem_singleton.mp hroute, rfl, hkey.symm⟩)
    · exact .inl (holds_of_append hw hl hx)
  | unwatch =>
    obtain ⟨hl, hx⟩ := h
    replace hl : (w.watchers.erase _).get? key = some l := hl
    rw [Table.get?_erase] at hl
    split_ifs at hl
    exact .inl ⟨hl, hx⟩
  | build => exact .inl (holds_of_append hw h.1 h.2)
  | adopt => exact .inl h
  | @bind handler s =>
    rcases holds_of_bindTo h with hold | ⟨rfl, ha, hl, hlength⟩
    · exact .inl hold
    · exact .inr (.inr ⟨handler, s, rfl, rfl, ha, hl, hlength⟩)

theorem Step.settings (hs : w.Step c cmd w') : w'.settings = w.settings := by
  cases hs with
  | leave =>
    unfold Wiring.leave
    dsimp only
    split_ifs <;> rfl
  | bind =>
    obtain ⟨ls, he, -⟩ := Wired.bindTo_spec w _ _
    rw [he]
  | _ => rfl

end Wiring

namespace Hub

variable {c : ConnectorId} {h h₀ : Hub} {cmds : List Command} {cmd : Command} {handler : Handler} {s : Selector}
  {key : String} {l : ListenerId} {route : RouteRecord}

/-- The listener that a connector tells about the changes of a key. -/
def watcher (c : ConnectorId) (h : Hub) (key : String) : Option ListenerId :=
  (h.connector c).registry.watchers.get? key

/-- A command binds a handler to the listener `l`. -/
inductive Binds (c : ConnectorId) (h : Hub) (l : ListenerId) (handler : Handler) : Command → Prop
  /-- The subscription makes the listener, which watches the handler's key. -/
  | made {s : Selector} (hnew : l = h.listeners.length)
      (hwatch : (h.after c (.subscribe handler s)).watcher c (h.watchKey handler) = some l) :
      Binds c h l handler (.subscribe handler s)
  /-- The listener is the active one of the handler's id. -/
  | attached {s : Selector} (hactive : h.active.get? handler.discoveryId = some l)
      (hthere : l < h.listeners.length) : Binds c h l handler (.bind handler s)

/-- A command of a run binds a handler to the listener `l`. -/
def BoundBy (c : ConnectorId) (h₀ : Hub) (cmds : List Command) (l : ListenerId) (handler : Handler)
    (cmd : Command) : Prop :=
  ∃ before rest, cmds = before ++ cmd :: rest ∧ (h₀.afterAll c before).Binds c l handler cmd

/-- After a run, every owner that the listener of a key serves is a handler that watches this key and that
a command of the run has bound to the listener. -/
def Isolated (c : ConnectorId) (h₀ : Hub) (cmds : List Command) : Prop :=
  ∀ key l route owner, ((h₀.afterAll c cmds).wiring c).Holds key l route → route.owner = some owner →
    ∃ handler cmd, handler.id = owner ∧ h₀.watchKey handler = key ∧ BoundBy c h₀ cmds l handler cmd

/-- After a run, a command binds a handler to a listener that watches another key than the handler, and that
has not been bound to a handler of this name and of its own key. -/
def Misbinds (c : ConnectorId) (h₀ : Hub) (cmds : List Command) (cmd : Command) : Prop :=
  ∃ handler s key l, cmd = .bind handler s ∧
    (h₀.afterAll c cmds).active.get? handler.discoveryId = some l ∧
    (h₀.afterAll c cmds).watcher c key = some l ∧ h₀.watchKey handler ≠ key ∧
    ∀ other by', other.id = handler.id → BoundBy c h₀ cmds l other by' → h₀.watchKey other ≠ key

/-! ### Along a run -/

theorem afterAll_append_singleton (h₀ : Hub) (cmds : List Command) (cmd : Command) :
    h₀.afterAll c (cmds ++ [cmd]) = (h₀.afterAll c cmds).after c cmd := by
  unfold afterAll
  rw [List.foldl_append, List.foldl_cons, List.foldl_nil]

theorem wired_afterAll (hf : h₀.Fresh c) (cmds : List Command) :
    Wired c ((h₀.afterAll c cmds).wiring c) := by
  have hr : Runs c (fun _ _ => True) h₀ (h₀.afterAll c cmds) := runs_afterAll h₀ fun _ _ _ => trivial
  exact hr.wired hf

/-- The keys of handlers do not change. -/
theorem watchKey_afterAll (hf : h₀.Fresh c) (cmds : List Command) (handler : Handler) :
    (h₀.afterAll c cmds).watchKey handler = h₀.watchKey handler := by
  induction cmds using List.reverseRecOn with
  | nil => rfl
  | append_singleton cmds cmd ih =>
    have hsettings := (Act.step_wiring (wired_afterAll hf cmds) cmd).settings
    rw [afterAll_append_singleton, ← ih]
    exact congrArg (fun d : DiscoverySettings => handler.watchKey d.defaultListenerNode) hsettings

/-- A command of a run is one of the longer run, in the same place. -/
theorem split_append {before rest : List Command} (hsplit : cmds = before ++ cmd :: rest) (last : Command) :
    cmds ++ [last] = before ++ cmd :: (rest ++ [last]) := by
  rw [hsplit, List.append_assoc, List.cons_append]

theorem BoundBy.append (hb : BoundBy c h₀ cmds l handler cmd) (last : Command) :
    BoundBy c h₀ (cmds ++ [last]) l handler cmd := by
  obtain ⟨before, rest, hsplit, hb⟩ := hb
  exact ⟨before, rest ++ [last], split_append hsplit last, hb⟩

theorem boundBy_last (hb : (h₀.afterAll c cmds).Binds c l handler cmd) :
    BoundBy c h₀ (cmds ++ [cmd]) l handler cmd :=
  ⟨cmds, [], rfl, hb⟩

/-- What a run has bound was bound by its last command or before. -/
theorem boundBy_append_iff {last : Command} : BoundBy c h₀ (cmds ++ [last]) l handler cmd ↔
    BoundBy c h₀ cmds l handler cmd ∨ cmd = last ∧ (h₀.afterAll c cmds).Binds c l handler cmd := by
  constructor
  · rintro ⟨before, rest, hsplit, hb⟩
    rcases List.eq_nil_or_concat rest with rfl | ⟨rest, x, rfl⟩
    · obtain ⟨rfl, hlast⟩ := List.append_inj' hsplit rfl
      cases hlast
      exact .inr ⟨rfl, hb⟩
    · have hsplit' : cmds ++ [last] = (before ++ cmd :: rest) ++ [x] := by simpa using hsplit
      obtain ⟨rfl, -⟩ := List.append_inj' hsplit' rfl
      exact .inl ⟨before, rest, rfl, hb⟩
  · rintro (hb | ⟨rfl, hb⟩)
    · exact hb.append last
    · exact boundBy_last hb

/-- A route that the last command of a run has not left as it was, this command has bound. -/
theorem holds_append (hf : h₀.Fresh c) (h : ((h₀.afterAll c (cmds ++ [cmd])).wiring c).Holds key l route) :
    ((h₀.afterAll c cmds).wiring c).Holds key l route ∨
      ∃ handler s, route = .ofHandler s handler ∧ BoundBy c h₀ (cmds ++ [cmd]) l handler cmd ∧
        (h₀.watchKey handler = key ∨ cmd = .bind handler s ∧
          (h₀.afterAll c cmds).active.get? handler.discoveryId = some l ∧
          (h₀.afterAll c cmds).watcher c key = some l) := by
  have hw := wired_afterAll hf cmds
  have hl := h.1
  rw [afterAll_append_singleton] at h hl
  rcases (Act.step_wiring hw cmd).holds_of hw h with hold | ⟨handler, s, rfl, rfl, hnew, hkey⟩ |
    ⟨handler, s, rfl, rfl, ha, hwatch, hthere⟩
  · exact .inl hold
  · have hkey' : h₀.watchKey handler = key := by
      rw [hkey, ← watchKey_afterAll hf cmds]
      rfl
    refine .inr ⟨handler, s, rfl, boundBy_last (.made hnew ?_), .inl hkey'⟩
    rw [watchKey_afterAll hf, hkey']
    exact hl
  · exact .inr ⟨handler, s, rfl, boundBy_last (.attached ha hthere), .inr ⟨rfl, ha, hwatch⟩⟩

/-- **Every route was bound**: by the subscription that made the listener of the key, for this key, or by a
command that binds a handler. -/
theorem boundBy_of_holds (hf : h₀.Fresh c) (cmds : List Command)
    (h : ((h₀.afterAll c cmds).wiring c).Holds key l route) :
    ∃ handler s cmd, route = .ofHandler s handler ∧ BoundBy c h₀ cmds l handler cmd ∧
      (h₀.watchKey handler = key ∨ ∃ s, cmd = .bind handler s) := by
  induction cmds using List.reverseRecOn with
  | nil =>
    obtain ⟨hl, -⟩ := h
    replace hl : (h₀.connector c).registry.watchers.get? key = some l := hl
    rw [hf.unwatched] at hl
    cases hl
  | append_singleton cmds cmd ih =>
    rcases holds_append hf h with hold | ⟨handler, s, hroute, hb, hown⟩
    · obtain ⟨handler, s, by', hroute, hb, hown⟩ := ih hold
      exact ⟨handler, s, by', hroute, hb.append cmd, hown⟩
    · exact ⟨handler, s, cmd, hroute, hb, hown.imp_right fun hbind => ⟨s, hbind.1⟩⟩

theorem isolated_nil (hf : h₀.Fresh c) : Isolated c h₀ [] := by
  intro key l route owner h
  obtain ⟨handler, s, cmd, -, ⟨before, rest, hsplit, -⟩, -⟩ := boundBy_of_holds hf [] h
  cases before <;> cases hsplit

/-- **Keys stay isolated** as long as no command misbinds a handler, and no longer. -/
theorem isolated_append_iff (hf : h₀.Fresh c) (hi : Isolated c h₀ cmds) (cmd : Command) :
    Isolated c h₀ (cmds ++ [cmd]) ↔ ¬ Misbinds c h₀ cmds cmd := by
  have hw := wired_afterAll hf cmds
  constructor
  · rintro hi' ⟨handler, s, key, l, rfl, ha, hl, hne, hnone⟩
    -- the binding succeeds, and only a binding of the same name before could account for it
    obtain ⟨route, hroute, howner⟩ := Wiring.exists_holds_bindTo hw (.ofHandler s handler) ha hl
    rw [← Act.bind_wired, ← afterAll_append_singleton] at hroute
    obtain ⟨other, by', hid, hkey, hb⟩ := hi' key l route handler.id hroute howner
    rcases boundBy_append_iff.mp hb with hb | ⟨rfl, hb⟩
    · exact hnone other by' hid hb hkey
    · cases hb
      exact hne hkey
  · intro hno key l route owner h howner
    rcases holds_append hf h with hold | ⟨handler, s, rfl, hb, hown⟩
    · obtain ⟨handler, by', hid, hkey, hb⟩ := hi key l route owner hold howner
      exact ⟨handler, by', hid, hkey, hb.append cmd⟩
    · have hid : handler.id = owner := Option.some.inj howner
      rcases hown with hkey | ⟨rfl, ha, hwatch⟩
      · exact ⟨handler, cmd, hid, hkey, hb⟩
      · by_cases hkey : h₀.watchKey handler = key
        · exact ⟨handler, _, hid, hkey, hb⟩
        · by_contra hnone
          refine hno ⟨handler, s, key, l, rfl, ha, hwatch, hkey, fun other by' hother hb' hkey' => ?_⟩
          exact hnone ⟨other, by', hother.trans hid, hkey', hb'.append _⟩

/-- **A run that misbinds no handler** keeps its keys isolated. -/
theorem isolated_of_not_misbinds (hf : h₀.Fresh c)
    (hno : ∀ before cmd rest, cmds = before ++ cmd :: rest → ¬ Misbinds c h₀ before cmd) :
    Isolated c h₀ cmds := by
  induction cmds using List.reverseRecOn with
  | nil => exact isolated_nil hf
  | append_singleton cmds cmd ih =>
    have hbefore : Isolated c h₀ cmds :=
      ih fun before x rest hsplit => hno before x (rest ++ [cmd]) (split_append hsplit cmd)
    exact (isolated_append_iff hf hbefore cmd).mpr (hno cmds cmd [] rfl)

end Hub

end RouteSync
