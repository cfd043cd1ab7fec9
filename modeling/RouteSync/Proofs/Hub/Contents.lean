import RouteSync.Hub.Storage
import RouteSync.Proofs.Hub.ActLogic
import RouteSync.Proofs.Store.Contents

/-!
# Store and outlet of a hub

The contents of a hub are its store, what the next record will be stamped with, and what has been
published.  A call to the store that succeeds changes the contents as the operation of the store says; a
call of any other kind does not touch them.
-/

namespace RouteSync

def JournalEntry.event? : JournalEntry → Option ChangeEvent
  | .event e => some e
  | _ => none

/-- What has been published: the events in the journal, or the queue. -/
structure Outlet where
  publisher : Publisher
  events : List ChangeEvent

/-- Publishes one more event. -/
def Outlet.push (o : Outlet) (e : ChangeEvent) : Outlet :=
  match o.publisher with
  | .recording => { o with events := o.events ++ [e] }
  | .queued q => { o with publisher := .queued (q.offer .zero e).1 }

namespace Hub

def outlet (h : Hub) : Outlet := ⟨h.publisher, h.journal.filterMap JournalEntry.event?⟩

structure Contents where
  store : Store
  drawn : Nat
  clock : UInt64
  outlet : Outlet

def contents (h : Hub) : Contents := ⟨h.store, h.drawn, h.clock, h.outlet⟩

theorem contents_eq_iff {h h' : Hub} : h'.contents = h.contents ↔
    h'.store = h.store ∧ h'.drawn = h.drawn ∧ h'.clock = h.clock ∧ h'.outlet = h.outlet := by
  simp [contents]

/-- **Publishing** concerns the publisher, the journal and the counters alone. -/
theorem publish_eq (h : Hub) (e : ChangeEvent) :
    ∃ p j m, h.publish e = { h with publisher := p, journal := j, metrics := m } := by
  unfold publish
  cases h.publisher with
  | recording => exact ⟨.recording, _, h.metrics, rfl⟩
  | queued q => exact ⟨_, h.journal, _, rfl⟩

theorem outlet_publish (h : Hub) (e : ChangeEvent) : (h.publish e).outlet = h.outlet.push e := by
  unfold publish outlet Outlet.push
  cases hp : h.publisher with
  | recording => simp [JournalEntry.event?]
  | queued q =>
    unfold EventQueue.offer
    by_cases hq : q.hasRoom = true <;> simp [hq]

theorem contents_publish (h : Hub) (e : ChangeEvent) :
    (h.publish e).contents = { h.contents with outlet := h.outlet.push e } := by
  have ho := outlet_publish h e
  unfold contents
  obtain ⟨p, j, m, he⟩ := h.publish_eq e
  rw [ho, he]

/-- The id that is drawn as the `n`-th. -/
def drawnId (n : Nat) : String := s!"gen-{n}"

theorem drawnId_inj {m n : Nat} : drawnId m = drawnId n ↔ m = n := by
  show toString "gen-" ++ toString m = toString "gen-" ++ toString n ↔ m = n
  rw [String.append_right_inj, Text.toString_inj]

theorem ne_drawnId {id : String} (h : id.toList.head? ≠ some 'g') (n : Nat) : id ≠ drawnId n := by
  rintro rfl
  have hg : (toString "gen-").toList = ['g', 'e', 'n', '-'] := rfl
  simp [drawnId, hg] at h

/-- No record is stored under an id that is still to be drawn. -/
def DrawsFresh (h : Hub) : Prop := ∀ n, h.drawn < n → h.store.find? (drawnId n) = none

variable {h h' : Hub}

/-- What fills no id leaves the new ones free. -/
theorem DrawsFresh.of_find? (hd : h.DrawsFresh) (hn : h.drawn ≤ h'.drawn)
    (hf : ∀ id, h.store.find? id = none → h'.store.find? id = none) : h'.DrawsFresh := by
  intro n hlt
  have hlt' : h.drawn < n := by omega
  exact hf _ (hd n hlt')

/-- What fills the next id leaves those after it free. -/
theorem DrawsFresh.of_add (hd : h.DrawsFresh) (hn : h'.drawn = h.drawn + 1) {r : StoredEndpoint}
    (hf : ∀ id, h'.store.find? id = if id = drawnId (h.drawn + 1) then some r else h.store.find? id) :
    h'.DrawsFresh := by
  intro n hlt
  rw [hn] at hlt
  have hne : drawnId n ≠ drawnId (h.drawn + 1) := by
    intro he
    have hn' := drawnId_inj.mp he
    omega
  rw [hf, if_neg hne]
  exact hd n (by omega)

/-- An operation that succeeds has replaced the store alone. -/
theorem contents_store_iff {s : Store} : h'.contents = { h.contents with store := s } ↔
    h'.store = s ∧ h'.drawn = h.drawn ∧ h'.clock = h.clock ∧ h'.outlet = h.outlet := by
  simp [contents]

/-- An insertion has also drawn an id. -/
theorem contents_insert_iff {s : Store} :
    h'.contents = { h.contents with store := s, drawn := h.drawn + 1 } ↔
      h'.store = s ∧ h'.drawn = h.drawn + 1 ∧ h'.clock = h.clock ∧ h'.outlet = h.outlet := by
  simp [contents]

end Hub

namespace Act

open Hub

variable {h h' : Hub}

theorem keeps_contents_call {entry : JournalEntry} (he : entry.event? = none) :
    Keeps contents (call entry) :=
  keeps_call fun h fs => by simp [contents, outlet, he]

theorem contents_of_call {entry : JournalEntry} (he : entry.event? = none) {u : Unit}
    (hok : call entry h = .ok u h') : h'.contents = h.contents :=
  (keeps_contents_call he).of_ok hok

theorem keeps_contents_count (c : Counter) (n : Nat) : Keeps contents (count c n) :=
  keeps_modify fun _ => rfl

theorem select_eq_ok {owner : String} {l : List StoredEndpoint} (hok : select owner h = .ok l h') :
    h.store.select owner = .ok l ∧ h'.contents = h.contents := by
  unfold select at hok
  obtain ⟨u, h₁, hcall, hok⟩ := bind_eq_ok.mp hok
  have hc := contents_of_call rfl hcall
  rw [get_bind, ofExcept_eq_ok, (contents_eq_iff.mp hc).1] at hok
  obtain ⟨hl, rfl⟩ := hok
  exact ⟨hl, hc⟩

theorem keeps_contents_select (owner : String) : Keeps contents (select owner) :=
  keeps_bind (keeps_contents_call rfl) fun _ => keeps_bind keeps_get fun _ => keeps_ofExcept _ _

/-- An operation on the store that succeeds replaces the store alone. -/
theorem onStore_eq_ok {α : Type} {f : Store → Except StorageError (Store × α)} {x : α}
    (hok : onStore f h = .ok x h') :
    ∃ s, f h.store = .ok (s, x) ∧ h'.contents = { h.contents with store := s } := by
  unfold onStore at hok
  rw [get_bind] at hok
  obtain ⟨⟨s, y⟩, h₁, hf, hok⟩ := bind_eq_ok.mp hok
  rw [ofExcept_eq_ok] at hf
  obtain ⟨hf, rfl⟩ := hf
  obtain ⟨u, h₂, hm, hok⟩ := bind_eq_ok.mp hok
  obtain ⟨rfl, rfl⟩ := pure_eq_ok.mp hok
  rw [modify_eq_ok] at hm
  subst hm
  exact ⟨s, hf, rfl⟩

/-- An operation on the store that fails leaves the hub as it was. -/
theorem onStore_eq_error {α : Type} {f : Store → Except StorageError (Store × α)} {err : Error}
    (hfail : onStore f h = .error err h') : h' = h := by
  unfold onStore at hfail
  rw [get_bind] at hfail
  rcases bind_eq_error.mp hfail with hfail | ⟨p, h₁, -, hfail⟩
  · exact (ofExcept_eq_error.mp hfail).2.symm
  · -- neither replacing the store nor returning fails
    cases hfail

theorem insert_eq_ok {owner : String} {e : Endpoint} {u : Unit} (hok : insert owner e h = .ok u h') :
    ∃ s, h.store.insert (e.stored (drawnId (h.drawn + 1)) owner h.clock) = .ok s ∧
      h'.contents = { h.contents with store := s, drawn := h.drawn + 1 } := by
  unfold insert at hok
  obtain ⟨v, h₁, hcall, hok⟩ := bind_eq_ok.mp hok
  have hc := contents_of_call rfl hcall
  obtain ⟨id, h₂, hid, hok⟩ := bind_eq_ok.mp hok
  rw [drawId, step_eq_ok] at hid
  obtain ⟨rfl, rfl⟩ := Prod.mk.inj hid
  rw [get_bind] at hok
  obtain ⟨s, hs, hh⟩ := onStore_eq_ok hok
  obtain ⟨h1, h2, h3, -⟩ := contents_eq_iff.mp hc
  refine ⟨s, ?_, ?_⟩
  · simp only [h1, h2, h3] at hs
    obtain ⟨s', hi, hx⟩ := map_eq_ok.mp hs
    rw [← (Prod.mk.inj hx).1]
    exact hi
  · rw [hh, ← h2, ← hc]
    rfl

/-- An insertion that fails may have drawn an id. -/
theorem insert_eq_error {owner : String} {e : Endpoint} {err : Error} (hfail : insert owner e h = .error err h') :
    h'.store = h.store ∧ h.drawn ≤ h'.drawn ∧ h'.clock = h.clock ∧ h'.outlet = h.outlet := by
  unfold insert at hfail
  rcases bind_eq_error.mp hfail with hfail | ⟨v, h₁, hcall, hfail⟩
  · obtain ⟨h1, h2, h3, h4⟩ := contents_eq_iff.mp ((keeps_contents_call rfl).of_error hfail)
    exact ⟨h1, Nat.le_of_eq h2.symm, h3, h4⟩
  · obtain ⟨h1, h2, h3, h4⟩ := contents_eq_iff.mp (contents_of_call rfl hcall)
    rcases bind_eq_error.mp hfail with hfail | ⟨id, h₂, hdraw, hfail⟩
    · cases hfail
    · rw [drawId, step_eq_ok] at hdraw
      obtain ⟨rfl, -⟩ := Prod.mk.inj hdraw
      rw [get_bind] at hfail
      rw [onStore_eq_error hfail]
      exact ⟨h1, Nat.le_succ_of_le (Nat.le_of_eq h2.symm), h3, h4⟩

theorem deleteByIds_eq_ok {ids : List String} {n : Nat} (hok : deleteByIds ids h = .ok n h') :
    ∃ s, h.store.deleteByIds ids = .ok (s, n) ∧ h'.contents = { h.contents with store := s } := by
  unfold deleteByIds at hok
  obtain ⟨v, h₁, hcall, hok⟩ := bind_eq_ok.mp hok
  have hc := contents_of_call rfl hcall
  obtain ⟨s, hs, hh⟩ := onStore_eq_ok hok
  rw [(contents_eq_iff.mp hc).1] at hs
  exact ⟨s, hs, hh.trans (by rw [hc])⟩

/-- A call to the store that fails has changed nothing that counts. -/
theorem deleteByIds_eq_error {ids : List String} {err : Error} (hfail : deleteByIds ids h = .error err h') :
    h'.contents = h.contents := by
  unfold deleteByIds at hfail
  rcases bind_eq_error.mp hfail with hfail | ⟨v, h₁, hcall, hfail⟩
  · exact (keeps_contents_call rfl).of_error hfail
  · rw [onStore_eq_error hfail]
    exact contents_of_call rfl hcall

theorem update_eq_error {owner : String} {e : Endpoint} {err : Error} (hfail : update owner e h = .error err h') :
    h'.contents = h.contents := by
  unfold update at hfail
  rcases bind_eq_error.mp hfail with hfail | ⟨v, h₁, hcall, hfail⟩
  · exact (keeps_contents_call rfl).of_error hfail
  · rw [get_bind] at hfail
    rw [onStore_eq_error hfail]
    exact contents_of_call rfl hcall

theorem deleteByUrl_eq_error {owner url : String} {err : Error} (hfail : deleteByUrl owner url h = .error err h') :
    h'.contents = h.contents := by
  unfold deleteByUrl at hfail
  rcases bind_eq_error.mp hfail with hfail | ⟨v, h₁, hcall, hfail⟩
  · exact (keeps_contents_call rfl).of_error hfail
  · rw [onStore_eq_error hfail]
    exact contents_of_call rfl hcall

theorem update_eq_ok {owner : String} {e : Endpoint} {b : Bool} (hok : update owner e h = .ok b h') :
    ∃ s, h.store.update owner e.url e.columns h.clock = .ok (s, b) ∧
      h'.contents = { h.contents with store := s } := by
  unfold update at hok
  obtain ⟨v, h₁, hcall, hok⟩ := bind_eq_ok.mp hok
  have hc := contents_of_call rfl hcall
  rw [get_bind] at hok
  obtain ⟨s, hs, hh⟩ := onStore_eq_ok hok
  obtain ⟨h1, -, h3, -⟩ := contents_eq_iff.mp hc
  rw [h1, h3] at hs
  exact ⟨s, hs, hh.trans (by rw [hc])⟩

theorem deleteByUrl_eq_ok {owner url : String} {n : Nat} (hok : deleteByUrl owner url h = .ok n h') :
    ∃ s, h.store.deleteByUrl owner url = .ok (s, n) ∧ h'.contents = { h.contents with store := s } := by
  unfold deleteByUrl at hok
  obtain ⟨v, h₁, hcall, hok⟩ := bind_eq_ok.mp hok
  have hc := contents_of_call rfl hcall
  obtain ⟨s, hs, hh⟩ := onStore_eq_ok hok
  rw [(contents_eq_iff.mp hc).1] at hs
  exact ⟨s, hs, hh.trans (by rw [hc])⟩

theorem publish_eq_ok {e : ChangeEvent} {u : Unit} (hok : publish e h = .ok u h') :
    h'.contents = { h.contents with outlet := h.outlet.push e } := by
  rw [publish, modify_eq_ok] at hok
  rw [← hok, contents_publish]

/-! ### What is beside the store -/

/-- Neither calls nor operations of the store concern a part of the hub. -/
structure Beside {σ : Type} (view : Hub → σ) : Prop where
  call : ∀ entry, entry.event? = none → Keeps view (call entry)
  store : ∀ (h : Hub) (s : Store) (n : Nat), view { h with store := s, drawn := n } = view h

namespace Beside

variable {σ : Type} {view : Hub → σ} (hv : Beside view)
include hv

theorem onStore {α : Type} (f : Store → Except StorageError (Store × α)) : Keeps view (onStore f) :=
  keeps_bind keeps_get fun _ => keeps_bind (keeps_ofExcept _ _) fun _ =>
    keeps_bind (keeps_modify fun h => hv.store h _ h.drawn) fun _ => keeps_pure _

theorem select (owner : String) : Keeps view (select owner) :=
  keeps_bind (hv.call _ rfl) fun _ => keeps_bind keeps_get fun _ => keeps_ofExcept _ _

theorem insert (owner : String) (e : Endpoint) : Keeps view (insert owner e) :=
  keeps_bind (hv.call _ rfl) fun _ => keeps_bind (keeps_step fun h => hv.store h h.store _) fun _ =>
    keeps_bind keeps_get fun _ => hv.onStore _

theorem update (owner : String) (e : Endpoint) : Keeps view (update owner e) :=
  keeps_bind (hv.call _ rfl) fun _ => keeps_bind keeps_get fun _ => hv.onStore _

theorem deleteByIds (ids : List String) : Keeps view (deleteByIds ids) :=
  keeps_bind (hv.call _ rfl) fun _ => hv.onStore _

theorem deleteByUrl (owner url : String) : Keeps view (deleteByUrl owner url) :=
  keeps_bind (hv.call _ rfl) fun _ => hv.onStore _

end Beside

end Act

end RouteSync
