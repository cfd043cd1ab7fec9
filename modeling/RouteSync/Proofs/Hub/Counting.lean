import Mathlib.Algebra.BigOperators.Finprod
import RouteSync.Proofs.Dispatching
import RouteSync.Proofs.Hub.Repeating
import RouteSync.Proofs.Hub.Retrying
import RouteSync.Proofs.Store.Size

/-!
# The counters of reconciliation

A pass counts at different moments: what it has deleted after the one deletion, every record after its
insertion, and itself when it is over.  It may fail between any two of these.  The counters add up nevertheless
(`reconcile_counters_add_up`): a record is written and counted or neither, since counting cannot fail and an
operation of the store that fails leaves the store as it was, so the balance of records and counters holds
wherever a pass ends (`Act.inBalance_fetchAll`).  What else moves is said once for every way in which a call can end
(`PassCall.outcome`).
-/

namespace RouteSync

namespace Counter

/-- The counters of the records that passes insert and delete. -/
def isOfRecords : Counter → Bool
  | .inserted _ | .deleted _ => true
  | _ => false

/-- The counters of how passes end. -/
def isOfEnds : Counter → Bool
  | .reconcilePasses _ | .reconcileFailures _ => true
  | _ => false

/-- The counters that passes alone move. -/
def isOfPasses (k : Counter) : Bool := k.isOfEnds || k.isOfRecords

theorem isOfPasses_of_isOfRecords {k : Counter} (h : k.isOfRecords = true) : k.isOfPasses = true := by
  rw [isOfPasses, h, Bool.or_true]

theorem isOfPasses_of_isOfEnds {k : Counter} (h : k.isOfEnds = true) : k.isOfPasses = true := by
  rw [isOfPasses, h, Bool.true_or]

/-- No counter is of both kinds. -/
theorem isOfRecords_of_isOfEnds {k : Counter} (h : k.isOfEnds = true) : k.isOfRecords = false := by
  cases k with
  | inserted d => cases h
  | deleted d => cases h
  | _ => rfl

end Counter

/-! ### Sums over discovery ids -/

namespace Metrics

variable {m m' : Metrics} {kind : String → Counter}

/-- The sum of the counters of one kind over all discovery ids. -/
noncomputable def total (m : Metrics) (kind : String → Counter) : ℕ := ∑ᶠ d, m.count (kind d)

theorem total_congr (h : ∀ d, m'.count (kind d) = m.count (kind d)) : m'.total kind = m.total kind :=
  finsum_congr h

/-- Of the counters finitely many have been touched. -/
theorem finite_support_count (m : Metrics) (hkind : Function.Injective kind) :
    (Function.support fun d => m.count (kind d)).Finite := by
  refine (m.counters.keys.finite_toSet.preimage hkind.injOn).subset fun d hd => ?_
  show kind d ∈ m.counters.keys
  by_contra hno
  rw [← Table.contains_iff, Table.contains, Option.not_isSome_iff_eq_none] at hno
  refine hd ?_
  show (m.counters.get? (kind d)).getD 0 = 0
  rw [hno]
  rfl

theorem total_add (hkind : Function.Injective kind) (d : String) (n : ℕ) :
    (m.add (kind d) n).total kind = m.total kind + n := by
  have hsplit : ∀ d', (m.add (kind d) n).count (kind d') = m.count (kind d') + if d' = d then n else 0 := by
    intro d'
    rw [count_add]
    by_cases hd : d' = d
    · rw [hd, if_pos rfl, if_pos rfl]
    · rw [if_neg fun he => hd (hkind he).symm, if_neg hd, Nat.add_zero]
  have hone : (Function.support fun d' => if d' = d then n else 0).Finite := by
    refine (Set.finite_singleton d).subset fun d' hd => ?_
    by_contra hne
    exact hd (if_neg hne)
  unfold total
  rw [finsum_congr hsplit, finsum_add_distrib (m.finite_support_count hkind) hone,
    finsum_eq_single _ d fun d' hd => if_neg hd, if_pos rfl]

theorem total_add_of_ne {k : Counter} (hk : ∀ d, k ≠ kind d) (n : ℕ) : (m.add k n).total kind = m.total kind :=
  total_congr fun d => by rw [count_add, if_neg (hk d)]

end Metrics

namespace Hub

variable {h₀ h h' : Hub} {k : Counter} {e : ChangeEvent}

/-- The counter that publishing an event moves: a queue counts what it takes in and what it drops. -/
def publishCounter (h : Hub) (e : ChangeEvent) : Option Counter :=
  match h.publisher with
  | .recording => none
  | .queued q => some (q.counter e)

theorem count_publish (h : Hub) (e : ChangeEvent) (k : Counter) :
    (h.publish e).metrics.count k = h.metrics.count k + if h.publishCounter e = some k then 1 else 0 := by
  unfold publish publishCounter
  cases h.publisher with
  | recording => rfl
  | queued q =>
    show (q.offer h.metrics e).2.count k = _
    have hoffer : (q.offer h.metrics e).2 = h.metrics.add (q.counter e) 1 := by
      cases hq : q.hasRoom <;> simp [EventQueue.offer, EventQueue.counter, hq]
    rw [hoffer, Metrics.count_add]
    by_cases hk : q.counter e = k <;> simp [hk]

theorem eq_of_publishCounter (hk : h.publishCounter e = some k) : k = .published e.group e.action ∨ k = .dropped := by
  unfold publishCounter at hk
  split at hk
  · cases hk
  · cases hk
    unfold EventQueue.counter
    split_ifs
    · exact .inl rfl
    · exact .inr rfl

theorem count_publish_of_isOfPasses (hk : k.isOfPasses = true) :
    (h.publish e).metrics.count k = h.metrics.count k := by
  have hother : h.publishCounter e ≠ some k := by
    intro hcounter
    rcases eq_of_publishCounter hcounter with rfl | rfl <;> cases hk
  rw [count_publish, if_neg hother, Nat.add_zero]

/-- No id that is still to be drawn is in use. -/
def DrawsUnused (h : Hub) : Prop := ∀ n, h.drawn < n → h.store.inUse (drawnId n) = false

/-- What has been counted as inserted since `h₀`, less what has been counted as deleted, is what the store has
gained. -/
def AddsUp (h₀ h : Hub) : Prop :=
  ((h.metrics.total .inserted : ℤ) - h₀.metrics.total .inserted) -
    (h.metrics.total .deleted - h₀.metrics.total .deleted) = h.store.size - h₀.store.size

/-- The invariant of passes. -/
structure InBalance (h₀ h : Hub) : Prop where
  addsUp : h₀.AddsUp h
  unused : h.DrawsUnused

theorem DrawsUnused.of_store (hu : h.DrawsUnused) (hs : h'.store = h.store) (hd : h.drawn ≤ h'.drawn) :
    h'.DrawsUnused := by
  intro n hn
  rw [hs]
  exact hu n (Nat.lt_of_le_of_lt hd hn)

theorem InBalance.of_store (hb : InBalance h₀ h) (hs : h'.store = h.store) (hd : h.drawn ≤ h'.drawn)
    (hm : ∀ k : Counter, k.isOfRecords = true → h'.metrics.count k = h.metrics.count k) : InBalance h₀ h' := by
  refine ⟨?_, hb.unused.of_store hs hd⟩
  have hbalance := hb.addsUp
  unfold AddsUp at hbalance ⊢
  rw [Metrics.total_congr fun d => hm (.inserted d) rfl, Metrics.total_congr fun d => hm (.deleted d) rfl, hs]
  exact hbalance

/-- A record that has been inserted and counted. -/
theorem InBalance.inserted {s : Store} {r : StoredEndpoint} {d : String} (hb : InBalance h₀ h)
    (hid : r.id = drawnId (h.drawn + 1)) (hs : h.store.insert r = .ok s) (hstore : h'.store = s)
    (hdrawn : h'.drawn = h.drawn + 1) (hm : h'.metrics = h.metrics.add (.inserted d) 1) : InBalance h₀ h' := by
  have hfree : h.store.inUse r.id = false := hid ▸ hb.unused _ (Nat.lt_succ_self _)
  have hsize := Store.size_insert hs hfree
  refine ⟨?_, fun n hn => ?_⟩
  · have hbalance := hb.addsUp
    have hinserted : h'.metrics.total .inserted = h.metrics.total .inserted + 1 := by
      rw [hm]
      exact Metrics.total_add (fun _ _ => Counter.inserted.inj) d 1
    have hdeleted : h'.metrics.total .deleted = h.metrics.total .deleted := by
      rw [hm]
      exact Metrics.total_add_of_ne (fun _ => Counter.noConfusion) 1
    unfold AddsUp at hbalance ⊢
    rw [hstore]
    omega
  · have hne : drawnId n ≠ r.id := by
      rw [hid]
      intro he
      have := drawnId_inj.mp he
      omega
    rw [hstore, Store.inUse_insert hs hne]
    exact hb.unused n (by omega)

/-- Records that have been deleted and counted. -/
theorem InBalance.deleted {s : Store} {ids : List String} {n : ℕ} {d : String} (hb : InBalance h₀ h)
    (hs : h.store.deleteByIds ids = .ok (s, n)) (hstore : h'.store = s) (hdrawn : h'.drawn = h.drawn)
    (hm : h'.metrics = h.metrics.add (.deleted d) n) : InBalance h₀ h' := by
  have hsize := Store.size_deleteByIds hs
  refine ⟨?_, fun j hj => ?_⟩
  · have hbalance := hb.addsUp
    have hdeleted : h'.metrics.total .deleted = h.metrics.total .deleted + n := by
      rw [hm]
      exact Metrics.total_add (fun _ _ => Counter.deleted.inj) d n
    have hinserted : h'.metrics.total .inserted = h.metrics.total .inserted := by
      rw [hm]
      exact Metrics.total_add_of_ne (fun _ => Counter.noConfusion) n
    unfold AddsUp at hbalance ⊢
    rw [hstore]
    omega
  · rw [hstore]
    exact Store.inUse_deleteByIds hs (hb.unused j (hdrawn ▸ hj))

end Hub

namespace Act

open Hub

variable {h₀ h h' : Hub} {c : ConnectorId} {handler : Handler} {s : Selector} {k : Counter}

/-! ### Records and their counters -/

theorem beside_metrics : Beside Hub.metrics where
  call _ _ := keeps_call fun _ _ => rfl
  store _ _ _ := rfl

theorem inBalance_call (entry : JournalEntry) : Preserves (InBalance h₀) (call entry) := by
  intro h hb
  rw [left_call]
  exact hb.of_store rfl (Nat.le_refl _) fun _ _ => rfl

theorem inBalance_count (hk : k.isOfRecords = false) (n : ℕ) : Preserves (InBalance h₀) (count k n) := by
  refine preserves_modify fun h hb => hb.of_store rfl (Nat.le_refl _) fun k' hk' => ?_
  have hne : k ≠ k' := by
    rintro rfl
    rw [hk] at hk'
    cases hk'
  exact (Metrics.count_add h.metrics k k' n).trans (if_neg hne)

theorem inBalance_publish (e : ChangeEvent) : Preserves (InBalance h₀) (publish e) := by
  refine preserves_modify fun h hb => ?_
  have hcontents := contents_publish h e
  exact hb.of_store (congrArg Contents.store hcontents) (Nat.le_of_eq (congrArg Contents.drawn hcontents).symm)
    fun k hk => count_publish_of_isOfPasses (Counter.isOfPasses_of_isOfRecords hk)

/-- **A deletion** that succeeds is counted, and one that fails has deleted nothing. -/
theorem inBalance_deleteStale (d : String) (ids : List String) : Preserves (InBalance h₀) (deleteStale d ids) := by
  intro h hb
  unfold deleteStale
  split_ifs
  · exact hb
  cases hr : deleteByIds ids h with
  | error e h₁ =>
    obtain ⟨hstore, hdrawn, -, -⟩ := contents_eq_iff.mp (deleteByIds_eq_error hr)
    have hmetrics := (beside_metrics.deleteByIds ids).of_error hr
    rw [left_of_error (bind_of_error hr _)]
    exact hb.of_store hstore (Nat.le_of_eq hdrawn.symm) fun k _ => by rw [hmetrics]
  | ok n h₁ =>
    obtain ⟨t, ht, hcontents⟩ := deleteByIds_eq_ok hr
    obtain ⟨hstore, hdrawn, -, -⟩ := contents_store_iff.mp hcontents
    have hmetrics := (beside_metrics.deleteByIds ids).of_ok hr
    have hcounted : ((deleteByIds ids >>= fun n => count (.deleted d) n).left h) = h₁.count (.deleted d) n := by
      unfold left
      rw [bind_of_ok hr]
      rfl
    rw [hcounted]
    exact hb.deleted ht hstore hdrawn (congrArg (Metrics.add · (.deleted d) n) hmetrics)

/-- **An insertion** that succeeds is counted, and one that fails has inserted nothing. -/
theorem inBalance_insert (d owner : String) (e : Endpoint) :
    Preserves (InBalance h₀) (do insert owner e; count (.inserted d) 1) := by
  intro h hb
  cases hr : insert owner e h with
  | error err h₁ =>
    obtain ⟨hstore, hdrawn, -, -⟩ := insert_eq_error hr
    have hmetrics := (beside_metrics.insert owner e).of_error hr
    rw [left_of_error (bind_of_error hr _)]
    exact hb.of_store hstore hdrawn fun k _ => by rw [hmetrics]
  | ok u h₁ =>
    obtain ⟨t, ht, hcontents⟩ := insert_eq_ok hr
    obtain ⟨hstore, hdrawn, -, -⟩ := contents_insert_iff.mp hcontents
    have hmetrics := (beside_metrics.insert owner e).of_ok hr
    have hcounted : ((do insert owner e; count (.inserted d) 1 : Act Unit).left h) = h₁.count (.inserted d) 1 := by
      unfold left
      rw [bind_of_ok hr]
      rfl
    rw [hcounted]
    exact hb.inserted rfl ht hstore hdrawn (congrArg (Metrics.add · (.inserted d) 1) hmetrics)

theorem inBalance_reconcile (c : ConnectorId) (handler : Handler) (s : Selector) :
    Preserves (InBalance h₀) (reconcile c handler s) := by
  have hselect : ∀ owner, Preserves (InBalance h₀) (select owner) := fun owner =>
    preserves_bind (inBalance_call _) fun _ => preserves_bind preserves_get fun _ => preserves_ofExcept _ _
  exact preserves_bind preserves_get fun _ =>
    preserves_bind (preserves_selectInstances (fun _ _ => inBalance_call _) c _) fun _ =>
      preserves_bind (hselect _) fun _ => preserves_bind (inBalance_deleteStale _ _) fun _ =>
      preserves_bind (preserves_forM fun e _ => inBalance_insert _ _ e) fun _ => preserves_pure _

/-- **A pass** keeps records and counters in balance wherever it ends. -/
theorem inBalance_fetchAll (handler : Handler) (s : Selector) : Preserves (InBalance h₀) (fetchAll handler s) := by
  refine preserves_bind preserves_get fun h => ?_
  split
  · exact preserves_pure _
  · refine preserves_bind (preserves_attempt (inBalance_reconcile _ handler s)) fun o => ?_
    split
    · exact preserves_bind (inBalance_count rfl 1) fun _ => preserves_throw _
    · exact preserves_bind (inBalance_count rfl 1) fun _ => inBalance_publish _

/-! ### What else a pass moves -/

/-- What is beside the store and does not count records is as before when a reconciliation ends. -/
theorem keeps_reconcile {σ : Type} {view : Hub → σ} (hv : Beside view)
    (hcount : ∀ (h : Hub) (k : Counter) (n : ℕ), k.isOfRecords = true → view (h.count k n) = view h)
    (c : ConnectorId) (handler : Handler) (s : Selector) : Keeps view (reconcile c handler s) := by
  have hdelete : ∀ d ids, Keeps view (deleteStale d ids) := by
    intro d ids
    unfold deleteStale
    split_ifs
    · exact keeps_pure _
    · exact keeps_bind (hv.deleteByIds ids) fun n => keeps_modify fun h => hcount h _ n rfl
  exact keeps_bind keeps_get fun _ => keeps_bind (keeps_selectInstances (fun _ _ => hv.call _ rfl) c _) fun _ =>
    keeps_bind (hv.select _) fun _ => keeps_bind (hdelete _ _) fun _ =>
      keeps_bind (keeps_forM fun e _ => keeps_bind (hv.insert _ e) fun _ => keeps_modify fun h => hcount h _ 1 rfl)
        fun _ => keeps_pure _

/-- Reconciliation itself publishes nothing and moves no counters but those of records. -/
structure Reconciled (h h₁ : Hub) : Prop where
  outlet : h₁.outlet = h.outlet
  count : ∀ k : Counter, k.isOfRecords = false → h₁.metrics.count k = h.metrics.count k

theorem reconciled_left (c : ConnectorId) (handler : Handler) (s : Selector) (h : Hub) :
    Reconciled h ((reconcile c handler s).left h) where
  outlet := keeps_reconcile beside_outlet (fun _ _ _ _ => rfl) c handler s h
  count k hk := by
    have hv : Beside fun h => h.metrics.count k :=
      ⟨fun _ _ => keeps_call fun _ _ => rfl, fun _ _ _ => rfl⟩
    refine keeps_reconcile hv (fun h k' n hk' => ?_) c handler s h
    have hne : k' ≠ k := by
      rintro rfl
      rw [hk] at hk'
      cases hk'
    exact (Metrics.count_add h.metrics k' k n).trans (if_neg hne)

theorem Reconciled.count_ending {h₁ : Hub} {k' : Counter} (hr : Reconciled h h₁) (hk : k.isOfEnds = true) :
    (h₁.count k' 1).metrics.count k = h.metrics.count k + if k' = k then 1 else 0 := by
  have hadd := Metrics.count_add h₁.metrics k' k 1
  rw [hr.count k (Counter.isOfRecords_of_isOfEnds hk)] at hadd
  refine hadd.trans ?_
  split_ifs <;> rfl

theorem Reconciled.count_of_others {h₁ : Hub} {k' : Counter} (hr : Reconciled h h₁) (hk' : k'.isOfEnds = true)
    (k : Counter) (hk : k.isOfPasses = false) : (h₁.count k' 1).metrics.count k = h.metrics.count k := by
  have hne : k' ≠ k := by
    rintro rfl
    rw [Counter.isOfPasses_of_isOfEnds hk'] at hk
    cases hk
  have hrecords : k.isOfRecords = false := (Bool.or_eq_false_iff.mp hk).2
  exact (Metrics.count_add h₁.metrics k' k 1).trans ((if_neg hne).trans (hr.count k hrecords))

/-- A reconciliation that succeeds gives the candidates that are reported. -/
theorem candidates_of_reconcile {l : List Endpoint} (hok : reconcile c handler s h = .ok l h') :
    l = candidates (h.reported c (h.watchKey handler)) s h.settings.defaultProtocol := by
  unfold reconcile at hok
  rw [get_bind] at hok
  obtain ⟨live, h₁, hlive, hok⟩ := bind_eq_ok.mp hok
  obtain ⟨rfl, -⟩ := selectInstances_eq_ok hlive
  obtain ⟨stored, h₂, -, hok⟩ := bind_eq_ok.mp hok
  obtain ⟨u, h₃, -, hok⟩ := bind_eq_ok.mp hok
  obtain ⟨v, h₄, -, hok⟩ := bind_eq_ok.mp hok
  exact (pure_eq_ok.mp hok).1.symm

/-- **A pass ends in three ways.**  Its id is unknown, and nothing happens; or its reconciliation succeeds, the
pass is counted, and its event published; or its reconciliation fails, and the failure is counted. -/
theorem fetchAll_cases (handler : Handler) (s : Selector) (h : Hub) :
    (h.registrations.connectors.get? handler.discoveryId = none ∧ fetchAll handler s h = .ok () h) ∨
    ∃ c h₁, h.registrations.connectors.get? handler.discoveryId = some c ∧ Reconciled h h₁ ∧
      (fetchAll handler s h = .ok () ((h₁.count (.reconcilePasses handler.discoveryId) 1).publish
          (h.announced s (h.reported c (h.watchKey handler)))) ∨
        ∃ e, fetchAll handler s h = .error e (h₁.count (.reconcileFailures handler.discoveryId) 1)) := by
  cases hc : h.registrations.connectors.get? handler.discoveryId with
  | none =>
    refine .inl ⟨rfl, ?_⟩
    unfold fetchAll
    rw [get_bind, hc]
    rfl
  | some c =>
    refine .inr ⟨c, (reconcile c handler s).left h, rfl, reconciled_left c handler s h, ?_⟩
    cases hr : reconcile c handler s h with
    | ok l h₁ =>
      left
      have hevent : h.announced s (h.reported c (h.watchKey handler)) =
          .single .discoveredEndpoint .update ((RouteRecord.ofSelector s).withEndpoints l) := by
        rw [candidates_of_reconcile hr, candidates_eq]
        rfl
      rw [left_of_ok hr, hevent]
      unfold fetchAll
      rw [get_bind, hc]
      dsimp only
      rw [bind_of_ok (attempt_of_ok hr)]
      rfl
    | error e h₁ =>
      rw [left_of_error hr]
      exact .inr ⟨e, fetchAll_of_error hc hr⟩

end Act

/-! ### Calls, one after another -/

/-- An event that says which endpoints a selector has. -/
def ChangeEvent.updatesEndpoints (e : ChangeEvent) : Bool := e.group == .discoveredEndpoint && e.action == .update

/-- A call of a pass, with the hub that it finds. -/
structure PassCall where
  handler : Handler
  selector : Selector
  before : Hub

namespace PassCall

variable (p : PassCall)

def IsRegistered : Prop := (p.before.registrations.connectors.get? p.handler.discoveryId).isSome = true

def isOk : Bool := (Act.fetchAll p.handler p.selector).isOk p.before

/-- The hub that the call leaves, also if it fails. -/
def after : Hub := (Act.fetchAll p.handler p.selector).left p.before

/-- What the call publishes. -/
def events : List ChangeEvent := if p.isOk then p.before.passEvents p.handler p.selector else []

/-- The counter of the way in which the call ends. -/
def ending : Counter :=
  if p.isOk then .reconcilePasses p.handler.discoveryId else .reconcileFailures p.handler.discoveryId

/-- What a call leaves in the counters and with the publisher. -/
structure Counted : Prop where
  /-- A pass for an unknown id leaves no trace at all. -/
  unknown : ¬ p.IsRegistered → p.after = p.before
  /-- Of all counters of ends another pass moves the one for its own end, by one. -/
  known : p.IsRegistered → ∀ k : Counter, k.isOfEnds = true →
    p.after.metrics.count k = p.before.metrics.count k + if p.ending = k then 1 else 0
  /-- All events say which endpoints a selector has. -/
  updates : ∀ e ∈ p.events, e.updatesEndpoints = true
  /-- The publisher has been handed these events, one after another, and no others. -/
  outlet : p.after.outlet = p.events.foldl Outlet.push p.before.outlet
  /-- The counters that are not of passes are as after these publications. -/
  others : ∀ k : Counter, k.isOfPasses = false →
    p.after.metrics.count k = (p.events.foldl Hub.publish p.before).metrics.count k

/-- **The three ways in which a call ends.** -/
theorem outcome :
    (¬ p.IsRegistered ∧ p.events = [] ∧ p.after = p.before) ∨
    p.IsRegistered ∧ ∃ h₁, Act.Reconciled p.before h₁ ∧
      ((∃ e : ChangeEvent, e.updatesEndpoints = true ∧ p.events = [e] ∧
          p.ending = .reconcilePasses p.handler.discoveryId ∧ p.after = (h₁.count p.ending 1).publish e) ∨
        (p.events = [] ∧ p.ending = .reconcileFailures p.handler.discoveryId ∧ p.after = h₁.count p.ending 1)) := by
  unfold IsRegistered events after ending isOk Act.isOk Act.left Hub.passEvents
  rcases Act.fetchAll_cases p.handler p.selector p.before with
    ⟨hnone, hrun⟩ | ⟨c, h₁, hsome, hreconciled, hrun | ⟨e, hrun⟩⟩
  · rw [hnone, hrun]
    exact .inl ⟨Bool.false_ne_true, rfl, rfl⟩
  · rw [hsome, hrun]
    exact .inr ⟨rfl, h₁, hreconciled, .inl ⟨_, rfl, rfl, rfl, rfl⟩⟩
  · rw [hsome, hrun]
    exact .inr ⟨rfl, h₁, hreconciled, .inr ⟨rfl, rfl, rfl⟩⟩

end PassCall

namespace Hub

/-- Anything happens that leaves the store and the counters of passes alone; ids may be drawn. -/
structure Meanwhile (h h' : Hub) : Prop where
  store : h'.store = h.store
  drawn : h.drawn ≤ h'.drawn
  count : ∀ k : Counter, k.isOfPasses = true → h'.metrics.count k = h.metrics.count k

/-- `h` comes of `h₀` by calls of passes, between which connectors, instances, registrations, settings and faults may
become any others. -/
inductive Fetches (h₀ : Hub) : List PassCall → Hub → Prop
  | refl : Fetches h₀ [] h₀
  | call {calls : List PassCall} {h : Hub} (handler : Handler) (s : Selector) (hf : Fetches h₀ calls h) :
      Fetches h₀ (calls ++ [⟨handler, s, h⟩]) (PassCall.after ⟨handler, s, h⟩)
  | meanwhile {calls : List PassCall} {h h' : Hub} (hf : Fetches h₀ calls h) (hm : Meanwhile h h') :
      Fetches h₀ calls h'

end Hub

namespace PassCall

variable (p : PassCall)

theorem isOfEnds_ending : p.ending.isOfEnds = true := by
  unfold ending
  split_ifs <;> rfl

theorem counted : p.Counted := by
  rcases p.outcome with ⟨hno, hevents, hafter⟩ | ⟨hyes, h₁, hrec, hend⟩
  · refine ⟨fun _ => hafter, fun hyes => absurd hyes hno, ?_, ?_, fun k _ => ?_⟩
    · rw [hevents]
      exact fun e he => nomatch he
    · rw [hevents, hafter]
      rfl
    · rw [hevents, hafter]
      rfl
  have hending : ∀ k : Counter, k.isOfEnds = true → (h₁.count p.ending 1).metrics.count k =
      p.before.metrics.count k + if p.ending = k then 1 else 0 := fun k hk => hrec.count_ending hk
  have hothers : ∀ k : Counter, k.isOfPasses = false → (h₁.count p.ending 1).metrics.count k =
      p.before.metrics.count k := hrec.count_of_others p.isOfEnds_ending
  have houtlet : (h₁.count p.ending 1).outlet = p.before.outlet := hrec.outlet
  rcases hend with ⟨e, hupdates, hevents, -, hafter⟩ | ⟨hevents, -, hafter⟩
  · refine ⟨fun hno => absurd hyes hno, fun _ k hk => ?_, ?_, ?_, fun k hk => ?_⟩
    · rw [hafter, Hub.count_publish_of_isOfPasses (Counter.isOfPasses_of_isOfEnds hk), hending k hk]
    · rw [hevents]
      exact List.forall_mem_singleton.mpr hupdates
    · rw [hevents, hafter, Hub.outlet_publish, houtlet]
      rfl
    · -- which counter an event moves is a matter of the publisher alone
      have hpublisher : (h₁.count p.ending 1).publisher = p.before.publisher := congrArg Outlet.publisher houtlet
      have hcounter : (h₁.count p.ending 1).publishCounter e = p.before.publishCounter e := by
        unfold Hub.publishCounter
        rw [hpublisher]
      rw [hevents, hafter, List.foldl_cons, List.foldl_nil, Hub.count_publish, Hub.count_publish, hothers k hk,
        hcounter]
  · refine ⟨fun hno => absurd hyes hno, fun _ k hk => ?_, ?_, ?_, fun k hk => ?_⟩
    · rw [hafter, hending k hk]
    · rw [hevents]
      exact fun e he => nomatch he
    · rw [hevents, hafter, houtlet]
      rfl
    · rw [hevents, hafter, hothers k hk]
      rfl

/-- The passes of all ids have grown by the endpoints that the call publishes. -/
theorem total_passes : p.after.metrics.total .reconcilePasses =
    p.before.metrics.total .reconcilePasses + p.events.countP ChangeEvent.updatesEndpoints := by
  rcases p.outcome with
    ⟨-, hevents, hafter⟩ | ⟨-, h₁, hrec, ⟨e, hupdates, hevents, hending, hafter⟩ | ⟨hevents, hending, hafter⟩⟩
  · rw [hevents, hafter]
    rfl
  · have hpublished : p.after.metrics.total .reconcilePasses =
        (h₁.metrics.add (.reconcilePasses p.handler.discoveryId) 1).total .reconcilePasses := by
      rw [hafter, hending]
      exact Metrics.total_congr fun d => Hub.count_publish_of_isOfPasses rfl
    rw [hpublished, Metrics.total_add (fun _ _ => Counter.reconcilePasses.inj),
      Metrics.total_congr fun d => hrec.count (.reconcilePasses d) rfl, hevents, List.countP_singleton, if_pos hupdates]
  · have hfailed : p.after.metrics.total .reconcilePasses = h₁.metrics.total .reconcilePasses := by
      rw [hafter, hending]
      exact Metrics.total_add_of_ne (fun _ => Counter.noConfusion) 1
    rw [hfailed, Metrics.total_congr fun d => hrec.count (.reconcilePasses d) rfl, hevents]
    rfl

end PassCall

namespace Hub

variable {h₀ h : Hub} {calls : List PassCall} {c : ConnectorId}

/-! ### Between the calls -/

theorem calm_meanwhile (g : Hub) : Act.Calm (Meanwhile g) where
  call entry _ h hm := by
    rw [Act.left_call]
    exact ⟨hm.store, hm.drawn, hm.count⟩
  count registryType action h hm := by
    refine ⟨hm.store, hm.drawn, fun k hk => Eq.trans ?_ (hm.count k hk)⟩
    refine (Metrics.count_add h.metrics (.lifecycle registryType action) k 1).trans (if_neg ?_)
    rintro rfl
    cases hk
  connector _ _ _ _ _ hm := ⟨hm.store, hm.drawn, hm.count⟩
  probe _ _ hm := ⟨hm.store, hm.drawn, hm.count⟩
  congr h h' hb hm := by
    refine ⟨(congrArg Base.store hb).trans hm.store, hm.drawn.trans_eq (congrArg Base.drawn hb).symm, fun k hk => ?_⟩
    have hcount : h'.metrics.count k = h.metrics.count k := by
      unfold Metrics.count
      rw [show h'.metrics.counters = h.metrics.counters from congrArg Base.counters hb]
    exact hcount.trans (hm.count k hk)

/-- **Administration** comes and goes between passes: registrations, listeners and other publications. -/
theorem meanwhile_of_isQuiet {cmd : Command} (hcmd : cmd.IsQuiet) (h : Hub) : Meanwhile h (h.after c cmd) := by
  refine (calm_meanwhile h).act (fun e g hm => ?_) hcmd h ⟨rfl, Nat.le_refl _, fun _ _ => rfl⟩
  have hcontents := contents_publish g e
  exact ⟨(congrArg Contents.store hcontents).trans hm.store,
    hm.drawn.trans_eq (congrArg Contents.drawn hcontents).symm,
    fun k hk => (count_publish_of_isOfPasses hk).trans (hm.count k hk)⟩

/-! ### Runs -/

theorem Fetches.inBalance (hf : Fetches h₀ calls h) (hu : h₀.DrawsUnused) : InBalance h₀ h := by
  induction hf with
  | refl => exact ⟨by unfold AddsUp; omega, hu⟩
  | call handler s _ ih => exact Act.inBalance_fetchAll handler s _ ih
  | meanwhile _ hm ih =>
    exact ih.of_store hm.store hm.drawn fun k hk => hm.count k (Counter.isOfPasses_of_isOfRecords hk)

/-- Every call of a run has been made at the end of a run. -/
theorem Fetches.exists_of_mem (hf : Fetches h₀ calls h) {p : PassCall} (hp : p ∈ calls) :
    ∃ earlier, Fetches h₀ earlier p.before := by
  induction hf with
  | refl => cases hp
  | @call earlier _ _ _ hf ih =>
    rcases List.mem_append.mp hp with hp | hp
    · exact ih hp
    · obtain rfl := List.mem_singleton.mp hp
      exact ⟨earlier, hf⟩
  | meanwhile _ _ ih => exact ih hp

theorem Fetches.total_passes (hf : Fetches h₀ calls h) : h.metrics.total .reconcilePasses =
    h₀.metrics.total .reconcilePasses + (calls.flatMap PassCall.events).countP ChangeEvent.updatesEndpoints := by
  induction hf with
  | refl => rfl
  | call handler s _ ih =>
    rw [PassCall.total_passes, ih, List.flatMap_append, List.countP_append, List.flatMap_singleton, Nat.add_assoc]
  | meanwhile _ hm ih =>
    exact (Metrics.total_congr fun d => hm.count (.reconcilePasses d) rfl).trans ih

/-- **The counters of reconciliation add up.**  After every call of a run, also one that fails half way, what has been
counted as inserted less what has been counted as deleted is what the store has gained.  Every call for a registered
id moves one of the counters of passes and failures, by one, and every other call none; and the passes have grown by
the endpoint updates that these calls have published. -/
theorem reconcile_counters_add_up (hf : Fetches h₀ calls h) (hu : h₀.DrawsUnused) :
    (∀ p ∈ calls, h₀.AddsUp p.after ∧ p.Counted) ∧ h₀.AddsUp h ∧
      h.metrics.total .reconcilePasses = h₀.metrics.total .reconcilePasses +
        (calls.flatMap PassCall.events).countP ChangeEvent.updatesEndpoints := by
  refine ⟨fun p hp => ⟨?_, p.counted⟩, (hf.inBalance hu).addsUp, hf.total_passes⟩
  obtain ⟨earlier, hearlier⟩ := hf.exists_of_mem hp
  exact ((Fetches.call p.handler p.selector hearlier).inBalance hu).addsUp

/-- A pass that fails at the second of two insertions, one for an unknown id, a new registration, and a pass that
succeeds. -/
theorem reconcile_counters_add_up_secondInsert :
    let live : List Instance := [⟨"b", 2, 10, 0⟩, ⟨"c", 3, 20, 0⟩]
    let h₀ : Hub := { withLive (holding (.memory .empty) staleRecord) live with
      faults := [⟨"store.insert", .storage .database, 1, 1⟩] }
    let s : Selector := ⟨"s", "s", "p", "ns"⟩
    let failing : PassCall := ⟨⟨"h", "d", "/k", "", ""⟩, s, h₀⟩
    let unknown : PassCall := ⟨⟨"h", "x", "/k", "", ""⟩, s, failing.after⟩
    let h₁ := unknown.after.after 0 (.create { id := "e", registryType := "local" })
    let passing : PassCall := ⟨⟨"h", "d", "/k", "", ""⟩, s, h₁⟩
    failing.isOk = false ∧ ¬ unknown.IsRegistered ∧ passing.isOk = true ∧
      (h₀.store.size = 1 ∧ failing.after.store.size = 1 ∧ passing.after.store.size = 2) ∧
      h₀.AddsUp failing.after ∧ failing.Counted ∧ h₀.AddsUp passing.after ∧
      passing.after.metrics.total .reconcilePasses = 1 := by
  intro live h₀ s failing unknown h₁ passing
  have hu : h₀.DrawsUnused := by
    intro n _
    have hi : (Store.memory .empty).insert staleRecord = .ok (holding (.memory .empty) staleRecord) := rfl
    have hne : drawnId n ≠ staleRecord.id := (ne_drawnId (by decide) n).symm
    exact Store.inUse_insert hi hne
  have hcreate : Meanwhile unknown.after h₁ := by
    refine meanwhile_of_isQuiet ?_ unknown.after
    trivial
  have hrun : Fetches h₀ [failing, unknown, passing] passing.after :=
    .call _ _ (.meanwhile (.call _ _ (.call _ _ .refl)) hcreate)
  obtain ⟨hcalls, hend, hpasses⟩ := reconcile_counters_add_up hrun hu
  obtain ⟨hfailing, hcounted⟩ := hcalls failing (by simp)
  have hzero : h₀.metrics.total .reconcilePasses = 0 := finsum_zero
  have hevents : ([failing, unknown, passing].flatMap PassCall.events).countP ChangeEvent.updatesEndpoints = 1 := by
    decide +kernel
  refine ⟨by decide +kernel, ?_, by decide +kernel, ⟨by decide +kernel, by decide +kernel, by decide +kernel⟩,
    hfailing, hcounted, hend, ?_⟩
  · show ¬ (_ = true)
    decide +kernel
  · rw [hpasses, hzero, hevents]

end Hub

end RouteSync
