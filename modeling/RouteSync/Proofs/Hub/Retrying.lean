import Mathlib.Data.Set.Basic
import RouteSync.Proofs.Hub.Reconciling
import RouteSync.Proofs.Hub.Sharing

/-!
# Passes that fail and are tried again

A pass makes its calls to the store one after another, and the first that fails ends it (`FailsAt`).  What it has
done by then stays done: the stale records are gone if it came past the deletion, and the first new records are
there (`halted_of_failsAt`).  Nothing has been published.  A later pass that is told the same instances plans
anew from what it finds and ends with the records of a pass that never failed (`Halted.rows_eq`).
-/

namespace RouteSync

namespace Act

/-- The calls to the store at which a pass may fail. -/
inductive Stop
  | select
  | delete
  /-- The insertion after so many others. -/
  | insert (n : Nat)
  deriving DecidableEq, Repr

namespace Stop

/-- The stale records have been deleted by then. -/
def hasDeleted : Stop → Bool
  | .insert _ => true
  | _ => false

/-- How many records have been inserted by then. -/
def inserted : Stop → Nat
  | .insert n => n
  | _ => 0

end Stop

/-- The pass for a handler comes as far as the call at `stop`, which fails with `e` and leaves `h'`. -/
inductive FailsAt (c : ConnectorId) (handler : Handler) (s : Selector) (h : Hub) : Stop → Error → Hub → Prop
  | select {live : List Instance} {h₁ h' : Hub} {e : Error}
      (hlive : selectInstances c (h.watchKey handler) h = .ok live h₁)
      (hfail : Act.select handler.id h₁ = .error e h') : FailsAt c handler s h .select e h'
  | delete {live : List Instance} {stored : List StoredEndpoint} {h₁ h₂ h' : Hub} {e : Error}
      (hlive : selectInstances c (h.watchKey handler) h = .ok live h₁)
      (hselect : Act.select handler.id h₁ = .ok stored h₂)
      (hfail : deleteStale handler.discoveryId
        (Plan.of stored (candidates live s h.settings.defaultProtocol)).stale h₂ = .error e h') :
      FailsAt c handler s h .delete e h'
  | insert {live : List Instance} {stored : List StoredEndpoint} {done rest : List Endpoint} {x : Endpoint}
      {h₁ h₂ h₃ h₄ h' : Hub} {e : Error}
      (hlive : selectInstances c (h.watchKey handler) h = .ok live h₁)
      (hselect : Act.select handler.id h₁ = .ok stored h₂)
      (hdelete : deleteStale handler.discoveryId
        (Plan.of stored (candidates live s h.settings.defaultProtocol)).stale h₂ = .ok () h₃)
      (hplan : (Plan.of stored (candidates live s h.settings.defaultProtocol)).inserts = done ++ x :: rest)
      (hdone : insertAll handler.discoveryId handler.id done h₃ = .ok () h₄)
      (hfail : Act.insert handler.id x h₄ = .error e h') : FailsAt c handler s h (.insert done.length) e h'

end Act

namespace Hub

/-- What a pass plans for the records that it finds. -/
def plan (h : Hub) (handler : Handler) (s : Selector) (live : List Instance) : Plan :=
  Plan.of ((h.store.select handler.id).toOption.getD []) (candidates live s h.settings.defaultProtocol)

/-- Addresses and columns of the records of an owner. -/
def rows (h : Hub) (owner : String) : Set (String × Columns) :=
  {p | ∃ r ∈ h.store, r.owner = owner ∧ (r.url, r.columns) = p}

/-- The store and all that a pass for the handler makes of `live` is as in `h`; clock, faults and what has been
published may differ. -/
structure Resumes (h g : Hub) (handler : Handler) (live : List Instance) : Prop where
  store : g.store = h.store
  drawn : g.drawn = h.drawn
  settings : g.settings = h.settings
  reports : g.Reports handler live

/-- What a pass that failed has left behind. -/
structure Halted (h h' : Hub) (handler : Handler) (s : Selector) (live : List Instance) (stop : Act.Stop) :
    Prop where
  sound : h'.store.Sound
  isEmbedded : h'.store.isEmbedded = h.store.isEmbedded
  fresh : h'.DrawsFresh
  /-- Nothing has been published. -/
  outlet : h'.outlet = h.outlet
  mem : ∀ r, r ∈ h'.store ↔
    (r ∈ h.store ∧ ¬ (stop.hasDeleted = true ∧ h.store.lists handler.id r = true ∧ ¬ ∃ i ∈ live, i.url = r.url)) ∨
      r ∈ Act.newRecords h handler.id ((h.plan handler s live).inserts.take stop.inserted)

variable {h h' h₁ : Hub} {handler : Handler} {s : Selector} {c : ConnectorId} {live : List Instance}
  {stop : Act.Stop} {e : Error}

/-- Whether records can be written down does not depend on the time. -/
theorem TakesNew.congr {g : Hub} (ht : h.TakesNew handler s live) (hr : Resumes h g handler live) :
    g.TakesNew handler s live := by
  intro i hi n hn he
  rw [hr.drawn] at hn
  rw [hr.store] at he
  have hfit := ht i hi n hn he
  refine ⟨hfit.id, hfit.owner, hfit.url, ?_⟩
  have hcolumns : (g.newRecord handler s i (drawnId n)).columns =
      (h.newRecord handler s i (drawnId n)).columns := by
    unfold newRecord
    rw [hr.settings]
  rw [hcolumns]
  exact hfit.columns

end Hub

namespace Act

open Hub

variable {h h' h₁ : Hub} {handler : Handler} {s : Selector} {c : ConnectorId} {live : List Instance}
  {stop : Stop} {e : Error}

/-- **A reconciliation fails** at the registry, or at one of its calls to the store. -/
theorem reconcile_eq_error : reconcile c handler s h = .error e h' ↔
    selectInstances c (h.watchKey handler) h = .error e h' ∨ ∃ stop, FailsAt c handler s h stop e h' := by
  have hget : reconcile c handler s h = (do
      let instances ← selectInstances c (h.watchKey handler)
      let live := candidates instances s h.settings.defaultProtocol
      let plan := Plan.of (← select handler.id) live
      deleteStale handler.discoveryId plan.stale
      insertAll handler.discoveryId handler.id plan.inserts
      return live : Act (List Endpoint)) h := rfl
  rw [hget]
  constructor
  · intro hfail
    rcases bind_eq_error.mp hfail with hfail | ⟨live, h₁, hlive, hfail⟩
    · exact .inl hfail
    right
    rcases bind_eq_error.mp hfail with hfail | ⟨stored, h₂, hselect, hfail⟩
    · exact ⟨_, .select hlive hfail⟩
    rcases bind_eq_error.mp hfail with hfail | ⟨u, h₃, hdelete, hfail⟩
    · exact ⟨_, .delete hlive hselect hfail⟩
    rcases bind_eq_error.mp hfail with hfail | ⟨v, h₄, -, hfail⟩
    · obtain ⟨done, x, rest, h₄, hplan, hdone, hstep⟩ := forM_eq_error hfail
      rcases bind_eq_error.mp hstep with hstep | ⟨w, h₅, -, hcount⟩
      · exact ⟨_, .insert hlive hselect hdelete hplan hdone hstep⟩
      · -- counting never fails
        cases hcount
    · cases hfail
  · rintro (hfail | ⟨stop, hfail⟩)
    · exact bind_of_error hfail _
    · cases hfail with
      | select hlive hfail =>
        rw [bind_of_ok hlive]
        exact bind_of_error hfail _
      | delete hlive hselect hfail =>
        rw [bind_of_ok hlive]
        dsimp only
        rw [bind_of_ok hselect]
        exact bind_of_error hfail _
      | @insert live stored done rest x _ _ _ h₄ _ _ hlive hselect hdelete hplan hdone hfail =>
        have hstep : (do insert handler.id x; count (.inserted handler.discoveryId) 1 : Act Unit) h₄ =
            .error e h' := bind_of_error hfail _
        have hall : insertAll handler.discoveryId handler.id (done ++ x :: rest) _ = .error e h' :=
          forM_of_error hdone hstep
        rw [bind_of_ok hlive]
        dsimp only
        rw [bind_of_ok hselect, bind_of_ok hdelete, hplan]
        exact bind_of_error hall _

/-- A pass fails as its reconciliation does. -/
theorem fetchAll_of_error (hc : h.registrations.connectors.get? handler.discoveryId = some c)
    (hfail : reconcile c handler s h = .error e h₁) :
    fetchAll handler s h = .error e (h₁.count (.reconcileFailures handler.discoveryId) 1) := by
  have hattempt : attempt (reconcile c handler s) h = .ok (.error e) h₁ :=
    attempt_eq_ok.mpr (.inr ⟨e, rfl, hfail⟩)
  unfold fetchAll
  rw [get_bind, hc]
  dsimp only
  rw [bind_of_ok hattempt]
  rfl

/-- What the calls before the deletion leave: everything as it was, and a plan for what is stored. -/
theorem plan_of_select {stored : List StoredEndpoint} {l : List Instance} {h₂ : Hub} (hs : h.store.Sound)
    (hlive : selectInstances c (h.watchKey handler) h = .ok l h₁)
    (hselect : select handler.id h₁ = .ok stored h₂) :
    l = h.reported c (h.watchKey handler) ∧ h₂.contents = h.contents ∧
      Plan.of stored (candidates l s h.settings.defaultProtocol) = h.plan handler s l ∧
      ∀ r, r ∈ stored ↔ r ∈ h.store ∧ h.store.lists handler.id r = true := by
  obtain ⟨hl, hc₁⟩ := selectInstances_eq_ok hlive
  obtain ⟨hstored, hc₂⟩ := select_eq_ok hselect
  rw [(contents_eq_iff.mp hc₁).1] at hstored
  obtain ⟨stored', hstored', hmem⟩ := Store.exists_select hs handler.id
  have hsame : stored = stored' := Except.ok.inj (hstored.symm.trans hstored')
  refine ⟨hl, hc₂.trans hc₁, ?_, hsame ▸ hmem⟩
  unfold plan
  rw [hstored]
  rfl

/-- **What a failed reconciliation leaves** are the records that were not to be deleted yet and the new ones up
to the failure. -/
theorem halted_of_failsAt (hs : h.store.Sound) (hd : h.DrawsFresh) (ht : h.TakesNew handler s live)
    (hreported : h.reported c (h.watchKey handler) = live) (hfail : FailsAt c handler s h stop e h') :
    Halted h h' handler s live stop := by
  -- as long as the contents are those of the beginning nothing has happened
  have unchanged : ∀ stop : Stop, stop.hasDeleted = false → stop.inserted = 0 → h'.contents = h.contents →
      Halted h h' handler s live stop := by
    intro stop hno hzero hcontents
    obtain ⟨hstore, hdrawn, -, hout⟩ := contents_eq_iff.mp hcontents
    refine ⟨?_, ?_, ?_, hout, fun r => ?_⟩
    · rw [hstore]
      exact hs
    · rw [hstore]
    · unfold DrawsFresh
      rw [hstore, hdrawn]
      exact hd
    · rw [hstore, hzero]
      simp [hno, newRecords]
  cases hfail with
  | select hlive hfail =>
    obtain ⟨-, hc₁⟩ := selectInstances_eq_ok hlive
    exact unchanged _ rfl rfl (((keeps_contents_select _).of_error hfail).trans hc₁)
  | delete hlive hselect hfail =>
    obtain ⟨-, hc₂, -, -⟩ := plan_of_select (s := s) hs hlive hselect
    refine unchanged _ rfl rfl ?_
    unfold deleteStale at hfail
    split_ifs at hfail
    · cases hfail
    · rcases bind_eq_error.mp hfail with hfail | ⟨n, h₃, -, hcount⟩
      · exact (deleteByIds_eq_error hfail).trans hc₂
      · cases hcount
  | @insert l stored done rest x h₁ h₂ h₃ h₄ _ _ hlive hselect hdelete hplan hdone hfail =>
    obtain ⟨hl, hc₂, hplanned, hmem⟩ := plan_of_select (s := s) hs hlive hselect
    obtain rfl : l = live := hl.trans hreported
    have hsound₂ : h₂.store.Sound := by
      rw [(contents_eq_iff.mp hc₂).1]
      exact hs
    have hcl := (cleared_of_deleteStale hsound₂ hdelete).of_contents hc₂
    have hprefix : done <+: (Plan.of stored (candidates l s h.settings.defaultProtocol)).inserts := by
      rw [hplan]
      exact List.prefix_append _ _
    have hent := entered_of_cleared hd ht hcl hprefix hdone
    obtain ⟨hstore', hdrawn', -, hout'⟩ := insert_eq_error hfail
    have htaken : (h.plan handler s l).inserts.take done.length = done := by
      rw [← hplanned, hplan, List.take_left]
    refine ⟨?_, ?_, ?_, hout'.trans (hent.outlet.trans hcl.outlet), fun r => ?_⟩
    · rw [hstore']
      exact hent.sound
    · rw [hstore', hent.isEmbedded, hcl.isEmbedded]
    · refine hent.fresh.of_find? hdrawn' fun id hid => ?_
      rw [hstore']
      exact hid
    · rw [hstore', mem_of_entered hmem hcl hent]
      simp [Stop.hasDeleted, Stop.inserted, htaken]

end Act

namespace Hub

variable {h h' h₁ h₂ h₂' : Hub} {handler : Handler} {s : Selector} {c : ConnectorId} {live : List Instance}
  {stop : Act.Stop} {e : Error}

/-! ### The records of a pass that succeeds -/

/-- **The rows after a pass** are those of the records at live addresses, and those of the first instances at
addresses where nothing was listed. -/
theorem Passed.mem_rows (hp : Passed h h' handler s live) {u : String} {columns : Columns} :
    (u, columns) ∈ h'.rows handler.id ↔
      (∃ r ∈ h.store, r.owner = handler.id ∧ (∃ i ∈ live, i.url = u) ∧ r.url = u ∧ r.columns = columns) ∨
        (∀ q ∈ h.store, h.store.lists handler.id q = true → q.url ≠ u) ∧
          ∃ i, live.find? (fun j => j.url == u) = some i ∧
            columns = (Endpoint.ofInstance i s h.settings.defaultProtocol).columns := by
  have hown : ∀ r ∈ h.store, r.owner = handler.id → h.store.lists handler.id r = true :=
    fun r _ ho => ho ▸ Store.lists_self h.store r
  constructor
  · rintro ⟨r, hr, ho, hrow⟩
    obtain ⟨rfl, rfl⟩ := Prod.mk.inj hrow
    rcases hp.entered r hr with hr₀ | ⟨-, -, hfree, i, hi, hrec⟩
    · have hlive : ∃ i ∈ live, i.url = r.url := by
        by_contra hno
        exact (hp.left r hr₀).mp hr ⟨hown r hr₀ ho, hno⟩
      exact .inl ⟨r, hr₀, ho, hlive, rfl, rfl⟩
    · have hcolumns : r.columns = (Endpoint.ofInstance i s h.settings.defaultProtocol).columns := by
        rw [hrec]
        rfl
      exact .inr ⟨hfree, i, hi, hcolumns⟩
  · rintro (⟨r, hr, ho, hlive, rfl, rfl⟩ | ⟨hfree, i, hi, rfl⟩)
    · exact ⟨r, (hp.left r hr).mpr fun hgone => hgone.2 hlive, ho, rfl⟩
    · have hu : i.url = u := by simpa using List.find?_some hi
      subst hu
      obtain ⟨r, hr, ho, hru⟩ := hp.filled i (List.mem_of_find?_eq_some hi) hfree
      rcases hp.entered r hr with hr₀ | ⟨-, -, -, j, hj, hrec⟩
      · exact absurd hru (hfree r hr₀ (hown r hr₀ ho))
      · rw [hru, hi] at hj
        obtain rfl := Option.some.inj hj
        have hcolumns : r.columns = (Endpoint.ofInstance i s h.settings.defaultProtocol).columns := by
          rw [hrec]
          rfl
        exact ⟨r, hr, ho, by rw [hru, hcolumns]⟩

/-- A record that a pass has inserted before it failed stands at an address where nothing was listed, and shows
the first instance of this address. -/
theorem of_mem_taken (hs : h.store.Sound) {n : Nat} {r : StoredEndpoint}
    (hr : r ∈ Act.newRecords h handler.id ((h.plan handler s live).inserts.take n)) :
    r.owner = handler.id ∧ (∀ q ∈ h.store, h.store.lists handler.id q = true → q.url ≠ r.url) ∧
      ∃ i, live.find? (fun j => j.url == r.url) = some i ∧
        r.columns = (Endpoint.ofInstance i s h.settings.defaultProtocol).columns := by
  obtain ⟨stored, hstored, hmem⟩ := Store.exists_select hs handler.id
  unfold plan at hr
  rw [hstored] at hr
  obtain ⟨-, ho, hfree, i, hi, hrec⟩ := of_mem_newRecords hmem (fun e he => List.mem_of_mem_take he) hr
  refine ⟨ho, hfree, i, hi, ?_⟩
  rw [hrec]
  rfl

/-- **A pass that is tried again** ends with the rows of one that has not failed. -/
theorem Halted.rows_eq {g g' : Hub} (hs : h.store.Sound) (hh : Halted h h₁ handler s live stop)
    (hg : Resumes h g handler live) (hp : Passed g g' handler s live) (hstore : h₂.store = h₁.store)
    (hset : h₂.settings = h.settings) (hp₂ : Passed h₂ h₂' handler s live) :
    h₂'.rows handler.id = g'.rows handler.id := by
  have hlists : ∀ r, h₂.store.lists handler.id r = h.store.lists handler.id r := fun r =>
    Store.lists_congr (hstore ▸ hh.isEmbedded)
  have hmem : ∀ r, r ∈ h₂.store ↔ r ∈ h₁.store := by
    intro r
    rw [hstore]
  -- a record at a live address has not been deleted
  have hkept : ∀ r ∈ h.store, (∃ i ∈ live, i.url = r.url) → r ∈ h₂.store := fun r hr hlive =>
    (hmem r).mpr ((hh.mem r).mpr (.inl ⟨hr, fun hgone => hgone.2.2 hlive⟩))
  ext ⟨u, columns⟩
  rw [hp₂.mem_rows, hp.mem_rows, hset, hg.store, hg.settings]
  constructor
  · rintro (⟨r, hr, ho, hlive, rfl, rfl⟩ | ⟨hfree, i, hi, hcolumns⟩)
    · rcases (hh.mem r).mp ((hmem r).mp hr) with ⟨hr, -⟩ | hr
      · exact .inl ⟨r, hr, ho, hlive, rfl, rfl⟩
      · exact .inr (of_mem_taken hs hr).2
    · have hlive : ∃ i ∈ live, i.url = u := ⟨i, List.mem_of_find?_eq_some hi, by simpa using List.find?_some hi⟩
      refine .inr ⟨fun q hq hlist hqu => ?_, i, hi, hcolumns⟩
      exact hfree q (hkept q hq (hqu ▸ hlive)) ((hlists q).trans hlist) hqu
  · rintro (⟨r, hr, ho, hlive, rfl, rfl⟩ | ⟨hfree, i, hi, hcolumns⟩)
    · exact .inl ⟨r, hkept r hr hlive, ho, hlive, rfl, rfl⟩
    · have hlive : ∃ i ∈ live, i.url = u := ⟨i, List.mem_of_find?_eq_some hi, by simpa using List.find?_some hi⟩
      by_cases hthere : ∃ q ∈ h₂.store, h₂.store.lists handler.id q = true ∧ q.url = u
      · obtain ⟨q, hq, hlist, rfl⟩ := hthere
        rcases (hh.mem q).mp ((hmem q).mp hq) with ⟨hq, -⟩ | hnew
        · exact absurd rfl (hfree q hq ((hlists q).symm.trans hlist))
        · obtain ⟨ho, -, j, hj, hjc⟩ := of_mem_taken hs hnew
          rw [hi] at hj
          obtain rfl := Option.some.inj hj
          exact .inl ⟨q, hq, ho, hlive, rfl, hjc.trans hcolumns.symm⟩
      · exact .inr ⟨fun q hq hlist hqu => hthere ⟨q, hq, hlist, hqu⟩, i, hi, hcolumns⟩

/-! ### Retry safety -/

/-- How a hub looks after a pass that failed at `stop`. -/
structure Interrupted (h h' : Hub) (handler : Handler) (s : Selector) (live : List Instance) (stop : Act.Stop) :
    Prop where
  /-- Nothing has been published. -/
  outlet : h'.outlet = h.outlet
  /-- A record at a live address is as before, whoever owns it. -/
  kept : ∀ r ∈ h.store, (∃ i ∈ live, i.url = r.url) → r ∈ h'.store
  /-- The records of the handler are those of before, or those of before that are not stale and the first ones of
  the plan. -/
  own : ∀ r, r.owner = handler.id → (r ∈ h'.store ↔
    (r ∈ h.store ∧ (stop.hasDeleted = true → ∃ i ∈ live, i.url = r.url)) ∨
      r ∈ Act.newRecords h handler.id ((h.plan handler s live).inserts.take stop.inserted))

theorem Halted.interrupted (hh : Halted h h' handler s live stop) : Interrupted h h' handler s live stop := by
  refine ⟨hh.outlet, fun r hr hlive => (hh.mem r).mpr (.inl ⟨hr, fun hgone => hgone.2.2 hlive⟩), fun r ho => ?_⟩
  have hlisted : h.store.lists handler.id r = true := ho ▸ Store.lists_self h.store r
  rw [hh.mem]
  refine or_congr_left (and_congr_right fun _ => ?_)
  constructor
  · intro hstay hdel
    by_contra hno
    exact hstay ⟨hdel, hlisted, hno⟩
  · rintro hlive ⟨hdel, -, hno⟩
    exact hno (hlive hdel)

/-- A pass that has failed spares the records of others if the records that it found stale were none of theirs. -/
theorem Halted.others_iff (hs : h.store.Sound) (hh : Halted h h' handler s live stop) :
    (∀ r, r.owner ≠ handler.id → (r ∈ h'.store ↔ r ∈ h.store)) ↔
      (stop.hasDeleted = true → ∀ r ∈ h.store, h.store.lists handler.id r = true → r.owner ≠ handler.id →
        ∃ i ∈ live, i.url = r.url) := by
  have hnotNew : ∀ r, r.owner ≠ handler.id →
      r ∉ Act.newRecords h handler.id ((h.plan handler s live).inserts.take stop.inserted) :=
    fun r ho hr => ho (of_mem_taken hs hr).1
  constructor
  · intro hothers hdel r hr hlist ho
    by_contra hno
    rcases (hh.mem r).mp ((hothers r ho).mpr hr) with ⟨-, hstay⟩ | hnew
    · exact hstay ⟨hdel, hlist, hno⟩
    · exact hnotNew r ho hnew
  · intro hlive r ho
    constructor
    · intro hr
      rcases (hh.mem r).mp hr with ⟨hr, -⟩ | hnew
      · exact hr
      · exact absurd hnew (hnotNew r ho)
    · intro hr
      refine (hh.mem r).mpr (.inl ⟨hr, ?_⟩)
      rintro ⟨hdel, hlist, hno⟩
      exact hno (hlive hdel r hr hlist ho)

/-- A pass over a hub that is told `live`. -/
theorem Resumes.passed {g g' : Hub} (hr : Resumes h g handler live) (hs : h.store.Sound) (hd : h.DrawsFresh)
    (ht : g.TakesNew handler s live) (hok : Act.fetchAll handler s g = .ok () g') :
    Passed g g' handler s live := by
  have hsound : g.store.Sound := by
    rw [hr.store]
    exact hs
  have hfresh : g.DrawsFresh := by
    unfold DrawsFresh
    rw [hr.store, hr.drawn]
    exact hd
  obtain ⟨c, hc, rfl⟩ := hr.reports
  exact passed_of_fetchAll hsound hfresh ht hc hok

/-- **Reconciliation can be tried again.**  A pass that fails at a call to the store returns the error of this
call, publishes nothing and leaves every record at a live address alone; the handler has its old records, or those
that are not stale and the first new ones.  A later pass that is told the same instances and succeeds ends with
the rows of a pass that has never failed.  The records of others are as before exactly if the selection has
listed none of them as stale: always in memory, and in a database as long as no owner holds a zero character. -/
theorem fetchAll_retry_safe (hstore : h.store.Reached) (hd : h.DrawsFresh) (ht : h.TakesNew handler s live)
    (hc : h.registrations.connectors.get? handler.discoveryId = some c)
    (hlive : h.reported c (h.watchKey handler) = live) (hfail : Act.FailsAt c handler s h stop e h₁) :
    ∃ h', Act.fetchAll handler s h = .error e h' ∧ Interrupted h h' handler s live stop ∧
      ((∀ r, r.owner ≠ handler.id → (r ∈ h'.store ↔ r ∈ h.store)) ↔
        (stop.hasDeleted = true → ∀ r ∈ h.store, h.store.lists handler.id r = true → r.owner ≠ handler.id →
          ∃ i ∈ live, i.url = r.url)) ∧
      ((h.store.isEmbedded = true →
          '\x00' ∉ handler.id.toList ∧ ∀ r ∈ h.store, '\x00' ∉ r.owner.toList) →
        ∀ r, r.owner ≠ handler.id → (r ∈ h'.store ↔ r ∈ h.store)) ∧
      ∀ g g' g₂ g₂', Resumes h g handler live → Act.fetchAll handler s g = .ok () g' →
        Resumes h' g₂ handler live → g₂.TakesNew handler s live → Act.fetchAll handler s g₂ = .ok () g₂' →
          g₂'.rows handler.id = g'.rows handler.id := by
  have hs : h.store.Sound := hstore.sound
  have hpass := Act.fetchAll_of_error hc (Act.reconcile_eq_error.mpr (.inr ⟨stop, hfail⟩))
  -- counting the failure touches nothing that matters
  have hhalted : Halted h (h₁.count (.reconcileFailures handler.discoveryId) 1) handler s live stop := by
    have hh := Act.halted_of_failsAt hs hd ht hlive hfail
    exact ⟨hh.sound, hh.isEmbedded, hh.fresh, hh.outlet, hh.mem⟩
  have hothers := hhalted.others_iff hs
  obtain ⟨hset, -⟩ := Act.told_fetchAll handler s h
  rw [Act.left_of_error hpass] at hset
  refine ⟨_, hpass, hhalted.interrupted,
    hothers, fun hz => hothers.mpr fun _ r hr hlist ho => absurd ?_ ho, ?_⟩
  · exact Store.owner_eq_of_lists (fun he => ⟨(hz he).1, (hz he).2 r hr⟩) hlist
  · intro g g' g₂ g₂' hg hok hg₂ ht₂ hok₂
    have hp : Passed g g' handler s live := hg.passed hs hd (ht.congr hg) hok
    have hp₂ : Passed g₂ g₂' handler s live := hg₂.passed hhalted.sound hhalted.fresh ht₂ hok₂
    exact hhalted.rows_eq hs hg hp hg₂.store (hg₂.settings.trans hset) hp₂

/-- A pass over a store in memory that fails at the second of two insertions, and is tried again. -/
theorem fetchAll_retry_safe_secondInsert :
    let live : List Instance := [⟨"b", 2, 10, 0⟩, ⟨"c", 3, 20, 0⟩]
    let g := withLive (holding (.memory .empty) staleRecord) live
    let h : Hub := { g with faults := [⟨"store.insert", .storage .database, 1, 1⟩] }
    let handler : Handler := ⟨"h", "d", "/k", "", ""⟩
    let pass := Act.fetchAll handler ⟨"s", "s", "p", "ns"⟩
    let h' := pass.left h
    (∃ e, pass h = .error e h') ∧ Interrupted h h' handler ⟨"s", "s", "p", "ns"⟩ live (.insert 1) ∧
      (pass.left h').rows "h" = (pass.left g).rows "h" := by
  intro live g h handler pass h'
  have hi : (Store.memory .empty).insert staleRecord = .ok (holding (.memory .empty) staleRecord) := rfl
  have hstore : h.store.Reached := .insert .memory (fun he => by cases he) rfl hi
  have hd : h.DrawsFresh :=
    drawsFresh_holding Store.Reached.memory.sound (fun he => by cases he) (fun _ => rfl) hi (by decide) live
  have ht : ∀ g : Hub, g.store.isEmbedded = false → g.TakesNew handler ⟨"s", "s", "p", "ns"⟩ live := by
    intro g hg i _ n _ he
    rw [hg] at he
    cases he
  -- the calls up to the failure, one after another
  let b := Endpoint.ofInstance ⟨"b", 2, 10, 0⟩ ⟨"s", "s", "p", "ns"⟩ "http://"
  let x := Endpoint.ofInstance ⟨"c", 3, 20, 0⟩ ⟨"s", "s", "p", "ns"⟩ "http://"
  let h₂ := (Act.select "h").left h
  let h₃ := (Act.deleteStale "d" ["id-1"]).left h₂
  let h₄ := (Act.insertAll "d" "h" [b]).left h₃
  let plan := Plan.of [staleRecord] (candidates live ⟨"s", "s", "p", "ns"⟩ h.settings.defaultProtocol)
  have hplan : plan = ⟨["id-1"], [b, x]⟩ := by decide +kernel
  have hkey : h.watchKey handler = "/k" := by decide +kernel
  have hreported : h.reported 0 (h.watchKey handler) = live := by rw [hkey]; rfl
  have hlist : Act.selectInstances 0 (h.watchKey handler) h = .ok live h := by rw [hkey]; rfl
  have hselect : Act.select handler.id h = .ok [staleRecord] h₂ := rfl
  have hdelete : Act.deleteStale handler.discoveryId plan.stale h₂ = .ok () h₃ := by
    rw [hplan]
    exact Act.eq_ok_of_isOk (by decide +kernel)
  have hinserts : plan.inserts = [b] ++ x :: [] := by rw [hplan]; rfl
  have hdone : Act.insertAll handler.discoveryId handler.id [b] h₃ = .ok () h₄ :=
    Act.eq_ok_of_isOk (by decide +kernel)
  obtain ⟨e, hinsert⟩ := Act.eq_error_of_not_isOk
    (show (Act.insert handler.id x).isOk h₄ = false by decide +kernel)
  have hfail : Act.FailsAt 0 handler ⟨"s", "s", "p", "ns"⟩ h (.insert [b].length) e
      ((Act.insert handler.id x).left h₄) := .insert hlist hselect hdelete hinserts hdone hinsert
  obtain ⟨h₁, hpass, hint, -, -, hretry⟩ := fetchAll_retry_safe hstore hd (ht h rfl) rfl hreported hfail
  have hleft : h' = h₁ := Act.left_of_error hpass
  have hmemory : h₁.store.isEmbedded = false := by
    rw [← hleft]
    decide +kernel
  have hagain : pass.isOk h₁ = true := by
    rw [← hleft]
    decide +kernel
  obtain ⟨-, hreports⟩ := Act.told_fetchAll handler ⟨"s", "s", "p", "ns"⟩ h
  rw [Act.left_of_error hpass] at hreports
  have hg : Resumes h g handler live := ⟨rfl, rfl, rfl, 0, rfl, hreported⟩
  have hh₁ : Resumes h₁ h₁ handler live := ⟨rfl, rfl, rfl, (hreports handler live).mpr ⟨0, rfl, hreported⟩⟩
  rw [hleft]
  refine ⟨⟨e, hpass⟩, hint, hretry g _ h₁ _ hg ?_ hh₁ (ht h₁ hmemory) (Act.eq_ok_of_isOk hagain)⟩
  exact Act.eq_ok_of_isOk (by decide +kernel)

/-- A database that holds a record of another handler, and a registry with an instance. -/
def besideForeign : Hub :=
  (probed (holding (.embedded .empty) foreignRecord)).afterAll 0 [
    .create { id := "d", registryType := "local" }, .register "/k" ⟨"b", 2, 50, 0⟩]

/-- With zero characters in owners a pass that fails may have deleted a record of others. -/
theorem exists_failed_pass_deletes_foreign :
    let live : List Instance := [⟨"b", 2, 50, 0⟩]
    let h : Hub := { besideForeign with faults := [⟨"store.insert", .storage .database, 0, 1⟩] }
    let pass := Act.fetchAll ⟨"h", "d", "/k", "", ""⟩ ⟨"s", "s", "p", "ns"⟩
    h.store.Reached ∧ h.DrawsFresh ∧ h.TakesNew ⟨"h", "d", "/k", "", ""⟩ ⟨"s", "s", "p", "ns"⟩ live ∧
      h.Reports ⟨"h", "d", "/k", "", ""⟩ live ∧ (∃ e, pass h = .error e (pass.left h)) ∧
      foreignRecord.owner ≠ "h" ∧ foreignRecord ∈ h.store ∧ foreignRecord ∉ (pass.left h).store := by
  intro live h pass
  have hi : (Store.embedded .empty).insert foreignRecord =
      .ok (holding (.embedded .empty) foreignRecord) := rfl
  have hfit : (Store.embedded .empty).Takes foreignRecord := fun _ =>
    ⟨by decide +kernel, by decide +kernel, by decide +kernel, by decide +kernel, by decide +kernel,
      by decide +kernel⟩
  have hd : h.DrawsFresh :=
    drawsFresh_holding Store.Reached.embedded.sound hfit (fun _ => rfl) hi (by decide) live
  have ht : h.TakesNew ⟨"h", "d", "/k", "", ""⟩ ⟨"s", "s", "p", "ns"⟩ live := by
    intro i hlive n hn _
    obtain rfl := List.mem_singleton.mp hlive
    have hn : n = 0 ∨ n = 1 := by
      have hbound : n ≤ 0 + 1 := hn
      omega
    rcases hn with rfl | rfl
    · exact ⟨by decide +kernel, by decide +kernel, by decide +kernel, by decide +kernel, by decide +kernel,
        by decide +kernel⟩
    · exact ⟨by decide +kernel, by decide +kernel, by decide +kernel, by decide +kernel, by decide +kernel,
        by decide +kernel⟩
  have hkey : h.watchKey ⟨"h", "d", "/k", "", ""⟩ = "/k" := by decide +kernel
  have hreported : h.reported 0 (h.watchKey ⟨"h", "d", "/k", "", ""⟩) = live := by rw [hkey]; rfl
  have hgone : (pass.left h).store.find? "id-1" = none := by decide +kernel
  refine ⟨.insert .embedded hfit rfl hi, hd, ht, ⟨0, rfl, hreported⟩,
    Act.eq_error_of_not_isOk (by decide +kernel), by decide, ?_, fun hthere => ?_⟩
  · show (holding (.embedded .empty) foreignRecord).find? "id-1" = some foreignRecord
    decide +kernel
  · rw [Store.mem_iff, show foreignRecord.id = "id-1" from rfl, hgone] at hthere
    cases hthere

end Hub

end RouteSync
