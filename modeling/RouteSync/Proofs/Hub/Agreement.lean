import Mathlib.Data.List.Nodup
import RouteSync.Proofs.Hub.Instances
import RouteSync.Proofs.Hub.Notifying
import RouteSync.Proofs.Hub.Reconciling

/-!
# Records and instances

When the records of an owner are the instances under a key, by address, weight and status (`Agrees`).  One
half says that every record shows an instance (`Within`), the other that every instance is shown by a record
(`Covers`).  Writing a change keeps each half (`within_of_upsert` and its siblings), a pass completes the
second (`Passed.agrees`), and a pass over records that agree with the instances writes nothing
(`fetchAll_settled`).
-/

namespace RouteSync

/-- A record shows an instance: address, weight and status are the same. -/
structure StoredEndpoint.Shows (r : StoredEndpoint) (i : Instance) : Prop where
  url : r.url = i.url
  weight : r.columns.weight = i.weight
  status : r.columns.status = i.status

namespace Hub

/-- Every record of an owner shows one of some instances. -/
def Within (h : Hub) (owner : String) (l : List Instance) : Prop :=
  ∀ r ∈ h.store, r.owner = owner → ∃ i ∈ l, r.Shows i

/-- Every one of some instances is shown by a record of an owner. -/
def Covers (h : Hub) (owner : String) (l : List Instance) : Prop :=
  ∀ i ∈ l, ∃ r ∈ h.store, r.owner = owner ∧ r.Shows i

/-- The records of an owner are the instances, by address, weight and status. -/
def Agrees (h : Hub) (owner : String) (l : List Instance) : Prop :=
  ∀ url weight status,
    (∃ r ∈ h.store, r.owner = owner ∧ r.url = url ∧ r.columns.weight = weight ∧ r.columns.status = status) ↔
      ∃ i ∈ l, i.url = url ∧ i.weight = weight ∧ i.status = status

/-- The calls to the store in the journal. -/
def storeCalls (h : Hub) : List StoreCall :=
  h.journal.filterMap fun
    | .store call => some call
    | _ => none

variable {h h' : Hub} {owner url : String} {l l' : List Instance} {i : Instance} {e : Endpoint}
  {kind : ChangeKind} {handler : Handler} {s : Selector} {c : ConnectorId}

theorem agrees_iff : h.Agrees owner l ↔ h.Within owner l ∧ h.Covers owner l := by
  constructor
  · intro ha
    constructor
    · intro r hr ho
      obtain ⟨i, hi, hu, hw, hs⟩ := (ha r.url r.columns.weight r.columns.status).mp ⟨r, hr, ho, rfl, rfl, rfl⟩
      exact ⟨i, hi, hu.symm, hw.symm, hs.symm⟩
    · intro i hi
      obtain ⟨r, hr, ho, hu, hw, hs⟩ := (ha i.url i.weight i.status).mpr ⟨i, hi, rfl, rfl, rfl⟩
      exact ⟨r, hr, ho, hu, hw, hs⟩
  · rintro ⟨hwithin, hcovers⟩ u w st
    constructor
    · rintro ⟨r, hr, ho, rfl, rfl, rfl⟩
      obtain ⟨i, hi, hshow⟩ := hwithin r hr ho
      exact ⟨i, hi, hshow.url.symm, hshow.weight.symm, hshow.status.symm⟩
    · rintro ⟨i, hi, rfl, rfl, rfl⟩
      obtain ⟨r, hr, ho, hshow⟩ := hcovers i hi
      exact ⟨r, hr, ho, hshow.url, hshow.weight, hshow.status⟩

/-- The records of an owner are the same. -/
def SameOwned (owner : String) (h h' : Hub) : Prop :=
  ∀ r : StoredEndpoint, r.owner = owner → (r ∈ h'.store ↔ r ∈ h.store)

theorem SameOwned.of_store (hs : h'.store = h.store) : SameOwned owner h h' := by
  intro r _
  rw [hs]

theorem SameOwned.of_contents (hc : h'.contents = h.contents) : SameOwned owner h h' :=
  .of_store (contents_eq_iff.mp hc).1

theorem SameOwned.trans {h'' : Hub} (h₁ : SameOwned owner h h') (h₂ : SameOwned owner h' h'') :
    SameOwned owner h h'' :=
  fun r ho => (h₂ r ho).trans (h₁ r ho)

/-- Writes for others leave the records of an owner alone. -/
theorem Wrote.sameOwned {ws : List (String × Endpoint)} (hw : Wrote kind ws h h')
    (ho : ∀ w ∈ ws, w.1 ≠ owner) : SameOwned owner h h' := by
  intro r hr
  have hnone : latest ws r.owner r.url = none := by
    rw [latest_eq_none_iff]
    rintro w hmem ⟨howner, -⟩
    exact ho w hmem (howner.trans hr)
  exact hw.others r.owner r.url hnone r rfl rfl

theorem Within.congr (hw : h.Within owner l) (hsame : SameOwned owner h h') : h'.Within owner l := by
  intro r hr ho
  exact hw r ((hsame r ho).mp hr) ho

theorem Covers.congr (hc : h.Covers owner l) (hsame : SameOwned owner h h') : h'.Covers owner l := by
  intro i hi
  obtain ⟨r, hr, ho, hshow⟩ := hc i hi
  exact ⟨r, (hsame r ho).mpr hr, ho, hshow⟩

/-! ### One address -/

/-- Whoever writes at one address has to see to the records that stand there. -/
theorem Within.of_place (url : String) (hw : h.Within owner l)
    (hothers : ∀ u, u ≠ url → AsBefore owner u h h')
    (hl : ∀ j ∈ l, j.url ≠ url → j ∈ l')
    (hhere : ∀ r ∈ h'.store, r.owner = owner → r.url = url → ∃ i ∈ l', r.Shows i) : h'.Within owner l' := by
  intro r hr ho
  by_cases hu : r.url = url
  · exact hhere r hr ho hu
  · obtain ⟨j, hj, hshow⟩ := hw r ((hothers r.url hu r ho rfl).mp hr) ho
    exact ⟨j, hl j hj fun hju => hu (hshow.url.trans hju), hshow⟩

theorem Covers.of_place (url : String) (hc : h.Covers owner l)
    (hothers : ∀ u, u ≠ url → AsBefore owner u h h')
    (hl : ∀ j ∈ l', j.url ≠ url → j ∈ l)
    (hhere : ∀ j ∈ l', j.url = url → ∃ r ∈ h'.store, r.owner = owner ∧ r.Shows j) : h'.Covers owner l' := by
  intro j hj
  by_cases hu : j.url = url
  · exact hhere j hj hu
  · obtain ⟨r, hr, ho, hshow⟩ := hc j (hl j hj hu)
    exact ⟨r, (hothers r.url (fun hru => hu (hshow.url.symm.trans hru)) r ho rfl).mpr hr, ho, hshow⟩

/-- What is written for one owner at one address leaves the other addresses alone. -/
theorem Wrote.others_of_single (hw : Wrote kind [(owner, e)] h h') {u : String} (hu : u ≠ e.url) :
    AsBefore owner u h h' := by
  refine hw.others owner u (latest_eq_none_iff.mpr fun w hmem => ?_)
  obtain rfl := List.mem_singleton.mp hmem
  exact fun hplace => hu hplace.2.symm

theorem Wrote.reflects_single (hw : Wrote kind [(owner, e)] h h') : h'.Reflects kind owner e.url e.columns := by
  refine hw.reflected owner e.url e ?_
  rw [latest_single, if_pos ⟨rfl, rfl⟩]

/-- A record that an addition or an update has left is the only one at its place. -/
theorem Wrote.shows_of_upsert (hw : Wrote kind [(owner, e)] h h') (hkind : kind = .added ∨ kind = .updated)
    (he : e.url = i.url ∧ e.weight = i.weight ∧ e.status = i.status) :
    (∃ r ∈ h'.store, r.owner = owner ∧ r.Shows i) ∧
      ∀ r ∈ h'.store, r.owner = owner → r.url = i.url → r.Shows i := by
  have hreflects : ∃ r ∈ h'.store, r.owner = owner ∧ r.url = e.url ∧ r.columns = e.columns := by
    have hr := hw.reflects_single
    rcases hkind with rfl | rfl
    · obtain ⟨r, hr, ho, hu, hc, -⟩ := hr
      exact ⟨r, hr, ho, hu, hc⟩
    · obtain ⟨r, hr, ho, hu, hc, -⟩ := hr
      exact ⟨r, hr, ho, hu, hc⟩
  obtain ⟨q, hq, hqo, hqu, hqc⟩ := hreflects
  have hshow : q.Shows i := by
    refine ⟨hqu.trans he.1, ?_, ?_⟩
    · rw [hqc]
      exact he.2.1
    · rw [hqc]
      exact he.2.2
  refine ⟨⟨q, hq, hqo, hshow⟩, fun r hr ho hu => ?_⟩
  have heq := hw.stocked.sound.eq_of_place hr hq (ho.trans hqo.symm) (hu.trans hshow.url.symm)
  rw [heq]
  exact hshow

variable (hmem : ∀ j, j ∈ l' ↔ j = i ∨ j ∈ l ∧ j.url ≠ i.url)
include hmem

theorem within_of_upsert (hw : Wrote kind [(owner, e)] h h') (hkind : kind = .added ∨ kind = .updated)
    (he : e.url = i.url ∧ e.weight = i.weight ∧ e.status = i.status) (hwithin : h.Within owner l) :
    h'.Within owner l' := by
  obtain ⟨-, hhere⟩ := hw.shows_of_upsert hkind he
  refine hwithin.of_place i.url (fun u hu => hw.others_of_single (he.1 ▸ hu)) ?_ ?_
  · intro j hj hne
    exact (hmem j).mpr (.inr ⟨hj, hne⟩)
  · intro r hr ho hu
    exact ⟨i, (hmem i).mpr (.inl rfl), hhere r hr ho hu⟩

theorem covers_of_upsert (hw : Wrote kind [(owner, e)] h h') (hkind : kind = .added ∨ kind = .updated)
    (he : e.url = i.url ∧ e.weight = i.weight ∧ e.status = i.status) (hcovers : h.Covers owner l) :
    h'.Covers owner l' := by
  obtain ⟨hthere, -⟩ := hw.shows_of_upsert hkind he
  refine hcovers.of_place i.url (fun u hu => hw.others_of_single (he.1 ▸ hu)) ?_ ?_
  · intro j hj hne
    rcases (hmem j).mp hj with rfl | ⟨hj, -⟩
    · exact absurd rfl hne
    · exact hj
  · intro j hj hu
    rcases (hmem j).mp hj with rfl | ⟨-, hne⟩
    · exact hthere
    · exact absurd hu hne

omit hmem
variable (hgone : ∀ j, j ∈ l' ↔ j ∈ l ∧ j.url ≠ e.url)
include hgone

theorem within_of_delete (hw : Wrote .deleted [(owner, e)] h h') (hwithin : h.Within owner l) :
    h'.Within owner l' := by
  refine hwithin.of_place e.url (fun u hu => hw.others_of_single hu) ?_ ?_
  · intro j hj hne
    exact (hgone j).mpr ⟨hj, hne⟩
  · intro r hr ho hu
    exact absurd ⟨r, hr, ho, hu⟩ hw.reflects_single

theorem covers_of_delete (hw : Wrote .deleted [(owner, e)] h h') (hcovers : h.Covers owner l) :
    h'.Covers owner l' := by
  refine hcovers.of_place e.url (fun u hu => hw.others_of_single hu) ?_ ?_
  · intro j hj _
    exact ((hgone j).mp hj).1
  · intro j hj hu
    exact absurd hu ((hgone j).mp hj).2

omit hgone

/-! ### Passes -/

theorem Stocked.lists_iff (hs : h.Stocked) (hz : h.store.Distinguishes owner) {r : StoredEndpoint}
    (hr : r ∈ h.store) : h.store.lists owner r = true ↔ r.owner = owner := by
  constructor
  · exact Store.owner_eq_of_lists fun he => ⟨hz he, hs.distinct r hr he⟩
  · rintro rfl
    exact Store.lists_self h.store r

theorem eq_of_url {l : List Instance} (hl : (l.map Instance.url).Nodup) {i j : Instance} (hi : i ∈ l)
    (hj : j ∈ l) (hu : i.url = j.url) : i = j := List.inj_on_of_nodup_map hl hi hj hu

/-- **A pass completes** the records that show the instances. -/
theorem Passed.agrees (hp : Passed h h' handler s l) (hs : h.Stocked) (hz : h.store.Distinguishes handler.id)
    (hl : (l.map Instance.url).Nodup) (hwithin : h.Within handler.id l) : h'.Agrees handler.id l := by
  have hnew : ∀ {r : StoredEndpoint} {i : Instance}, l.find? (fun j => j.url == r.url) = some i →
      r = h.newRecord handler s i r.id → i ∈ l ∧ r.Shows i := by
    intro r i hi hr
    refine ⟨List.mem_of_find?_eq_some hi, ?_⟩
    rw [hr]
    exact ⟨rfl, rfl, rfl⟩
  refine agrees_iff.mpr ⟨fun r hr ho => ?_, fun i hi => ?_⟩
  · rcases hp.entered r hr with hr₀ | ⟨-, -, -, i, hi, hrec⟩
    · exact hwithin r hr₀ ho
    · exact ⟨i, hnew hi hrec⟩
  · by_cases hold : ∃ q ∈ h.store, q.owner = handler.id ∧ q.url = i.url
    · obtain ⟨q, hq, ho, hu⟩ := hold
      have hstay : q ∈ h'.store := (hp.left q hq).mpr fun hgone => hgone.2 ⟨i, hi, hu.symm⟩
      obtain ⟨j, hj, hshow⟩ := hwithin q hq ho
      obtain rfl := eq_of_url hl hj hi (hshow.url.symm.trans hu)
      exact ⟨q, hstay, ho, hshow⟩
    · have hfree : ∀ q ∈ h.store, h.store.lists handler.id q = true → q.url ≠ i.url :=
        fun q hq hlist hu => hold ⟨q, hq, (hs.lists_iff hz hq).mp hlist, hu⟩
      obtain ⟨r, hr, ho, hu⟩ := hp.filled i hi hfree
      rcases hp.entered r hr with hr₀ | ⟨-, -, -, j, hj, hrec⟩
      · exact absurd ⟨r, hr₀, ho, hu⟩ hold
      · obtain ⟨hjl, hshow⟩ := hnew hj hrec
        obtain rfl := eq_of_url hl hjl hi (hshow.url.symm.trans hu)
        exact ⟨r, hr, ho, hshow⟩

end Hub

namespace Act

open Hub

variable {h h' : Hub} {owner : String} {l : List Instance} {N : Nat} {handler : Handler} {s : Selector}
  {c : ConnectorId}

/-- Inserting endpoints one after another writes each of them. -/
theorem wrote_of_insertAll {d : String} {es : List Endpoint} (hs : h.Stocked)
    (ha : ∀ e ∈ es, h.Accepts N owner e) (hN : h.drawn + es.length ≤ N)
    (hok : insertAll d owner es h = .ok () h') : Wrote .added (es.map fun e => (owner, e)) h h' := by
  induction es generalizing h with
  | nil =>
    obtain ⟨-, rfl⟩ := pure_eq_ok.mp hok
    exact Wrote.refl hs
  | cons e es ih =>
    rw [List.length_cons] at hN
    obtain ⟨v, h₂, hstep, hrest⟩ := bind_eq_ok.mp hok
    obtain ⟨w, h₁, hins, hcount⟩ := bind_eq_ok.mp hstep
    obtain ⟨hstore, hdrawn, hclock, -⟩ := contents_eq_iff.mp ((keeps_contents_count _ _).of_ok hcount)
    have hw := (wrote_insert (.inl rfl) hs (ha e (by simp)) (by omega) hins).of_contents hstore hdrawn hclock
    have hd := hw.drawn
    rw [List.length_singleton] at hd
    exact hw.trans (ih hw.stocked
      (fun x hx => (ha x (by simp [hx])).congr hw.isEmbedded) (by omega) hrest)

/-- A stocked store that has lost records is stocked still. -/
theorem Cleared.stocked {g : Hub} {ids : List String} (hcl : Cleared h g ids) (hs : h.Stocked) : g.Stocked := by
  refine ⟨hcl.sound, hcl.drawsFresh hs.fresh, fun r hr => ?_⟩
  unfold Store.Distinguishes
  rw [hcl.isEmbedded]
  exact hs.distinct r (hcl.mem.mp hr).1

/-- **A pass** leaves the store stocked. -/
theorem stocked_of_fetchAll (hs : h.Stocked) (hz : h.store.Distinguishes handler.id)
    (ht : h.TakesNew handler s (h.reported c (h.watchKey handler)))
    (hc : h.registrations.connectors.get? handler.discoveryId = some c)
    (hok : fetchAll handler s h = .ok () h') :
    h'.Stocked ∧ h'.store.isEmbedded = h.store.isEmbedded := by
  obtain ⟨live, h₂, hrec, hpass⟩ := fetchAll_eq_ok hc hok
  obtain ⟨hl, stored, h₁, -, hcl, hins⟩ := reconcile_eq_ok hs.sound hrec
  subst hl
  have hlen : (Plan.of stored (candidates (h.reported c (h.watchKey handler)) s
      h.settings.defaultProtocol)).inserts.length ≤ (h.reported c (h.watchKey handler)).length :=
    Plan.length_inserts_le _
  have haccepts : ∀ e ∈ (Plan.of stored (candidates (h.reported c (h.watchKey handler)) s
      h.settings.defaultProtocol)).inserts,
      h₁.Accepts (h.drawn + (h.reported c (h.watchKey handler)).length) handler.id e := by
    intro e he
    refine ⟨?_, fun n hn => ht.of_cleared hcl he hn⟩
    unfold Store.Distinguishes
    rw [hcl.isEmbedded]
    exact hz
  have hw := wrote_of_insertAll (hcl.stocked hs) haccepts (by rw [hcl.drawn]; omega) hins
  have hpassed : Wrote .added _ h₁ h' := hw.of_contents (congrArg Contents.store hpass)
    (congrArg Contents.drawn hpass) (congrArg Contents.clock hpass)
  exact ⟨hpassed.stocked, hpassed.isEmbedded.trans hcl.isEmbedded⟩

/-! ### Passes that find nothing to do -/

/-- What a pass does before it writes: it looks up what is live and what is stored. -/
def inspect (c : ConnectorId) (handler : Handler) (s : Selector) : Act (List Endpoint) := do
  let h ← get
  let instances ← selectInstances c (h.watchKey handler)
  discard (select handler.id)
  return candidates instances s h.settings.defaultProtocol

/-- **A pass over the right addresses** looks things up and does no more, also when this fails. -/
theorem reconcile_of_settled (hs : h.store.Sound)
    (hurls : ∀ u, (∃ r ∈ h.store, h.store.lists handler.id r = true ∧ r.url = u) ↔
      ∃ i ∈ h.reported c (h.watchKey handler), i.url = u) :
    reconcile c handler s h = inspect c handler s h := by
  unfold reconcile inspect
  rw [get_bind, get_bind]
  cases hlive : selectInstances c (h.watchKey handler) h with
  | error e h₁ => rw [bind_of_error hlive, bind_of_error hlive]
  | ok live h₁ =>
    obtain ⟨rfl, hc₁⟩ := selectInstances_eq_ok hlive
    rw [bind_of_ok hlive, bind_of_ok hlive]
    cases hsel : select handler.id h₁ with
    | error e h₂ =>
      rw [bind_of_error hsel]
      exact (bind_of_error (discard_of_error hsel) _).symm
    | ok stored h₂ =>
      obtain ⟨hselect, -⟩ := select_eq_ok hsel
      rw [(contents_eq_iff.mp hc₁).1] at hselect
      obtain ⟨stored', hselect', hmem⟩ := Store.exists_select hs handler.id
      obtain rfl : stored = stored' := Except.ok.inj (hselect.symm.trans hselect')
      have hplan : Plan.of stored (candidates (h.reported c (h.watchKey handler)) s
          h.settings.defaultProtocol) = ⟨[], []⟩ := by
        refine Plan.of_eq_empty_iff.mpr fun u => ?_
        rw [exists_url_candidates, ← hurls]
        simp only [hmem, and_assoc]
      dsimp only
      rw [bind_of_ok hsel, hplan, bind_of_ok (discard_of_ok hsel)]
      rfl

theorem storeCalls_publish (h : Hub) (ev : ChangeEvent) : (h.publish ev).storeCalls = h.storeCalls := by
  unfold Hub.publish
  cases h.publisher with
  | recording => simp [storeCalls]
  | queued q => rfl

/-- **A pass that finds the addresses right** succeeds, asks the store for the records once, and writes
nothing. -/
theorem fetchAll_settled (hw : Wired c (h.wiring c)) (hf : h.faults = []) (hs : h.Stocked)
    (hz : h.store.Distinguishes handler.id)
    (hc : h.registrations.connectors.get? handler.discoveryId = some c)
    (hurls : ∀ u, (∃ r ∈ h.store, r.owner = handler.id ∧ r.url = u) ↔
      ∃ i ∈ h.instances c (h.watchKey handler), i.url = u) :
    ∃ h', fetchAll handler s h = .ok () h' ∧ h'.store = h.store ∧ h'.drawn = h.drawn ∧
      h'.storeCalls = h.storeCalls ++ [.select handler.id] := by
  let live := candidates (h.instances c (h.watchKey handler)) s h.settings.defaultProtocol
  let h₁ : Hub := { h with journal := h.journal ++ [.store (.select handler.id)] }
  have hplain : Plain c h := plain_of_wired hw
  have hreported : h.reported c (h.watchKey handler) = h.instances c (h.watchKey handler) := by
    unfold reported
    rw [hplain.probe]
    rfl
  have hlisted : ∀ u, (∃ r ∈ h.store, h.store.lists handler.id r = true ∧ r.url = u) ↔
      ∃ i ∈ h.reported c (h.watchKey handler), i.url = u := by
    intro u
    rw [hreported, ← hurls]
    exact exists_congr fun r => and_congr_right fun hr => and_congr_left' (hs.lists_iff hz hr)
  have hask : ∃ stored, select handler.id h = .ok stored h₁ := by
    obtain ⟨stored, hselect, -⟩ := Store.exists_select hs.sound handler.id
    refine ⟨stored, ?_⟩
    unfold select
    rw [bind_of_ok (call_of_faultless hf _), get_bind]
    exact ofExcept_eq_ok.mpr ⟨hselect, rfl⟩
  have hreconcile : reconcile c handler s h = .ok live h₁ := by
    obtain ⟨stored, hask⟩ := hask
    rw [reconcile_of_settled hs.sound hlisted]
    unfold inspect
    rw [get_bind, bind_of_ok (selectInstances_plain hplain (hw.ready _ hc) _)]
    exact bind_of_ok (discard_of_ok hask) _
  let h₂ : Hub := h₁.count (.reconcilePasses handler.discoveryId) 1
  let ev : ChangeEvent :=
    .single .discoveredEndpoint .update ((RouteRecord.ofSelector s).withEndpoints live)
  refine ⟨h₂.publish ev, ?_, ?_, ?_, ?_⟩
  · unfold fetchAll
    rw [get_bind]
    simp only [hc]
    rw [bind_of_ok (attempt_of_ok hreconcile)]
    rfl
  · exact congrArg Contents.store (contents_publish h₂ ev)
  · exact congrArg Contents.drawn (contents_publish h₂ ev)
  · rw [storeCalls_publish]
    show (h.journal ++ [JournalEntry.store (.select handler.id)]).filterMap _ = _
    rw [List.filterMap_append]
    rfl

end Act

end RouteSync
