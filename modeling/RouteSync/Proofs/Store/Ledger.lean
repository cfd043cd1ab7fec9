import RouteSync.Proofs.Store.Interchange

/-!
# The store in memory as a ledger

A ledger has at most one record for every owner and address, and no ids to look anything up by.
`Ledger.Step` says what a request does to it, and it leaves no choice (`Step.unique`).  The store in memory
does the same step for step: `answers_run` says that its answers are the ones that the ledger allows, and
that it ends with the records of the ledger.
-/

namespace RouteSync

/-- The record of every owner at every address. -/
abbrev Ledger := String × String → Option StoredEndpoint

namespace Ledger

def empty : Ledger := fun _ => none

def set (m : Ledger) (owner url : String) (o : Option StoredEndpoint) : Ledger :=
  Function.update m (owner, url) o

def Holds (m : Ledger) (id : String) : Prop := ∃ k r, m k = some r ∧ r.id = id

/-- What a request answers and does. -/
inductive Step (m : Ledger) : StoreRequest → Except StorageError StoreAnswer → Ledger → Prop
  /-- All records of the owner and no others, the oldest first and those of one moment by address. -/
  | select {owner : String} {l : List StoredEndpoint} (hmem : ∀ r, r ∈ l ↔ ∃ url, m (owner, url) = some r)
      (hsorted : l.Pairwise fun a b => a.created < b.created ∨ a.created = b.created ∧ a.url < b.url) :
    Step m (.select owner) (.ok (.records l)) m
  | insert {r : StoredEndpoint} (hfree : m (r.owner, r.url) = none) :
    Step m (.insert r) (.ok .inserted) (m.set r.owner r.url (some r))
  | refuse {r x : StoredEndpoint} (htaken : m (r.owner, r.url) = some x) :
    Step m (.insert r) (.error (.duplicate r.owner r.url)) m
  | update {owner url : String} {c : Columns} {now : UInt64} {r : StoredEndpoint}
      (hr : m (owner, url) = some r) :
    Step m (.update owner url c now) (.ok (.updated true))
      (m.set owner url (some { r with columns := c, updated := now }))
  | miss {owner url : String} {c : Columns} {now : UInt64} (hfree : m (owner, url) = none) :
    Step m (.update owner url c now) (.ok (.updated false)) m
  /-- Every listed id under which there is a record counts once. -/
  | deleteByIds {ids : List String} (held : Finset String)
      (hheld : ∀ id, id ∈ held ↔ id ∈ ids ∧ m.Holds id) :
    Step m (.deleteByIds ids) (.ok (.deleted held.card)) fun k => (m k).filter fun r => r.id ∉ ids
  | deleteByUrl {owner url : String} {r : StoredEndpoint} (hr : m (owner, url) = some r) :
    Step m (.deleteByUrl owner url) (.ok (.deleted 1)) (m.set owner url none)
  | deleteNothing {owner url : String} (hfree : m (owner, url) = none) :
    Step m (.deleteByUrl owner url) (.ok (.deleted 0)) m

/-- Requests one after another, with their answers. -/
inductive Run : Ledger → List StoreRequest → List (Except StorageError StoreAnswer) → Ledger → Prop
  | nil {m : Ledger} : Run m [] [] m
  | cons {m m' m'' : Ledger} {q : StoreRequest} {qs : List StoreRequest}
      {a : Except StorageError StoreAnswer} {as : List (Except StorageError StoreAnswer)}
      (hstep : Step m q a m') (hrun : Run m' qs as m'') : Run m (q :: qs) (a :: as) m''

variable {m m' m'' : Ledger} {q : StoreRequest} {a a' : Except StorageError StoreAnswer}

theorem set_eq_some_iff {owner url : String} {o : Option StoredEndpoint} {k : String × String}
    {r : StoredEndpoint} :
    m.set owner url o k = some r ↔ k = (owner, url) ∧ o = some r ∨ k ≠ (owner, url) ∧ m k = some r := by
  unfold set
  rw [Function.update_apply]
  split_ifs with h <;> simp [h]

/-- A list in strict order is determined by its members. -/
theorem eq_of_sorted {l l' : List StoredEndpoint} (hl : l.Pairwise fun a b => a.before b = true)
    (hl' : l'.Pairwise fun a b => a.before b = true) (hmem : ∀ r, r ∈ l ↔ r ∈ l') : l = l' := by
  have hnodup : ∀ {l : List StoredEndpoint}, (l.Pairwise fun a b => a.before b = true) → l.Nodup :=
    by
      intro l h
      refine h.imp fun {a b} hab he => ?_
      exact StoredEndpoint.before_irrefl a (he ▸ hab)
  have hperm : l.Perm l' := (List.perm_ext_iff_of_nodup (hnodup hl) (hnodup hl')).mpr hmem
  refine hperm.eq_of_pairwise (fun a b _ _ hab hba => ?_) hl hl'
  exact absurd (StoredEndpoint.before_trans hab hba) (StoredEndpoint.before_irrefl a)

/-- **A ledger leaves no choice.** -/
theorem Step.unique (h : m.Step q a m') (h' : m.Step q a' m'') : a = a' ∧ m' = m'' := by
  cases h with
  | select hmem hsorted =>
    cases h' with
    | select hmem' hsorted' =>
      simp only [← StoredEndpoint.before_iff] at hsorted hsorted'
      rw [eq_of_sorted hsorted hsorted' fun r => (hmem r).trans (hmem' r).symm]
      exact ⟨rfl, rfl⟩
  | insert hfree =>
    cases h' with
    | insert => exact ⟨rfl, rfl⟩
    | refuse htaken => cases hfree.symm.trans htaken
  | refuse htaken =>
    cases h' with
    | insert hfree => cases hfree.symm.trans htaken
    | refuse => exact ⟨rfl, rfl⟩
  | update hr =>
    cases h' with
    | update hr' =>
      obtain rfl := Option.some.inj (hr.symm.trans hr')
      exact ⟨rfl, rfl⟩
    | miss hfree => cases hfree.symm.trans hr
  | miss hfree =>
    cases h' with
    | update hr => cases hfree.symm.trans hr
    | miss => exact ⟨rfl, rfl⟩
  | deleteByIds held hheld =>
    cases h' with
    | deleteByIds held' hheld' =>
      obtain rfl : held = held' := Finset.ext fun id => (hheld id).trans (hheld' id).symm
      exact ⟨rfl, rfl⟩
  | deleteByUrl hr =>
    cases h' with
    | deleteByUrl => exact ⟨rfl, rfl⟩
    | deleteNothing hfree => cases hfree.symm.trans hr
  | deleteNothing hfree =>
    cases h' with
    | deleteByUrl hr => cases hfree.symm.trans hr
    | deleteNothing => exact ⟨rfl, rfl⟩

theorem Run.unique {qs : List StoreRequest} {as as' : List (Except StorageError StoreAnswer)}
    (h : Run m qs as m') (h' : Run m qs as' m'') : as = as' ∧ m' = m'' := by
  induction h generalizing as' m'' with
  | nil =>
    cases h'
    exact ⟨rfl, rfl⟩
  | cons hstep _ ih =>
    cases h' with
    | cons hstep' hrest =>
      obtain ⟨rfl, rfl⟩ := hstep.unique hstep'
      obtain ⟨rfl, rfl⟩ := ih hrest
      exact ⟨rfl, rfl⟩

end Ledger

namespace Store

/-- Every record that is inserted has an id under which nothing is stored. -/
def InsertsFresh : Store → List StoreRequest → Prop
  | _, [] => True
  | s, q :: qs => (∀ r s', q = .insert r → s.insert r = .ok s' → s.find? r.id = none) ∧
      (s.next q).InsertsFresh qs

/-- A store in memory with the records of a ledger. -/
structure Represents (s : Store) (m : Ledger) : Prop where
  sound : s.Sound
  inMemory : s.isEmbedded = false
  holds : ∀ {k r}, m k = some r ↔ r ∈ s ∧ (r.owner, r.url) = k

variable {s s' : Store} {m m' : Ledger} {owner url : String} {r : StoredEndpoint}

/-! ### One request -/

section InMemory

variable (he : s.isEmbedded = false)
include he

theorem hits_iff_of_inMemory : s.Hits owner url r ↔ (r.owner, r.url) = (owner, url) := by
  cases s with
  | memory s => exact Iff.rfl
  | embedded s => cases he

theorem lists_iff_of_inMemory : s.lists owner r = true ↔ r.owner = owner := by
  cases s with
  | memory s => exact beq_iff_eq
  | embedded s => cases he

theorem takes_of_inMemory : s.Takes r := fun h => by
  rw [he] at h
  cases h

theorem takesColumns_of_inMemory {c : Columns} : s.TakesColumns c := fun h => by
  rw [he] at h
  cases h

end InMemory

namespace Represents

variable (hm : s.Represents m)
include hm

theorem at_place : m (r.owner, r.url) = some r ↔ r ∈ s := by
  rw [hm.holds]
  exact and_iff_left rfl

theorem ne_place (hfree : m (owner, url) = none) (hr : r ∈ s) : (r.owner, r.url) ≠ (owner, url) := by
  intro hplace
  rw [hm.holds.mpr ⟨hr, hplace⟩] at hfree
  cases hfree

theorem holds_iff {id : String} : m.Holds id ↔ (s.find? id).isSome = true := by
  rw [Option.isSome_iff_exists]
  constructor
  · rintro ⟨k, r, hr, rfl⟩
    exact ⟨r, (hm.holds.mp hr).1⟩
  · rintro ⟨r, hr⟩
    exact ⟨_, r, hm.at_place.mpr (hm.sound.mem_of_find? hr), hm.sound.keyed hr⟩

theorem select (owner : String) :
    ∃ a m', m.Step (.select owner) a m' ∧ s.answer (.select owner) = a ∧
      (s.next (.select owner)).Represents m' := by
  obtain ⟨l, hl, hmem⟩ := exists_select hm.sound owner
  have hout : s.outcome (.select owner) = .ok (s, .records l) := by
    simp only [outcome, hl]
    rfl
  have hmem' : ∀ r, r ∈ l ↔ ∃ url, m (owner, url) = some r := by
    intro r
    rw [hmem, lists_iff_of_inMemory hm.inMemory]
    constructor
    · rintro ⟨hr, rfl⟩
      exact ⟨r.url, hm.at_place.mpr hr⟩
    · rintro ⟨url, hr⟩
      obtain ⟨hrs, hplace⟩ := hm.holds.mp hr
      exact ⟨hrs, (Prod.mk.inj hplace).1⟩
  have hsorted : l.Pairwise fun a b => a.before b = true := by
    refine ((pairwise_select hl).and (nodup_select hm.sound hl)).imp_of_mem ?_
    rintro a b ha hb ⟨hnot, hne⟩
    by_contra hab
    obtain ⟨hcreated, hurl⟩ := StoredEndpoint.eq_place_of_not_before hab hnot
    obtain ⟨has, hao⟩ := (hmem a).mp ha
    obtain ⟨hbs, hbo⟩ := (hmem b).mp hb
    rw [lists_iff_of_inMemory hm.inMemory] at hao hbo
    exact hne (hm.sound.eq_of_place has hbs (hao.trans hbo.symm) hurl)
  simp only [StoredEndpoint.before_iff] at hsorted
  refine ⟨_, m, .select hmem' hsorted, ?_, ?_⟩
  · rw [answer, hout]
    rfl
  · rw [next, hout]
    exact hm

theorem insert (r : StoredEndpoint) (hid : ∀ s', s.insert r = .ok s' → s.find? r.id = none) :
    ∃ a m', m.Step (.insert r) a m' ∧ s.answer (.insert r) = a ∧
      (s.next (.insert r)).Represents m' := by
  cases hplace : m (r.owner, r.url) with
  | some x =>
    obtain ⟨hx, hxr⟩ := hm.holds.mp hplace
    have hrefused := insert_of_hits hm.sound hx ((hits_iff_of_inMemory hm.inMemory).mpr hxr)
    have hout : s.outcome (.insert r) = .error (.duplicate r.owner r.url) := by
      simp only [outcome, hrefused]
      rfl
    refine ⟨_, m, .refuse hplace, ?_, ?_⟩
    · rw [answer, hout]
      rfl
    · rw [next, hout]
      exact hm
  | none =>
    obtain ⟨s', hs'⟩ := exists_insert hm.sound (r := r) fun x hx hh =>
      hm.ne_place hplace hx ((hits_iff_of_inMemory hm.inMemory).mp hh)
    have hfree : s.find? r.id = none := hid s' hs'
    obtain ⟨hsound, hem, hf⟩ := find?_insert hm.sound (takes_of_inMemory hm.inMemory) hfree hs'
    have hout : s.outcome (.insert r) = .ok (s', .inserted) := by
      simp only [outcome, hs']
      rfl
    refine ⟨_, _, .insert hplace, ?_, ?_⟩
    · rw [answer, hout]
      rfl
    · rw [next, hout]
      refine ⟨hsound, hem.trans hm.inMemory, fun {k x} => ?_⟩
      rw [Ledger.set_eq_some_iff, mem_add_iff hfree hf, hm.holds]
      constructor
      · rintro (⟨rfl, hx⟩ | ⟨-, hx, hxk⟩)
        · cases hx
          exact ⟨.inl rfl, rfl⟩
        · exact ⟨.inr hx, hxk⟩
      · rintro ⟨rfl | hx, rfl⟩
        · exact .inl ⟨rfl, rfl⟩
        · exact .inr ⟨hm.ne_place hplace hx, hx, rfl⟩

theorem update (owner url : String) (c : Columns) (now : UInt64) :
    ∃ a m', m.Step (.update owner url c now) a m' ∧ s.answer (.update owner url c now) = a ∧
      (s.next (.update owner url c now)).Represents m' := by
  obtain ⟨s', b, hs', hsound, hem, hb, hf⟩ :=
    exists_update hm.sound owner url (takesColumns_of_inMemory hm.inMemory (c := c)) now
  have hout : s.outcome (.update owner url c now) = .ok (s', .updated b) := by
    simp only [outcome, hs']
    rfl
  have hthere : b = true ↔ ∃ r ∈ s, (r.owner, r.url) = (owner, url) := by
    simp only [hb, hits_iff_of_inMemory hm.inMemory]
  rw [answer, next, hout]
  cases hplace : m (owner, url) with
  | some r =>
    obtain ⟨hr, hplace'⟩ := hm.holds.mp hplace
    obtain rfl : b = true := hthere.mpr ⟨r, hr, hplace'⟩
    refine ⟨_, _, .update hplace, rfl, hsound, hem.trans hm.inMemory, fun {k x} => ?_⟩
    rw [Ledger.set_eq_some_iff, mem_overwrite_iff hm.sound hf, hm.holds]
    constructor
    · rintro (⟨rfl, hx⟩ | ⟨hne, hx, rfl⟩)
      · cases hx
        refine ⟨⟨r, hr, ?_⟩, hplace'⟩
        rw [overwrite_of_hits ((hits_iff_of_inMemory hm.inMemory).mpr hplace')]
        rfl
      · refine ⟨⟨x, hx, ?_⟩, rfl⟩
        rw [overwrite_of_not_hits fun hh => hne ((hits_iff_of_inMemory hm.inMemory).mp hh)]
    · rintro ⟨⟨y, hy, rfl⟩, rfl⟩
      rw [overwrite_owner, overwrite_url]
      by_cases hyk : (y.owner, y.url) = (owner, url)
      · obtain rfl : y = r := Option.some.inj ((hm.holds.mpr ⟨hy, hyk⟩).symm.trans hplace)
        rw [overwrite_of_hits ((hits_iff_of_inMemory hm.inMemory).mpr hyk)]
        exact .inl ⟨hyk, rfl⟩
      · rw [overwrite_of_not_hits fun hh => hyk ((hits_iff_of_inMemory hm.inMemory).mp hh)]
        exact .inr ⟨hyk, hy, rfl⟩
  | none =>
    have hnone : ∀ r ∈ s, (r.owner, r.url) ≠ (owner, url) := fun r hr => hm.ne_place hplace hr
    obtain rfl : b = false := by
      rw [Bool.eq_false_iff, Ne, hthere]
      rintro ⟨r, hr, hplace'⟩
      exact hnone r hr hplace'
    refine ⟨_, m, .miss hplace, rfl, hsound, hem.trans hm.inMemory, fun {k x} => ?_⟩
    have hsame : ∀ r ∈ s, s.overwrite owner url c now r = r := fun r hr =>
      overwrite_of_not_hits fun hh => hnone r hr ((hits_iff_of_inMemory hm.inMemory).mp hh)
    rw [hm.holds, mem_overwrite_iff hm.sound hf]
    refine and_congr_left fun _ => ⟨fun hx => ⟨x, hx, (hsame x hx).symm⟩, ?_⟩
    rintro ⟨r, hr, rfl⟩
    rw [hsame r hr]
    exact hr

theorem deleteByIds (ids : List String) :
    ∃ a m', m.Step (.deleteByIds ids) a m' ∧ s.answer (.deleteByIds ids) = a ∧
      (s.next (.deleteByIds ids)).Represents m' := by
  obtain ⟨s', n, hs', hsound, hem, hf⟩ := exists_deleteByIds hm.sound ids
  have hout : s.outcome (.deleteByIds ids) = .ok (s', .deleted n) := by
    simp only [outcome, hs']
    rfl
  obtain rfl : n = s.present ids := deleteByIds_card hm.sound hs'
  have hheld : ∀ id, id ∈ ids.toFinset.filter (fun id => (s.find? id).isSome = true) ↔
      id ∈ ids ∧ m.Holds id := by
    intro id
    rw [Finset.mem_filter, List.mem_toFinset, hm.holds_iff]
  rw [answer, next, hout]
  refine ⟨_, _, .deleteByIds _ hheld, rfl, hsound, hem.trans hm.inMemory, fun {k x} => ?_⟩
  rw [Option.filter_eq_some_iff, hm.holds, mem_iff, mem_iff, hf]
  by_cases hx : x.id ∈ ids <;> simp [hx]

theorem deleteByUrl (owner url : String) :
    ∃ a m', m.Step (.deleteByUrl owner url) a m' ∧ s.answer (.deleteByUrl owner url) = a ∧
      (s.next (.deleteByUrl owner url)).Represents m' := by
  obtain ⟨s', n, hs', hsound, hem, hf⟩ := exists_deleteByUrl hm.sound owner url
  have hout : s.outcome (.deleteByUrl owner url) = .ok (s', .deleted n) := by
    simp only [outcome, hs']
    rfl
  have hleft : ∀ x, x ∈ s' ↔ x ∈ s ∧ (x.owner, x.url) ≠ (owner, url) := by
    intro x
    rw [mem_filter_iff hf, decide_eq_true_iff, hits_iff_of_inMemory hm.inMemory]
  have hcount := deleteByUrl_card hm.sound hs'
  simp only [hits_iff_of_inMemory hm.inMemory] at hcount
  rw [answer, next, hout]
  rcases hcount with ⟨rfl, r, hr, hplace⟩ | ⟨rfl, hnone⟩
  · refine ⟨_, _, .deleteByUrl (hm.holds.mpr ⟨hr, hplace⟩), rfl, hsound, hem.trans hm.inMemory,
      fun {k x} => ?_⟩
    rw [Ledger.set_eq_some_iff, hleft, hm.holds]
    constructor
    · rintro (⟨-, hx⟩ | ⟨hne, hx, rfl⟩)
      · cases hx
      · exact ⟨⟨hx, hne⟩, rfl⟩
    · rintro ⟨⟨hx, hne⟩, rfl⟩
      exact .inr ⟨hne, hx, rfl⟩
  · have hfree : m (owner, url) = none := by
      cases hplace : m (owner, url) with
      | none => rfl
      | some x =>
        obtain ⟨hx, hxk⟩ := hm.holds.mp hplace
        exact absurd hxk (hnone x hx)
    refine ⟨_, m, .deleteNothing hfree, rfl, hsound, hem.trans hm.inMemory, fun {k x} => ?_⟩
    rw [hm.holds, hleft]
    exact and_congr_left fun _ => ⟨fun hx => ⟨hx, hnone x hx⟩, And.left⟩

/-- **The store follows the ledger** through any request. -/
theorem step {q : StoreRequest} (hq : ∀ r s', q = .insert r → s.insert r = .ok s' → s.find? r.id = none) :
    ∃ a m', m.Step q a m' ∧ s.answer q = a ∧ (s.next q).Represents m' := by
  cases q with
  | select owner => exact hm.select owner
  | insert r => exact hm.insert r fun s' => hq r s' rfl
  | update owner url c now => exact hm.update owner url c now
  | deleteByIds ids => exact hm.deleteByIds ids
  | deleteByUrl owner url => exact hm.deleteByUrl owner url

end Represents

/-! ### All requests -/

theorem Represents.exists_run (hm : s.Represents m) {qs : List StoreRequest} (hf : s.InsertsFresh qs) :
    ∃ m', Ledger.Run m qs (s.answers qs) m' ∧ (s.after qs).Represents m' := by
  induction qs generalizing s m with
  | nil => exact ⟨m, .nil, hm⟩
  | cons q qs ih =>
    obtain ⟨hq, hqs⟩ := hf
    obtain ⟨a, m₁, hstep, hanswer, hm₁⟩ := hm.step hq
    obtain ⟨m', hrun, hlast⟩ := ih hm₁ hqs
    refine ⟨m', ?_, hlast⟩
    rw [answers, hanswer]
    exact .cons hstep hrun

theorem represents_empty : (memory .empty).Represents .empty where
  sound := Reached.memory.sound
  inMemory := rfl
  holds {k r} := by
    constructor
    · rintro ⟨⟩
    · rintro ⟨hr, -⟩
      rw [mem_iff] at hr
      cases hr

/-- **The store in memory is a ledger.**  Empty at first, and asked to insert only under free ids, it gives
the answers of the ledger and holds the records of the ledger in the end.  The ledger allows no others. -/
theorem answers_run (qs : List StoreRequest) (hf : (memory .empty).InsertsFresh qs) :
    ∃ m, Ledger.Run .empty qs ((memory .empty).answers qs) m ∧
      ((memory .empty).after qs).Represents m ∧
      ∀ as m', Ledger.Run .empty qs as m' → as = (memory .empty).answers qs ∧ m' = m := by
  obtain ⟨m, hrun, hm⟩ := represents_empty.exists_run hf
  exact ⟨m, hrun, hm, fun as m' hrun' => hrun'.unique hrun⟩

theorem insertsFresh_of_admits {qs : List StoreRequest} (h : s.Admits qs) : s.InsertsFresh qs := by
  induction qs generalizing s with
  | nil => exact trivial
  | cons q qs ih =>
    obtain ⟨-, hfresh, hrest⟩ := h
    refine ⟨?_, ih hrest⟩
    rintro r s' rfl -
    exact hfresh

/-- The seven requests, the refused one among them, on a ledger. -/
theorem run_sevenRequests : (memory .empty).InsertsFresh sevenRequests ∧
    ∃ m, Ledger.Run .empty sevenRequests
      [.ok .inserted, .ok .inserted, .error (.duplicate "h" "b:2"), .ok (.updated true),
        .ok (.records [⟨"2", "h", "a\x00:1", ⟨"ns", "http://", 0, 50, ""⟩, 7, 7⟩,
          ⟨"1", "h", "b:2", ⟨"ns", "https://", 1, 60, "p"⟩, 7, 9⟩]),
        .ok (.deleted 1), .ok (.deleted 1)] m := by
  have hadmits : (memory .empty).Admits sevenRequests := by decide +kernel
  have hfresh := insertsFresh_of_admits hadmits
  obtain ⟨m, hrun, -⟩ := answers_run sevenRequests hfresh
  refine ⟨hfresh, m, ?_⟩
  have hanswers : (memory .empty).answers sevenRequests =
      [.ok .inserted, .ok .inserted, .error (.duplicate "h" "b:2"), .ok (.updated true),
        .ok (.records [⟨"2", "h", "a\x00:1", ⟨"ns", "http://", 0, 50, ""⟩, 7, 7⟩,
          ⟨"1", "h", "b:2", ⟨"ns", "https://", 1, 60, "p"⟩, 7, 9⟩]),
        .ok (.deleted 1), .ok (.deleted 1)] := by
    decide +kernel
  rw [hanswers] at hrun
  exact hrun

end Store

end RouteSync
