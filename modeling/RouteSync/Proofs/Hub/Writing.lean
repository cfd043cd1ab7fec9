import RouteSync.Proofs.Hub.Contents
import RouteSync.Proofs.Hub.Lasting

/-!
# Writing a change

What a listener writes for the routes that are bound to it.  `Wrote` says what a sequence of writes comes to:
at a place that is written the last write shows, and any other place is as before.  A listener writes the
endpoints of a change for the owner of every route (`wrote_of_serve`).
-/

namespace RouteSync

/-- The store tells the records of an owner from those of others. -/
def Store.Distinguishes (s : Store) (owner : String) : Prop :=
  s.isEmbedded = true → '\x00' ∉ owner.toList

/-- The last of some writes at a place. -/
def latest : List (String × Endpoint) → String → String → Option Endpoint
  | [], _, _ => none
  | w :: ws, owner, url =>
    (latest ws owner url).or (if w.1 = owner ∧ w.2.url = url then some w.2 else none)

theorem latest_append (ws vs : List (String × Endpoint)) (owner url : String) :
    latest (ws ++ vs) owner url = (latest vs owner url).or (latest ws owner url) := by
  induction ws with
  | nil => simp [latest]
  | cons w ws ih => simp only [List.cons_append, latest, ih, Option.or_assoc]

theorem latest_single {owner o url : String} {e : Endpoint} :
    latest [(o, e)] owner url = if o = owner ∧ e.url = url then some e else none := rfl

theorem latest_eq_none_iff {ws : List (String × Endpoint)} {owner url : String} :
    latest ws owner url = none ↔ ∀ w ∈ ws, ¬ (w.1 = owner ∧ w.2.url = url) := by
  induction ws with
  | nil => simp [latest]
  | cons w ws ih =>
    rw [latest, Option.or_eq_none_iff, ih, List.forall_mem_cons, and_comm]
    simp

/-- What a change that names `es` writes for a route, each write with its owner. -/
def SyncListener.writes (l : SyncListener) (es : List Endpoint) (route : RouteRecord) :
    List (String × Endpoint) :=
  match route.owner with
  | none => []
  | some owner => es.map fun e => (owner, l.stamp route owner e)

/-- What is written for a route is written for its owner. -/
theorem SyncListener.owner_of_mem_writes {l : SyncListener} {es : List Endpoint} {route : RouteRecord}
    {w : String × Endpoint} (hw : w ∈ l.writes es route) : route.owner = some w.1 := by
  unfold writes at hw
  cases hroute : route.owner with
  | none =>
    rw [hroute] at hw
    cases hw
  | some owner =>
    rw [hroute] at hw
    obtain ⟨e, -, rfl⟩ := List.mem_map.mp hw
    rfl

namespace Hub

/-- The store holds at a place what a change of this kind leaves there. -/
def Reflects (kind : ChangeKind) (owner url : String) (c : Columns) (h : Hub) : Prop :=
  match kind with
  | .added | .updated =>
    ∃ r ∈ h.store, r.owner = owner ∧ r.url = url ∧ r.columns = c ∧ r.updated = h.clock
  | .deleted => ¬ ∃ r ∈ h.store, r.owner = owner ∧ r.url = url
  | .ignored => True

/-- The store holds at a place what it held there. -/
def AsBefore (owner url : String) (h h' : Hub) : Prop :=
  ∀ r : StoredEndpoint, r.owner = owner → r.url = url → (r ∈ h'.store ↔ r ∈ h.store)

/-- The store is sound, new ids are free, and the store tells the owners of its records apart. -/
structure Stocked (h : Hub) : Prop where
  sound : h.store.Sound
  fresh : h.DrawsFresh
  distinct : ∀ r ∈ h.store, h.store.Distinguishes r.owner

/-- The store can write an endpoint down for an owner, under any of the first `N` ids. -/
def Accepts (h : Hub) (N : Nat) (owner : String) (e : Endpoint) : Prop :=
  h.store.Distinguishes owner ∧ ∀ n ≤ N, h.store.Takes (e.stored (drawnId n) owner h.clock)

/-- What some writes come to. -/
structure Wrote (kind : ChangeKind) (ws : List (String × Endpoint)) (h h' : Hub) : Prop where
  stocked : h'.Stocked
  isEmbedded : h'.store.isEmbedded = h.store.isEmbedded
  clock : h'.clock = h.clock
  drawn : h'.drawn ≤ h.drawn + ws.length
  others : ∀ owner url, latest ws owner url = none → AsBefore owner url h h'
  reflected : ∀ owner url e, latest ws owner url = some e → h'.Reflects kind owner url e.columns

variable {h h' h'' : Hub} {kind : ChangeKind} {owner url : String} {e : Endpoint} {c : Columns}
  {ws vs : List (String × Endpoint)} {N : Nat}

theorem AsBefore.trans (h₁ : AsBefore owner url h h') (h₂ : AsBefore owner url h' h'') :
    AsBefore owner url h h'' :=
  fun r ho hu => (h₂ r ho hu).trans (h₁ r ho hu)

theorem AsBefore.reflects (hb : AsBefore owner url h h') (hc : h'.clock = h.clock)
    (hr : h.Reflects kind owner url c) : h'.Reflects kind owner url c := by
  have upsert : (∃ r ∈ h.store, r.owner = owner ∧ r.url = url ∧ r.columns = c ∧ r.updated = h.clock) →
      ∃ r ∈ h'.store, r.owner = owner ∧ r.url = url ∧ r.columns = c ∧ r.updated = h'.clock := by
    rintro ⟨r, hr, ho, hu, hcol, hup⟩
    exact ⟨r, (hb r ho hu).mpr hr, ho, hu, hcol, hup.trans hc.symm⟩
  cases kind with
  | added => exact upsert hr
  | updated => exact upsert hr
  | deleted =>
    rintro ⟨r, hr', ho, hu⟩
    exact hr ⟨r, (hb r ho hu).mp hr', ho, hu⟩
  | ignored => trivial

/-- Whether a record can be written down does not depend on the time it carries. -/
theorem Accepts.congr (ha : h.Accepts N owner e) (he : h'.store.isEmbedded = h.store.isEmbedded) :
    h'.Accepts N owner e := by
  refine ⟨fun hemb => ha.1 (he ▸ hemb), fun n hn hemb => ?_⟩
  have hfit := ha.2 n hn (he ▸ hemb)
  exact ⟨hfit.id, hfit.owner, hfit.url, hfit.columns⟩

theorem Stocked.of_hits (hs : h.Stocked) (hz : h.store.Distinguishes owner) {r : StoredEndpoint}
    (hr : r ∈ h.store) (hh : h.store.Hits owner url r) : r.owner = owner ∧ r.url = url := by
  have ho : r.owner = owner :=
    Store.owner_eq_of_lists (fun he => ⟨hz he, hs.distinct r hr he⟩) (Store.lists_of_hits hh)
  exact ⟨ho, Store.url_eq_of_hits hh ho⟩

theorem hits_of_eq {s : Store} {r : StoredEndpoint} (ho : r.owner = owner) (hu : r.url = url) :
    s.Hits owner url r := by
  subst ho hu
  exact Store.hits_self s r

theorem Wrote.refl (hs : h.Stocked) : Wrote kind [] h h where
  stocked := hs
  isEmbedded := rfl
  clock := rfl
  drawn := Nat.le_refl _
  others _ _ _ _ _ _ := Iff.rfl
  reflected _ _ _ hw := by cases hw

theorem Wrote.trans (h₁ : Wrote kind ws h h') (h₂ : Wrote kind vs h' h'') :
    Wrote kind (ws ++ vs) h h'' where
  stocked := h₂.stocked
  isEmbedded := h₂.isEmbedded.trans h₁.isEmbedded
  clock := h₂.clock.trans h₁.clock
  drawn := by
    have hd₁ := h₁.drawn
    have hd₂ := h₂.drawn
    rw [List.length_append]
    omega
  others owner url hn := by
    rw [latest_append, Option.or_eq_none_iff] at hn
    exact (h₁.others owner url hn.2).trans (h₂.others owner url hn.1)
  reflected owner url e he := by
    rw [latest_append] at he
    cases hv : latest vs owner url with
    | some x =>
      rw [hv] at he
      cases he
      exact h₂.reflected owner url e hv
    | none =>
      rw [hv, Option.none_or] at he
      exact (h₂.others owner url hv).reflects h₂.clock (h₁.reflected owner url e he)

/-- What comes after the last write need not change anything that counts. -/
theorem Wrote.of_contents (hw : Wrote kind ws h h') (hs : h''.store = h'.store)
    (hd : h''.drawn = h'.drawn) (hc : h''.clock = h'.clock) : Wrote kind ws h h'' where
  stocked := by
    refine ⟨?_, ?_, ?_⟩
    · rw [hs]
      exact hw.stocked.sound
    · unfold DrawsFresh
      rw [hs, hd]
      exact hw.stocked.fresh
    · rw [hs]
      exact hw.stocked.distinct
  isEmbedded := by rw [hs, hw.isEmbedded]
  clock := hc.trans hw.clock
  drawn := hd ▸ hw.drawn
  others owner url hn := by
    unfold AsBefore
    rw [hs]
    exact hw.others owner url hn
  reflected owner url e he := by
    have hbefore : AsBefore owner url h' h'' := by
      intro r _ _
      rw [hs]
    exact hbefore.reflects hc (hw.reflected owner url e he)

end Hub

namespace Act

open Hub

variable {h h' : Hub} {kind : ChangeKind} {owner : String} {e : Endpoint} {N : Nat}

/-- An addition or an update is reflected by a record of this moment. -/
theorem reflects_upsert (hkind : kind = .added ∨ kind = .updated) {url : String} {c : Columns}
    {r : StoredEndpoint} (hr : r ∈ h.store) (ho : r.owner = owner) (hu : r.url = url)
    (hc : r.columns = c) (hup : r.updated = h.clock) : h.Reflects kind owner url c := by
  rcases hkind with rfl | rfl
  · exact ⟨r, hr, ho, hu, hc, hup⟩
  · exact ⟨r, hr, ho, hu, hc, hup⟩

/-- Where an update hits nothing everything is as before. -/
theorem asBefore_of_overwrite {o u : String} {now : UInt64} (hs : h.store.Sound)
    (hf : ∀ id, h'.store.find? id = (h.store.find? id).map (h.store.overwrite owner e.url e.columns now))
    (hno : ∀ r ∈ h.store, r.owner = o → r.url = u → ¬ h.store.Hits owner e.url r) : AsBefore o u h h' := by
  intro x hxo hxu
  rw [Store.mem_overwrite_iff hs hf]
  constructor
  · rintro ⟨r, hr, rfl⟩
    rw [Store.overwrite_owner] at hxo
    rw [Store.overwrite_url] at hxu
    rw [Store.overwrite_of_not_hits (hno r hr hxo hxu)]
    exact hr
  · intro hx
    exact ⟨x, hx, (Store.overwrite_of_not_hits (hno x hx hxo hxu)).symm⟩

/-- **An update** overwrites the record of its place, or says that there is none. -/
theorem wrote_update {b : Bool} (hkind : kind = .added ∨ kind = .updated) (hs : h.Stocked)
    (ha : h.Accepts N owner e) (hok : update owner e h = .ok b h') :
    Wrote kind (if b = true then [(owner, e)] else []) h h' ∧
      (b = false → ∀ r ∈ h'.store, ¬ h'.store.Hits owner e.url r) := by
  obtain ⟨s', hs', hc'⟩ := update_eq_ok hok
  have hcol : h.store.TakesColumns e.columns := fun he => (ha.2 0 (Nat.zero_le N) he).columns
  obtain ⟨t, b', ht, hsound, hemb, hb, hfind⟩ := Store.exists_update hs.sound owner e.url hcol h.clock
  rw [hs'] at ht
  cases ht
  obtain ⟨rfl, h2, h3, -⟩ := contents_store_iff.mp hc'
  have hmem : ∀ x, x ∈ h'.store ↔ ∃ r ∈ h.store, x = h.store.overwrite owner e.url e.columns h.clock r :=
    fun x => Store.mem_overwrite_iff hs.sound hfind
  have hstocked : h'.Stocked := by
    refine ⟨hsound, hs.fresh.of_find? (Nat.le_of_eq h2.symm) ?_, ?_⟩
    · intro id hid
      rw [hfind, hid]
      rfl
    · intro x hx
      obtain ⟨r, hr, rfl⟩ := (hmem x).mp hx
      have hd := hs.distinct r hr
      unfold Store.Distinguishes at hd ⊢
      rw [hemb, Store.overwrite_owner]
      exact hd
  cases b with
  | false =>
    have hnone : ∀ r ∈ h.store, ¬ h.store.Hits owner e.url r := by
      intro r hr hh
      have htrue := hb.mpr ⟨r, hr, hh⟩
      cases htrue
    refine ⟨⟨hstocked, hemb, h3, by simp [h2], ?_, ?_⟩, ?_⟩
    · intro o u _
      exact asBefore_of_overwrite hs.sound hfind fun r hr _ _ => hnone r hr
    · intro o u x hx
      cases hx
    · rintro - x hx hh
      obtain ⟨r, hr, rfl⟩ := (hmem x).mp hx
      rw [Store.overwrite_of_not_hits (hnone r hr)] at hh
      exact hnone r hr ((Store.hits_congr hemb).mp hh)
  | true =>
    refine ⟨⟨hstocked, hemb, h3, by simp [h2], ?_, ?_⟩, by simp⟩
    · intro o u hn
      rw [if_pos rfl, latest_eq_none_iff] at hn
      refine asBefore_of_overwrite hs.sound hfind fun r hr hro hru hh => ?_
      obtain ⟨ho, hu⟩ := hs.of_hits ha.1 hr hh
      exact hn _ (List.mem_singleton.mpr rfl) ⟨ho.symm.trans hro, hu.symm.trans hru⟩
    · intro o u x hx
      rw [if_pos rfl, latest_single] at hx
      split_ifs at hx with hplace
      obtain ⟨rfl, rfl⟩ := hplace
      cases hx
      obtain ⟨r, hr, hh⟩ := hb.mp rfl
      obtain ⟨ho, hu⟩ := hs.of_hits ha.1 hr hh
      have hfr := (hmem _).mpr ⟨r, hr, rfl⟩
      rw [Store.overwrite_of_hits hh] at hfr
      exact reflects_upsert hkind hfr ho hu rfl h3.symm

theorem wrote_insert (hkind : kind = .added ∨ kind = .updated) (hs : h.Stocked)
    (ha : h.Accepts N owner e) (hN : h.drawn + 1 ≤ N) (hok : insert owner e h = .ok () h') :
    Wrote kind [(owner, e)] h h' := by
  obtain ⟨s', hs', hc'⟩ := insert_eq_ok hok
  have hid : h.store.find? (drawnId (h.drawn + 1)) = none := hs.fresh _ (by omega)
  obtain ⟨hsound, hemb, hfind⟩ := Store.find?_insert hs.sound (ha.2 _ hN) hid hs'
  obtain ⟨rfl, h2, h3, -⟩ := contents_insert_iff.mp hc'
  have hmem : ∀ x, x ∈ h'.store ↔ x = e.stored (drawnId (h.drawn + 1)) owner h.clock ∨ x ∈ h.store :=
    fun x => Store.mem_add_iff hid hfind
  refine ⟨⟨hsound, hs.fresh.of_add h2 hfind, ?_⟩, hemb, h3, by simp [h2], ?_, ?_⟩
  · intro x hx
    unfold Store.Distinguishes
    rw [hemb]
    rcases (hmem x).mp hx with rfl | hx
    · exact ha.1
    · exact hs.distinct x hx
  · intro o u hn r hro hru
    rw [hmem]
    refine or_iff_right ?_
    rintro rfl
    exact latest_eq_none_iff.mp hn _ (List.mem_singleton.mpr rfl) ⟨hro, hru⟩
  · intro o u x hx
    rw [latest_single] at hx
    split_ifs at hx with hplace
    obtain ⟨rfl, rfl⟩ := hplace
    cases hx
    exact reflects_upsert hkind ((hmem _).mpr (.inl rfl)) rfl rfl rfl h3.symm

theorem wrote_delete {n : Nat} (hs : h.Stocked) (ha : h.Accepts N owner e)
    (hok : deleteByUrl owner e.url h = .ok n h') : Wrote .deleted [(owner, e)] h h' := by
  obtain ⟨s', hs', hc'⟩ := deleteByUrl_eq_ok hok
  obtain ⟨t, m, ht, hsound, hemb, hfind⟩ := Store.exists_deleteByUrl hs.sound owner e.url
  rw [hs'] at ht
  cases ht
  obtain ⟨rfl, h2, h3, -⟩ := contents_store_iff.mp hc'
  have hmem : ∀ x, x ∈ h'.store ↔ x ∈ h.store ∧ ¬ h.store.Hits owner e.url x := by
    intro x
    rw [Store.mem_filter_iff hfind, decide_eq_true_eq]
  refine ⟨⟨hsound, hs.fresh.of_find? (Nat.le_of_eq h2.symm) ?_, ?_⟩, hemb, h3, by simp [h2], ?_, ?_⟩
  · intro id hid
    rw [hfind, hid]
    rfl
  · intro x hx
    unfold Store.Distinguishes
    rw [hemb]
    exact hs.distinct x ((hmem x).mp hx).1
  · intro o u hn r hro hru
    rw [hmem]
    refine and_iff_left_of_imp fun hr hh => ?_
    obtain ⟨ho, hu⟩ := hs.of_hits ha.1 hr hh
    exact latest_eq_none_iff.mp hn _ (List.mem_singleton.mpr rfl) ⟨ho.symm.trans hro, hu.symm.trans hru⟩
  · intro o u x hx
    rw [latest_single] at hx
    split_ifs at hx with hplace
    obtain ⟨rfl, rfl⟩ := hplace
    rintro ⟨r, hr, hro, hru⟩
    exact ((hmem r).mp hr).2 (hits_of_eq hro hru)

/-- **Writing one endpoint** of a change. -/
theorem wrote_of_applyChange (hkind : kind ≠ .ignored) (hs : h.Stocked) (ha : h.Accepts N owner e)
    (hN : h.drawn + 1 ≤ N) (hok : applyChange kind owner e h = .ok () h') :
    Wrote kind [(owner, e)] h h' := by
  have upsert : (kind = .added ∨ kind = .updated) →
      (do if !(← update owner e) then insert owner e : Act Unit) h = .ok () h' →
      Wrote kind [(owner, e)] h h' := by
    intro hup hok
    obtain ⟨b, h₁, hupdate, hrest⟩ := bind_eq_ok.mp hok
    obtain ⟨hw, -⟩ := wrote_update hup hs ha hupdate
    cases b with
    | true =>
      obtain ⟨-, rfl⟩ := pure_eq_ok.mp hrest
      exact hw
    | false =>
      have hdrawn := hw.drawn
      have hN₁ : h₁.drawn + 1 ≤ N := by
        simp only [Bool.false_eq_true, if_false, List.length_nil] at hdrawn
        omega
      exact hw.trans (wrote_insert hup hw.stocked (ha.congr hw.isEmbedded) hN₁ hrest)
  cases kind with
  | added => exact upsert (.inl rfl) hok
  | updated => exact upsert (.inr rfl) hok
  | deleted =>
    obtain ⟨n, h₁, hdel, hrest⟩ := bind_eq_ok.mp hok
    obtain ⟨-, rfl⟩ := pure_eq_ok.mp hrest
    exact wrote_delete hs ha hdel
  | ignored => exact absurd rfl hkind

theorem wrote_of_forM {f : Endpoint → Endpoint} (hkind : kind ≠ .ignored) {es : List Endpoint}
    (hs : h.Stocked) (ha : ∀ e ∈ es, h.Accepts N owner (f e)) (hN : h.drawn + es.length ≤ N)
    (hok : (es.forM fun e => applyChange kind owner (f e)) h = .ok () h') :
    Wrote kind (es.map fun e => (owner, f e)) h h' := by
  induction es generalizing h with
  | nil =>
    obtain ⟨-, rfl⟩ := pure_eq_ok.mp hok
    exact Wrote.refl hs
  | cons e es ih =>
    rw [List.length_cons] at hN
    obtain ⟨v, h₁, hstep, hrest⟩ := bind_eq_ok.mp hok
    have hw := wrote_of_applyChange hkind hs (ha e (by simp)) (by omega) hstep
    have hdrawn := hw.drawn
    rw [List.length_singleton] at hdrawn
    have ha₁ : ∀ x ∈ es, h₁.Accepts N owner (f x) := fun x hx =>
      (ha x (by simp [hx])).congr hw.isEmbedded
    exact hw.trans (ih hw.stocked ha₁ (by omega) hrest)

/-- **What a listener writes for one route** it writes for the owner of the route. -/
theorem wrote_of_syncRoute {l : SyncListener} {es : List Endpoint} {route : RouteRecord}
    (hkind : kind ≠ .ignored) (hs : h.Stocked) (ha : ∀ w ∈ l.writes es route, h.Accepts N w.1 w.2)
    (hN : h.drawn + (l.writes es route).length ≤ N) (hok : syncRoute l kind es route h = .ok () h') :
    Wrote kind (l.writes es route) h h' := by
  unfold syncRoute at hok
  unfold SyncListener.writes at ha hN ⊢
  cases hroute : route.owner with
  | none =>
    rw [hroute] at hok
    obtain ⟨-, rfl⟩ := pure_eq_ok.mp hok
    exact Wrote.refl hs
  | some owner =>
    rw [hroute] at hok ha hN
    obtain ⟨v, h₁, hwrite, hok⟩ := bind_eq_ok.mp hok
    obtain ⟨now, h₂, hsel, hpub⟩ := bind_eq_ok.mp hok
    have ha₁ : ∀ e ∈ es, h.Accepts N owner (l.stamp route owner e) := fun e he =>
      ha _ (List.mem_map_of_mem he)
    have hw := wrote_of_forM hkind hs ha₁ (by simpa using hN) hwrite
    have hc' := publish_eq_ok hpub
    obtain ⟨hstore, hdrawn, hclock, -⟩ := contents_eq_iff.mp (select_eq_ok hsel).2
    refine hw.of_contents ?_ ?_ ?_
    · exact (congrArg Contents.store hc').trans hstore
    · exact (congrArg Contents.drawn hc').trans hdrawn
    · exact (congrArg Contents.clock hc').trans hclock

/-- **What a listener writes for its routes** one after another. -/
theorem wrote_of_serve {l : SyncListener} {es : List Endpoint} {routes : List RouteRecord}
    (hkind : kind ≠ .ignored) (hs : h.Stocked)
    (ha : ∀ w ∈ routes.flatMap (l.writes es), h.Accepts N w.1 w.2)
    (hN : h.drawn + (routes.flatMap (l.writes es)).length ≤ N)
    (hok : (routes.forM fun route => syncRoute l kind es route) h = .ok () h') :
    Wrote kind (routes.flatMap (l.writes es)) h h' := by
  induction routes generalizing h with
  | nil =>
    obtain ⟨-, rfl⟩ := pure_eq_ok.mp hok
    exact Wrote.refl hs
  | cons route routes ih =>
    rw [List.flatMap_cons] at ha hN ⊢
    rw [List.length_append] at hN
    obtain ⟨v, h₁, hstep, hrest⟩ := bind_eq_ok.mp hok
    have hw := wrote_of_syncRoute hkind hs (fun w hw => ha w (List.mem_append_left _ hw)) (by omega) hstep
    have hdrawn := hw.drawn
    have ha₁ : ∀ w ∈ routes.flatMap (l.writes es), h₁.Accepts N w.1 w.2 := fun w hw' =>
      (ha w (List.mem_append_right _ hw')).congr hw.isEmbedded
    exact hw.trans (ih hw.stocked ha₁ (by omega) hrest)

end Act

end RouteSync
