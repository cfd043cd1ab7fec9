import RouteSync.Proofs.Store.Insertion

/-!
# Owners whose index keys run into each other

In a database the owner of a record is read off the index key, up to a zero byte, but nothing keeps zero
characters out of owners.  If one owner is another one, a zero character and more, the two overlap: a selection
for the shorter one lists the records of the longer one.  That is the one way in which owners can get in each
other's way (`isolated_iff_not_overlap`).

What is done for an owner at an address touches one index key and the record named there (`AgreeBut`).  A
selection of another owner would have to begin with the same bytes to notice it.
-/

namespace RouteSync

/-! ### Scans -/

namespace ByteTree

variable {lead k v : Bytes}

theorem filter_put {p : Bytes → Bool} (hk : p k = false) (l : List (Bytes × Bytes)) :
    ((put k v l).filter fun e => p e.1) = l.filter fun e => p e.1 := by
  induction l with
  | nil => simp [put, hk]
  | cons e l ih =>
    obtain ⟨a, b⟩ := e
    rw [put]
    split
    · rw [List.filter_cons_of_neg (by simp [hk])]
    · split
      · rw [List.filter_cons, List.filter_cons, ih]
      · next hlt hgt =>
        obtain rfl : k = a := eq_of_not_lt hlt hgt
        rw [List.filter_cons_of_neg (by simp [hk]), List.filter_cons_of_neg (by simp [hk])]

theorem scan_insert_of_not_prefix (t : ByteTree) (h : ¬ lead <+: k) :
    (t.insert k v).scan lead = t.scan lead := by
  have hk : lead.isPrefixOf k = false := by
    rw [← Bool.not_eq_true, List.isPrefixOf_iff_prefix]
    exact h
  exact filter_put hk t.entries

theorem scan_erase_of_not_prefix (t : ByteTree) (h : ¬ lead <+: k) :
    (t.erase k).scan lead = t.scan lead := by
  unfold scan erase
  rw [List.filter_filter]
  refine List.filter_congr fun e _ => ?_
  by_cases hlead : lead.isPrefixOf e.1 = true
  · have hne : e.1 ≠ k := fun he => h (List.isPrefixOf_iff_prefix.mp (he ▸ hlead))
    simp [hne]
  · simp [hlead]

end ByteTree

/-! ### Index keys -/

namespace EmbeddedStore

open RouteSync.RecordCodec

/-- One of two owners is the other one, a zero character and more. -/
def Overlap (a b : String) : Prop := ∃ t, a = b ++ "\x00" ++ t ∨ b = a ++ "\x00" ++ t

theorem textBytes_append (s t : String) : textBytes (s ++ t) = textBytes s ++ textBytes t := by
  simp [textBytes]

theorem ownerKey_eq (owner : String) : ownerKey owner = textBytes (owner ++ "\x00") := by
  rw [textBytes_append]
  rfl

/-- The rest of a text after some of its characters is a text. -/
theorem isValidUTF8_of_append {l : List Char} {b : ByteArray} (h : (l.utf8Encode ++ b).IsValidUTF8) :
    b.IsValidUTF8 := by
  induction l with
  | nil => simpa using h
  | cons c l ih =>
    rw [List.utf8Encode_cons, ByteArray.append_assoc,
      ByteArray.isValidUTF8_utf8Encode_singleton_append_iff] at h
    exact ih h

theorem exists_append_of_prefix {s t : String} (h : textBytes s <+: textBytes t) : ∃ u, t = s ++ u := by
  obtain ⟨w, hw⟩ := h
  have hbytes : t.toByteArray = s.toByteArray ++ ⟨w.toArray⟩ := by
    rw [ByteArray.ext_iff, ByteArray.data_append]
    exact Array.toList_inj.mp (by simpa [textBytes] using hw.symm)
  have hrest : ByteArray.IsValidUTF8 ⟨w.toArray⟩ := by
    refine isValidUTF8_of_append (l := s.toList) ?_
    rw [String.utf8Encode_toList, ← hbytes]
    exact t.isValidUTF8
  refine ⟨String.ofByteArray _ hrest, String.toByteArray_inj.mp ?_⟩
  rw [String.toByteArray_append, hbytes]

/-- An owner's key begins with another owner's only if the owners are nested. -/
theorem eq_or_nested_of_prefix {a b : String} (h : ownerKey a <+: ownerKey b) :
    a = b ∨ ∃ t, b = a ++ "\x00" ++ t := by
  rw [ownerKey_eq, ownerKey_eq] at h
  obtain ⟨u, hu⟩ := exists_append_of_prefix h
  have hchars : b.toList ++ ['\x00'] = a.toList ++ ['\x00'] ++ u.toList := by
    simpa using congrArg String.toList hu
  rcases List.eq_nil_or_concat' u.toList with hnil | ⟨l, c, hl⟩
  · rw [hnil, List.append_nil] at hchars
    exact .inl (String.toList_inj.mp (List.append_cancel_right hchars).symm)
  · rw [hl, ← List.append_assoc] at hchars
    obtain ⟨hb, -⟩ := List.append_inj' hchars rfl
    refine .inr ⟨String.ofList l, String.toList_inj.mp ?_⟩
    simpa using hb

theorem ownerKey_prefix_of_nested (a t : String) : ownerKey a <+: ownerKey (a ++ "\x00" ++ t) := by
  rw [ownerKey_eq, ownerKey_eq, textBytes_append, textBytes_append]
  exact (List.prefix_append _ _).trans (List.prefix_append _ _)

/-- Only overlapping owners have a key in common. -/
theorem eq_or_overlap {a b : String} {k : Bytes} (ha : ownerKey a <+: k) (hb : ownerKey b <+: k) :
    a = b ∨ Overlap a b := by
  rcases List.prefix_or_prefix_of_prefix ha hb with h | h
  · rcases eq_or_nested_of_prefix h with rfl | ⟨t, ht⟩
    · exact .inl rfl
    · exact .inr ⟨t, .inr ht⟩
  · rcases eq_or_nested_of_prefix h with rfl | ⟨t, ht⟩
    · exact .inl rfl
    · exact .inr ⟨t, .inl ht⟩

theorem ownerKey_prefix_indexKey (owner url : String) : ownerKey owner <+: indexKey owner url :=
  List.prefix_append _ _

theorem lists_iff_prefix {owner : String} {r : StoredEndpoint} :
    lists owner r = true ↔ ownerKey owner <+: indexKey r.owner r.url := List.isPrefixOf_iff_prefix

/-! ### Stores that differ at one key -/

/-- Two stores have the same index entries but for one key, and the same records under the ids that the
other keys name. -/
structure AgreeBut (s s' : EmbeddedStore) (key : Bytes) : Prop where
  scan : ∀ lead, ¬ lead <+: key → s'.index.scan lead = s.index.scan lead
  record : ∀ k id, k ≠ key → s.catalog.entry k = some id → s'.catalog.record id = s.catalog.record id

variable {s s' : EmbeddedStore} {owner url : String}

theorem Sound.exists_found (hs : s.Sound) {e : Bytes × Bytes} (he : e ∈ s.index.scan (ownerKey owner)) :
    ∃ id r, e.2 = textBytes id ∧ s.catalog.entry e.1 = some id ∧ s.catalog.record id = some r := by
  have hget := entry_of_mem_scan he
  obtain ⟨id, hid⟩ := hs.legible.index hget
  have hentry := hs.legible.entry_eq_some_iff.mpr (hid ▸ hget)
  obtain ⟨r, hr, -⟩ := hs.catalog.indexed.mp hentry
  exact ⟨id, r, hid, hentry, hr⟩

/-- A selection whose keys are other ones notices nothing. -/
theorem AgreeBut.select_eq {key : Bytes} (h : AgreeBut s s' key) (hs : s.Sound) (hs' : s'.Legible)
    (hkey : ¬ ownerKey owner <+: key) : s'.select owner = s.select owner := by
  have hscan := h.scan _ hkey
  have hsame : ∀ e ∈ s.index.scan (ownerKey owner), s'.found e = s.found e := by
    intro e he
    obtain ⟨id, r, hid, hentry, -⟩ := hs.exists_found he
    have hother : e.1 ≠ key := by
      rintro rfl
      exact hkey (List.isPrefixOf_iff_prefix.mp (List.mem_filter.mp he).2)
    rw [found, found, hid, text?_textBytes, Option.bind_some, Option.bind_some, h.record _ _ hother hentry]
  have hall : ∀ e ∈ s.index.scan (ownerKey owner), (s.found e).isSome = true := by
    intro e he
    obtain ⟨id, r, hid, -, hr⟩ := hs.exists_found he
    rw [found, hid, text?_textBytes, Option.bind_some, hr]
    rfl
  rw [hs'.select_of_found, hs.legible.select_of_found hall, hscan, List.filterMap_congr hsame]
  intro e he
  rw [hscan] at he
  rw [hsame e he]
  exact hall e he

theorem agreeBut_insert {r : StoredEndpoint} (hs : s.Sound) (hr : r.Fit)
    (hid : s.catalog.record r.id = none) (h : s.insert r = .ok s') :
    AgreeBut s s' (indexKey r.owner r.url) := by
  obtain ⟨-, -, hc⟩ := catalog_insert hs hr h
  refine ⟨fun lead hlead => ?_, fun k id _ hk => ?_⟩
  · rw [(index_insert h).2]
    exact ByteTree.scan_insert_of_not_prefix _ hlead
  · obtain ⟨x, hx, -⟩ := hs.catalog.indexed.mp hk
    have hne : id ≠ r.id := by
      rintro rfl
      rw [hid] at hx
      cases hx
    rw [hc, Catalog.record_add, if_neg hne]

theorem agreeBut_update {c : Columns} {now : UInt64} {b : Bool} (hs : s.Sound) (hc : c.Fit)
    (h : s.update owner url c now = .ok (s', b)) : AgreeBut s s' (indexKey owner url) := by
  obtain ⟨s₁, h₁, -, hcat⟩ := catalog_update hs owner url hc now
  rw [h] at h₁
  cases h₁
  refine ⟨fun lead _ => by rw [index_update h], fun k id hne hk => ?_⟩
  obtain ⟨x, hx, hplace⟩ := hs.catalog.indexed.mp hk
  rw [hcat, Catalog.record_update hs.catalog, hx, Option.map_some, hplace, if_neg hne]

theorem agreeBut_deleteByUrl (hs : s.Sound) (owner url : String) :
    AgreeBut s (s.deleteByUrl owner url).1 (indexKey owner url) := by
  obtain ⟨-, hcat⟩ := catalog_deleteByUrl hs owner url
  refine ⟨fun lead hlead => ?_, fun k id hne hk => ?_⟩
  · unfold deleteByUrl
    dsimp only
    cases s.index.get? (indexKey owner url) with
    | none => rfl
    | some b => exact ByteTree.scan_erase_of_not_prefix _ hlead
  · obtain ⟨x, hx, hplace⟩ := hs.catalog.indexed.mp hk
    rw [hcat, Catalog.record_deleteAt hs.catalog, hx]
    simp [Option.filter_some, hplace, hne]

end EmbeddedStore

/-! ### Isolation -/

namespace Store

open EmbeddedStore (Overlap)

/-- What is done for an owner has nothing to do with the records of another one.  A refusal is owed to the
other owner if it ends when records of the other owner are deleted. -/
structure Isolated (s : Store) (owner other : String) : Prop where
  select : ∃ l, s.select owner = .ok l ∧ ∀ r ∈ l, r.owner ≠ other
  refused : ∀ r e ids s₁ n, r.owner = owner → s.insert r = .error e →
    (∀ id ∈ ids, ∃ x ∈ s, x.id = id ∧ x.owner = other) → s.deleteByIds ids = .ok (s₁, n) →
      s₁.insert r = .error e
  insert : ∀ r s', r.Fit → r.owner = owner → s.find? r.id = none → s.insert r = .ok s' →
    s'.select other = s.select other
  update : ∀ url c now, c.Fit →
    ∃ s' b, s.update owner url c now = .ok (s', b) ∧ s'.select other = s.select other
  deleteByUrl : ∀ url,
    ∃ s' n, s.deleteByUrl owner url = .ok (s', n) ∧ s'.select other = s.select other

section Separate

variable {s : EmbeddedStore} {owner other : String} (hs : s.Sound) (hne : owner ≠ other)
  (hsep : ¬ Overlap owner other)

include hne hsep

/-- The keys of the one owner are not the keys of the other. -/
theorem not_prefix_of_separate {key : Bytes} (hkey : EmbeddedStore.ownerKey owner <+: key) :
    ¬ EmbeddedStore.ownerKey other <+: key := by
  intro hother
  rcases EmbeddedStore.eq_or_overlap hkey hother with heq | hover
  · exact hne heq
  · exact hsep hover

theorem owner_ne_of_prefix {x : StoredEndpoint}
    (hx : EmbeddedStore.ownerKey owner <+: EmbeddedStore.indexKey x.owner x.url) : x.owner ≠ other := by
  rintro rfl
  exact not_prefix_of_separate hne hsep hx (EmbeddedStore.ownerKey_prefix_indexKey _ _)

include hs

/-- Who keeps a record out is still there when records of the other owner are gone. -/
theorem refused_of_separate {r : StoredEndpoint} {e : StorageError} {ids : List String} {s₁ : Store} {n : Nat}
    (hr : r.owner = owner) (h : (embedded s).insert r = .error e)
    (hids : ∀ id ∈ ids, ∃ x ∈ embedded s, x.id = id ∧ x.owner = other)
    (hdel : (embedded s).deleteByIds ids = .ok (s₁, n)) : s₁.insert r = .error e := by
  have hsound : (embedded s).Sound := hs
  obtain ⟨x, hx, hhits⟩ : ∃ x ∈ embedded s, (embedded s).Hits r.owner r.url x := by
    by_contra hno
    push Not at hno
    obtain ⟨s', hs'⟩ := exists_insert hsound hno
    rw [h] at hs'
    cases hs'
  have hkey : EmbeddedStore.indexKey x.owner x.url = EmbeddedStore.indexKey r.owner r.url := hhits
  have howner : x.owner ≠ other := by
    refine owner_ne_of_prefix hne hsep ?_
    rw [hkey, hr]
    exact EmbeddedStore.ownerKey_prefix_indexKey _ _
  have hkept : x.id ∉ ids := by
    intro hmem
    obtain ⟨y, hy, hid, hyo⟩ := hids _ hmem
    rw [mem_iff, hid, mem_iff.mp hx] at hy
    cases hy
    exact howner hyo
  obtain ⟨s₂, n₂, h₂, hsound₂, hemb, hfind⟩ := exists_deleteByIds hsound ids
  rw [hdel] at h₂
  cases h₂
  have hx₁ : x ∈ s₁ := by
    rw [mem_iff, hfind, if_neg hkept]
    exact hx
  rw [insert_of_hits hsound₂ hx₁ ((hits_congr hemb).mpr hhits), insert_eq_error h]

theorem isolated_of_separate : (embedded s).Isolated owner other where
  select := by
    obtain ⟨l, hl, hmem⟩ := EmbeddedStore.exists_select hs owner
    refine ⟨l, hl, fun r hr => ?_⟩
    exact owner_ne_of_prefix hne hsep (EmbeddedStore.lists_iff_prefix.mp ((hmem r).mp hr).2)
  refused r e ids s₁ n hr h hids hdel := refused_of_separate hs hne hsep hr h hids hdel
  insert r s' hfit hr hid h := by
    obtain ⟨m, hm, rfl⟩ := map_eq_ok.mp h
    obtain ⟨hl, -⟩ := EmbeddedStore.catalog_insert hs hfit hm
    refine (EmbeddedStore.agreeBut_insert hs hfit hid hm).select_eq hs hl ?_
    refine not_prefix_of_separate hne hsep ?_
    rw [hr]
    exact EmbeddedStore.ownerKey_prefix_indexKey _ _
  update url c now hc := by
    obtain ⟨m, hm, hl, -⟩ := EmbeddedStore.catalog_update hs owner url hc now
    refine ⟨embedded m, _, map_eq_ok.mpr ⟨_, hm, rfl⟩, ?_⟩
    refine (EmbeddedStore.agreeBut_update hs hc hm).select_eq hs hl ?_
    exact not_prefix_of_separate hne hsep (EmbeddedStore.ownerKey_prefix_indexKey _ _)
  deleteByUrl url := by
    obtain ⟨hl, -⟩ := EmbeddedStore.catalog_deleteByUrl hs owner url
    refine ⟨embedded (s.deleteByUrl owner url).1, _, rfl, ?_⟩
    refine (EmbeddedStore.agreeBut_deleteByUrl hs owner url).select_eq hs hl ?_
    exact not_prefix_of_separate hne hsep (EmbeddedStore.ownerKey_prefix_indexKey _ _)

end Separate

/-! ### Overlapping owners -/

/-- A record of an owner with nothing in it. -/
def bareRecord (owner : String) : StoredEndpoint := ⟨"1", owner, "", ⟨"", "", 0, 0, ""⟩, 0, 0⟩

theorem fit_bareRecord {owner : String} (h : RecordCodec.Fits owner) : (bareRecord owner).Fit := by
  have hid : RecordCodec.Fits "1" := by decide
  have hempty : RecordCodec.Fits "" := by decide
  exact ⟨hid, h, hempty, ⟨hempty, hempty, hempty⟩⟩

/-- In an empty store every id is free. -/
theorem insertsFresh_first (r : StoredEndpoint) : (embedded .empty).InsertsFresh [.insert r] := by
  refine ⟨?_, trivial⟩
  rintro x s hx -
  cases hx
  rfl

/-- The record of a longer owner, alone in the store, is listed for the shorter one. -/
theorem mem_select_of_nested {owner t : String} (h : RecordCodec.Fits (owner ++ "\x00" ++ t)) :
    ∃ s l, (embedded .empty).insert (bareRecord (owner ++ "\x00" ++ t)) = .ok s ∧
      s.select owner = .ok l ∧ bareRecord (owner ++ "\x00" ++ t) ∈ l := by
  obtain ⟨s, hins⟩ := exists_insert (r := bareRecord (owner ++ "\x00" ++ t)) Reached.embedded.sound
    (by rintro x ⟨⟩)
  obtain ⟨hsound, hemb, hfind⟩ := find?_insert Reached.embedded.sound (fun _ => fit_bareRecord h) rfl hins
  obtain ⟨l, hl, hmem⟩ := exists_select hsound owner
  refine ⟨s, l, hins, hl, (hmem _).mpr ⟨?_, ?_⟩⟩
  · rw [mem_iff, hfind, if_pos rfl]
  · rw [lists_congr (s := embedded .empty) hemb]
    refine EmbeddedStore.lists_iff_prefix.mpr ?_
    exact (EmbeddedStore.ownerKey_prefix_of_nested owner t).trans (EmbeddedStore.ownerKey_prefix_indexKey _ _)

/-- **Owners are isolated from each other**, in every database that requests under fresh ids lead to, exactly
if neither is the other one, a zero character and more. -/
theorem isolated_iff_not_overlap {owner other : String} (hne : owner ≠ other)
    (howner : RecordCodec.Fits owner) (hother : RecordCodec.Fits other) :
    (∀ qs, (embedded .empty).InsertsFresh qs → (∀ q ∈ qs, q.Fit) →
      ((embedded .empty).after qs).Isolated owner other) ↔ ¬ Overlap owner other := by
  constructor
  · rintro hall ⟨t, rfl | rfl⟩
    · -- the record that is inserted for the longer owner shows up in the other selection
      obtain ⟨s, l, hins, hl, hmem⟩ := mem_select_of_nested howner
      have hsame := (hall [] trivial (by simp)).insert _ s (fit_bareRecord howner) rfl rfl hins
      rw [hl] at hsame
      cases hsame
      cases hmem
    · obtain ⟨s, l, hins, hl, hmem⟩ := mem_select_of_nested hother
      have hstate : (embedded .empty).after [.insert (bareRecord (owner ++ "\x00" ++ t))] = s := by
        show (embedded .empty).next (.insert (bareRecord (owner ++ "\x00" ++ t))) = s
        simp only [Store.next, outcome, hins]
        rfl
      have hfit : ∀ q ∈ [StoreRequest.insert (bareRecord (owner ++ "\x00" ++ t))], q.Fit :=
        List.forall_mem_singleton.mpr (fit_bareRecord hother)
      obtain ⟨l', hl', hown⟩ := (hall _ (insertsFresh_first _) hfit).select
      rw [hstate, hl] at hl'
      cases hl'
      exact hown _ hmem rfl
  · intro hsep qs hfresh hfit
    have hsound : ((embedded .empty).after qs).Sound := Reached.embedded.sound.after hfresh fun _ => hfit
    have hemb := isEmbedded_after (embedded .empty) qs
    cases hs : (embedded .empty).after qs with
    | memory s =>
      rw [hs] at hemb
      cases hemb
    | embedded s =>
      rw [hs] at hsound
      exact isolated_of_separate hsound hne hsep

/-- A record of an owner that has a zero character. -/
def zeroRecord : StoredEndpoint := ⟨"1", "h\x00x", "a:1", ⟨"ns", "http://", 0, 50, ""⟩, 1, 1⟩

/-- Zero characters do no harm as long as neither owner goes on from the other at one. -/
theorem isolated_siblings :
    ((embedded .empty).after [.insert zeroRecord]).select "h\x00x" = .ok [zeroRecord] ∧
      ((embedded .empty).after [.insert zeroRecord]).Isolated "h\x00y" "h\x00x" := by
  have hsep : ¬ Overlap "h\x00y" "h\x00x" := by
    rintro ⟨t, ht | ht⟩
    all_goals
      have hchars := congrArg String.toList ht
      simp at hchars
  have hfit : zeroRecord.Fit := by decide +kernel
  refine ⟨by decide +kernel, ?_⟩
  exact (isolated_iff_not_overlap (by decide) (by decide) (by decide)).mpr hsep _
    (insertsFresh_first zeroRecord) (List.forall_mem_singleton.mpr hfit)

/-- An owner without records is given the record of another one, and cannot have one of its own where the
index key is the same. -/
theorem exists_not_isolated : ∃ s, s = (embedded .empty).after [.insert zeroRecord] ∧
    (embedded .empty).InsertsFresh [.insert zeroRecord] ∧ zeroRecord.Fit ∧
    s.select "h" = .ok [zeroRecord] ∧ zeroRecord.owner ≠ "h" ∧
    s.insert { zeroRecord with id := "2", owner := "h", url := "x\x00a:1" } =
      .error (.duplicate "h" "x\x00a:1") ∧
    ¬ s.Isolated "h" "h\x00x" := by
  have hlisted : ((embedded .empty).after [.insert zeroRecord]).select "h" = .ok [zeroRecord] := by
    decide +kernel
  refine ⟨_, rfl, insertsFresh_first zeroRecord, by decide +kernel, hlisted, by decide, rfl, fun hiso => ?_⟩
  obtain ⟨l, hl, hown⟩ := hiso.select
  rw [hlisted] at hl
  cases hl
  exact hown zeroRecord (by simp) rfl

end Store

end RouteSync
