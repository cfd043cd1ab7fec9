import RouteSync.Proofs.Payload.Inversion

/-!
# Mapped keys

What a mapping whose keys are distinct makes of a payload, in whatever order it is inverted.  A field that is
mapped to a key is the value under that key, unless the object also has the field's own name and that comes
later (`shows_mapped`).  If the keys of all fields are distinct, those of unmapped fields included, an object is
read as if its keys were renamed back (`read_renamed`).
-/

namespace RouteSync.Payload

open RouteSync.Json RouteSync.Mapping

variable {m m' : Mapping} {t : Table String String} {entries : List (String × String)} {blob raw raw' k : String}
  {f g : PayloadField} {l l' : List (String × Value)} {xs : List Endpoint}

/-! ### A mapped key and the field's own name -/

/-- Beside its key, an object has a field under its own name, which nothing else is mapped to and which comes
later in the order of keys. -/
structure Overruled (t : Table String String) (f : PayloadField) (k : String) (l : List (String × Value)) :
    Prop where
  free : f.name ∉ t.values
  later : k < f.name
  present : f.name ∈ l.map Prod.fst

/-- **Which key decides a mapped field**: the greater one of its key and its own name. -/
theorem shows_mapped (h : Written blob t) (ht : t.values.Nodup) (he : entries.Perm t.entries)
    (hk : t.get? f.name = some k) (hx : read (ofEntries entries) raw = .ok xs) :
    ∃ ls, objects? raw = some ls ∧ List.Forall₂ (fun l x => ∀ v, (k, v) ∈ l →
      (¬ Overruled t f k l → Shows x v f) ∧ ∀ w, (f.name, w) ∈ l → Overruled t f k l → Shows x w f) ls xs := by
  have hfield : ∀ k', (ofEntries entries).field? k' = some f ↔
      t.get? f.name = some k' ∨ k' ∉ t.values ∧ k' = f.name := fun k' =>
    h.field?_eq_some_iff he fun _ _ => not_clash_of_nodup ht
  obtain ⟨ls, hls, hxs⟩ := read_eq_ok_iff.mp hx
  refine ⟨ls, hls, ((List.forall₂_and_left ls xs).mpr ⟨fun l hl => sorted_of_objects? hls hl, hxs⟩).imp ?_⟩
  rintro l x ⟨hsorted, hx⟩ v hv
  constructor
  · intro hown
    refine shows_of_held hx (held_of_greatest hsorted hv ((hfield k).mpr (.inl hk)) fun e hmem hef hlt => ?_)
    rcases (hfield e.1).mp hef with hget | ⟨hfree, hname⟩
    · rw [hk, Option.some.injEq] at hget
      exact String.lt_irrefl k (hget ▸ hlt)
    · rw [hname] at hfree hlt
      exact hown ⟨hfree, hlt, hname ▸ List.mem_map_of_mem hmem⟩
  · intro w hw hown
    refine shows_of_held hx
      (held_of_greatest hsorted hw ((hfield f.name).mpr (.inr ⟨hown.free, rfl⟩)) fun e _ hef hlt => ?_)
    rcases (hfield e.1).mp hef with hget | ⟨-, hname⟩
    · rw [hk, Option.some.injEq] at hget
      exact String.lt_asymm hown.later (hget ▸ hlt)
    · exact String.lt_irrefl f.name (hname ▸ hlt)

/-- An object with two addresses, one under the name of the field and one under another key. -/
def twoAddresses : Value := .obj [("address", .str "a:1"), ("url", .str "b:2")]

theorem shows_mapped_twoAddresses : ∃ t xs, Written "\x7b\"url\":\"address\"\x7d" t ∧ t.values.Nodup ∧
    t.get? PayloadField.url.name = some "address" ∧ read (ofEntries t.entries) twoAddresses.print = .ok xs ∧
    ∃ ls, objects? twoAddresses.print = some ls ∧ List.Forall₂ (fun l x => ∀ v, ("address", v) ∈ l →
      (¬ Overruled t .url "address" l → Shows x v .url) ∧
        ∀ w, (PayloadField.url.name, w) ∈ l → Overruled t .url "address" l → Shows x w .url) ls xs := by
  obtain ⟨t, ht, hentries⟩ : ∃ t, Written "\x7b\"url\":\"address\"\x7d" t ∧ t.entries = [("url", "address")] :=
    exists_written (by decide +kernel) (by decide +kernel)
  have hdistinct : t.values.Nodup := by
    rw [Table.values, hentries]
    decide
  have hkey : t.get? PayloadField.url.name = some "address" := by
    rw [Table.get?, hentries]
    decide
  have hread : read (ofEntries t.entries) twoAddresses.print =
      .ok [{ start with url := "b:2" }] := by
    rw [hentries]
    decide +kernel
  exact ⟨t, _, ht, hdistinct, hkey, hread, shows_mapped ht hdistinct (.refl _) hkey hread⟩

/-- The own name of a mapped field may win over its key. -/
theorem exists_not_shows_mapped : ∃ t x, Written "\x7b\"url\":\"address\"\x7d" t ∧ t.values.Nodup ∧
    t.get? PayloadField.url.name = some "address" ∧ Value.read? twoAddresses.print = some twoAddresses ∧
    read (ofEntries t.entries) twoAddresses.print = .ok [x] ∧ ¬ Shows x (.str "a:1") .url := by
  obtain ⟨t, ht, hentries⟩ : ∃ t, Written "\x7b\"url\":\"address\"\x7d" t ∧ t.entries = [("url", "address")] :=
    exists_written (by decide +kernel) (by decide +kernel)
  have hcanonical : twoAddresses.Canonical Value.maxDepth := by
    have hkeys : ["address", "url"].Pairwise (· < ·) := by decide
    exact ⟨hkeys, trivial, trivial, trivial⟩
  refine ⟨t, { start with url := "b:2" }, ht, ?_, ?_, Value.read?_print hcanonical, ?_, ?_⟩
  · rw [Table.values, hentries]
    decide
  · rw [Table.get?, hentries]
    decide
  · rw [hentries]
    decide +kernel
  · show ¬ "b:2" = "a:1"
    decide

/-! ### One key per field -/

/-- Among some members, one key holds each field. -/
def Keyed (m : Mapping) (key : PayloadField → String) (l : List (String × Value)) : Prop :=
  ∀ e ∈ l, ∀ f, m.field? e.1 = some f ↔ e.1 = key f

theorem Keyed.fault?_iff {key : PayloadField → String} (h : Keyed m key l) :
    (∀ e ∈ l, m.fault? e = none) ↔
      ∀ f v, (key f, v) ∈ l → f.isNumber = true → ∃ n, int32? v = some n := by
  constructor
  · intro hfault f v hv
    exact fault?_eq_none_iff.mp (hfault _ hv) f ((h _ hv f).mpr rfl)
  · intro hnumber e he
    refine fault?_eq_none_iff.mpr fun f hf => hnumber f e.2 ?_
    rwa [← (h e he f).mp hf]

/-- Objects that have the same values for every field, each under the one key that holds it, are read alike. -/
theorem Keyed.ofObject_congr {key key' : PayloadField → String} (h : Keyed m key l) (h' : Keyed m' key' l')
    (hl : (l.map Prod.fst).Pairwise (· < ·)) (hl' : (l'.map Prod.fst).Pairwise (· < ·))
    (hmem : ∀ f v, (key f, v) ∈ l ↔ (key' f, v) ∈ l') : (ofObject m l).toOption = (ofObject m' l').toOption := by
  have hheld : ∀ f, m.held f l = m'.held f l' := fun f => Option.ext fun v => by
    rw [held_eq_some_iff_of_only hl fun e he => h e he f, held_eq_some_iff_of_only hl' fun e he => h' e he f,
      hmem]
  have hdescribed : described m l = described m' l' := by simp only [described, hheld]
  have hfault : (∀ e ∈ l, m.fault? e = none) ↔ ∀ e ∈ l', m'.fault? e = none := by
    simp only [h.fault?_iff, h'.fault?_iff, hmem]
  have hok : ∀ x, ofObject m l = .ok x ↔ ofObject m' l' = .ok x := fun x => by
    rw [ofObject_eq_ok_iff, ofObject_eq_ok_iff, hdescribed, hfault]
  cases hx : ofObject m l with
  | ok x => rw [(hok x).mp hx]
  | error err =>
    cases hx' : ofObject m' l' with
    | ok x =>
      rw [(hok x).mpr hx'] at hx
      cases hx
    | error err' => rfl

/-- Without a mapping every field is held by its own name. -/
theorem keyed_plain (l : List (String × Value)) : Keyed .plain PayloadField.name l := fun e _ f => by
  rw [field?, plain, Table.get?_empty, Option.getD_none, PayloadField.ofName?_eq_some_iff]

/-! ### Renamed keys -/

/-- A field's own name becomes the key of the field; other keys stay. -/
def renameKey (t : Table String String) (k : String) : String :=
  ((PayloadField.ofName? k).map (keyOf t)).getD k

/-- An object with its keys renamed. -/
def renamed (t : Table String String) (l : List (String × Value)) : List (String × Value) :=
  Value.ofMembers (l.map fun e => (renameKey t e.1, e.2))

section Injective

variable (hσ : Function.Injective (keyOf t))

include hσ

theorem not_clash_of_injective : ¬ Clash t f g k := fun h =>
  h.ne (hσ (by rw [keyOf, keyOf, h.left, h.right]; rfl))

/-- The key of a field holds it, also where fields take each other's names. -/
theorem field?_keyOf (h : Written blob t) (he : entries.Perm t.entries) (f : PayloadField) :
    (ofEntries entries).field? (keyOf t f) = some f := by
  rw [h.field?_eq_some_iff he fun _ _ => not_clash_of_injective hσ]
  cases hf : t.get? f.name with
  | some k => exact .inl (by rw [keyOf, hf]; rfl)
  | none =>
    have hkey : keyOf t f = f.name := by rw [keyOf, hf]; rfl
    refine .inr ⟨fun hv => ?_, hkey⟩
    obtain ⟨n, hn⟩ := Table.mem_values_iff.mp hv
    obtain ⟨g, rfl⟩ := h.exists_field hn
    have hgf : g = f := hσ (by rw [keyOf, hn]; rfl)
    rw [hgf, hf] at hn
    cases hn

theorem renameKey_eq_keyOf_iff (hk : (∀ f : PayloadField, k ≠ f.name) → ∀ f, k ≠ keyOf t f) :
    renameKey t k = keyOf t f ↔ k = f.name := by
  unfold renameKey
  cases hname : PayloadField.ofName? k with
  | some g =>
    rw [PayloadField.ofName?_eq_some_iff] at hname
    rw [hname, PayloadField.name_inj]
    exact hσ.eq_iff
  | none =>
    have hother := PayloadField.ofName?_eq_none_iff.mp hname
    exact iff_of_false (hk hother f) (hother f)

theorem nodup_renameKey (hl : (l.map Prod.fst).Nodup)
    (hother : ∀ e ∈ l, (∀ f : PayloadField, e.1 ≠ f.name) → ∀ f, e.1 ≠ keyOf t f) :
    ((l.map fun e => (renameKey t e.1, e.2)).map Prod.fst).Nodup := by
  have hkeys : (l.map fun e => (renameKey t e.1, e.2)).map Prod.fst = (l.map Prod.fst).map (renameKey t) := by
    rw [List.map_map, List.map_map]
    rfl
  rw [hkeys]
  refine hl.map_on fun x hx y hy hxy => ?_
  obtain ⟨e, he, rfl⟩ := List.mem_map.mp hx
  obtain ⟨e', he', rfl⟩ := List.mem_map.mp hy
  cases hname : PayloadField.ofName? e.1 with
  | some f =>
    rw [PayloadField.ofName?_eq_some_iff] at hname
    rw [(renameKey_eq_keyOf_iff hσ (hother e he)).mpr hname] at hxy
    rw [hname, (renameKey_eq_keyOf_iff hσ (hother e' he')).mp hxy.symm]
  | none =>
    cases hname' : PayloadField.ofName? e'.1 with
    | some f =>
      rw [PayloadField.ofName?_eq_some_iff] at hname'
      rw [(renameKey_eq_keyOf_iff hσ (hother e' he')).mpr hname'] at hxy
      rw [hname', (renameKey_eq_keyOf_iff hσ (hother e he)).mp hxy]
    | none => simpa [renameKey, hname, hname'] using hxy

theorem mem_renamed (hl : (l.map Prod.fst).Pairwise (· < ·))
    (hother : ∀ e ∈ l, (∀ f : PayloadField, e.1 ≠ f.name) → ∀ f, e.1 ≠ keyOf t f) {e : String × Value} :
    e ∈ renamed t l ↔ ∃ x ∈ l, (renameKey t x.1, x.2) = e := by
  rw [renamed, Value.mem_ofMembers (nodup_renameKey hσ (Value.nodup_of_sorted hl) hother), List.mem_map]

/-- After the renaming every field is held by its key. -/
theorem keyed_renamed (h : Written blob t) (he : entries.Perm t.entries) (hl : (l.map Prod.fst).Pairwise (· < ·))
    (hother : ∀ e ∈ l, (∀ f : PayloadField, e.1 ≠ f.name) → ∀ f, e.1 ≠ keyOf t f) :
    Keyed (ofEntries entries) (keyOf t) (renamed t l) := by
  intro e hmem f
  obtain ⟨x, hx, rfl⟩ := (mem_renamed hσ hl hother).mp hmem
  cases hname : PayloadField.ofName? x.1 with
  | some g =>
    have hkey : renameKey t x.1 = keyOf t g :=
      (renameKey_eq_keyOf_iff hσ (hother x hx)).mpr (PayloadField.ofName?_eq_some_iff.mp hname)
    rw [hkey, field?_keyOf hσ h he, Option.some.injEq]
    exact hσ.eq_iff.symm
  | none =>
    -- a key of no field stays, and is the key of no field either
    have hkey : renameKey t x.1 = x.1 := by rw [renameKey, hname]; rfl
    have hnone := PayloadField.ofName?_eq_none_iff.mp hname
    rw [hkey, h.field?_eq_some_iff he fun _ _ => not_clash_of_injective hσ]
    refine iff_of_false ?_ (hother x hx hnone f)
    rintro (hget | ⟨-, hf⟩)
    · exact hother x hx hnone f (by rw [keyOf, hget]; rfl)
    · exact hnone f hf

/-- **Renaming is transparent.**  If all fields have different keys, an object whose keys are renamed from the
names of the fields to their keys is read as the object was, or neither is an endpoint. -/
theorem read_renamed (h : Written blob t) (he : entries.Perm t.entries) (hraw : Value.read? raw = some (.obj l))
    (hother : ∀ e ∈ l, (∀ f : PayloadField, e.1 ≠ f.name) → ∀ f, e.1 ≠ keyOf t f)
    (hraw' : Value.read? raw' = some (.obj (renamed t l))) :
    (read (ofEntries entries) raw').toOption = (read .plain raw).toOption := by
  have hl := Value.sorted_of_read? hraw
  have hsame : ∀ f v, (keyOf t f, v) ∈ renamed t l ↔ (f.name, v) ∈ l := fun f v => by
    rw [mem_renamed hσ hl hother]
    constructor
    · rintro ⟨x, hx, heq⟩
      obtain ⟨hkey, rfl⟩ := Prod.mk.inj heq
      rwa [← (renameKey_eq_keyOf_iff hσ (hother x hx)).mp hkey]
    · intro hv
      exact ⟨_, hv, by rw [(renameKey_eq_keyOf_iff hσ (hother _ hv)).mpr rfl]⟩
  have hobject : (ofObject (ofEntries entries) (renamed t l)).toOption = (ofObject .plain l).toOption :=
    (keyed_renamed hσ h he hl hother).ofObject_congr (keyed_plain l) (Value.sorted_ofMembers _) hl hsame
  have hmap : ∀ r : Except InvalidConfig Endpoint, (r.map ([·])).toOption = r.toOption.map ([·]) := fun r => by
    cases r <;> rfl
  rw [read_object hraw', read_object hraw, hmap, hmap, hobject]

end Injective

/-- An object with a key that holds no field. -/
def withOther : List (String × Value) := [("other", .str "z"), ("protocol", .str "p"), ("url", .str "a:1")]

/-- Two fields take each other's names. -/
theorem read_renamed_swapped : ∃ t, Written "\x7b\"url\":\"protocol\",\"protocol\":\"url\"\x7d" t ∧
    Function.Injective (keyOf t) ∧
    renamed t withOther = [("other", .str "z"), ("protocol", .str "a:1"), ("url", .str "p")] ∧
    (read (ofEntries t.entries) (Value.obj (renamed t withOther)).print).toOption =
      (read .plain (Value.obj withOther).print).toOption := by
  obtain ⟨t, ht, hentries⟩ : ∃ t, Written "\x7b\"url\":\"protocol\",\"protocol\":\"url\"\x7d" t ∧
      t.entries = [("protocol", "url"), ("url", "protocol")] :=
    exists_written (by decide +kernel) (by decide +kernel)
  have hσ : Function.Injective (keyOf t) := by
    intro f g hfg
    rw [keyOf, keyOf, Table.get?, Table.get?, hentries] at hfg
    cases f <;> cases g <;> first | rfl | exact absurd hfg (by decide)
  have hrenamed : renamed t withOther = [("other", .str "z"), ("protocol", .str "a:1"), ("url", .str "p")] := by
    have hkeys : renameKey t "other" = "other" ∧ renameKey t "protocol" = "url" ∧
        renameKey t "url" = "protocol" := by
      obtain ⟨entries, hnodup⟩ := t
      cases hentries
      clear ht hσ
      decide +revert
    simp +decide [renamed, withOther, hkeys, Value.ofMembers, Value.put]
  have hkeys : ["other", "protocol", "url"].Pairwise (· < ·) := by decide
  have hcanonical : ∀ v w : String,
      (Value.obj [("other", .str "z"), ("protocol", .str v), ("url", .str w)]).Canonical Value.maxDepth :=
    fun v w => ⟨hkeys, trivial, trivial, trivial, trivial⟩
  refine ⟨t, ht, hσ, hrenamed, ?_⟩
  refine read_renamed hσ ht (.refl _) (Value.read?_print (hcanonical "p" "a:1")) ?_
    (Value.read?_print (hrenamed ▸ hcanonical "a:1" "p"))
  intro e he hother f
  simp only [withOther, List.mem_cons, List.not_mem_nil, or_false] at he
  rcases he with rfl | rfl | rfl
  · rw [keyOf, Table.get?, hentries]
    cases f <;> decide
  · exact absurd rfl (hother .protocol)
  · exact absurd rfl (hother .url)

end RouteSync.Payload
