import Mathlib.Data.List.Nodup
import RouteSync.Proofs.Payload.Fields

/-!
# The inversion of a mapping

A mapping is written from fields to keys and read from keys to fields.  Its entries are inverted in some order,
and if several fields name one key the last of them has it.  If the keys are distinct, the order does not
matter: a key holds the field that names it, or else the field of its own name (`Written.field?_eq_some_iff`).
If two fields share a key, the order shows, but for mappings by which no object has an address
(`read_eq_of_perm_iff`).
-/

namespace RouteSync

open RouteSync.Json

namespace Table

variable {κ ν : Type} [DecidableEq κ] {l : List (κ × ν)} {k : κ}

theorem ofList_concat (l : List (κ × ν)) (e : κ × ν) : ofList (l ++ [e]) = (ofList l).insert e.1 e.2 := by
  simp [ofList, List.foldl_append]

theorem get?_ofList_eq_none_iff : (ofList l).get? k = none ↔ k ∉ l.map Prod.fst := by
  induction l using List.reverseRecOn with
  | nil => simp [ofList]
  | append_singleton l e ih =>
    rw [ofList_concat, get?_insert]
    split_ifs with he
    · simp [he]
    · rw [ih]
      simp [Ne.symm he]

end Table

namespace Mapping

variable {blob : String} {t : Table String String} {entries : List (String × String)} {f g : PayloadField}
  {n k : String}

/-- A text that is accepted as a mapping, with the table from fields to keys that it holds. -/
structure Written (blob : String) (t : Table String String) : Prop where
  flat : FlatObject.read "discovery handler" blob = .ok t
  accepted : ∃ m, Mapping.read blob = .ok m

theorem Written.exists_field (h : Written blob t) (hk : t.get? n = some k) : ∃ f : PayloadField, n = f.name := by
  obtain ⟨m, hm⟩ := h.accepted
  have hn : n ∈ t.keys := (t.contains_iff n).mp (by simp [Table.contains, hk])
  simp only [Mapping.read, h.flat, bind, Except.bind] at hm
  cases hunknown : t.keys.find? fun f => (PayloadField.ofName? f).isNone with
  | some f =>
    rw [hunknown] at hm
    cases hm
  | none =>
    have hsome := List.find?_eq_none.mp hunknown n hn
    cases hf : PayloadField.ofName? n with
    | none => exact absurd (by rw [hf]; rfl) hsome
    | some f => exact ⟨f, PayloadField.ofName?_eq_some_iff.mp hf⟩

/-- The mapping that is read is one of the inversions. -/
theorem Written.read_eq (h : Written blob t) : Mapping.read blob = .ok (ofEntries t.entries) := by
  obtain ⟨m, hm⟩ := h.accepted
  simp only [Mapping.read, h.flat, bind, Except.bind] at hm ⊢
  split at hm
  · cases hm
  · rfl

/-- A mapping is known by its entries. -/
theorem exists_written
    (hflat : (FlatObject.read "discovery handler" blob).toOption.map Table.entries = some entries)
    (hread : (Mapping.read blob).toOption.isSome) : ∃ t, Written blob t ∧ t.entries = entries := by
  cases ht : FlatObject.read "discovery handler" blob with
  | error err =>
    rw [ht] at hflat
    cases hflat
  | ok t =>
    cases hm : Mapping.read blob with
    | error err =>
      rw [hm] at hread
      cases hread
    | ok m =>
      rw [ht] at hflat
      exact ⟨t, ⟨ht, m, hm⟩, Option.some.inj hflat⟩

/-! ### What a key holds -/

theorem get?_conversion_eq_none_iff :
    (ofEntries entries).conversion.get? k = none ↔ k ∉ entries.map Prod.snd := by
  rw [ofEntries, Table.get?_ofList_eq_none_iff, List.map_map]
  rfl

theorem mem_of_get?_conversion (h : (ofEntries entries).conversion.get? k = some n) : (n, k) ∈ entries := by
  simpa using (Table.get?_ofList_eq_some_iff.mp h).mem

/-- The key of the last entry holds its field, and the other keys what the entries before say. -/
theorem field?_concat (entries : List (String × String)) (f : PayloadField) (k k' : String) :
    (ofEntries (entries ++ [(f.name, k)])).field? k' =
      if k = k' then some f else (ofEntries entries).field? k' := by
  have hlast : ofEntries (entries ++ [(f.name, k)]) = ⟨(ofEntries entries).conversion.insert k f.name⟩ := by
    simp only [ofEntries, List.map_append, List.map_singleton, Table.ofList_concat]
  rw [hlast, field?, Table.get?_insert]
  split_ifs
  · simp
  · rfl

/-! ### Fields that share a key -/

/-- Two fields that are read from one key. -/
structure Clash (t : Table String String) (f g : PayloadField) (k : String) : Prop where
  ne : f ≠ g
  left : t.get? f.name = some k
  right : t.get? g.name = some k

theorem not_clash_of_nodup (ht : t.values.Nodup) : ¬ Clash t f g k := fun h => by
  have hf := Table.get?_eq_some_iff.mp h.left
  have hg := Table.get?_eq_some_iff.mp h.right
  exact h.ne (PayloadField.name_inj.mp (congrArg Prod.fst (List.inj_on_of_nodup_map ht hf hg rfl)))

/-- A key holds a field that names it, or else the field of its own name. -/
theorem get?_of_field? (he : entries.Perm t.entries) (hk : (ofEntries entries).field? k = some f) :
    t.get? f.name = some k ∨ k ∉ t.values ∧ k = f.name := by
  unfold field? at hk
  cases hget : (ofEntries entries).conversion.get? k with
  | some n =>
    rw [hget, Option.getD_some, PayloadField.ofName?_eq_some_iff] at hk
    subst hk
    exact .inl (Table.get?_eq_some_iff.mpr (he.mem_iff.mp (mem_of_get?_conversion hget)))
  | none =>
    rw [hget, Option.getD_none, PayloadField.ofName?_eq_some_iff] at hk
    have hv : k ∉ entries.map Prod.snd := get?_conversion_eq_none_iff.mp hget
    exact .inr ⟨fun hmem => hv ((he.map Prod.snd).mem_iff.mpr hmem), hk⟩

/-- **A field that shares its key with no other** is held by the key that it names; if it names none, by its own
name, unless another field names that. -/
theorem Written.field?_eq_some_iff (h : Written blob t) (he : entries.Perm t.entries)
    (hf : ∀ g k, ¬ Clash t f g k) :
    (ofEntries entries).field? k = some f ↔ t.get? f.name = some k ∨ k ∉ t.values ∧ k = f.name := by
  refine ⟨get?_of_field? he, ?_⟩
  rintro (hget | ⟨hv, rfl⟩)
  · unfold field?
    cases hk : (ofEntries entries).conversion.get? k with
    | some n =>
      have hn := Table.get?_eq_some_iff.mpr (he.mem_iff.mp (mem_of_get?_conversion hk))
      obtain ⟨g, rfl⟩ := h.exists_field hn
      by_cases hfg : f = g
      · rw [Option.getD_some, PayloadField.ofName?_name, hfg]
      · exact absurd ⟨hfg, hget, hn⟩ (hf g k)
    | none =>
      have hmem : k ∈ t.values := Table.mem_values_iff.mpr ⟨_, hget⟩
      exact absurd ((he.map Prod.snd).mem_iff.mpr hmem) (get?_conversion_eq_none_iff.mp hk)
  · have hnone : (ofEntries entries).conversion.get? f.name = none :=
      get?_conversion_eq_none_iff.mpr fun hmem => hv ((he.map Prod.snd).mem_iff.mp hmem)
    rw [field?, hnone, Option.getD_none, PayloadField.ofName?_name]

/-- Some key is read as the address. -/
def ReadsAddress (t : Table String String) : Prop :=
  (t.get? PayloadField.url.name).isSome ∨ PayloadField.url.name ∉ t.values

/-- The key under which a field is looked for. -/
def keyOf (t : Table String String) (f : PayloadField) : String := (t.get? f.name).getD f.name

/-- Any field that names a key can be the one that has it. -/
theorem exists_inversion (hf : t.get? f.name = some k) : ∃ entries : List (String × String),
    entries.Perm t.entries ∧ (ofEntries entries).field? k = some f :=
  ⟨t.entries.erase (f.name, k) ++ [(f.name, k)],
    (List.perm_append_singleton _ _).trans (List.perm_cons_erase (Table.get?_eq_some_iff.mp hf)).symm,
    by rw [field?_concat, if_pos rfl]⟩

/-- Any field that names a key can be the one that has it, whatever is read as the address from another key. -/
theorem exists_inversion_address (hf : t.get? f.name = some k) (haddress : ReadsAddress t)
    (hurl : t.get? PayloadField.url.name ≠ some k) : ∃ entries : List (String × String), entries.Perm t.entries ∧
      (ofEntries entries).field? k = some f ∧ (ofEntries entries).field? (keyOf t .url) = some .url := by
  cases hu : t.get? PayloadField.url.name with
  | none =>
    have hv : PayloadField.url.name ∉ t.values := by simpa [ReadsAddress, hu] using haddress
    obtain ⟨entries, hperm, hk⟩ := exists_inversion hf
    have hnone : (ofEntries entries).conversion.get? PayloadField.url.name = none :=
      get?_conversion_eq_none_iff.mpr fun hmem => hv ((hperm.map Prod.snd).mem_iff.mp hmem)
    refine ⟨entries, hperm, hk, ?_⟩
    rw [keyOf, hu, Option.getD_none, field?, hnone, Option.getD_none, PayloadField.ofName?_name]
  | some u =>
    have hne : u ≠ k := fun h => hurl (by rw [hu, h])
    have humem := Table.get?_eq_some_iff.mp hu
    have hmem : (f.name, k) ∈ t.entries.erase (PayloadField.url.name, u) :=
      (List.mem_erase_of_ne fun h => hne (congrArg Prod.snd h).symm).mpr (Table.get?_eq_some_iff.mp hf)
    refine ⟨(t.entries.erase (PayloadField.url.name, u)).erase (f.name, k) ++ [(f.name, k)] ++
      [(PayloadField.url.name, u)], ?_, ?_, ?_⟩
    · refine (List.perm_append_singleton _ _).trans (.trans (.cons _ ?_) (List.perm_cons_erase humem).symm)
      exact (List.perm_append_singleton _ _).trans (List.perm_cons_erase hmem).symm
    · rw [field?_concat, if_neg hne, field?_concat, if_pos rfl]
    · rw [keyOf, hu, Option.getD_some, field?_concat, if_pos rfl]

end Mapping

namespace Payload

open Mapping

variable {m m' : Mapping} {t : Table String String} {blob k : String} {f g : PayloadField}

/-! ### The order shows -/

/-- An object of texts under some keys. -/
def texts (l : List (String × String)) : List (String × Value) :=
  Value.ofMembers (l.map fun e => (e.1, .str e.2))

theorem ofObject_texts_congr (h : ∀ raw, read m raw = read m' raw) (l : List (String × String)) :
    ofObject m (texts l) = ofObject m' (texts l) := by
  have hread := h (Value.obj (texts l)).print
  rw [texts, read_object Value.read?_print_texts, read_object Value.read?_print_texts] at hread
  rw [texts]
  cases hm : ofObject m (Value.ofMembers (l.map fun e => (e.1, .str e.2))) <;>
    cases hm' : ofObject m' (Value.ofMembers (l.map fun e => (e.1, .str e.2))) <;>
    simp_all [Except.map]

/-- A single text that is no number tells the address and the numbers from all other fields. -/
theorem ofObject_single_ne (hk : m.field? k = some f) (hk' : m'.field? k = some g) (hfg : f ≠ g)
    (hf : f.isNumber = true ∨ f = .url) : ofObject m (texts [(k, "x")]) ≠ ofObject m' (texts [(k, "x")]) := by
  have htext : Text.isBlank (text (.str "x")) = false := by decide
  have hnumber : int32? (.str "x") = none := by decide
  have hsingle : ∀ {m : Mapping} {f : PayloadField}, m.field? k = some f → ofObject m [(k, .str "x")] =
      if f.isNumber then .error (.notInteger f.name (Value.str "x").print)
      else if f = .url then .ok (described m [(k, .str "x")])
      else .error (.noUrl (Value.obj [(k, .str "x")]).print) := by
    intro m f hk
    rw [ofObject_eq]
    cases f <;> simp [fault?, hk, PayloadField.isNumber, hnumber, described, held, htext] <;> rfl
  show ofObject m [(k, .str "x")] ≠ ofObject m' [(k, .str "x")]
  rw [hsingle hk, hsingle hk']
  cases f <;> cases g <;> simp_all [PayloadField.isNumber, PayloadField.name]

theorem mem_texts {l : List (String × String)} (hl : (l.map Prod.fst).Nodup) {e : String × Value} :
    e ∈ texts l ↔ ∃ x ∈ l, (x.1, .str x.2) = e := by
  have hkeys : (l.map fun e => (e.1, Value.str e.2)).map Prod.fst = l.map Prod.fst := by simp
  rw [texts, Value.mem_ofMembers (hkeys ▸ hl), List.mem_map]

/-- Among texts under different keys a field is held by the one key that holds it. -/
theorem held_texts {l : List (String × String)} {v : String} (hl : (l.map Prod.fst).Nodup) (hv : (k, v) ∈ l)
    (hk : ∀ x ∈ l, m.field? x.1 = some f ↔ x.1 = k) : m.held f (texts l) = some (.str v) := by
  refine (held_eq_some_iff_of_only (Value.sorted_ofMembers _) fun e he => ?_).mpr ((mem_texts hl).mpr ⟨_, hv, rfl⟩)
  obtain ⟨x, hx, rfl⟩ := (mem_texts hl).mp he
  exact hk x hx

/-- Beside an address, a text that is a number tells all other fields apart. -/
theorem ofObject_pair_ne {u : String} (hk : m.field? k = some f) (hk' : m'.field? k = some g) (hfg : f ≠ g)
    (hf : f ≠ .url) (hu : m.field? u = some .url) (hu' : m'.field? u = some .url) :
    ofObject m (texts [(k, "1"), (u, "x")]) ≠ ofObject m' (texts [(k, "1"), (u, "x")]) := by
  have huk : k ≠ u := fun h => hf (Option.some.inj (by rw [← hk, ← hu, h]))
  have hkeys : ([(k, "1"), (u, "x")].map Prod.fst).Nodup := by simpa using huk
  have hshown : m.held f (texts [(k, "1"), (u, "x")]) = some (.str "1") :=
    held_texts (k := k) hkeys (by simp) (by simp [hk, hu, huk.symm, hf.symm])
  have haddress : m.held .url (texts [(k, "1"), (u, "x")]) = some (.str "x") :=
    held_texts (k := u) hkeys (by simp) (by simp [hk, hu, huk, hf])
  have hhidden : m'.held f (texts [(k, "1"), (u, "x")]) = none := by
    refine held_eq_none_iff.mpr fun e he => ?_
    obtain ⟨x, hx, rfl⟩ := (mem_texts hkeys).mp he
    rcases List.mem_pair.mp hx with rfl | rfl
    · simpa [hk'] using hfg.symm
    · simpa [hu'] using hf.symm
  have hone : int32? (.str "1") = some 1 := by decide
  have hok : ofObject m (texts [(k, "1"), (u, "x")]) = .ok (described m (texts [(k, "1"), (u, "x")])) := by
    refine ofObject_eq_ok_iff.mpr ⟨fun e he => fault?_eq_none_iff.mpr fun f hef hnumber => ?_, rfl, ?_⟩
    · obtain ⟨x, hx, rfl⟩ := (mem_texts hkeys).mp he
      rcases List.mem_pair.mp hx with rfl | rfl
      · exact ⟨1, hone⟩
      · rw [hu] at hef
        cases hef
        cases hnumber
    · simp only [described, haddress, Option.map_some, Option.getD_some]
      decide
  intro heq
  have hshows := shows_of_held hok hshown
  rw [(ofObject_eq_ok_iff.mp (heq.symm.trans hok)).2.1] at hshows
  cases f <;> simp_all [Shows, described, defaultWeight, text]

/-- If the order does not show, fields that share a key are texts, and no key is read as the address. -/
theorem clash_of_read_eq (hsame : ∀ l₁ l₂ : List (String × String), l₁.Perm t.entries → l₂.Perm t.entries →
      ∀ raw, read (ofEntries l₁) raw = read (ofEntries l₂) raw) (hclash : Clash t f g k) :
    ¬ ReadsAddress t ∧ f.isNumber = false := by
  have hsingle : ∀ {f g : PayloadField}, Clash t f g k → ¬ (f.isNumber = true ∨ f = .url) := by
    intro f g hclash hf
    obtain ⟨l₁, hl₁, hk₁⟩ := exists_inversion hclash.left
    obtain ⟨l₂, hl₂, hk₂⟩ := exists_inversion hclash.right
    exact ofObject_single_ne hk₁ hk₂ hclash.ne hf (ofObject_texts_congr (hsame l₁ l₂ hl₁ hl₂) _)
  have hf : f ≠ .url := fun hf => hsingle hclash (.inr hf)
  refine ⟨fun haddress => ?_, by simpa using fun hf => hsingle hclash (.inl hf)⟩
  have hurl : t.get? PayloadField.url.name ≠ some k := fun hu =>
    hsingle ⟨hf.symm, hu, hclash.left⟩ (.inr rfl)
  obtain ⟨l₁, hl₁, hk₁, hu₁⟩ := exists_inversion_address hclash.left haddress hurl
  obtain ⟨l₂, hl₂, hk₂, hu₂⟩ := exists_inversion_address hclash.right haddress hurl
  exact ofObject_pair_ne hk₁ hk₂ hclash.ne hf hu₁ hu₂ (ofObject_texts_congr (hsame l₁ l₂ hl₁ hl₂) _)

/-! ### The order does not show -/

theorem read_congr (h : ∀ l, ofObject m l = ofObject m' l) (raw : String) : read m raw = read m' raw := by
  have hitem : ofItem m = ofItem m' := funext fun v => by cases v <;> simp [ofItem, h]
  have hvalue : ofValue m = ofValue m' := funext fun v => by cases v <;> simp [ofValue, h, hitem]
  unfold read
  rw [hvalue]

/-- If no key is read as the address, only the keys of the numbers matter: every object is rejected, for the
first of its numbers that is none, or for the address. -/
theorem ofObject_congr_of_no_address (hm : ∀ k, m.field? k ≠ some .url) (hm' : ∀ k, m'.field? k ≠ some .url)
    (hnumber : ∀ f : PayloadField, f.isNumber = true → ∀ k, m.field? k = some f ↔ m'.field? k = some f)
    (l : List (String × Value)) : ofObject m l = ofObject m' l := by
  have hfault : m.fault? = m'.fault? := by
    funext e
    refine Option.ext fun err => ?_
    simp only [fault?, Option.bind_eq_some_iff, Option.ite_none_right_eq_some]
    refine exists_congr fun f => ?_
    constructor
    · rintro ⟨hf, hn, herr⟩
      exact ⟨(hnumber f hn.1 e.1).mp hf, hn, herr⟩
    · rintro ⟨hf, hn, herr⟩
      exact ⟨(hnumber f hn.1 e.1).mpr hf, hn, herr⟩
  have hblank : ∀ {m : Mapping}, (∀ k, m.field? k ≠ some .url) → Text.isBlank (described m l).url = true := by
    intro m hm
    rw [described, held_eq_none_iff.mpr fun e _ => hm e.1]
    rfl
  rw [ofObject_eq, ofObject_eq, hfault, hblank hm, hblank hm']
  rfl

/-- Inversions in which every key holds the same field read every object alike. -/
theorem ofObject_congr (h : ∀ k, m.field? k = m'.field? k) (l : List (String × Value)) :
    ofObject m l = ofObject m' l := by
  have hadd : addMember m = addMember m' := by
    funext x e
    rw [addMember, addMember, h]
  unfold ofObject
  rw [hadd]

/-- **When the order of inversion matters**: two fields share a key, and there is an address to be read or one of
the two is a number.  Otherwise all inversions read every payload alike. -/
theorem read_eq_of_perm_iff (h : Written blob t) :
    (∀ l₁ l₂ : List (String × String), l₁.Perm t.entries → l₂.Perm t.entries →
      ∀ raw, read (ofEntries l₁) raw = read (ofEntries l₂) raw) ↔
    ∀ f g k, Clash t f g k → ¬ ReadsAddress t ∧ f.isNumber = false := by
  refine ⟨fun hsame f g k => clash_of_read_eq hsame, fun hclear l₁ l₂ hl₁ hl₂ => read_congr fun l => ?_⟩
  have halike : ∀ f, (∀ g k, ¬ Clash t f g k) → ∀ k,
      (ofEntries l₁).field? k = some f ↔ (ofEntries l₂).field? k = some f := fun f hf k => by
    rw [h.field?_eq_some_iff hl₁ hf, h.field?_eq_some_iff hl₂ hf]
  by_cases hnone : ∀ f g k, ¬ Clash t f g k
  · exact ofObject_congr (fun k => Option.ext fun f => halike f (hnone f) k) l
  · -- no field that clashes is a number, and there is no address
    simp only [not_forall, not_not] at hnone
    obtain ⟨f, g, k, hclash⟩ := hnone
    have haddress := (hclear f g k hclash).1
    have hurl : ∀ {l : List (String × String)}, l.Perm t.entries →
        ∀ k, (ofEntries l).field? k ≠ some .url := by
      intro l hl k hk
      rcases get?_of_field? hl hk with hget | ⟨hv, rfl⟩
      · exact haddress (.inl (by simp [hget]))
      · exact haddress (.inr hv)
    refine ofObject_congr_of_no_address (hurl hl₁) (hurl hl₂) (fun f hf => halike f fun g k hclash => ?_) l
    rw [(hclear f g k hclash).2] at hf
    cases hf

theorem read_eq_of_perm_distinct : ∃ t, Written "\x7b\"url\":\"address\",\"weight\":\"w\"\x7d" t ∧
    ∀ l₁ l₂ : List (String × String), l₁.Perm t.entries → l₂.Perm t.entries →
      ∀ raw, read (ofEntries l₁) raw = read (ofEntries l₂) raw := by
  obtain ⟨t, ht, hentries⟩ : ∃ t, Written "\x7b\"url\":\"address\",\"weight\":\"w\"\x7d" t ∧
      t.entries = [("url", "address"), ("weight", "w")] :=
    exists_written (by decide +kernel) (by decide +kernel)
  have hdistinct : t.values.Nodup := by
    rw [Table.values, hentries]
    decide
  exact ⟨t, ht, (read_eq_of_perm_iff ht).mpr fun f g k hclash => absurd hclash (not_clash_of_nodup hdistinct)⟩

/-- A mapping of two fields to one key is accepted, and which of them has the key is left to the order. -/
theorem exists_perm_read_ne : ∃ t, Written "\x7b\"url\":\"a\",\"protocol\":\"a\"\x7d" t ∧
    ∃ l₁ l₂ : List (String × String), l₁.Perm t.entries ∧ l₂.Perm t.entries ∧
      ∃ raw, read (ofEntries l₁) raw ≠ read (ofEntries l₂) raw := by
  obtain ⟨t, ht, hentries⟩ : ∃ t, Written "\x7b\"url\":\"a\",\"protocol\":\"a\"\x7d" t ∧
      t.entries = [("protocol", "a"), ("url", "a")] :=
    exists_written (by decide +kernel) (by decide +kernel)
  refine ⟨t, ht, [("protocol", "a"), ("url", "a")], [("url", "a"), ("protocol", "a")], ?_, ?_,
    "\x7b\"a\":\"x\"\x7d", by decide +kernel⟩
  · rw [hentries]
  · rw [hentries]
    exact .swap _ _ _

end Payload

end RouteSync
