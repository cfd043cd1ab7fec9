import RouteSync.Proofs.Store.Answers

/-!
# Stores are interchangeable

Two stores mirror each other if they hold the same records under the same ids, none of them for an owner
with a zero character (`Mirrors`).  They then answer every request alike and mirror each other afterwards
(`Mirrors.outcome`).  So the store in memory and the embedded one, both empty at first, answer every list of
requests alike (`answers_embedded_eq`).
-/

namespace RouteSync

/-- What a store may be asked. -/
inductive StoreRequest
  | select (owner : String)
  | insert (r : StoredEndpoint)
  | update (owner url : String) (c : Columns) (now : UInt64)
  | deleteByIds (ids : List String)
  | deleteByUrl (owner url : String)

inductive StoreAnswer
  | records (l : List StoredEndpoint)
  | inserted
  | updated (b : Bool)
  | deleted (n : Nat)
  deriving DecidableEq, Repr

namespace StoreRequest

/-- No owner holds a zero character, and what is to be written can be written down. -/
def Plain : StoreRequest → Prop
  | .select owner => '\x00' ∉ owner.toList
  | .insert r => '\x00' ∉ r.owner.toList ∧ r.Fit
  | .update owner _ c _ => '\x00' ∉ owner.toList ∧ c.Fit
  | .deleteByIds _ => True
  | .deleteByUrl owner _ => '\x00' ∉ owner.toList

/-- The id of a record to insert is free. -/
def FreshIn (s : Store) : StoreRequest → Prop
  | .insert r => s.find? r.id = none
  | _ => True

instance : DecidablePred Plain
  | .select owner => inferInstanceAs (Decidable ('\x00' ∉ owner.toList))
  | .insert r => inferInstanceAs (Decidable ('\x00' ∉ r.owner.toList ∧ r.Fit))
  | .update owner _ c _ => inferInstanceAs (Decidable ('\x00' ∉ owner.toList ∧ c.Fit))
  | .deleteByIds _ => inferInstanceAs (Decidable True)
  | .deleteByUrl owner _ => inferInstanceAs (Decidable ('\x00' ∉ owner.toList))

instance (s : Store) : DecidablePred (FreshIn s)
  | .insert r => inferInstanceAs (Decidable (s.find? r.id = none))
  | .select _ | .update .. | .deleteByIds _ | .deleteByUrl .. => inferInstanceAs (Decidable True)

end StoreRequest

namespace Store

/-- What becomes of a store that is asked something, with its answer. -/
def outcome (s : Store) : StoreRequest → Except StorageError (Store × StoreAnswer)
  | .select owner => (s.select owner).map fun l => (s, .records l)
  | .insert r => (s.insert r).map fun s' => (s', .inserted)
  | .update owner url c now => (s.update owner url c now).map fun p => (p.1, .updated p.2)
  | .deleteByIds ids => (s.deleteByIds ids).map fun p => (p.1, .deleted p.2)
  | .deleteByUrl owner url => (s.deleteByUrl owner url).map fun p => (p.1, .deleted p.2)

/-- The store after a request; one that fails leaves it as it was. -/
def next (s : Store) (q : StoreRequest) : Store :=
  match s.outcome q with
  | .ok p => p.1
  | .error _ => s

def answer (s : Store) (q : StoreRequest) : Except StorageError StoreAnswer := (s.outcome q).map Prod.snd

/-- The store after requests one after another. -/
def after (s : Store) (qs : List StoreRequest) : Store := qs.foldl next s

/-- The answers to requests one after another. -/
def answers : Store → List StoreRequest → List (Except StorageError StoreAnswer)
  | _, [] => []
  | s, q :: qs => s.answer q :: (s.next q).answers qs

/-- Every request is plain, and every record is inserted under an id that is free at its turn. -/
def Admits : Store → List StoreRequest → Prop
  | _, [] => True
  | s, q :: qs => q.Plain ∧ q.FreshIn s ∧ (s.next q).Admits qs

instance decidableAdmits : (s : Store) → DecidablePred s.Admits
  | _, [] => inferInstanceAs (Decidable True)
  | s, q :: qs =>
    haveI := decidableAdmits (s.next q) qs
    inferInstanceAs (Decidable (q.Plain ∧ q.FreshIn s ∧ (s.next q).Admits qs))

/-- The same records under the same ids, and none for an owner with a zero character. -/
structure Mirrors (s t : Store) : Prop where
  left : s.Sound
  right : t.Sound
  find? : ∀ id, t.find? id = s.find? id
  plain : ∀ r ∈ s, '\x00' ∉ r.owner.toList

/-- Both succeed with the same answer and mirror each other again, or both refuse a taken place. -/
def Alike (o o' : Except StorageError (Store × StoreAnswer)) : Prop :=
  (∃ s t a, o = .ok (s, a) ∧ o' = .ok (t, a) ∧ Mirrors s t) ∨
    ∃ owner url, o = .error (.duplicate owner url) ∧ o' = .error (.duplicate owner url)

variable {s t s' t' : Store} {owner url : String}

/-! ### Owners without a zero character -/

theorem hits_iff {r : StoredEndpoint} (ho : '\x00' ∉ owner.toList) (hr : '\x00' ∉ r.owner.toList) :
    s.Hits owner url r ↔ r.owner = owner ∧ r.url = url := by
  constructor
  · intro hh
    have howner : r.owner = owner := owner_eq_of_lists (fun _ => ⟨ho, hr⟩) (lists_of_hits hh)
    exact ⟨howner, url_eq_of_hits hh howner⟩
  · rintro ⟨rfl, rfl⟩
    exact hits_self s r

theorem lists_iff {r : StoredEndpoint} (ho : '\x00' ∉ owner.toList) (hr : '\x00' ∉ r.owner.toList) :
    s.lists owner r = true ↔ r.owner = owner := by
  constructor
  · exact owner_eq_of_lists fun _ => ⟨ho, hr⟩
  · rintro rfl
    exact lists_self s r

theorem overwrite_congr {r : StoredEndpoint} {c : Columns} {now : UInt64} (ho : '\x00' ∉ owner.toList)
    (hr : '\x00' ∉ r.owner.toList) : t.overwrite owner url c now r = s.overwrite owner url c now r := by
  unfold overwrite
  by_cases h : r.owner = owner ∧ r.url = url
  · rw [if_pos ((hits_iff ho hr).mpr h), if_pos ((hits_iff ho hr).mpr h)]
  · rw [if_neg fun hh => h ((hits_iff ho hr).mp hh), if_neg fun hh => h ((hits_iff ho hr).mp hh)]

/-! ### One request -/

/-- Two lists of an owner's records that have the same members, are in order and repeat none. -/
theorem eq_of_mem_iff (hs : s.Sound) {l l' : List StoredEndpoint} (hl : s.select owner = .ok l)
    (ht : t.Sound) (hl' : t.select owner = .ok l') (hmem : ∀ r, r ∈ l' ↔ r ∈ l)
    (hown : ∀ r ∈ l, r ∈ s ∧ r.owner = owner) : l = l' := by
  have hperm : l.Perm l' :=
    (List.perm_ext_iff_of_nodup (nodup_select hs hl) (nodup_select ht hl')).mpr fun r => (hmem r).symm
  refine List.Perm.eq_of_pairwise (fun a b ha hb hab hba => ?_) (pairwise_select hl) (pairwise_select hl')
    hperm
  obtain ⟨has, hao⟩ := hown a ha
  obtain ⟨hbs, hbo⟩ := hown b ((hmem b).mp hb)
  exact hs.eq_of_place has hbs (hao.trans hbo.symm) (StoredEndpoint.eq_place_of_not_before hba hab).2

namespace Mirrors

variable (hm : Mirrors s t)
include hm

theorem mem_iff {r : StoredEndpoint} : r ∈ t ↔ r ∈ s := by
  rw [Store.mem_iff, Store.mem_iff, hm.find?]

theorem plain_of_find? {id : String} {r : StoredEndpoint} (h : s.find? id = some r) :
    '\x00' ∉ r.owner.toList :=
  hm.plain r (hm.left.mem_of_find? h)

/-- Removing the same records from both. -/
theorem filter {p p' : StoredEndpoint → Bool} (hs : s'.Sound) (ht : t'.Sound)
    (hf : ∀ id, s'.find? id = (s.find? id).filter p) (hf' : ∀ id, t'.find? id = (t.find? id).filter p')
    (hp : ∀ r ∈ s, p' r = p r) : Mirrors s' t' := by
  refine ⟨hs, ht, fun id => ?_, fun r hr => hm.plain r ((mem_filter_iff hf).mp hr).1⟩
  rw [hf, hf', hm.find?]
  cases h : s.find? id with
  | none => rfl
  | some r => simp [Option.filter_some, hp r (hm.left.mem_of_find? h)]

theorem select (ho : '\x00' ∉ owner.toList) : Alike (s.outcome (.select owner)) (t.outcome (.select owner)) := by
  obtain ⟨l, hl, hmem⟩ := exists_select hm.left owner
  obtain ⟨l', hl', hmem'⟩ := exists_select hm.right owner
  have hown : ∀ r ∈ l, r ∈ s ∧ r.owner = owner := by
    intro r hr
    obtain ⟨hrs, hlist⟩ := (hmem r).mp hr
    exact ⟨hrs, (lists_iff ho (hm.plain r hrs)).mp hlist⟩
  have hsame : ∀ r, r ∈ l' ↔ r ∈ l := by
    intro r
    rw [hmem', hmem, hm.mem_iff]
    refine and_congr_right fun hr => ?_
    rw [lists_iff ho (hm.plain r hr), lists_iff ho (hm.plain r hr)]
  obtain rfl := eq_of_mem_iff hm.left hl hm.right hl' hsame hown
  exact .inl ⟨s, t, .records l, by simp only [outcome, hl]; rfl, by simp only [outcome, hl']; rfl, hm⟩

theorem insert {r : StoredEndpoint} (ho : '\x00' ∉ r.owner.toList) (hr : r.Fit)
    (hid : s.find? r.id = none) : Alike (s.outcome (.insert r)) (t.outcome (.insert r)) := by
  by_cases htaken : ∃ x ∈ s, x.owner = r.owner ∧ x.url = r.url
  · obtain ⟨x, hx, hplace⟩ := htaken
    have hs := insert_of_hits hm.left hx ((hits_iff ho (hm.plain x hx)).mpr hplace)
    have ht := insert_of_hits hm.right (hm.mem_iff.mpr hx) ((hits_iff ho (hm.plain x hx)).mpr hplace)
    exact .inr ⟨r.owner, r.url, by simp only [outcome, hs]; rfl, by simp only [outcome, ht]; rfl⟩
  · have hfree : ∀ x ∈ s, ¬ (x.owner = r.owner ∧ x.url = r.url) := fun x hx h => htaken ⟨x, hx, h⟩
    obtain ⟨s', hs'⟩ := exists_insert hm.left (r := r) fun x hx hh =>
      hfree x hx ((hits_iff ho (hm.plain x hx)).mp hh)
    obtain ⟨t', ht'⟩ := exists_insert hm.right (r := r) fun x hx hh =>
      hfree x (hm.mem_iff.mp hx) ((hits_iff ho (hm.plain x (hm.mem_iff.mp hx))).mp hh)
    have hid' : t.find? r.id = none := (hm.find? r.id).trans hid
    obtain ⟨hs, -, hf⟩ := find?_insert hm.left (fun _ => hr) hid hs'
    obtain ⟨ht, -, hf'⟩ := find?_insert hm.right (fun _ => hr) hid' ht'
    refine .inl ⟨s', t', .inserted, by simp only [outcome, hs']; rfl, by simp only [outcome, ht']; rfl,
      hs, ht, fun id => ?_, fun x hx => ?_⟩
    · rw [hf, hf', hm.find?]
    · rcases (mem_add_iff hid hf).mp hx with rfl | hx
      · exact ho
      · exact hm.plain x hx

theorem update {c : Columns} {now : UInt64} (ho : '\x00' ∉ owner.toList) (hc : c.Fit) :
    Alike (s.outcome (.update owner url c now)) (t.outcome (.update owner url c now)) := by
  obtain ⟨s', b, hs', hs, -, hb, hf⟩ := exists_update hm.left owner url (fun _ => hc) now
  obtain ⟨t', b', ht', ht, -, hb', hf'⟩ := exists_update hm.right owner url (fun _ => hc) now
  have hsame : b' = b := by
    rw [Bool.eq_iff_iff, hb, hb']
    refine exists_congr fun r => ?_
    rw [hm.mem_iff]
    refine and_congr_right fun hr => ?_
    rw [hits_iff ho (hm.plain r hr), hits_iff ho (hm.plain r hr)]
  subst hsame
  refine .inl ⟨s', t', .updated b', by simp only [outcome, hs']; rfl, by simp only [outcome, ht']; rfl,
    hs, ht, fun id => ?_, fun x hx => ?_⟩
  · rw [hf, hf', hm.find?]
    cases h : s.find? id with
    | none => rfl
    | some r => rw [Option.map_some, Option.map_some, overwrite_congr ho (hm.plain_of_find? h)]
  · obtain ⟨r, hr, rfl⟩ := (mem_overwrite_iff hm.left hf).mp hx
    rw [overwrite_owner]
    exact hm.plain r hr

theorem deleteByIds (ids : List String) :
    Alike (s.outcome (.deleteByIds ids)) (t.outcome (.deleteByIds ids)) := by
  obtain ⟨s', n, hs', hs, -, hf⟩ := exists_deleteByIds hm.left ids
  obtain ⟨t', n', ht', ht, -, hf'⟩ := exists_deleteByIds hm.right ids
  have hcount : n' = n := by
    rw [deleteByIds_card hm.left hs', deleteByIds_card hm.right ht']
    unfold present
    simp only [hm.find?]
  subst hcount
  refine .inl ⟨s', t', .deleted n', by simp only [outcome, hs']; rfl, by simp only [outcome, ht']; rfl,
    hs, ht, fun id => by rw [hf, hf', hm.find?], fun r hr => hm.plain r ?_⟩
  rw [Store.mem_iff, hf] at hr
  split_ifs at hr
  exact hr

theorem deleteByUrl (ho : '\x00' ∉ owner.toList) :
    Alike (s.outcome (.deleteByUrl owner url)) (t.outcome (.deleteByUrl owner url)) := by
  obtain ⟨s', n, hs', hs, -, hf⟩ := exists_deleteByUrl hm.left owner url
  obtain ⟨t', n', ht', ht, -, hf'⟩ := exists_deleteByUrl hm.right owner url
  have hhits : ∀ r ∈ s, (t.Hits owner url r ↔ s.Hits owner url r) := fun r hr => by
    rw [hits_iff ho (hm.plain r hr), hits_iff ho (hm.plain r hr)]
  have hcount : n' = n := by
    rcases deleteByUrl_card hm.left hs' with ⟨rfl, r, hr, hh⟩ | ⟨rfl, hno⟩ <;>
      rcases deleteByUrl_card hm.right ht' with ⟨rfl, r', hr', hh'⟩ | ⟨rfl, hno'⟩
    · rfl
    · exact absurd ((hhits r hr).mpr hh) (hno' r (hm.mem_iff.mpr hr))
    · exact absurd ((hhits r' (hm.mem_iff.mp hr')).mp hh') (hno r' (hm.mem_iff.mp hr'))
    · rfl
  subst hcount
  refine .inl ⟨s', t', .deleted n', by simp only [outcome, hs']; rfl, by simp only [outcome, ht']; rfl,
    hm.filter hs ht hf hf' fun r hr => ?_⟩
  simp only [hhits r hr]

/-- **Stores that mirror each other** go on doing so whatever they are asked. -/
theorem outcome {q : StoreRequest} (hp : q.Plain) (hq : q.FreshIn s) : Alike (s.outcome q) (t.outcome q) := by
  cases q with
  | select owner => exact hm.select hp
  | insert r => exact hm.insert hp.1 hp.2 hq
  | update owner url c now => exact hm.update hp.1 hp.2
  | deleteByIds ids => exact hm.deleteByIds ids
  | deleteByUrl owner url => exact hm.deleteByUrl hp

/-- Both stores give the same answers, and refuse nothing but a taken place. -/
theorem answers_eq {qs : List StoreRequest} (hqs : s.Admits qs) : t.answers qs = s.answers qs ∧
    ∀ a ∈ s.answers qs, (∃ x, a = .ok x) ∨ ∃ owner url, a = .error (.duplicate owner url) := by
  induction qs generalizing s t with
  | nil => exact ⟨rfl, fun _ ha => absurd ha List.not_mem_nil⟩
  | cons q qs ih =>
    obtain ⟨hp, hq, hqs⟩ := hqs
    unfold answers answer next
    unfold next at hqs
    rcases hm.outcome hp hq with ⟨s', t', x, hs, ht, hm'⟩ | ⟨owner, url, hs, ht⟩
    · rw [hs] at hqs ⊢
      rw [ht]
      obtain ⟨heq, hall⟩ := ih hm' hqs
      refine ⟨congrArg (List.cons _) heq, fun a ha => ?_⟩
      rcases List.mem_cons.mp ha with rfl | ha
      · exact .inl ⟨x, rfl⟩
      · exact hall a ha
    · rw [hs] at hqs ⊢
      rw [ht]
      obtain ⟨heq, hall⟩ := ih hm hqs
      refine ⟨congrArg (List.cons _) heq, fun a ha => ?_⟩
      rcases List.mem_cons.mp ha with rfl | ha
      · exact .inr ⟨owner, url, rfl⟩
      · exact hall a ha

end Mirrors

theorem mirrors_empty : Mirrors (.memory .empty) (.embedded .empty) where
  left := Reached.memory.sound
  right := Reached.embedded.sound
  find? _ := rfl
  plain r hr := by
    rw [mem_iff] at hr
    cases hr

/-- **The two stores are interchangeable.**  Empty at first, they give the same answers to all requests in
which no owner holds a zero character and records are inserted under free ids: the same records in the
same order, the same counts, or the refusal of a taken place, and nothing else. -/
theorem answers_embedded_eq (qs : List StoreRequest) (hqs : (memory .empty).Admits qs) :
    (embedded .empty).answers qs = (memory .empty).answers qs ∧
      ∀ a ∈ (embedded .empty).answers qs,
        (∃ x, a = .ok x) ∨ ∃ owner url, a = .error (.duplicate owner url) := by
  obtain ⟨heq, hall⟩ := mirrors_empty.answers_eq hqs
  exact ⟨heq, heq ▸ hall⟩

/-- Three endpoints of an owner, the last of them at a taken place; one is then updated, all are listed, and
each is removed, one by its address and one by its id. -/
def sevenRequests : List StoreRequest :=
  [.insert ⟨"1", "h", "b:2", ⟨"ns", "http://", 0, 50, ""⟩, 7, 7⟩,
    .insert ⟨"2", "h", "a\x00:1", ⟨"ns", "http://", 0, 50, ""⟩, 7, 7⟩,
    .insert ⟨"3", "h", "b:2", ⟨"ns", "http://", 1, 60, ""⟩, 8, 8⟩,
    .update "h" "b:2" ⟨"ns", "https://", 1, 60, "p"⟩ 9,
    .select "h",
    .deleteByUrl "h" "a\x00:1",
    .deleteByIds ["1", "2", "1"]]

theorem answers_sevenRequests : (memory .empty).Admits sevenRequests ∧
    (embedded .empty).answers sevenRequests =
      [.ok .inserted, .ok .inserted, .error (.duplicate "h" "b:2"), .ok (.updated true),
        .ok (.records [⟨"2", "h", "a\x00:1", ⟨"ns", "http://", 0, 50, ""⟩, 7, 7⟩,
          ⟨"1", "h", "b:2", ⟨"ns", "https://", 1, 60, "p"⟩, 7, 9⟩]),
        .ok (.deleted 1), .ok (.deleted 1)] := by
  have hadmits : (memory .empty).Admits sevenRequests := by decide +kernel
  obtain ⟨heq, -⟩ := answers_embedded_eq sevenRequests hadmits
  refine ⟨hadmits, heq.trans ?_⟩
  decide +kernel

end Store

end RouteSync
