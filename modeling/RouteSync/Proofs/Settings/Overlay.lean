import Mathlib.Tactic.Common
import RouteSync.Settings.Layer

/-!
# What a layer leaves at a path

A layer says a list of assignments: the members of a section one by one, and everything else where its path
leads.  An assignment whose path leads to some names puts its value there, one whose path parts from them
at a name leaves alone what stands there, and whatever is merged on the way makes no difference.  So after
a layer there stands what its last assignment says, or what stood there before (`assigned_overlay`), and
what was a table in a section is one still (`isTable_overlay`).
-/

namespace RouteSync

open RouteSync.Text

/-! ### Names that lead somewhere -/

namespace SettingPath

/-- The path leads to these names, which are in lower case. -/
def leads : SettingPath → List String → Bool
  | [], [] => true
  | .name a :: p, b :: q => lower a == b && leads p q
  | _, _ => false

/-- The path parts from these names at one of its own. -/
def parts : SettingPath → List String → Bool
  | .name a :: p, b :: q => lower a != b || parts p q
  | _, _ => false

@[simp] theorem leads_nil (p : SettingPath) : leads p [] = true ↔ p = [] := by
  rcases p with _ | ⟨_ | _, p⟩ <;> simp [leads]

@[simp] theorem nil_leads (q : List String) : leads [] q = true ↔ q = [] := by
  cases q <;> simp [leads]

@[simp] theorem parts_nil (p : SettingPath) : parts p [] = false := by
  rcases p with _ | ⟨_ | _, p⟩ <;> rfl

@[simp] theorem nil_parts (q : List String) : parts [] q = false := by
  cases q <;> rfl

theorem eq_name_of_leads_or_parts {p : SettingPath} {q : List String} (hq : q ≠ [])
    (h : p.leads q = true ∨ p.parts q = true) : ∃ a p', p = .name a :: p' := by
  cases q with
  | nil => exact absurd rfl hq
  | cons b q =>
    cases p with
    | nil => simp at h
    | cons step p =>
      cases step with
      | name a => exact ⟨a, p, rfl⟩
      | index i => simp [leads, parts] at h

theorem leads_unique {p : SettingPath} {q q' : List String} (h : p.leads q = true)
    (h' : p.leads q' = true) : q = q' := by
  induction p generalizing q q' with
  | nil => rw [(nil_leads q).mp h, (nil_leads q').mp h']
  | cons step p ih =>
    cases step with
    | index i => cases q <;> simp [leads] at h
    | name a =>
      cases q with
      | nil => simp at h
      | cons b q =>
        cases q' with
        | nil => simp at h'
        | cons c q' =>
          simp only [leads, Bool.and_eq_true, beq_iff_eq] at h h'
          rw [← h.1, ← h'.1, ih h.2 h'.2]

theorem not_parts_of_leads {p : SettingPath} {q : List String} (h : p.leads q = true) :
    ¬ p.parts q = true := by
  induction p generalizing q with
  | nil => simp
  | cons step p ih =>
    cases step with
    | index i => cases q <;> simp [leads] at h
    | name a =>
      cases q with
      | nil => simp at h
      | cons b q =>
        simp only [leads, Bool.and_eq_true, beq_iff_eq] at h
        simp [parts, h.1, ih h.2]

/-- A path that leads to some names parts from all others of which they are no beginning and which are no
beginning of them. -/
theorem parts_of_leads {p : SettingPath} {q q' : List String} (h : p.leads q = true) (hq : ¬ q <+: q')
    (hq' : ¬ q' <+: q) : p.parts q' = true := by
  induction p generalizing q q' with
  | nil =>
    obtain rfl := (nil_leads q).mp h
    exact absurd List.nil_prefix hq
  | cons step p ih =>
    cases step with
    | index i => cases q <;> simp [leads] at h
    | name a =>
      cases q with
      | nil => simp at h
      | cons b q =>
        cases q' with
        | nil => exact absurd List.nil_prefix hq'
        | cons c q' =>
          simp only [leads, Bool.and_eq_true, beq_iff_eq] at h
          by_cases hbc : b = c
          · subst hbc
            rw [List.prefix_cons_inj] at hq hq'
            simp [parts, ih h.2 hq hq']
          · simp [parts, h.1, hbc]

end SettingPath

namespace Setting

/-- What a table has under a name. -/
def get? (k : String) : Setting → Option Setting
  | .table ms _ => Table.find k ms
  | _ => none

/-- What stands at the end of some names. -/
def at? : List String → Setting → Option Setting
  | [], s => some s
  | k :: q, s => (s.get? k).bind (at? q)

def isTable : Setting → Bool
  | .table _ _ => true
  | _ => false

theorem find_opened (k : String) (s : Setting) : Table.find k s.opened.1 = s.get? k := by
  cases s <;> rfl

/-! ### Setting at a path -/

/-- What is found where a value was laid over what was there. -/
def laid : Setting → Option Setting → Setting
  | .table ms _, old => merge ms (old.getD emptyTable)
  | v, _ => v

theorem laid_of_not_table {v : Setting} (hv : v.isTable = false) (old : Option Setting) : laid v old = v := by
  cases v with
  | scalar | list => rfl
  | table => cases hv

theorem store_eq (k : String) (v : Setting) (ms : List (String × Setting)) :
    store k v ms = Table.assign (lower k) (laid v (Table.find (lower k) ms)) ms := by
  cases v <;> rw [store] <;> rfl

theorem get?_set_name (v : Setting) (k a : String) (t : Setting) :
    (set v [.name k] t).get? a = if lower k = a then some (laid v (t.get? a)) else t.get? a := by
  show Table.find a (store k v t.opened.1) = _
  rw [store_eq, Table.find_assign, find_opened, find_opened]
  by_cases ha : lower k = a
  · rw [if_pos ha, if_pos ha, ha]
  · rw [if_neg ha, if_neg ha]

theorem get?_set_cons (v : Setting) (k a : String) {p : SettingPath} (hp : p ≠ []) (t : Setting) :
    (set v (.name k :: p) t).get? a =
      if lower k = a then some (set v p ((t.get? a).getD nothing)) else t.get? a := by
  cases p with
  | nil => exact absurd rfl hp
  | cons step p =>
    show Table.find a (Table.assign (lower k) (set v (step :: p) ((Table.find (lower k) t.opened.1).getD
      nothing)) t.opened.1) = _
    rw [Table.find_assign, find_opened, find_opened]
    by_cases ha : lower k = a
    · rw [if_pos ha, if_pos ha, ha]
    · rw [if_neg ha, if_neg ha]

theorem isTable_set_name (v : Setting) (k : String) (p : SettingPath) (t : Setting) :
    (set v (.name k :: p) t).isTable = true := by
  cases p <;> rfl

theorem at?_set_of_leads {v : Setting} (hv : v.isTable = false) {p : SettingPath} {q : List String}
    (h : p.leads q = true) (hq : q ≠ []) (t : Setting) : at? q (set v p t) = some v := by
  induction p generalizing q t with
  | nil => exact absurd ((SettingPath.nil_leads q).mp h) hq
  | cons step p ih =>
    obtain ⟨a, p', he⟩ := SettingPath.eq_name_of_leads_or_parts hq (.inl h)
    obtain ⟨rfl, rfl⟩ := List.cons.inj he
    cases q with
    | nil => exact absurd rfl hq
    | cons b q =>
      simp only [SettingPath.leads, Bool.and_eq_true, beq_iff_eq] at h
      by_cases hp : p = []
      · subst hp
        obtain rfl := (SettingPath.nil_leads q).mp h.2
        rw [at?, get?_set_name, if_pos h.1, laid_of_not_table hv]
        rfl
      · have hq' : q ≠ [] := by
          rintro rfl
          exact hp ((SettingPath.leads_nil p).mp h.2)
        rw [at?, get?_set_cons v a b hp, if_pos h.1]
        exact ih h.2 hq' _

theorem at?_nothing {q : List String} (hq : q ≠ []) : at? q nothing = none := by
  cases q with
  | nil => exact absurd rfl hq
  | cons => rfl

theorem at?_emptyTable {q : List String} (hq : q ≠ []) : at? q emptyTable = none := by
  cases q with
  | nil => exact absurd rfl hq
  | cons => rfl

theorem at?_set_of_parts (v : Setting) {p : SettingPath} {q : List String} (h : p.parts q = true)
    (t : Setting) : at? q (set v p t) = at? q t := by
  induction p generalizing q t with
  | nil => simp at h
  | cons step p ih =>
    cases q with
    | nil => simp at h
    | cons b q =>
      obtain ⟨a, p', he⟩ := SettingPath.eq_name_of_leads_or_parts (List.cons_ne_nil b q) (.inr h)
      obtain ⟨rfl, rfl⟩ := List.cons.inj he
      simp only [SettingPath.parts, Bool.or_eq_true, bne_iff_ne] at h
      by_cases hab : lower a = b
      · have hparts : SettingPath.parts p q = true := h.resolve_left fun hne => hne hab
        have hp : p ≠ [] := by
          rintro rfl
          simp at hparts
        have hq : q ≠ [] := by
          rintro rfl
          simp at hparts
        rw [at?, get?_set_cons v a b hp, if_pos hab, Option.bind_some, ih hparts]
        -- an absent member counts as one that holds nothing
        cases hb : t.get? b with
        | none => rw [at?, hb]; exact at?_nothing hq
        | some s => rw [at?, hb]; rfl
      · rw [at?, at?]
        congr 1
        cases p with
        | nil => rw [get?_set_name, if_neg hab]
        | cons => rw [get?_set_cons v a b (List.cons_ne_nil _ _), if_neg hab]

end Setting

/-! ### Assignments -/

/-- A path and what is set there. -/
abbrev Assignment := SettingPath × Setting

/-- The value of the last assignment to some names. -/
def said (q : List String) (l : List Assignment) : Option Setting :=
  ((l.filter fun a => a.1.leads q).getLast?).map Prod.snd

theorem said_append (q : List String) (l l' : List Assignment) :
    said q (l ++ l') = (said q l').or (said q l) := by
  rw [said, List.filter_append, List.getLast?_append, said, said]
  cases (l'.filter fun a => a.1.leads q).getLast? <;> rfl

theorem said_singleton (q : List String) (a : Assignment) :
    said q [a] = if a.1.leads q then some a.2 else none := by
  unfold said
  by_cases h : a.1.leads q = true <;> simp [h]

theorem exists_of_said {q : List String} {l : List Assignment} {v : Setting} (h : said q l = some v) :
    ∃ a ∈ l, a.1.leads q = true ∧ a.2 = v := by
  obtain ⟨a, ha, hv⟩ := Option.map_eq_some_iff.mp h
  have hmem := List.mem_of_getLast? ha
  rw [List.mem_filter] at hmem
  exact ⟨a, hmem.1, hmem.2, hv⟩

/-- What some assignments make of what stands at some names: the last one to them is there, unless it is
a table, and without one nothing changes. -/
structure Assigned (l : List Assignment) (q : List String) (t t' : Setting) : Prop where
  kept (h : said q l = none) : Setting.at? q t' = Setting.at? q t
  last (v : Setting) (h : said q l = some v) (hv : v.isTable = false) : Setting.at? q t' = some v

/-- All assignments lead to these names or part from them. -/
def Clear (l : List Assignment) (q : List String) : Prop :=
  ∀ a ∈ l, a.1.leads q = true ∨ a.1.parts q = true

theorem Assigned.nil (q : List String) (t : Setting) : Assigned [] q t t := ⟨fun _ => rfl, nofun⟩

theorem Assigned.append {l l' : List Assignment} {q : List String} {t t' t'' : Setting}
    (h : Assigned l q t t') (h' : Assigned l' q t' t'') : Assigned (l ++ l') q t t'' := by
  constructor
  · intro hs
    rw [said_append, Option.or_eq_none_iff] at hs
    rw [h'.kept hs.1, h.kept hs.2]
  · intro v hs hv
    rw [said_append, Option.or_eq_some_iff] at hs
    rcases hs with hs | ⟨hnone, hs⟩
    · exact h'.last v hs hv
    · rw [h'.kept hnone, h.last v hs hv]

theorem parts_of_not_leads {a : Assignment} {q : List String} (h : a.1.leads q = true ∨ a.1.parts q = true)
    (hs : said q [a] = none) : a.1.parts q = true := by
  rw [said_singleton] at hs
  exact h.resolve_left fun hl => by simp [hl] at hs

theorem assigned_set {a : Assignment} {q : List String} (hq : q ≠ []) (h : Clear [a] q) (t : Setting) :
    Assigned [a] q t (Setting.set a.2 a.1 t) := by
  have ha := h a (List.mem_singleton_self a)
  constructor
  · intro hs
    exact Setting.at?_set_of_parts a.2 (parts_of_not_leads ha hs) t
  · intro v hs hv
    rw [said_singleton] at hs
    split_ifs at hs with hl
    obtain rfl := Option.some.inj hs
    exact Setting.at?_set_of_leads hv hl hq t

/-- The members of a merged table are assigned one after another. -/
theorem assigned_merge {ms : List (String × Setting)} {q : List String} (hq : q ≠ [])
    (h : Clear (ms.map fun m => ([.name m.1], m.2)) q) (t : Setting) :
    Assigned (ms.map fun m => ([.name m.1], m.2)) q t (Setting.merge ms t) := by
  induction ms generalizing t with
  | nil => rw [Setting.merge]; exact .nil q t
  | cons m ms ih =>
    have hfirst := assigned_set hq (fun a ha => h a (List.mem_cons.mpr (.inl (List.mem_singleton.mp ha)))) t
    have hrest := ih (fun a ha => h a (List.mem_cons_of_mem _ ha)) (Setting.set m.2 [.name m.1] t)
    rw [Setting.merge]
    exact hfirst.append hrest

/-! ### Layers -/

/-- The names of the tables that settings stand in. -/
def sections : List String := ["discovery", "storage", "monitoring"]

/-- What one entry of a layer assigns: each member of a section, or its value. -/
def entryAssignments (e : String × Setting) : List Assignment :=
  match SettingPath.read e.1, e.2 with
  | [.name k], .table ms origin =>
    if lower k ∈ sections then ms.map fun m => ([.name k, .name m.1], m.2)
    else [([.name k], .table ms origin)]
  | p, v => [(p, v)]

def Layer.assignments (l : Layer) : List Assignment := l.flatMap entryAssignments

/-- An entry is a section or assigns its value. -/
theorem entry_cases (e : String × Setting) :
    (∃ k ms origin, lower k ∈ sections ∧ SettingPath.read e.1 = [.name k] ∧ e.2 = .table ms origin ∧
      entryAssignments e = ms.map fun m => ([.name k, .name m.1], m.2)) ∨
    entryAssignments e = [(SettingPath.read e.1, e.2)] := by
  unfold entryAssignments
  split
  · rename_i k ms origin hp hv
    by_cases hk : lower k ∈ sections
    · exact .inl ⟨k, ms, origin, hk, hp, hv, if_pos hk⟩
    · exact .inr (by rw [if_neg hk, hp, hv])
  · exact .inr rfl

theorem said_prefixed (k b : String) (q : List String) (ms : List (String × Setting)) :
    said (b :: q) (ms.map fun m => ([.name k, .name m.1], m.2)) =
      if lower k = b then said q (ms.map fun m => ([.name m.1], m.2)) else none := by
  simp only [said, List.filter_map, List.getLast?_map, Option.map_map]
  by_cases hk : lower k = b
  · have hleads : ∀ m : String × Setting, SettingPath.leads [.name k, .name m.1] (b :: q) =
        SettingPath.leads [.name m.1] q := fun m => by simp [SettingPath.leads, hk]
    simp only [if_pos hk, Function.comp_def, hleads]
  · have hleads : ∀ m : String × Setting, SettingPath.leads [.name k, .name m.1] (b :: q) = false :=
      fun m => by simp [SettingPath.leads, hk]
    have hnone : ms.filter (fun _ => false) = [] := List.filter_eq_nil_iff.mpr fun _ _ => Bool.false_ne_true
    simp only [if_neg hk, Function.comp_def, hleads, hnone]
    rfl

/-- A section is merged member by member. -/
theorem assigned_section {k : String} {ms : List (String × Setting)} (origin : Option String)
    {b : String} {q : List String} (hq : lower k = b → q ≠ [])
    (h : Clear (ms.map fun m => ([.name k, .name m.1], m.2)) (b :: q)) (t : Setting) :
    Assigned (ms.map fun m => ([.name k, .name m.1], m.2)) (b :: q) t
      (Setting.set (.table ms origin) [.name k] t) := by
  by_cases hk : lower k = b
  · have hclear : Clear (ms.map fun m => ([.name m.1], m.2)) q := by
      intro a ha
      obtain ⟨m, hm, rfl⟩ := List.mem_map.mp ha
      have ha := h _ (List.mem_map_of_mem hm)
      simpa [SettingPath.leads, SettingPath.parts, hk] using ha
    have hmerge := assigned_merge (hq hk) hclear ((t.get? b).getD Setting.emptyTable)
    have hafter : Setting.at? (b :: q) (Setting.set (.table ms origin) [.name k] t) =
        Setting.at? q (Setting.merge ms ((t.get? b).getD Setting.emptyTable)) := by
      rw [Setting.at?, Setting.get?_set_name, if_pos hk]
      rfl
    have hbefore : Setting.at? q ((t.get? b).getD Setting.emptyTable) = Setting.at? (b :: q) t := by
      rw [Setting.at?]
      cases t.get? b with
      | none => exact Setting.at?_emptyTable (hq hk)
      | some s => rfl
    have hsaid := said_prefixed k b q ms
    rw [if_pos hk] at hsaid
    refine ⟨fun hs => ?_, fun v hs hv => ?_⟩
    · rw [hafter, hmerge.kept (hsaid ▸ hs), hbefore]
    · rw [hafter, hmerge.last v (hsaid ▸ hs) hv]
  · have hsaid := said_prefixed k b q ms
    rw [if_neg hk] at hsaid
    refine ⟨fun _ => ?_, fun v hs => ?_⟩
    · exact Setting.at?_set_of_parts _ (by simp [SettingPath.parts, hk]) t
    · rw [hsaid] at hs
      cases hs

/-- Names that lead past the sections: none are a section itself. -/
def Inner (q : List String) : Prop := q ≠ [] ∧ ∀ k ∈ sections, q ≠ [k]

theorem assigned_entry {e : String × Setting} {q : List String} (hq : Inner q)
    (h : Clear (entryAssignments e) q) (t : Setting) :
    Assigned (entryAssignments e) q t (Setting.set e.2 (.read e.1) t) := by
  rcases entry_cases e with ⟨k, ms, origin, hk, hp, hv, he⟩ | he
  · rw [he] at h ⊢
    rw [hp, hv]
    cases q with
    | nil => exact absurd rfl hq.1
    | cons b q =>
      refine assigned_section origin ?_ h t
      rintro rfl rfl
      exact hq.2 (lower k) hk rfl
  · rw [he] at h ⊢
    exact assigned_set hq.1 h t

/-- **What a layer leaves** at names that it is clear about. -/
theorem assigned_overlay {l : Layer} {q : List String} (hq : Inner q) (h : Clear l.assignments q)
    (t : Setting) : Assigned l.assignments q t (t.overlay l) := by
  induction l generalizing t with
  | nil => exact .nil q t
  | cons e l ih =>
    have hfirst := assigned_entry hq (fun a ha => h a (List.mem_append_left _ ha)) t
    have hrest := ih (fun a ha => h a (List.mem_append_right _ ha)) (Setting.set e.2 (.read e.1) t)
    exact hfirst.append hrest

/-! ### Tables -/

theorem isTable_merge (ms : List (String × Setting)) {t : Setting} (ht : t.isTable = true) :
    (Setting.merge ms t).isTable = true := by
  induction ms generalizing t with
  | nil => rwa [Setting.merge]
  | cons m ms ih => rw [Setting.merge]; exact ih rfl

/-- What stands under a name, if anything does, is a table. -/
def HoldsTable (k : String) (t : Setting) : Prop := ∀ s, t.get? k = some s → s.isTable = true

theorem holdsTable_set {v : Setting} {p : SettingPath} {k f : String}
    (h : p.leads [k, f] = true ∨ p.parts [k, f] = true) {t : Setting} (ht : HoldsTable k t) :
    HoldsTable k (Setting.set v p t) := by
  obtain ⟨a, p, rfl⟩ := SettingPath.eq_name_of_leads_or_parts (List.cons_ne_nil _ _) h
  intro s hs
  simp only [SettingPath.leads, SettingPath.parts, Bool.and_eq_true, Bool.or_eq_true, beq_iff_eq,
    bne_iff_ne] at h
  by_cases hp : p = []
  · subst hp
    have hak : lower a ≠ k := by simpa using h
    rw [Setting.get?_set_name, if_neg hak] at hs
    exact ht s hs
  · rw [Setting.get?_set_cons v a k hp] at hs
    split_ifs at hs with hak
    · -- the path goes on with a name, so a table is opened here
      have hgoes : SettingPath.leads p [f] = true ∨ SettingPath.parts p [f] = true :=
        h.elim (fun h => .inl h.2) fun h => .inr (h.resolve_left fun hne => hne hak)
      obtain ⟨b, p', rfl⟩ := SettingPath.eq_name_of_leads_or_parts (List.cons_ne_nil _ _) hgoes
      obtain rfl := Option.some.inj hs
      exact Setting.isTable_set_name v b p' _
    · exact ht s hs

theorem holdsTable_entry {e : String × Setting} {k f : String} (h : Clear (entryAssignments e) [k, f])
    {t : Setting} (ht : HoldsTable k t) : HoldsTable k (Setting.set e.2 (.read e.1) t) := by
  rcases entry_cases e with ⟨k', ms, origin, hk', hp, hv, -⟩ | he
  · rw [hp, hv]
    intro s hs
    rw [Setting.get?_set_name] at hs
    split_ifs at hs with hk
    · obtain rfl := Option.some.inj hs
      refine isTable_merge ms ?_
      cases hold : t.get? k with
      | none => rfl
      | some old => exact ht old hold
    · exact ht s hs
  · rw [he] at h
    exact holdsTable_set (h _ (List.mem_singleton_self _)) ht

theorem holdsTable_overlay {l : Layer} {k f : String} (h : Clear l.assignments [k, f]) {t : Setting}
    (ht : HoldsTable k t) : HoldsTable k (t.overlay l) := by
  induction l generalizing t with
  | nil => exact ht
  | cons e l ih =>
    have hfirst := holdsTable_entry (fun a ha => h a (List.mem_append_left _ ha)) ht
    exact ih (fun a ha => h a (List.mem_append_right _ ha)) hfirst

theorem isTable_overlay {l : Layer} {q : List String} (hq : q ≠ []) (h : Clear l.assignments q)
    {t : Setting} (ht : t.isTable = true) : (t.overlay l).isTable = true := by
  induction l generalizing t with
  | nil => exact ht
  | cons e l ih =>
    refine ih (fun a ha => h a (List.mem_append_right _ ha)) ?_
    show (Setting.set e.2 (.read e.1) t).isTable = true
    rcases entry_cases e with ⟨k, ms, origin, -, hp, hv, -⟩ | he
    · rw [hp, hv]
      rfl
    · have he' : (SettingPath.read e.1, e.2) ∈ Layer.assignments (e :: l) :=
        List.mem_append_left _ (he ▸ List.mem_singleton_self _)
      obtain ⟨a, p, hp⟩ := SettingPath.eq_name_of_leads_or_parts hq (h _ he')
      simp only at hp
      rw [hp]
      exact Setting.isTable_set_name e.2 a p t

end RouteSync
