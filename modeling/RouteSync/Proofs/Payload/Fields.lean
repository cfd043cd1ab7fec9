import Mathlib.Data.List.Forall2
import RouteSync.Payload
import RouteSync.Proofs.Json.Members

/-!
# The fields of an object

The members of an object are taken in the order of their keys, and a later one overwrites what an earlier one
has set: the last member that holds a field decides it (`Mapping.held`).  An object makes an endpoint exactly if
every member that holds a number reads as one and there is an address; it is then the endpoint that the last
members describe (`ofObject_eq`).  A payload makes one endpoint of each of its objects (`read_eq_ok_iff`).
-/

namespace RouteSync

open RouteSync.Json

namespace PayloadField

theorem ofName?_eq_some_iff {s : String} {f : PayloadField} : ofName? s = some f ↔ s = f.name := by
  constructor
  · intro h
    have hname : (f.name == s) = true := List.find?_some (p := fun f : PayloadField => f.name == s) h
    exact (beq_iff_eq.mp hname).symm
  · rintro rfl
    cases f <;> decide

@[simp] theorem ofName?_name (f : PayloadField) : ofName? f.name = some f := ofName?_eq_some_iff.mpr rfl

theorem ofName?_eq_none_iff {s : String} : ofName? s = none ↔ ∀ f : PayloadField, s ≠ f.name := by
  rw [Option.eq_none_iff_forall_ne_some]
  exact forall_congr' fun f => not_congr ofName?_eq_some_iff

theorem name_inj {f g : PayloadField} : f.name = g.name ↔ f = g := by
  rw [← ofName?_eq_some_iff, ofName?_name, Option.some.injEq]

/-- The fields that hold a number; all others hold a text. -/
def isNumber : PayloadField → Bool
  | .weight => true
  | .status => true
  | _ => false

end PayloadField

namespace Mapping

variable {m : Mapping} {f : PayloadField} {l : List (String × Value)} {e : String × Value}

/-- The value of the last member that holds a field. -/
def held (m : Mapping) (f : PayloadField) : List (String × Value) → Option Value
  | [] => none
  | e :: l => (m.held f l).or (if m.field? e.1 = some f then some e.2 else none)

/-- What is wrong with a member: it holds a number and does not read as one. -/
def fault? (m : Mapping) (e : String × Value) : Option InvalidConfig :=
  (m.field? e.1).bind fun f =>
    if f.isNumber = true ∧ Payload.int32? e.2 = none then some (.notInteger f.name e.2.print) else none

theorem fault?_eq_none_iff : m.fault? e = none ↔
    ∀ f, m.field? e.1 = some f → f.isNumber = true → ∃ n, Payload.int32? e.2 = some n := by
  simp only [fault?, Option.bind_eq_none_iff, ite_eq_right_iff, reduceCtorEq, imp_false, not_and,
    ← Option.isSome_iff_exists, Option.isSome_iff_ne_none, ne_eq]

theorem held_concat : m.held f (l ++ [e]) = if m.field? e.1 = some f then some e.2 else m.held f l := by
  induction l with
  | nil => simp [held]
  | cons x l ih =>
    rw [List.cons_append, held, ih, held]
    split_ifs <;> simp

theorem held_eq_none_iff : m.held f l = none ↔ ∀ e ∈ l, m.field? e.1 ≠ some f := by
  induction l with
  | nil => simp [held]
  | cons e l ih =>
    rw [held, Option.or_eq_none_iff, ih, List.forall_mem_cons, and_comm]
    simp

/-- What is held is the value of a member that holds the field, and no later member does. -/
theorem held_eq_some_iff {v : Value} : m.held f l = some v ↔ ∃ before k after,
    l = before ++ (k, v) :: after ∧ m.field? k = some f ∧ ∀ e ∈ after, m.field? e.1 ≠ some f := by
  constructor
  · intro h
    induction l with
    | nil => cases h
    | cons e l ih =>
      rw [held] at h
      cases hrest : m.held f l with
      | some w =>
        rw [hrest, Option.some_or] at h
        cases h
        obtain ⟨before, k, after, rfl, hk, hafter⟩ := ih hrest
        exact ⟨e :: before, k, after, rfl, hk, hafter⟩
      | none =>
        rw [hrest, Option.none_or] at h
        split_ifs at h with he
        cases h
        exact ⟨[], e.1, l, rfl, he, held_eq_none_iff.mp hrest⟩
  · rintro ⟨before, k, after, rfl, hk, hafter⟩
    induction before with
    | nil => rw [List.nil_append, held, held_eq_none_iff.mpr hafter, if_pos hk, Option.none_or]
    | cons e before ih => rw [List.cons_append, held, ih, Option.some_or]

/-- In the order of keys the greatest key that holds a field decides it. -/
theorem held_of_greatest {k : String} {v : Value} (hl : (l.map Prod.fst).Pairwise (· < ·)) (hv : (k, v) ∈ l)
    (hk : m.field? k = some f) (hgreatest : ∀ e ∈ l, m.field? e.1 = some f → ¬ k < e.1) :
    m.held f l = some v := by
  obtain ⟨before, after, rfl⟩ := List.append_of_mem hv
  refine held_eq_some_iff.mpr ⟨before, k, after, rfl, hk, fun e he hf => ?_⟩
  rw [List.map_append, List.pairwise_append, List.map_cons, List.pairwise_cons] at hl
  exact hgreatest e (by simp [he]) hf (hl.2.1.1 e.1 (List.mem_map_of_mem he))

/-- A field that only one key holds is decided by that key. -/
theorem held_eq_some_iff_of_only {k : String} {v : Value} (hl : (l.map Prod.fst).Pairwise (· < ·))
    (hk : ∀ e ∈ l, m.field? e.1 = some f ↔ e.1 = k) : m.held f l = some v ↔ (k, v) ∈ l := by
  constructor
  · intro h
    obtain ⟨before, k', after, rfl, hk', -⟩ := held_eq_some_iff.mp h
    have hmem : (k', v) ∈ before ++ (k', v) :: after := by simp
    rwa [← (hk _ hmem).mp hk']
  · intro hv
    refine held_of_greatest hl hv ((hk _ hv).mpr rfl) fun e he hf => ?_
    rw [(hk e he).mp hf]
    exact String.lt_irrefl k

end Mapping

namespace Payload

variable {m : Mapping} {l : List (String × Value)} {e : String × Value} {x : Endpoint}

/-- The endpoint that some members describe: each field is that of the last member that holds it. -/
def described (m : Mapping) (l : List (String × Value)) : Endpoint where
  url := ((m.held .url l).map text).getD ""
  weight := ((m.held .weight l).bind int32?).getD defaultWeight
  status := ((m.held .status l).bind int32?).getD 0
  protocol := ((m.held .protocol l).map text).getD ""
  props := (m.held .props l).map text
  namespaceId := (m.held .namespaceId l).map text

/-- A field of an endpoint is what a value says. -/
def Shows (x : Endpoint) (v : Value) : PayloadField → Prop
  | .url => x.url = text v
  | .protocol => x.protocol = text v
  | .weight => int32? v = some x.weight
  | .status => int32? v = some x.status
  | .props => x.props = some (text v)
  | .namespaceId => x.namespaceId = some (text v)

/-! ### One member after another -/

/-- **One more member** changes the field that it holds. -/
theorem addMember_described (m : Mapping) (l : List (String × Value)) (e : String × Value) :
    addMember m (described m l) e = match m.fault? e with
      | some err => .error err
      | none => .ok (described m (l ++ [e])) := by
  unfold addMember Mapping.fault?
  cases hf : m.field? e.1 with
  | none =>
    have hsame : described m (l ++ [e]) = described m l := by simp [described, Mapping.held_concat, hf]
    rw [hsame]
    rfl
  | some f =>
    have hheld : ∀ g, m.held g (l ++ [e]) = if f = g then some e.2 else m.held g l := fun g => by
      simp only [Mapping.held_concat, hf, Option.some.injEq]
    cases f with
    | weight | status =>
      cases hn : int32? e.2 <;>
        simp [setField, int32, described, hheld, PayloadField.isNumber, hn, Except.map]
    | _ => simp [setField, described, hheld, PayloadField.isNumber]

theorem foldlM_addMember (m : Mapping) (l : List (String × Value)) :
    l.foldlM (addMember m) start = match l.findSome? m.fault? with
      | some err => .error err
      | none => .ok (described m l) := by
  induction l using List.reverseRecOn with
  | nil => rfl
  | append_singleton l e ih =>
    rw [List.foldlM_append, ih, List.findSome?_append]
    cases hl : l.findSome? m.fault? with
    | some err => rfl
    | none =>
      have hlast : [e].foldlM (addMember m) (described m l) = addMember m (described m l) e :=
        bind_pure (addMember m (described m l) e)
      have hfault : [e].findSome? m.fault? = m.fault? e := by
        cases h : m.fault? e <;> simp [h]
      show [e].foldlM (addMember m) (described m l) = _
      rw [hlast, addMember_described, Option.none_or, hfault]

/-- **What an object makes**: the first fault rejects it, and so does an address that is blank. -/
theorem ofObject_eq (m : Mapping) (l : List (String × Value)) :
    ofObject m l = match l.findSome? m.fault? with
      | some err => .error err
      | none =>
        if Text.isBlank (described m l).url then .error (.noUrl (Value.obj l).print)
        else .ok (described m l) := by
  unfold ofObject
  rw [foldlM_addMember]
  cases l.findSome? m.fault? <;> rfl

/-- An object makes an endpoint exactly if its numbers are numbers and it has an address. -/
theorem ofObject_eq_ok_iff : ofObject m l = .ok x ↔
    (∀ e ∈ l, m.fault? e = none) ∧ x = described m l ∧ Text.isBlank x.url = false := by
  rw [ofObject_eq, ← List.findSome?_eq_none_iff]
  cases l.findSome? m.fault? with
  | some err => simp
  | none =>
    cases hblank : Text.isBlank (described m l).url with
    | true =>
      refine ⟨nofun, fun ⟨_, hx, hurl⟩ => ?_⟩
      rw [hx, hblank] at hurl
      cases hurl
    | false =>
      refine ⟨fun h => ?_, fun ⟨_, hx, _⟩ => by simp [hx]⟩
      simp only [Bool.false_eq_true, if_false, Except.ok.injEq] at h
      exact ⟨rfl, h.symm, h ▸ hblank⟩

/-- An endpoint shows the last value that is held for a field. -/
theorem shows_of_held {f : PayloadField} {v : Value} (hx : ofObject m l = .ok x) (hv : m.held f l = some v) :
    Shows x v f := by
  obtain ⟨hfault, rfl, -⟩ := ofObject_eq_ok_iff.mp hx
  obtain ⟨before, k, after, rfl, hk, -⟩ := Mapping.held_eq_some_iff.mp hv
  have hnumber : f.isNumber = true → ∃ n, int32? v = some n :=
    Mapping.fault?_eq_none_iff.mp (hfault (k, v) (by simp)) f hk
  cases f with
  | weight =>
    obtain ⟨n, hn⟩ := hnumber rfl
    simp [Shows, described, hv, hn]
  | status =>
    obtain ⟨n, hn⟩ := hnumber rfl
    simp [Shows, described, hv, hn]
  | _ => simp [Shows, described, hv]

/-! ### Whole payloads -/

/-- The members of an object. -/
def members? : Value → Option (List (String × Value))
  | .obj l => some l
  | _ => none

/-- The objects of a payload, in order; there are none if it is neither an object nor an array of objects. -/
def objects? (raw : String) : Option (List (List (String × Value))) :=
  if Text.isBlank raw then some []
  else (Value.read? raw).bind fun
    | .arr items => items.mapM members?
    | v => (members? v).map ([·])

theorem ofItem_eq_ok_iff {v : Value} : ofItem m v = .ok x ↔ ∃ l, members? v = some l ∧ ofObject m l = .ok x := by
  cases v <;> simp [ofItem, members?]

theorem mapM_ofItem_eq_ok_iff {vs : List Value} {xs : List Endpoint} : vs.mapM (ofItem m) = .ok xs ↔
    ∃ ls, vs.mapM members? = some ls ∧ List.Forall₂ (fun l x => ofObject m l = .ok x) ls xs := by
  induction vs generalizing xs with
  | nil =>
    show Except.ok [] = .ok xs ↔ _
    simp [eq_comm]
  | cons v vs ih =>
    rw [List.mapM_cons, List.mapM_cons]
    constructor
    · intro h
      cases hv : ofItem m v with
      | error err =>
        rw [hv] at h
        cases h
      | ok y =>
        cases hvs : vs.mapM (ofItem m) with
        | error err =>
          simp [hv, hvs, bind, Except.bind] at h
        | ok ys =>
          simp only [hv, hvs, bind, Except.bind, pure, Except.pure, Except.ok.injEq] at h
          obtain ⟨l, hl, hy⟩ := ofItem_eq_ok_iff.mp hv
          obtain ⟨ls, hls, hys⟩ := ih.mp hvs
          exact ⟨l :: ls, by rw [hl, hls]; rfl, h ▸ .cons hy hys⟩
    · rintro ⟨ls, hls, hxs⟩
      obtain ⟨l, hl, hls⟩ := Option.bind_eq_some_iff.mp hls
      obtain ⟨ls', hls', hls⟩ := Option.bind_eq_some_iff.mp hls
      cases hls
      cases hxs with
      | cons hx hxs =>
        rw [ofItem_eq_ok_iff.mpr ⟨l, hl, hx⟩, ih.mpr ⟨ls', hls', hxs⟩]
        rfl

/-- **A payload** makes one endpoint of each of its objects. -/
theorem read_eq_ok_iff {raw : String} {xs : List Endpoint} : read m raw = .ok xs ↔
    ∃ ls, objects? raw = some ls ∧ List.Forall₂ (fun l x => ofObject m l = .ok x) ls xs := by
  unfold read objects?
  split_ifs
  · simp [eq_comm]
  · cases Value.read? raw with
    | none => simp
    | some v =>
      cases v with
      | arr vs => exact mapM_ofItem_eq_ok_iff
      | obj l =>
        show (ofObject m l).map ([·]) = .ok xs ↔ _
        cases hl : ofObject m l with
        | error err =>
          refine ⟨nofun, ?_⟩
          rintro ⟨ls, hls, hxs⟩
          cases hls
          obtain ⟨x, xs, hx, -, rfl⟩ := List.forall₂_cons_left_iff.mp hxs
          rw [hl] at hx
          cases hx
        | ok x =>
          constructor
          · intro h
            cases h
            exact ⟨[l], rfl, .cons hl .nil⟩
          · rintro ⟨ls, hls, hxs⟩
            cases hls
            obtain ⟨y, ys, hy, hys, rfl⟩ := List.forall₂_cons_left_iff.mp hxs
            cases hys
            rw [hl] at hy
            cases hy
            rfl
      | _ => simp [ofValue, members?]

/-- A payload of one object. -/
theorem read_object {raw : String} (h : Value.read? raw = some (.obj l)) :
    read m raw = (ofObject m l).map ([·]) := by
  unfold read
  rw [isBlank_of_read? h, h]
  rfl

theorem mapM_members?_eq_some_iff {vs : List Value} {ls : List (List (String × Value))} :
    vs.mapM members? = some ls ↔ vs = ls.map .obj := by
  induction vs generalizing ls with
  | nil =>
    rw [List.mapM_nil]
    cases ls <;> simp
  | cons v vs ih =>
    rw [List.mapM_cons]
    constructor
    · intro h
      obtain ⟨l, hl, h⟩ := Option.bind_eq_some_iff.mp h
      obtain ⟨ls', hls', h⟩ := Option.bind_eq_some_iff.mp h
      cases h
      cases v <;> cases hl
      rw [List.map_cons, ih.mp hls']
    · intro h
      obtain ⟨l, ls', rfl, rfl, rfl⟩ := List.map_eq_cons_iff.mp h.symm
      rw [ih.mpr rfl]
      rfl

/-- The objects of a payload have their keys in order. -/
theorem sorted_of_objects? {raw : String} {ls : List (List (String × Value))} (h : objects? raw = some ls)
    (hl : l ∈ ls) : (l.map Prod.fst).Pairwise (· < ·) := by
  unfold objects? at h
  split_ifs at h
  · cases h
    cases hl
  · obtain ⟨v, hv, h⟩ := Option.bind_eq_some_iff.mp h
    cases v with
    | obj l' =>
      cases h
      rw [List.mem_singleton] at hl
      exact Value.sorted_of_read? (hl ▸ hv)
    | arr vs =>
      obtain rfl := mapM_members?_eq_some_iff.mp h
      exact Value.sorted_of_read?_objects hv l hl
    | _ => cases h

end Payload

end RouteSync
