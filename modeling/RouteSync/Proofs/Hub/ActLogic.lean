import Mathlib.Tactic.SplitIfs
import RouteSync.Hub.State

/-!
# A small logic of actions

Two ways to speak about an action of a hub.  `Preserves P a` says that `P` holds of the hub still, however `a`
ends, and `Keeps view a` that a part of it is as before; both are closed under sequencing, loops and attempts.
For a run that succeeds, `bind_eq_ok` and its companions take the run apart into those of its steps.  `Raises P p a`
bounds the errors of a run that fails; a call has those of the faults alone (`raises_call_of_faults`).
-/

namespace RouteSync.Fault

/-- Faults are about the calls that they were about. -/
theorem calls_consult (name : String) (fs : List Fault) : (consult name fs).2.map Fault.call = fs.map Fault.call := by
  induction fs with
  | nil => rfl
  | cons f fs ih =>
    unfold consult
    split_ifs <;> simp [ih]

/-- A call that no fault is about goes through. -/
theorem consult_of_notMem {name : String} {fs : List Fault} (hname : name ∉ fs.map Fault.call) :
    consult name fs = (none, fs) := by
  induction fs with
  | nil => rfl
  | cons f fs ih =>
    rw [List.map_cons, List.mem_cons, not_or] at hname
    rw [consult, if_pos (Ne.symm hname.1), ih hname.2]

/-- Faults are left with the errors that they had, and fail calls with these alone. -/
theorem error_of_consult {p : Error → Prop} {name : String} {fs : List Fault}
    (hp : ∀ f ∈ fs, p f.error) : (∀ e, (consult name fs).1 = some e → p e) ∧
      ∀ f ∈ (consult name fs).2, p f.error := by
  induction fs with
  | nil => exact ⟨nofun, nofun⟩
  | cons f fs ih =>
    rw [List.forall_mem_cons] at hp
    obtain ⟨herr, hleft⟩ := ih hp.2
    unfold consult
    split_ifs with hname hskip htimes
    · exact ⟨herr, List.forall_mem_cons.mpr ⟨hp.1, hleft⟩⟩
    · exact ⟨herr, List.forall_mem_cons.mpr ⟨hp.1, hleft⟩⟩
    · refine ⟨fun e he => ?_, List.forall_mem_cons.mpr ⟨hp.1, hp.2⟩⟩
      cases he
      exact hp.1
    · exact ⟨herr, List.forall_mem_cons.mpr ⟨hp.1, hleft⟩⟩

end RouteSync.Fault

namespace RouteSync.Act

variable {α β ε σ : Type}

/-- The hub that an action leaves behind, however it ends. -/
def left (a : Act α) (h : Hub) : Hub :=
  match a h with
  | .ok _ h' => h'
  | .error _ h' => h'

theorem left_of_ok {a : Act α} {h h' : Hub} {x : α} (e : a h = .ok x h') : a.left h = h' := by
  unfold left
  rw [e]

theorem left_of_error {a : Act α} {h h' : Hub} {x : Error} (e : a h = .error x h') : a.left h = h' := by
  unfold left
  rw [e]

def isOk (a : Act α) (h : Hub) : Bool :=
  match a h with
  | .ok _ _ => true
  | .error _ _ => false

theorem eq_ok_of_isOk {a : Act Unit} {h : Hub} (e : a.isOk h = true) : a h = .ok () (a.left h) := by
  unfold isOk at e
  unfold left
  cases hr : a h with
  | ok u h' => rfl
  | error err h' => simp [hr] at e

theorem eq_error_of_not_isOk {a : Act α} {h : Hub} (e : a.isOk h = false) :
    ∃ err, a h = .error err (a.left h) := by
  unfold isOk at e
  unfold left
  cases hr : a h with
  | ok x h' => simp [hr] at e
  | error err h' => exact ⟨err, rfl⟩

/-! ### Runs that succeed -/

theorem bind_eq_ok {a : Act α} {f : α → Act β} {h h' : Hub} {y : β} :
    (a >>= f) h = .ok y h' ↔ ∃ x h₁, a h = .ok x h₁ ∧ f x h₁ = .ok y h' := by
  show (EStateM.bind a f) h = .ok y h' ↔ _
  unfold EStateM.bind
  cases a h with
  | ok x h₁ =>
    refine ⟨fun e => ⟨x, h₁, rfl, e⟩, ?_⟩
    rintro ⟨x', h', hx, e⟩
    cases hx
    exact e
  | error e h₁ => simp

theorem bind_of_ok {a : Act α} {h h₁ : Hub} {x : α} (e : a h = .ok x h₁) (f : α → Act β) :
    (a >>= f) h = f x h₁ := by
  show EStateM.bind a f h = f x h₁
  unfold EStateM.bind
  rw [e]

theorem bind_of_error {a : Act α} {h h₁ : Hub} {x : Error} (e : a h = .error x h₁) (f : α → Act β) :
    (a >>= f) h = .error x h₁ := by
  show EStateM.bind a f h = .error x h₁
  unfold EStateM.bind
  rw [e]

theorem discard_of_ok {a : Act α} {h h₁ : Hub} {x : α} (e : a h = .ok x h₁) : discard a h = .ok () h₁ :=
  bind_of_ok e _

theorem discard_of_error {a : Act α} {h h₁ : Hub} {e : Error} (he : a h = .error e h₁) :
    discard a h = .error e h₁ :=
  bind_of_error he _

theorem left_discard (a : Act α) (h : Hub) : (discard a).left h = a.left h := by
  cases hr : a h with
  | ok x h₁ =>
    rw [left_of_ok hr]
    exact left_of_ok (discard_of_ok hr)
  | error e h₁ =>
    rw [left_of_error hr]
    exact left_of_error (discard_of_error hr)

theorem left_attempt (a : Act α) (h : Hub) : (attempt a).left h = a.left h := by
  unfold left attempt
  cases a h <;> rfl

theorem attempt_of_ok {a : Act α} {h h₁ : Hub} {x : α} (e : a h = .ok x h₁) :
    attempt a h = .ok (.ok x) h₁ := by
  unfold attempt
  rw [e]

theorem pure_eq_ok {x y : α} {h h' : Hub} : (pure x : Act α) h = .ok y h' ↔ x = y ∧ h = h' := by
  show EStateM.Result.ok x h = .ok y h' ↔ _
  simp

theorem throw_eq_ok {e : Error} {y : α} {h h' : Hub} : ¬ (throw e : Act α) h = .ok y h' := by
  intro hok
  cases hok

theorem get_bind (f : Hub → Act α) (h : Hub) : (get >>= f) h = f h h := rfl

theorem left_get_bind (f : Hub → Act α) (h : Hub) : (get >>= f).left h = (f h).left h := rfl

theorem modify_eq_ok {f : Hub → Hub} {h h' : Hub} {u : Unit} :
    (modify f : Act Unit) h = .ok u h' ↔ f h = h' := by
  show EStateM.Result.ok () (f h) = .ok u h' ↔ _
  simp

theorem step_eq_ok {f : Hub → Hub × α} {h h' : Hub} {y : α} :
    step f h = .ok y h' ↔ f h = (h', y) := by
  show EStateM.Result.ok (f h).2 (f h).1 = .ok y h' ↔ _
  rw [EStateM.Result.ok.injEq, Prod.ext_iff, and_comm]

theorem ofExcept_eq_ok {wrap : ε → Error} {o : Except ε α} {h h' : Hub} {y : α} :
    ofExcept wrap o h = .ok y h' ↔ o = .ok y ∧ h = h' := by
  cases o with
  | ok x => simp only [ofExcept, pure_eq_ok, Except.ok.injEq]
  | error e => simp only [ofExcept, throw_eq_ok, reduceCtorEq, false_and]

theorem attempt_eq_ok {a : Act α} {h h' : Hub} {y : Except Error α} :
    attempt a h = .ok y h' ↔
      (∃ x, y = .ok x ∧ a h = .ok x h') ∨ ∃ e, y = .error e ∧ a h = .error e h' := by
  unfold attempt
  cases a h with
  | ok x h₁ =>
    constructor
    · intro hy
      cases hy
      exact .inl ⟨x, rfl, rfl⟩
    · rintro (⟨x', rfl, hx⟩ | ⟨e, rfl, he⟩)
      · cases hx
        rfl
      · cases he
  | error e h₁ =>
    constructor
    · intro hy
      cases hy
      exact .inr ⟨e, rfl, rfl⟩
    · rintro (⟨x, rfl, hx⟩ | ⟨e', rfl, he⟩)
      · cases hx
      · cases he
        rfl

/-- A call that is not failed leaves its entry in the journal. -/
theorem call_eq_ok {entry : JournalEntry} {h h' : Hub} {u : Unit} (hok : call entry h = .ok u h') :
    ∃ fs, h' = { h with journal := h.journal ++ [entry], faults := fs } := by
  unfold call at hok
  dsimp only at hok
  split at hok
  · rename_i fs _
    cases hok
    exact ⟨fs, rfl⟩
  · cases hok

/-! ### Runs that fail -/

theorem bind_eq_error {a : Act α} {f : α → Act β} {h h' : Hub} {e : Error} :
    (a >>= f) h = .error e h' ↔ a h = .error e h' ∨ ∃ x h₁, a h = .ok x h₁ ∧ f x h₁ = .error e h' := by
  cases hr : a h with
  | ok x h₁ =>
    rw [bind_of_ok hr]
    constructor
    · exact fun hf => .inr ⟨x, h₁, rfl, hf⟩
    · rintro (hf | ⟨x', h', hx, hf⟩)
      · cases hf
      · cases hx
        exact hf
  | error e₁ h₁ =>
    rw [bind_of_error hr]
    constructor
    · intro hf
      cases hf
      exact .inl rfl
    · rintro (hf | ⟨x, h', hx, -⟩)
      · cases hf
        rfl
      · cases hx

theorem ofExcept_eq_error {wrap : ε → Error} {o : Except ε α} {h h' : Hub} {e : Error} :
    ofExcept wrap o h = .error e h' ↔ (∃ err, o = .error err ∧ wrap err = e) ∧ h = h' := by
  cases o with
  | ok x =>
    refine ⟨fun hf => ?_, fun hf => ?_⟩
    · cases hf
    · obtain ⟨⟨err, hno, -⟩, -⟩ := hf
      cases hno
  | error err =>
    show EStateM.Result.error (wrap err) h = .error e h' ↔ _
    simp

/-- A loop that fails has gone through the elements before the one that failed. -/
theorem forM_eq_error {l : List α} {f : α → Act Unit} {h h' : Hub} {e : Error}
    (hf : l.forM f h = .error e h') :
    ∃ done x rest h₁, l = done ++ x :: rest ∧ done.forM f h = .ok () h₁ ∧ f x h₁ = .error e h' := by
  induction l generalizing h with
  | nil => cases hf
  | cons x l ih =>
    rcases bind_eq_error.mp hf with hx | ⟨u, h₁, hx, hrest⟩
    · exact ⟨[], x, l, h, rfl, rfl, hx⟩
    · obtain ⟨done, y, rest, h₂, rfl, hdone, hy⟩ := ih hrest
      exact ⟨x :: done, y, rest, h₂, rfl, (bind_of_ok hx _).trans hdone, hy⟩

/-- A loop fails as soon as one of its elements does. -/
theorem forM_of_error {done rest : List α} {x : α} {f : α → Act Unit} {h h₁ h' : Hub} {e : Error}
    (hdone : done.forM f h = .ok () h₁) (hx : f x h₁ = .error e h') :
    (done ++ x :: rest).forM f h = .error e h' := by
  induction done generalizing h with
  | nil =>
    obtain ⟨-, rfl⟩ := pure_eq_ok.mp hdone
    exact bind_of_error hx _
  | cons y done ih =>
    obtain ⟨u, h₂, hy, hrest⟩ := bind_eq_ok.mp hdone
    exact (bind_of_ok hy _).trans (ih hrest)

/-! ### What an action preserves -/

/-- What holds of the hub holds of it afterwards, however the action ends. -/
def Preserves (P : Hub → Prop) (a : Act α) : Prop := ∀ h, P h → P (a.left h)

variable {P : Hub → Prop}

theorem Preserves.of_ok {a : Act α} (ha : Preserves P a) {h h' : Hub} {x : α} (hp : P h)
    (e : a h = .ok x h') : P h' := by
  rw [← left_of_ok e]
  exact ha h hp

theorem preserves_pure (x : α) : Preserves P (pure x : Act α) := fun _ hp => hp

theorem preserves_throw (e : Error) : Preserves P (throw e : Act α) := fun _ hp => hp

theorem preserves_get : Preserves P (get : Act Hub) := fun _ hp => hp

theorem preserves_modify {f : Hub → Hub} (hf : ∀ h, P h → P (f h)) :
    Preserves P (modify f : Act Unit) := hf

theorem preserves_step {f : Hub → Hub × α} (hf : ∀ h, P h → P (f h).1) : Preserves P (step f) := hf

/-- What holds of what the first action leaves if it fails, and of what the rest leaves otherwise, holds of what
the sequence leaves. -/
theorem left_bind_of {a : Act α} {f : α → Act β} {h : Hub} (ha : P (a.left h))
    (hf : ∀ x h₁, a h = .ok x h₁ → P ((f x).left h₁)) : P ((a >>= f).left h) := by
  cases hr : a h with
  | error e h₁ =>
    rw [left_of_error hr] at ha
    rw [left_of_error (bind_of_error hr f)]
    exact ha
  | ok x h₁ =>
    have hrest := hf x h₁ hr
    unfold left at hrest ⊢
    rw [bind_of_ok hr]
    exact hrest

theorem preserves_bind {a : Act α} {f : α → Act β} (ha : Preserves P a)
    (hf : ∀ x, Preserves P (f x)) : Preserves P (a >>= f) :=
  fun h hp => left_bind_of (ha h hp) fun x h₁ hr => hf x h₁ (ha.of_ok hp hr)

theorem preserves_discard {a : Act α} (ha : Preserves P a) : Preserves P (discard a) :=
  preserves_bind ha fun _ => preserves_pure _

theorem preserves_attempt {a : Act α} (ha : Preserves P a) : Preserves P (attempt a) := by
  intro h hp
  have h1 := ha h hp
  unfold left at h1 ⊢
  unfold attempt
  cases hr : a h with
  | ok x h₁ =>
    rw [hr] at h1
    exact h1
  | error e h₁ =>
    rw [hr] at h1
    exact h1

theorem preserves_ofExcept (wrap : ε → Error) (o : Except ε α) : Preserves P (ofExcept wrap o) := by
  cases o with
  | ok x => exact preserves_pure x
  | error e => exact preserves_throw _

theorem preserves_forM {l : List α} {f : α → Act Unit} (hf : ∀ x ∈ l, Preserves P (f x)) :
    Preserves P (l.forM f) := by
  induction l with
  | nil => exact preserves_pure _
  | cons x l ih => exact preserves_bind (hf x (by simp)) fun _ => ih fun y hy => hf y (by simp [hy])

/-- A call enters its entry in the journal and may use up faults. -/
theorem left_call (entry : JournalEntry) (h : Hub) :
    (call entry).left h = { h with
      journal := h.journal ++ [entry], faults := (Fault.consult entry.callName h.faults).2 } := by
  unfold left call
  dsimp only
  cases hf : Fault.consult entry.callName h.faults with
  | mk o fs => cases o <;> rfl

/-! ### What an action keeps -/

/-- A part of the hub is as before, however the action ends. -/
def Keeps (view : Hub → σ) (a : Act α) : Prop := ∀ h, view (a.left h) = view h

variable {view : Hub → σ}

theorem Keeps.of_ok {a : Act α} (ha : Keeps view a) {h h' : Hub} {x : α} (e : a h = .ok x h') :
    view h' = view h := by
  rw [← left_of_ok e]
  exact ha h

theorem Keeps.of_error {a : Act α} (ha : Keeps view a) {h h' : Hub} {e : Error} (he : a h = .error e h') :
    view h' = view h := by
  rw [← left_of_error he]
  exact ha h

/-- To keep a part is to preserve every value that it may have. -/
theorem keeps_iff {a : Act α} : Keeps view a ↔ ∀ v, Preserves (fun h => view h = v) a := by
  constructor
  · rintro ha v h rfl
    exact ha h
  · exact fun ha h => ha _ h rfl

theorem keeps_pure (x : α) : Keeps view (pure x : Act α) := fun _ => rfl

theorem keeps_get : Keeps view (get : Act Hub) := fun _ => rfl

theorem keeps_modify {f : Hub → Hub} (hf : ∀ h, view (f h) = view h) :
    Keeps view (modify f : Act Unit) := hf

theorem keeps_step {f : Hub → Hub × α} (hf : ∀ h, view (f h).1 = view h) : Keeps view (step f) := hf

theorem keeps_bind {a : Act α} {f : α → Act β} (ha : Keeps view a) (hf : ∀ x, Keeps view (f x)) :
    Keeps view (a >>= f) :=
  keeps_iff.mpr fun v => preserves_bind (keeps_iff.mp ha v) fun x => keeps_iff.mp (hf x) v

/-- What the rest of a sequence keeps is what its first action has left. -/
theorem view_left_bind {a : Act α} {f : α → Act β} (hf : ∀ x, Keeps view (f x)) (h : Hub) :
    view ((a >>= f).left h) = view (a.left h) := by
  cases hr : a h with
  | ok x h₁ =>
    rw [left_of_ok hr, ← hf x h₁]
    unfold left
    rw [bind_of_ok hr]
  | error e h₁ => rw [left_of_error hr, left_of_error (bind_of_error hr f)]

theorem keeps_ofExcept (wrap : ε → Error) (o : Except ε α) : Keeps view (ofExcept wrap o) :=
  keeps_iff.mpr fun _ => preserves_ofExcept wrap o

theorem keeps_forM {l : List α} {f : α → Act Unit} (hf : ∀ x ∈ l, Keeps view (f x)) :
    Keeps view (l.forM f) :=
  keeps_iff.mpr fun v => preserves_forM fun x hx => keeps_iff.mp (hf x hx) v

/-- A call is kept by what sees neither its entry nor the faults. -/
theorem keeps_call {entry : JournalEntry}
    (he : ∀ h fs, view { h with journal := h.journal ++ [entry], faults := fs } = view h) :
    Keeps view (call entry) := by
  intro h
  rw [left_call]
  exact he h _

/-! ### What an action may fail with -/

/-- From a hub with `P`, an action fails with errors that satisfy `p` only, and leaves a hub with `P`. -/
structure Raises (P : Hub → Prop) (p : Error → Prop) (a : Act α) : Prop where
  preserves : Preserves P a
  error : ∀ h e h', P h → a h = .error e h' → p e

variable {p : Error → Prop}

theorem raises_of_ok {a : Act α} (ha : Preserves P a) (hok : ∀ h, P h → ∃ x h', a h = .ok x h') :
    Raises P p a := by
  refine ⟨ha, fun h e h' hh he => ?_⟩
  obtain ⟨x, h₁, hx⟩ := hok h hh
  rw [hx] at he
  cases he

theorem raises_pure (x : α) : Raises P p (pure x : Act α) :=
  raises_of_ok (preserves_pure x) fun h _ => ⟨x, h, rfl⟩

theorem raises_get : Raises P p (get : Act Hub) := raises_of_ok preserves_get fun h _ => ⟨h, h, rfl⟩

theorem raises_modify {f : Hub → Hub} (hf : ∀ h, P h → P (f h)) : Raises P p (modify f : Act Unit) :=
  raises_of_ok (preserves_modify hf) fun h _ => ⟨(), f h, rfl⟩

theorem raises_throw {e : Error} (he : p e) : Raises P p (throw e : Act α) := by
  refine ⟨preserves_throw e, fun h e' h' _ hthrow => ?_⟩
  cases hthrow
  exact he

theorem raises_ofExcept {wrap : ε → Error} (hw : ∀ err, p (wrap err)) (o : Except ε α) :
    Raises P p (ofExcept wrap o) := by
  cases o with
  | ok x => exact raises_pure x
  | error err => exact raises_throw (hw err)

theorem raises_bind {a : Act α} {f : α → Act β} (ha : Raises P p a) (hf : ∀ x, Raises P p (f x)) :
    Raises P p (a >>= f) := by
  refine ⟨preserves_bind ha.preserves fun x => (hf x).preserves, fun h e h' hh he => ?_⟩
  rcases bind_eq_error.mp he with he | ⟨x, h₁, hx, he⟩
  · exact ha.error h e h' hh he
  · exact (hf x).error h₁ e h' (ha.preserves.of_ok hh hx) he

theorem raises_forM {l : List α} {f : α → Act Unit} (hf : ∀ x ∈ l, Raises P p (f x)) :
    Raises P p (l.forM f) := by
  induction l with
  | nil => exact raises_pure _
  | cons x l ih => exact raises_bind (hf x (by simp)) fun _ => ih fun y hy => hf y (by simp [hy])

/-- An error that is caught may be thrown again. -/
theorem raises_attempt_bind {a : Act α} {f : Except Error α → Act β} (ha : Raises P p a)
    (hok : ∀ x, Raises P p (f (.ok x))) (herr : ∀ e, p e → Raises P p (f (.error e))) :
    Raises P p (attempt a >>= f) := by
  have hcase : ∀ h, P h → ∃ o h₁, attempt a h = .ok o h₁ ∧ P h₁ ∧ Raises P p (f o) := by
    intro h hh
    have hleft := ha.preserves h hh
    cases hr : a h with
    | ok x h₁ =>
      rw [left_of_ok hr] at hleft
      exact ⟨.ok x, h₁, attempt_of_ok hr, hleft, hok x⟩
    | error e h₁ =>
      rw [left_of_error hr] at hleft
      exact ⟨.error e, h₁, attempt_eq_ok.mpr (.inr ⟨e, rfl, hr⟩), hleft, herr e (ha.error h e h₁ hh hr)⟩
  refine ⟨fun h hh => ?_, fun h e h' hh he => ?_⟩
  · obtain ⟨o, h₁, ho, hh₁, hf⟩ := hcase h hh
    have hrest := hf.preserves h₁ hh₁
    unfold left at hrest ⊢
    rw [bind_of_ok ho]
    exact hrest
  · obtain ⟨o, h₁, ho, hh₁, hf⟩ := hcase h hh
    rw [bind_of_ok ho] at he
    exact hf.error h₁ e h' hh₁ he

/-- A call fails with the errors of faults alone. -/
theorem raises_call_of_faults (entry : JournalEntry) :
    Raises (fun h => ∀ f ∈ h.faults, p f.error) p (call entry) := by
  refine ⟨fun h hf => ?_, fun h e h' hf he => ?_⟩
  · rw [left_call]
    exact (Fault.error_of_consult hf).2
  · unfold call at he
    dsimp only at he
    split at he
    · cases he
    · rename_i err fs hc
      cases he
      exact (Fault.error_of_consult hf).1 e (by rw [hc])

end RouteSync.Act
