import RouteSync.Proofs.Hub.Lifetimes

/-!
# What connectors answer

A call to a connector is answered by the fault plan: an instrumented connector refuses it with the error of a
fault, a plain one never does.  A call that lets go of a key or of all keys changes its connector if it is not
refused, and nothing else but the journal and the faults (`released`); so a list of such calls leaves what one
call after another leaves, refused or not.  Every list of answers is that of some fault plan (`exists_answers`).
-/

namespace RouteSync

namespace Fault

/-- What faults answer calls of these names, one after another. -/
def answers : List String → List Fault → List (Option Error)
  | [], _ => []
  | name :: names, fs => (consult name fs).1 :: answers names (consult name fs).2

variable {name : String} {names : List String} {fs : List Fault} {e : Error}

/-- A fault that lets no call pass and fails none is as good as gone. -/
theorem consult_spent (call : String) : consult call (⟨name, e, 0, 0⟩ :: fs) =
    ((consult call fs).1, ⟨name, e, 0, 0⟩ :: (consult call fs).2) := by
  rw [consult]
  simp

theorem answers_spent : answers names (⟨name, e, 0, 0⟩ :: fs) = answers names fs := by
  induction names generalizing fs with
  | nil => rfl
  | cons call names ih => rw [answers, answers, consult_spent, ih]

/-- Faults that let one more call of a name pass. -/
def postpone (call : String) (fs : List Fault) : List Fault :=
  fs.map fun f => if f.call = call then { f with skip := f.skip + 1 } else f

theorem consult_postpone (call : String) : consult call (postpone call fs) = (none, fs) := by
  induction fs with
  | nil => rfl
  | cons f fs ih =>
    unfold postpone at ih ⊢
    by_cases hf : f.call = call
    · subst hf
      simp [consult, ih]
    · simp [consult, hf, ih]

/-- **Any answers** may be given: some faults give them. -/
theorem exists_answers (names : List String) (outcomes : List (Option Error))
    (hlen : outcomes.length = names.length) : ∃ fs, answers names fs = outcomes := by
  induction names generalizing outcomes with
  | nil => exact ⟨[], (List.length_eq_zero_iff.mp hlen).symm⟩
  | cons name names ih =>
    obtain ⟨o, outcomes, rfl⟩ := List.exists_cons_of_length_eq_add_one hlen
    obtain ⟨fs, hfs⟩ := ih outcomes (Nat.succ.inj hlen)
    cases o with
    | none =>
      refine ⟨postpone name fs, ?_⟩
      rw [answers, consult_postpone, hfs]
    | some e =>
      have hfirst : consult name (⟨name, e, 0, 1⟩ :: fs) = (some e, ⟨name, e, 0, 0⟩ :: fs) := by
        simp [consult]
      refine ⟨⟨name, e, 0, 1⟩ :: fs, ?_⟩
      rw [answers, hfirst, answers_spent, hfs]

end Fault

/-- A connector that has taken a call to let go of a key or of all keys. -/
def Connector.release (x : Connector) : RegistryCall → Connector
  | .unwatch key => {
      registry := x.registry.unwatch key
      probe := x.probe.map fun p => { p with watched := p.watched.erase key } }
  | .close => {
      registry := x.registry.close
      probe := x.probe.map fun p => { p with watched := .empty } }
  | _ => x

theorem Connector.label_release (x : Connector) (r : RegistryCall) :
    (x.release r).probe.map Probe.label = x.probe.map Probe.label := by
  cases r <;> simp [release, Function.comp_def]

namespace Hub

/-- The entry of a call to a connector; plain connectors leave none. -/
def trace? (h : Hub) (k : ConnectorId) (r : RegistryCall) : Option JournalEntry :=
  (h.label? k).map fun l => .registry l r

/-- The error with which a connector refuses a call. -/
def answer (h : Hub) (k : ConnectorId) (r : RegistryCall) : Option Error :=
  (h.trace? k r).bind fun entry => (Fault.consult entry.callName h.faults).1

/-- The hub after a connector was called: the call is in the journal, and faults are used up. -/
def called (h : Hub) (k : ConnectorId) (r : RegistryCall) : Hub :=
  match h.trace? k r with
  | none => h
  | some entry => { h with
      journal := h.journal ++ [entry]
      faults := (Fault.consult entry.callName h.faults).2 }

/-- The hub after a connector was called to let go: it has done so unless it has refused. -/
def released (h : Hub) (k : ConnectorId) (r : RegistryCall) : Hub :=
  match h.answer k r with
  | none => (h.called k r).modifyConnector k fun x => x.release r
  | some _ => h.called k r

/-- The hub after a connector was called to let go again and again, also when it refuses. -/
def releasedAll (h : Hub) (k : ConnectorId) (calls : List RegistryCall) : Hub :=
  calls.foldl (fun h r => h.released k r) h

/-- What a connector answers calls to let go, one after another. -/
def answers (h : Hub) (k : ConnectorId) : List RegistryCall → List (Option Error)
  | [] => []
  | r :: calls => h.answer k r :: (h.released k r).answers k calls

variable {h : Hub} {k c : ConnectorId} {r : RegistryCall} {calls : List RegistryCall}

/-! ### One call -/

theorem connectors_called : (h.called k r).connectors = h.connectors := by
  unfold called
  split <;> rfl

theorem journal_called : (h.called k r).journal = h.journal ++ (h.trace? k r).toList := by
  unfold called
  split
  · rename_i hnone
    rw [hnone]
    exact (List.append_nil _).symm
  · rename_i entry hsome
    rw [hsome]
    rfl

theorem released_of_answer {e : Error} (he : h.answer k r = some e) : h.released k r = h.called k r := by
  unfold released
  rw [he]

theorem journal_released : (h.released k r).journal = h.journal ++ (h.trace? k r).toList := by
  rw [← journal_called]
  unfold released
  split <;> rfl

theorem faults_released : (h.released k r).faults = (h.called k r).faults := by
  unfold released
  split <;> rfl

/-- A call to let go is about the connectors, the journal and the faults alone. -/
theorem released_eq : ∃ xs js fs, h.released k r = { h with connectors := xs, journal := js, faults := fs } := by
  unfold released called modifyConnector
  cases h.answer k r <;> cases h.trace? k r <;> exact ⟨_, _, _, rfl⟩

theorem label?_released : (h.released k r).label? c = h.label? c := by
  unfold released label?
  split
  · refine (connector_congr (g := fun x => x.probe.map Probe.label) (Connector.label_release _ r) c).trans ?_
    rw [connector_of_connectors connectors_called]
  · rw [connector_of_connectors connectors_called]

theorem trace?_released {r' : RegistryCall} : (h.released k r).trace? c r' = h.trace? c r' := by
  unfold trace?
  rw [label?_released]

/-! ### Call after call -/

theorem releasedAll_cons : h.releasedAll k (r :: calls) = (h.released k r).releasedAll k calls := rfl

theorem releasedAll_eq :
    ∃ xs js fs, h.releasedAll k calls = { h with connectors := xs, journal := js, faults := fs } := by
  induction calls generalizing h with
  | nil => exact ⟨h.connectors, h.journal, h.faults, rfl⟩
  | cons r calls ih =>
    obtain ⟨xs, js, fs, hrest⟩ := ih (h := h.released k r)
    obtain ⟨_, _, _, hfirst⟩ := released_eq (h := h) (k := k) (r := r)
    refine ⟨xs, js, fs, ?_⟩
    rw [releasedAll_cons, hrest, hfirst]

/-- All calls are made, whatever is answered. -/
theorem journal_releasedAll : (h.releasedAll k calls).journal = h.journal ++ calls.filterMap (h.trace? k) := by
  induction calls generalizing h with
  | nil => exact (List.append_nil _).symm
  | cons r calls ih =>
    have hsame : (h.released k r).trace? k = h.trace? k := funext fun _ => trace?_released
    rw [releasedAll_cons, ih, journal_released, hsame, List.append_assoc]
    cases he : h.trace? k r with
    | none => rw [List.filterMap_cons_none he, Option.toList_none, List.nil_append]
    | some entry => rw [List.filterMap_cons_some he, Option.toList_some, List.singleton_append]

/-- Connectors of the same label answer alike if the faults are the same. -/
theorem answers_congr {h' : Hub} (hl : h'.label? k = h.label? k) (hf : h'.faults = h.faults) :
    h'.answers k calls = h.answers k calls := by
  induction calls generalizing h h' with
  | nil => rfl
  | cons r calls ih =>
    have hentry : h'.trace? k r = h.trace? k r := by
      unfold trace?
      rw [hl]
    have hanswer : h'.answer k r = h.answer k r := by
      unfold answer
      rw [hentry, hf]
    have hfaults : (h'.released k r).faults = (h.released k r).faults := by
      rw [faults_released, faults_released]
      unfold called
      rw [hentry]
      split
      · exact hf
      · rw [hf]
    rw [answers, answers, hanswer, ih (label?_released.trans (hl.trans label?_released.symm)) hfaults]

/-- An instrumented connector answers what the faults answer. -/
theorem answers_labelled {l : String} (hl : h.label? k = some l) :
    h.answers k calls = Fault.answers (calls.map fun r => (JournalEntry.registry l r).callName) h.faults := by
  induction calls generalizing h with
  | nil => rfl
  | cons r calls ih =>
    have hentry : h.trace? k r = some (.registry l r) := by
      unfold trace?
      rw [hl]
      rfl
    have hanswer : h.answer k r = (Fault.consult (JournalEntry.registry l r).callName h.faults).1 := by
      unfold answer
      rw [hentry]
      rfl
    have hfaults : (h.released k r).faults =
        (Fault.consult (JournalEntry.registry l r).callName h.faults).2 := by
      rw [faults_released]
      unfold called
      rw [hentry]
    rw [answers, List.map_cons, Fault.answers, hanswer, ih (label?_released.trans hl), hfaults]

/-- **An instrumented connector** may answer any calls in any way. -/
theorem exists_answers {l : String} (hl : h.label? k = some l) (calls : List RegistryCall)
    (outcomes : List (Option Error)) (hlen : outcomes.length = calls.length) :
    ∃ fs, ({ h with faults := fs } : Hub).answers k calls = outcomes := by
  obtain ⟨fs, hfs⟩ := Fault.exists_answers (calls.map fun r => (JournalEntry.registry l r).callName) outcomes
    (by rw [hlen, List.length_map])
  exact ⟨fs, (answers_labelled (h := { h with faults := fs }) hl).trans hfs⟩

end Hub

namespace Act

open Hub

variable {h h' : Hub} {k : ConnectorId} {e : Error}

/-! ### Actions -/

/-- Ends as a call was answered. -/
def reply : Option Error → Act Unit
  | none => pure ()
  | some e => throw e

theorem reply_eq_error {o : Option Error} : reply o h = .error e h' ↔ o = some e ∧ h = h' := by
  cases o with
  | none => exact ⟨nofun, fun ⟨hno, _⟩ => nomatch hno⟩
  | some e' =>
    show EStateM.Result.error e' h = .error e h' ↔ _
    simp

theorem left_reply {o : Option Error} : (reply o).left h = h := by
  cases o <;> rfl

/-- **A call** is answered by the faults and leaves its entry. -/
theorem registryCall_eq (k : ConnectorId) (r : RegistryCall) (h : Hub) :
    registryCall k r h = reply (h.answer k r) (h.called k r) := by
  unfold registryCall answer called trace? label?
  rw [get_bind]
  cases (h.connector k).probe with
  | none => rfl
  | some p =>
    show call (.registry p.label r) h = _
    unfold call
    dsimp only
    cases hf : Fault.consult (JournalEntry.registry p.label r).callName h.faults with
    | mk o fs => cases o <;> simp [hf] <;> rfl

/-- A call to let go takes effect if it is not refused. -/
theorem release_eq (k : ConnectorId) (r : RegistryCall) (h : Hub) :
    (registryCall k r >>= fun _ => modify fun h => h.modifyConnector k fun x => x.release r) h =
      reply (h.answer k r) (h.released k r) := by
  unfold released
  cases ha : h.answer k r with
  | none =>
    have hcall : registryCall k r h = .ok () (h.called k r) := by
      rw [registryCall_eq, ha]
      rfl
    rw [bind_of_ok hcall]
    rfl
  | some e =>
    have hcall : registryCall k r h = .error e (h.called k r) := by
      rw [registryCall_eq, ha]
      rfl
    rw [bind_of_error hcall]
    rfl

theorem modifyConnector_modifyConnector (f g : Connector → Connector) :
    (h.modifyConnector k f).modifyConnector k g = h.modifyConnector k fun x => g (f x) := by
  unfold modifyConnector
  dsimp only
  rw [List.modify_modify_eq]
  rfl

theorem unwatchInstances_eq (k : ConnectorId) (key : String) (h : Hub) :
    unwatchInstances k key h = reply (h.answer k (.unwatch key)) (h.released k (.unwatch key)) := by
  rw [← release_eq]
  refine congrFun (congrArg (registryCall k (.unwatch key) >>= ·) (funext fun _ => funext fun h => ?_)) h
  exact congrArg (EStateM.Result.ok ()) (modifyConnector_modifyConnector ..)

theorem closeRegistry_eq (k : ConnectorId) (h : Hub) :
    closeRegistry k h = reply (h.answer k .close) (h.released k .close) := by
  rw [← release_eq]
  refine congrFun (congrArg (registryCall k .close >>= ·) (funext fun _ => funext fun h => ?_)) h
  exact congrArg (EStateM.Result.ok ()) (modifyConnector_modifyConnector ..)

/-- **Keys are unwatched** one after another, also after a refusal, and the first refusal is given. -/
theorem unwatchAll_eq (k : ConnectorId) (keys : List String) (h : Hub) :
    unwatchAll k keys h = .ok ((h.answers k (keys.map .unwatch)).findSome? id)
      (h.releasedAll k (keys.map .unwatch)) := by
  induction keys generalizing h with
  | nil => rfl
  | cons key keys ih =>
    rw [List.map_cons, answers, releasedAll_cons, List.findSome?_cons]
    unfold unwatchAll
    cases ha : h.answer k (.unwatch key) with
    | none =>
      have hok : unwatchInstances k key h = .ok () (h.released k (.unwatch key)) := by
        rw [unwatchInstances_eq, ha]
        rfl
      rw [bind_of_ok (attempt_of_ok hok), bind_of_ok (ih _)]
      rfl
    | some e =>
      have herr : unwatchInstances k key h = .error e (h.released k (.unwatch key)) := by
        rw [unwatchInstances_eq, ha]
        rfl
      rw [bind_of_ok (attempt_eq_ok.mpr (.inr ⟨e, rfl, herr⟩)), bind_of_ok (ih _)]
      rfl

end Act

end RouteSync
