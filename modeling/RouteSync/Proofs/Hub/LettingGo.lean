import Mathlib.Data.List.Nodup
import RouteSync.Proofs.Hub.Attended
import RouteSync.Proofs.Hub.Calling

/-!
# Letting go of a registration

A registration is written off before its connector is called, and its listener is dropped whatever the connector
answers.  So nothing of it stays, and nothing of the others changes, although every one of the calls may be refused:
one closes a connector that nobody else uses, and otherwise each key that nobody else tracks is unwatched, also
after a refusal (`removal_lets_go`).
-/

namespace RouteSync

namespace Hub

/-- Another id uses the connector of an id. -/
def Shares (h : Hub) (k : ConnectorId) (id a : String) : Prop :=
  a ≠ id ∧ h.registrations.connectors.get? a = some k

/-- The calls that a connector gets when an id leaves it. -/
def partings (h : Hub) (k : ConnectorId) (id : String) : List RegistryCall :=
  let rs := h.registrations.remove id
  if (rs.sharers k).isEmpty then [.close]
  else (((h.registrations.watchKeys.get? id).getD .empty).without (rs.keysOf (rs.sharers k))).map .unwatch

/-- What is left of an id whose connector got these calls when it left. -/
structure LetGo (h : Hub) (k : ConnectorId) (id : String) (calls : List RegistryCall) (h' : Hub) : Prop where
  uncached : h'.registrations.connectors.get? id = none
  untracked : h'.registrations.watchKeys.get? id = none
  unheard : h'.active.get? id = none
  others : ∀ a, a ≠ id →
    h'.registrations.connectors.get? a = h.registrations.connectors.get? a ∧
    h'.registrations.watchKeys.get? a = h.registrations.watchKeys.get? a ∧ h'.active.get? a = h.active.get? a
  /-- Each call was made once, and no other call. -/
  called : h'.journal = h.journal ++ calls.filterMap (h.trace? k)
  /-- Each call that was not refused has taken effect. -/
  connectors : h'.connectors = (h.releasedAll k calls).connectors

variable {h h' : Hub} {k : ConnectorId} {id a : String} {call : RegistryCall} {calls : List RegistryCall}

/-! ### The calls -/

theorem mem_sharers_remove : a ∈ (h.registrations.remove id).sharers k ↔ h.Shares k id a := by
  rw [Registrations.mem_sharers, Registrations.get?_remove, Shares, ne_comm]
  split_ifs with ha
  · simp [ha]
  · simp [ha]

/-- A connector that nobody else uses is closed. -/
theorem partings_alone (hno : ∀ a, ¬ h.Shares k id a) : h.partings k id = [.close] := by
  have hnil : (h.registrations.remove id).sharers k = [] :=
    List.eq_nil_iff_forall_not_mem.mpr fun a ha => hno a (mem_sharers_remove.mp ha)
  simp [partings, hnil]

theorem partings_shared (ha : h.Shares k id a) : h.partings k id =
    (((h.registrations.watchKeys.get? id).getD .empty).without ((h.registrations.remove id).keysOf
      ((h.registrations.remove id).sharers k))).map .unwatch := by
  have hsome : ((h.registrations.remove id).sharers k).isEmpty = false :=
    List.isEmpty_eq_false_iff_exists_mem.mpr ⟨a, mem_sharers_remove.mpr ha⟩
  simp [partings, hsome]

theorem tracks_iff_released {key : String} :
    h.Tracks id key ↔ key ∈ (h.registrations.watchKeys.get? id).getD .empty := by
  rw [Tracks, Registrations.isTracked_iff]
  cases h.registrations.watchKeys.get? id with
  | none => simp [KeySet.empty, KeySet.mem_iff]
  | some keys => simp

/-- A connector that others use is told to unwatch what nobody else tracks. -/
theorem mem_partings (ha : h.Shares k id a) : call ∈ h.partings k id ↔
    ∃ key, call = .unwatch key ∧ h.Tracks id key ∧ ∀ b, h.Shares k id b → ¬ h.Tracks b key := by
  have hfree : ∀ key, (∀ b, (h.registrations.remove id).connectors.get? b = some k →
      ¬ (h.registrations.remove id).isTracked b key = true) ↔ ∀ b, h.Shares k id b → ¬ h.Tracks b key := by
    intro key
    simp only [← Registrations.mem_sharers, mem_sharers_remove, Registrations.isTracked_remove]
    exact forall₂_congr fun b hb => by simp [hb.1, Tracks]
  rw [partings_shared ha, List.mem_map]
  simp only [Registrations.mem_without, hfree, ← tracks_iff_released]
  exact exists_congr fun key => by rw [and_comm, eq_comm]

/-- No call is made twice. -/
theorem nodup_partings : (h.partings k id).Nodup := by
  unfold partings
  dsimp only
  split_ifs
  · exact List.nodup_singleton _
  · refine List.Nodup.map (fun _ _ he => RegistryCall.unwatch.inj he) (List.Nodup.filter _ ?_)
    exact ((h.registrations.watchKeys.get? id).getD .empty).sorted.imp fun hlt => String.ne_of_lt hlt

/-! ### What calls leave alone -/

/-- Calls to let go do not go by the registrations. -/
theorem released_writtenOff (rs : Registrations) (m : Metrics) :
    ({ h with registrations := rs, metrics := m } : Hub).released k call =
      { h.released k call with registrations := rs, metrics := m } := by
  have hanswer : ({ h with registrations := rs, metrics := m } : Hub).answer k call = h.answer k call := rfl
  have hcalled : ({ h with registrations := rs, metrics := m } : Hub).called k call =
      { h.called k call with registrations := rs, metrics := m } := by
    have hentry : ({ h with registrations := rs, metrics := m } : Hub).trace? k call = h.trace? k call := rfl
    unfold called
    rw [hentry]
    cases h.trace? k call <;> rfl
  unfold released
  rw [hanswer, hcalled]
  cases h.answer k call <;> rfl

theorem releasedAll_writtenOff (rs : Registrations) (m : Metrics) :
    ({ h with registrations := rs, metrics := m } : Hub).releasedAll k calls =
      { h.releasedAll k calls with registrations := rs, metrics := m } := by
  induction calls generalizing h with
  | nil => rfl
  | cons call calls ih => rw [releasedAll_cons, released_writtenOff, ih, releasedAll_cons]

/-- The hub that a removal leaves: its connector has been called, and the id is gone. -/
theorem letGo_of_eq {m : Metrics} (he : h' = { h.releasedAll k calls with
    registrations := h.registrations.remove id, active := h.active.erase id, metrics := m }) :
    LetGo h k id calls h' := by
  subst he
  refine ⟨?_, ?_, ?_, fun a ha => ⟨?_, ?_, ?_⟩, journal_releasedAll, rfl⟩
  · exact Registrations.get?_remove.trans (if_pos rfl)
  · exact (Table.get?_erase ..).trans (if_pos rfl)
  · exact (Table.get?_erase ..).trans (if_pos rfl)
  · exact Registrations.get?_remove.trans (if_neg ha.symm)
  · exact (Table.get?_erase ..).trans (if_neg ha.symm)
  · exact (Table.get?_erase ..).trans (if_neg ha.symm)

end Hub

namespace Act

open Hub

variable {h : Hub} {k : ConnectorId} {r : Registration}

/-- **Dropping a registration** ends with the first refusal of its connector, after all calls. -/
theorem deregister_eq (hid : h.registrations.connectors.get? r.id = some k) :
    ∃ m, deregister r h = (reply ((h.answers k (h.partings k r.id)).findSome? id) >>= fun _ => pure true)
      { h.releasedAll k (h.partings k r.id) with
        registrations := h.registrations.remove r.id, metrics := m } := by
  let m := h.metrics.moveActive (-1)
  let h₁ : Hub := { h with registrations := h.registrations.remove r.id, metrics := m }
  have hall : ∀ calls, h₁.releasedAll k calls = { h.releasedAll k calls with
      registrations := h.registrations.remove r.id, metrics := m } := fun calls => releasedAll_writtenOff _ _
  have hanswers : ∀ calls, h₁.answers k calls = h.answers k calls := fun calls => answers_congr rfl rfl
  unfold deregister
  rw [get_bind]
  simp only [hid]
  by_cases hlast : ((h.registrations.remove r.id).sharers k).isEmpty = true
  · have hcalls : h.partings k r.id = [.close] := by simp [partings, hlast]
    have hclose : closeRegistry k h₁ = reply (h.answer k .close) { h.released k .close with
        registrations := h.registrations.remove r.id, metrics := m } := by
      rw [closeRegistry_eq, released_writtenOff]
      rfl
    rw [if_pos hlast, hcalls, answers, answers]
    cases ha : h.answer k .close with
    | none =>
      rw [ha] at hclose
      exact ⟨m.add (.lifecycle r.registryType "close") 1, bind_of_ok hclose _⟩
    | some e =>
      rw [ha] at hclose
      exact ⟨m, bind_of_error hclose _⟩
  · refine ⟨m, ?_⟩
    have hunwatch := unwatchAll_eq k (((h.registrations.watchKeys.get? r.id).getD .empty).without
      ((h.registrations.remove r.id).keysOf ((h.registrations.remove r.id).sharers k))) h₁
    have hcalls : h.partings k r.id = (((h.registrations.watchKeys.get? r.id).getD .empty).without
        ((h.registrations.remove r.id).keysOf ((h.registrations.remove r.id).sharers k))).map .unwatch := by
      simp [partings, hlast]
    rw [← hcalls, hall, hanswers] at hunwatch
    rw [if_neg hlast]
    refine (bind_of_ok hunwatch _).trans ?_
    cases (h.answers k (h.partings k r.id)).findSome? id <;> rfl

/-- **A removal** ends as dropping the registration does, and the listener is gone. -/
theorem removeDiscovery_eq (hid : h.registrations.connectors.get? r.id = some k) :
    ∃ m, removeDiscovery r h = reply ((h.answers k (h.partings k r.id)).findSome? id)
      { h.releasedAll k (h.partings k r.id) with
        registrations := h.registrations.remove r.id, active := h.active.erase r.id, metrics := m } := by
  obtain ⟨m, hdrop⟩ := deregister_eq hid
  obtain ⟨xs, js, fs, hall⟩ : ∃ xs js fs, h.releasedAll k (h.partings k r.id) =
      { h with connectors := xs, journal := js, faults := fs } := releasedAll_eq
  refine ⟨m, ?_⟩
  unfold removeDiscovery
  cases ho : (h.answers k (h.partings k r.id)).findSome? id with
  | none =>
    rw [ho] at hdrop
    rw [bind_of_ok (attempt_of_ok hdrop), hall]
    rfl
  | some e =>
    rw [ho] at hdrop
    rw [bind_of_ok (attempt_eq_ok.mpr (.inr ⟨e, rfl, hdrop⟩)), hall]
    rfl

theorem removeDiscovery_unknown (hid : h.registrations.connectors.get? r.id = none) :
    removeDiscovery r h = .ok () h := by
  have hdrop : deregister r h = .ok false h := by
    unfold deregister
    rw [get_bind]
    simp only [hid]
    rfl
  exact bind_of_ok (attempt_of_ok hdrop) _

end Act

namespace Hub

/-- **A removal lets go**, whatever the connector answers.  An id that is not cached is left alone.  One that is
has no connector, no watch keys and no listener afterwards, and the other ids have what they had.  If nobody else
uses the connector it is closed by its only call; otherwise it gets one call for each key that the id tracks and
nobody else who uses it, to unwatch it, and no other.  The removal fails exactly if one of these calls was refused,
and an instrumented connector may refuse any of them. -/
theorem removal_lets_go (h : Hub) (r : Registration) :
    (h.registrations.connectors.get? r.id = none → Act.removeDiscovery r h = .ok () h) ∧
    ∀ k, h.registrations.connectors.get? r.id = some k →
      ∃ calls : List RegistryCall,
        LetGo h k r.id calls ((Act.removeDiscovery r).left h) ∧ calls.Nodup ∧
        ((∀ a, ¬ h.Shares k r.id a) → calls = [.close]) ∧
        (∀ a, h.Shares k r.id a → ∀ call, call ∈ calls ↔
          ∃ key, call = .unwatch key ∧ h.Tracks r.id key ∧ ∀ b, h.Shares k r.id b → ¬ h.Tracks b key) ∧
        ((∃ e h', Act.removeDiscovery r h = .error e h') ↔ ∃ e, some e ∈ h.answers k calls) ∧
        ∀ l, h.label? k = some l → ∀ outcomes : List (Option Error), outcomes.length = calls.length →
          ∃ fs, ({ h with faults := fs } : Hub).answers k calls = outcomes := by
  refine ⟨Act.removeDiscovery_unknown, fun k hid => ?_⟩
  obtain ⟨m, hrun⟩ := Act.removeDiscovery_eq hid
  refine ⟨h.partings k r.id, ?_, nodup_partings, partings_alone, fun a ha call => mem_partings ha, ?_,
    fun l hl outcomes hlen => exists_answers hl _ outcomes hlen⟩
  · refine letGo_of_eq (m := m) ?_
    unfold Act.left
    rw [hrun]
    exact Act.left_reply
  · rw [hrun]
    simp only [Act.reply_eq_error]
    constructor
    · rintro ⟨e, h', he, -⟩
      obtain ⟨o, ho, rfl⟩ := List.exists_of_findSome?_eq_some he
      exact ⟨e, ho⟩
    · rintro ⟨e, he⟩
      have hsome : ((h.answers k (h.partings k r.id)).findSome? id).isSome = true :=
        List.findSome?_isSome_iff.mpr ⟨some e, he, rfl⟩
      obtain ⟨e', he'⟩ := Option.isSome_iff_exists.mp hsome
      exact ⟨e', _, he', rfl⟩

/-- Two ids with one connector, which refuses once to unwatch a key.  The first tracks three keys, the second one of
these. -/
def overlappingKeys : Hub :=
  clingingTypes.afterAll 0 [
    .create { id := "d1", registryType := "probed" },
    .create { id := "d2", registryType := "probed" },
    .subscribe { id := "h1", discoveryId := "d1", listenerNode := "/a" } ⟨"s1", "one", "p", "ns"⟩,
    .subscribe { id := "h2", discoveryId := "d1", listenerNode := "/b" } ⟨"s2", "two", "p", "ns"⟩,
    .subscribe { id := "h3", discoveryId := "d1", listenerNode := "/c" } ⟨"s3", "three", "p", "ns"⟩,
    .subscribe { id := "h4", discoveryId := "d2", listenerNode := "/b" } ⟨"s4", "four", "p", "ns"⟩]

/-- The first id goes although its first key is not unwatched; its third key is, and the second stays watched. -/
theorem removal_lets_go_overlappingKeys :
    let r : Registration := { id := "d1", registryType := "probed" }
    let h := (Act.removeDiscovery r).left overlappingKeys
    overlappingKeys.registrations.connectors.get? "d1" = some 1 ∧
      (Act.removeDiscovery r).isOk overlappingKeys = false ∧
      (h.journal.drop overlappingKeys.journal.length).map JournalEntry.callName = ["c0.unwatch", "c0.unwatch"] ∧
      (∃ calls, LetGo overlappingKeys 1 "d1" calls h ∧ .unwatch "/a" ∈ calls ∧ .unwatch "/b" ∉ calls ∧
        .unwatch "/c" ∈ calls ∧ ∃ e, some e ∈ overlappingKeys.answers 1 calls) ∧
      h.Watches 1 "/a" ∧ h.Watches 1 "/b" ∧ ¬ h.Watches 1 "/c" := by
  intro r h
  have hid : overlappingKeys.registrations.connectors.get? "d1" = some 1 := by decide +kernel
  have hfails : (Act.removeDiscovery r).isOk overlappingKeys = false := by decide +kernel
  have hentries : overlappingKeys.registrations.connectors.entries = [("d1", 1), ("d2", 1)] := by decide +kernel
  obtain ⟨calls, hgone, -, -, hshared, hfail, -⟩ := (removal_lets_go overlappingKeys r).2 1 hid
  have hother : overlappingKeys.Shares 1 r.id "d2" := ⟨by decide, by decide +kernel⟩
  have honly : ∀ b, overlappingKeys.Shares 1 r.id b → b = "d2" := by
    rintro b ⟨hne, hb⟩
    rw [Table.get?_eq_some_iff, hentries] at hb
    simp only [List.mem_cons, Prod.mk.injEq, and_true, List.not_mem_nil, or_false] at hb
    exact hb.resolve_left hne
  have hfree : ∀ key, overlappingKeys.Tracks "d1" key → ¬ overlappingKeys.Tracks "d2" key →
      .unwatch key ∈ calls :=
    fun key hkey hno => (hshared "d2" hother _).mpr ⟨key, rfl, hkey, fun b hb => honly b hb ▸ hno⟩
  refine ⟨hid, hfails, by decide +kernel, ⟨calls, hgone, hfree "/a" (by decide +kernel) (by decide +kernel), ?_,
    hfree "/c" (by decide +kernel) (by decide +kernel), ?_⟩, by decide +kernel, by decide +kernel,
    by decide +kernel⟩
  · intro hmem
    obtain ⟨key, hkey, -, hno⟩ := (hshared "d2" hother _).mp hmem
    cases hkey
    have htracks : overlappingKeys.Tracks "d2" "/b" := by decide +kernel
    exact hno "d2" hother htracks
  · obtain ⟨e, he⟩ := Act.eq_error_of_not_isOk hfails
    exact hfail.mp ⟨e, _, he⟩

end Hub

end RouteSync
