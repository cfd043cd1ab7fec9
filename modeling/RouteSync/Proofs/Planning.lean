import Mathlib.Tactic.Common
import RouteSync.Reconcile

/-!
# The plan of a reconciliation

Candidates are the first live instances of their addresses (`candidates_eq`, `mem_firstPerUrl`).  A plan
deletes what is stored at an address without a candidate and inserts the candidates at whose address
nothing is stored, no two of them at one address (`pairwise_inserts`).
-/

namespace RouteSync

/-- The first instance of every address, in order. -/
def firstPerUrl : List Instance → List Instance
  | [] => []
  | i :: l => i :: (firstPerUrl l).filter fun j => j.url != i.url

/-- The instance that comes first among those of its address. -/
theorem mem_firstPerUrl {l : List Instance} {i : Instance} :
    i ∈ firstPerUrl l ↔ l.find? (fun j => j.url == i.url) = some i := by
  induction l with
  | nil => simp [firstPerUrl]
  | cons j l ih =>
    rw [firstPerUrl, List.mem_cons, List.mem_filter, ih]
    rw [List.find?_cons]
    by_cases h : j.url = i.url
    · have hj : (j.url == i.url) = true := by simpa using h
      rw [hj, Option.some.injEq]
      constructor
      · rintro (rfl | ⟨-, hne⟩)
        · rfl
        · simp [h] at hne
      · rintro rfl
        exact .inl rfl
    · have hj : (j.url == i.url) = false := by simpa using h
      rw [hj]
      constructor
      · rintro (rfl | ⟨hf, -⟩)
        · exact absurd rfl h
        · exact hf
      · intro hf
        exact .inr ⟨hf, by simpa using Ne.symm h⟩

theorem exists_url_firstPerUrl {l : List Instance} {u : String} :
    (∃ i ∈ firstPerUrl l, i.url = u) ↔ ∃ i ∈ l, i.url = u := by
  constructor
  · rintro ⟨i, hi, hu⟩
    exact ⟨i, List.mem_of_find?_eq_some (mem_firstPerUrl.mp hi), hu⟩
  · rintro ⟨i, hi, rfl⟩
    cases hf : l.find? (fun j => j.url == i.url) with
    | none => exact absurd (List.find?_eq_none.mp hf i hi) (by simp)
    | some j =>
      have hj : j.url = i.url := by simpa using List.find?_some hf
      refine ⟨j, mem_firstPerUrl.mpr ?_, hj⟩
      rw [hj]
      exact hf

theorem pairwise_firstPerUrl (l : List Instance) : (firstPerUrl l).Pairwise fun i j => i.url ≠ j.url := by
  induction l with
  | nil => exact .nil
  | cons i l ih =>
    refine .cons (fun j hj => ?_) (ih.filter _)
    have hne : j.url ≠ i.url := by simpa using (List.mem_filter.mp hj).2
    exact hne.symm

theorem length_firstPerUrl_le (l : List Instance) : (firstPerUrl l).length ≤ l.length := by
  induction l with
  | nil => exact Nat.le_refl 0
  | cons i l ih =>
    have hf := List.length_filter_le (fun j : Instance => j.url != i.url) (firstPerUrl l)
    simp only [firstPerUrl, List.length_cons]
    omega

variable {s : Selector} {protocol : String}

theorem foldl_addCandidate (l : List Instance) (seen : List Endpoint) :
    (l.map fun i => Endpoint.ofInstance i s protocol).foldl addCandidate seen =
      seen ++ ((firstPerUrl l).filter fun i => !seen.any fun c => c.url == i.url).map
        fun i => Endpoint.ofInstance i s protocol := by
  induction l generalizing seen with
  | nil => simp [firstPerUrl]
  | cons i l ih =>
    have hi : (Endpoint.ofInstance i s protocol).url = i.url := rfl
    rw [List.map_cons, List.foldl_cons, ih, firstPerUrl, List.filter_cons, List.filter_filter]
    unfold addCandidate
    rw [hi]
    by_cases h : (seen.any fun c => c.url == i.url) = true
    · simp only [h, if_true, Bool.not_true, Bool.false_eq_true, if_false]
      -- the address of `i` has been seen, so dropping its later instances changes nothing
      congr 2
      refine List.filter_congr fun j _ => ?_
      by_cases hj : j.url = i.url
      · simp [hj, h]
      · simp [hj]
    · rw [Bool.not_eq_true] at h
      simp only [h, Bool.false_eq_true, if_false, Bool.not_false, if_true, List.map_cons,
        List.append_assoc, List.singleton_append]
      congr 3
      refine List.filter_congr fun j _ => ?_
      have hc : (i.url == j.url) = (j.url == i.url) := Bool.beq_comm
      simp [hi, bne, hc]

/-- **Candidates** are the first instances of their addresses, in order. -/
theorem candidates_eq (l : List Instance) :
    candidates l s protocol = (firstPerUrl l).map fun i => Endpoint.ofInstance i s protocol := by
  rw [candidates, foldl_addCandidate, List.nil_append, List.filter_eq_self.mpr (by simp)]

theorem mem_candidates {l : List Instance} {e : Endpoint} :
    e ∈ candidates l s protocol ↔ ∃ i, l.find? (fun j => j.url == e.url) = some i ∧
      e = Endpoint.ofInstance i s protocol := by
  rw [candidates_eq, List.mem_map]
  constructor
  · rintro ⟨i, hi, rfl⟩
    exact ⟨i, mem_firstPerUrl.mp hi, rfl⟩
  · rintro ⟨i, hi, rfl⟩
    exact ⟨i, mem_firstPerUrl.mpr hi, rfl⟩

theorem exists_url_candidates {l : List Instance} {u : String} :
    (∃ e ∈ candidates l s protocol, e.url = u) ↔ ∃ i ∈ l, i.url = u := by
  rw [candidates_eq, ← exists_url_firstPerUrl]
  constructor
  · rintro ⟨e, he, hu⟩
    obtain ⟨i, hi, rfl⟩ := List.mem_map.mp he
    exact ⟨i, hi, hu⟩
  · rintro ⟨i, hi, hu⟩
    exact ⟨_, List.mem_map_of_mem hi, hu⟩

/-- No two candidates have one address. -/
theorem pairwise_candidates (l : List Instance) :
    (candidates l s protocol).Pairwise fun a b => a.url ≠ b.url := by
  rw [candidates_eq]
  exact (pairwise_firstPerUrl l).map _ fun _ _ hne => hne

namespace Plan

variable {stored : List StoredEndpoint} {live : List Endpoint}

theorem mem_stale {id : String} :
    id ∈ (Plan.of stored live).stale ↔ ∃ r ∈ stored, r.id = id ∧ ¬ ∃ e ∈ live, e.url = r.url := by
  simp only [Plan.of, List.mem_map, List.mem_filter, Bool.not_eq_true', List.any_eq_false, beq_iff_eq,
    not_exists, not_and, and_assoc]
  exact exists_congr fun r => and_congr_right fun _ => and_comm

theorem mem_inserts {e : Endpoint} :
    e ∈ (Plan.of stored live).inserts ↔ e ∈ live ∧ ∀ r ∈ stored, r.url ≠ e.url := by
  simp only [Plan.of, List.mem_filter, Bool.not_eq_true', List.any_eq_false, beq_iff_eq, ne_eq]

theorem pairwise_inserts (instances : List Instance) :
    (Plan.of stored (candidates instances s protocol)).inserts.Pairwise fun a b => a.url ≠ b.url :=
  (pairwise_candidates instances).filter _

/-- There is nothing to do exactly if the stored addresses are the live ones. -/
theorem of_eq_empty_iff : Plan.of stored live = ⟨[], []⟩ ↔
    ∀ u, (∃ r ∈ stored, r.url = u) ↔ ∃ e ∈ live, e.url = u := by
  have hparts : Plan.of stored live = ⟨[], []⟩ ↔
      (Plan.of stored live).stale = [] ∧ (Plan.of stored live).inserts = [] := by
    rw [Plan.mk.injEq]
  rw [hparts, List.eq_nil_iff_forall_not_mem, List.eq_nil_iff_forall_not_mem]
  constructor
  · rintro ⟨hstale, hinserts⟩ u
    constructor
    · rintro ⟨r, hr, rfl⟩
      by_contra hno
      exact hstale r.id (mem_stale.mpr ⟨r, hr, rfl, hno⟩)
    · rintro ⟨e, he, rfl⟩
      by_contra hno
      exact hinserts e (mem_inserts.mpr ⟨he, fun r hr hu => hno ⟨r, hr, hu⟩⟩)
  · intro hurls
    constructor
    · intro id hid
      obtain ⟨r, hr, -, hno⟩ := mem_stale.mp hid
      exact hno ((hurls r.url).mp ⟨r, hr, rfl⟩)
    · intro e he
      obtain ⟨he, hno⟩ := mem_inserts.mp he
      obtain ⟨r, hr, hu⟩ := (hurls e.url).mpr ⟨e, he, rfl⟩
      exact hno r hr hu

theorem length_inserts_le (instances : List Instance) :
    (Plan.of stored (candidates instances s protocol)).inserts.length ≤ instances.length := by
  have hl := length_firstPerUrl_le instances
  have hf := List.length_filter_le (fun e : Endpoint => !stored.any fun r => r.url == e.url)
    (candidates instances s protocol)
  rw [candidates_eq, List.length_map] at hf
  rw [candidates_eq]
  exact Nat.le_trans hf hl

end Plan

end RouteSync
