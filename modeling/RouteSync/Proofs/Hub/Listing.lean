import Mathlib.Data.List.Induction
import RouteSync.Proofs.Hub.Bindings
import RouteSync.Proofs.Hub.Instances

/-!
# The registry inside the process as an ordered map

Whatever a hub is told to do, the instances under a key of a connector are a matter of what has been registered
and taken off there.  An instance is listed exactly if its latest registration still stands, the pairs of host and
number are distinct, and they stand in the order in which they have entered: by their first registration since
they were last taken off (`Listing`).  Registering says whether the pair was there and taking off whether it is
gone, each to the watcher of its key alone (`ordered_map_after`).

Registering looks for the address of an instance and taking off for its host and number.  The two agree for every
host, colons included, since an address names both (`Instance.url_eq_iff`).
-/

namespace RouteSync

/-- The host and the number of an instance. -/
def Instance.pair (i : Instance) : String × UInt16 := (i.host, i.tcpPort)

/-- Addresses are as good as pairs. -/
theorem Instance.url_eq_iff {i j : Instance} : i.url = j.url ↔ i.pair = j.pair := by
  rw [Instance.url_eq, Instance.url_eq, addressOf_inj, Instance.pair, Instance.pair, Prod.mk.injEq]

namespace Command

variable {P : List Command → Command → Prop} {Q : Command → Prop} {cmds : List Command} {cmd : Command}
  {key : String} {p : String × UInt16} {i : Instance} {n : Nat}

/-- A command registers an instance with this host and number under a key. -/
def Registers (key : String) (p : String × UInt16) : Command → Prop
  | .register k i => k = key ∧ i.pair = p
  | _ => False

/-- A command takes the instance with this host and number off a key. -/
def Deregisters (key : String) (p : String × UInt16) : Command → Prop
  | .deregister k host tcpPort => k = key ∧ (host, tcpPort) = p
  | _ => False

/-! ### What has not been undone since -/

/-- A command of a list is one of a kind, by itself and by what comes before it, and none after it undoes it. -/
def Since (P : List Command → Command → Prop) (Q : Command → Prop) (cmds : List Command) : Prop :=
  ∃ before cmd after, cmds = before ++ cmd :: after ∧ P before cmd ∧ ∀ x ∈ after, ¬ Q x

theorem not_since_nil : ¬ Since P Q [] := by
  rintro ⟨before, cmd, after, h, -⟩
  simp at h

/-- The last command is of the kind, or it does not undo what stood before it. -/
theorem since_concat : Since P Q (cmds ++ [cmd]) ↔ P cmds cmd ∨ Since P Q cmds ∧ ¬ Q cmd := by
  constructor
  · rintro ⟨before, x, after, h, hx, hafter⟩
    rcases List.eq_nil_or_concat after with rfl | ⟨after, y, rfl⟩
    · obtain ⟨rfl, hlast⟩ := List.append_inj' h rfl
      cases hlast
      exact .inl hx
    · rw [List.concat_eq_append] at h hafter
      rw [← List.cons_append, ← List.append_assoc] at h
      obtain ⟨rfl, hlast⟩ := List.append_inj' h rfl
      cases hlast
      exact .inr ⟨⟨before, x, after, rfl, hx, fun z hz => hafter z (by simp [hz])⟩, hafter _ (by simp)⟩
  · rintro (h | ⟨⟨before, x, after, rfl, hx, hafter⟩, hcmd⟩)
    · exact ⟨cmds, cmd, [], rfl, h, nofun⟩
    · refine ⟨before, x, after ++ [cmd], by simp, hx, fun z hz => ?_⟩
      rcases List.mem_append.mp hz with hz | hz
      · exact hafter z hz
      · exact List.mem_singleton.mp hz ▸ hcmd

theorem Since.mono {P' : List Command → Command → Prop} (h : Since P Q cmds)
    (hP : ∀ before cmd, P before cmd → P' before cmd) : Since P' Q cmds := by
  obtain ⟨before, cmd, after, hsplit, hcmd, hafter⟩ := h
  exact ⟨before, cmd, after, hsplit, hP before cmd hcmd, hafter⟩

/-- An instance has been registered, and its host and number neither registered nor taken off since. -/
def Latest (cmds : List Command) (key : String) (i : Instance) : Prop :=
  Since (fun _ cmd => cmd = .register key i) (fun cmd => cmd.Registers key i.pair ∨ cmd.Deregisters key i.pair) cmds

/-- A host and a number have been registered and not taken off since. -/
def Standing (cmds : List Command) (key : String) (p : String × UInt16) : Prop :=
  Since (fun _ cmd => cmd.Registers key p) (Deregisters key p) cmds

/-- The `n`th command registers a host and a number that do not stand, and they are not taken off since: it is
their first registration since they were last taken off. -/
def Entered (cmds : List Command) (key : String) (p : String × UInt16) (n : Nat) : Prop :=
  Since (fun before cmd => before.length = n ∧ cmd.Registers key p ∧ ¬ Standing before key p)
    (Deregisters key p) cmds

theorem Entered.lt_length (h : Entered cmds key p n) : n < cmds.length := by
  obtain ⟨before, cmd, after, rfl, ⟨rfl, -⟩, -⟩ := h
  simp

theorem Entered.concat (h : Entered cmds key p n) (hcmd : ¬ cmd.Deregisters key p) :
    Entered (cmds ++ [cmd]) key p n :=
  since_concat.mpr (.inr ⟨h, hcmd⟩)

theorem Entered.standing (h : Entered cmds key p n) : Standing cmds key p := Since.mono h fun _ _ hp => hp.2.1

/-- A pair has entered once. -/
theorem Entered.inj {m : Nat} (hm : Entered cmds key p m) (hn : Entered cmds key p n) : m = n := by
  induction cmds using List.reverseRecOn with
  | nil => exact absurd hm not_since_nil
  | append_singleton cmds cmd ih =>
    rcases since_concat.mp hm with ⟨hlast, -, hnew⟩ | ⟨hm, -⟩ <;>
      rcases since_concat.mp hn with ⟨hlast', -, hnew'⟩ | ⟨hn, -⟩
    · exact hlast.symm.trans hlast'
    · exact absurd (Entered.standing hn) hnew
    · exact absurd (Entered.standing hm) hnew'
    · exact ih hm hn

/-- A pair that stands has a latest registration. -/
theorem standing_iff : Standing cmds key p ↔ ∃ i, Latest cmds key i ∧ i.pair = p := by
  induction cmds using List.reverseRecOn with
  | nil => exact ⟨fun h => absurd h not_since_nil, fun ⟨_, h, _⟩ => absurd h not_since_nil⟩
  | append_singleton cmds cmd ih =>
    have hregisters : cmd.Registers key p ↔ ∃ i, cmd = .register key i ∧ i.pair = p := by
      cases cmd <;> simp [Registers, eq_comm]
    unfold Standing Latest
    simp only [since_concat]
    constructor
    · rintro (hcmd | ⟨hstanding, hcmd⟩)
      · obtain ⟨i, hi, hp⟩ := hregisters.mp hcmd
        exact ⟨i, .inl hi, hp⟩
      · by_cases hagain : cmd.Registers key p
        · obtain ⟨i, hi, hp⟩ := hregisters.mp hagain
          exact ⟨i, .inl hi, hp⟩
        · obtain ⟨i, hi, rfl⟩ := ih.mp hstanding
          exact ⟨i, .inr ⟨hi, not_or.mpr ⟨hagain, hcmd⟩⟩, rfl⟩
    · rintro ⟨i, hi | ⟨hi, hcmd⟩, hp⟩
      · exact .inl (hregisters.mpr ⟨i, hi, hp⟩)
      · subst hp
        exact .inr ⟨ih.mpr ⟨i, hi, rfl⟩, (not_or.mp hcmd).2⟩

/-! ### Lists of instances -/

/-- The instances that some commands leave under a key. -/
structure Listing (cmds : List Command) (key : String) (l : List Instance) : Prop where
  distinct : (l.map Instance.pair).Nodup
  latest : ∀ i, i ∈ l ↔ Latest cmds key i
  entered : ∀ p ∈ l.map Instance.pair, ∃ n, Entered cmds key p n
  ordered : (l.map Instance.pair).Pairwise fun p q =>
    ∃ m n, Entered cmds key p m ∧ Entered cmds key q n ∧ m < n

namespace Listing

variable {l : List Instance}

theorem nil (key : String) : Listing [] key [] where
  distinct := List.nodup_nil
  latest _ := iff_of_false List.not_mem_nil not_since_nil
  entered := nofun
  ordered := .nil

theorem mem_pairs_iff (hl : Listing cmds key l) : p ∈ l.map Instance.pair ↔ Standing cmds key p := by
  simp only [List.mem_map, hl.latest, standing_iff]

theorem nodup_urls (hl : Listing cmds key l) : (l.map Instance.url).Nodup := by
  have hpairs := List.pairwise_map.mp hl.distinct
  exact List.pairwise_map.mpr (hpairs.imp fun hne hurl => hne (Instance.url_eq_iff.mp hurl))

/-- A command about another key, or about no instances, leaves the list alone. -/
theorem other (hl : Listing cmds key l) (hregisters : ∀ p, ¬ cmd.Registers key p)
    (hderegisters : ∀ p, ¬ cmd.Deregisters key p) : Listing (cmds ++ [cmd]) key l where
  distinct := hl.distinct
  latest i := by
    have hne : cmd ≠ .register key i := by
      rintro rfl
      exact hregisters i.pair ⟨rfl, rfl⟩
    rw [hl.latest, Latest, Latest, since_concat]
    simp [hne, hregisters, hderegisters]
  entered p hp := by
    obtain ⟨n, hn⟩ := hl.entered p hp
    exact ⟨n, hn.concat (hderegisters p)⟩
  ordered := hl.ordered.imp fun ⟨m, n, hm, hn, hlt⟩ =>
    ⟨m, n, hm.concat (hderegisters _), hn.concat (hderegisters _), hlt⟩

/-- An instance that is registered keeps the place of its pair, or enters at the end if its pair does not stand. -/
theorem register (hl : Listing cmds key l) (i : Instance) :
    Listing (cmds ++ [.register key i]) key (LocalRegistry.place i l) := by
  have hstays : ∀ p, ¬ (Command.register key i).Deregisters key p := fun _ => not_false
  have hentered : ∀ p ∈ l.map Instance.pair, ∃ n, Entered (cmds ++ [.register key i]) key p n := by
    intro p hp
    obtain ⟨n, hn⟩ := hl.entered p hp
    exact ⟨n, hn.concat (hstays p)⟩
  have hordered : (l.map Instance.pair).Pairwise fun p q => ∃ m n, Entered (cmds ++ [.register key i]) key p m ∧
      Entered (cmds ++ [.register key i]) key q n ∧ m < n :=
    hl.ordered.imp fun ⟨m, n, hm, hn, hlt⟩ => ⟨m, n, hm.concat (hstays _), hn.concat (hstays _), hlt⟩
  have hlatest : ∀ j, j ∈ LocalRegistry.place i l ↔ Latest (cmds ++ [.register key i]) key j := by
    intro j
    have hsame : (Command.register key i).Registers key j.pair ↔ j.url = i.url := by
      rw [Instance.url_eq_iff, eq_comm (a := j.pair)]
      exact and_iff_right rfl
    rw [LocalRegistry.mem_place hl.nodup_urls, hl.latest, Latest, Latest, since_concat, hsame]
    simp [hstays, eq_comm]
  have hdistinct : ((LocalRegistry.place i l).map Instance.pair).Nodup := by
    have hurls := List.pairwise_map.mp (LocalRegistry.nodup_place (i := i) hl.nodup_urls)
    exact List.pairwise_map.mpr (hurls.imp fun hne hp => hne (Instance.url_eq_iff.mpr hp))
  have hpairs := LocalRegistry.map_place (fun _ _ => Instance.url_eq_iff) i l
  by_cases hmem : i.pair ∈ l.map Instance.pair
  · rw [if_pos hmem] at hpairs
    refine ⟨hdistinct, hlatest, ?_, ?_⟩
    · rw [hpairs]
      exact hentered
    · rw [hpairs]
      exact hordered
  · rw [if_neg hmem] at hpairs
    have hnew : Entered (cmds ++ [.register key i]) key i.pair cmds.length := by
      refine since_concat.mpr (.inl ⟨rfl, ⟨rfl, rfl⟩, ?_⟩)
      rwa [← hl.mem_pairs_iff]
    refine ⟨hdistinct, hlatest, ?_, ?_⟩
    · rw [hpairs]
      intro p hp
      rcases List.mem_append.mp hp with hp | hp
      · exact hentered p hp
      · rw [List.mem_singleton.mp hp]
        exact ⟨_, hnew⟩
    · rw [hpairs, List.pairwise_append]
      refine ⟨hordered, List.pairwise_singleton _ _, fun p hp q hq => ?_⟩
      rw [List.mem_singleton.mp hq]
      -- all that stood before have entered before
      obtain ⟨n, hn⟩ := hl.entered p hp
      exact ⟨n, cmds.length, hn.concat (hstays p), hnew, hn.lt_length⟩

/-- An instance that is taken off leaves the others as they stand. -/
theorem deregister (hl : Listing cmds key l) (host : String) (tcpPort : UInt16) :
    Listing (cmds ++ [.deregister key host tcpPort]) key (l.eraseP (LocalRegistry.isAt host tcpPort)) := by
  have hsublist : ((l.eraseP (LocalRegistry.isAt host tcpPort)).map Instance.pair).Sublist (l.map Instance.pair) :=
    List.eraseP_sublist.map _
  have hmem : ∀ j, j ∈ l.eraseP (LocalRegistry.isAt host tcpPort) ↔ j ∈ l ∧ (host, tcpPort) ≠ j.pair := by
    intro j
    rw [LocalRegistry.mem_eraseP hl.nodup_urls, ne_eq, Instance.url_eq, addressOf_inj, ← Prod.mk.injEq, eq_comm]
    rfl
  -- the pairs that are left are not the one that is taken off
  have hstays : ∀ p ∈ (l.eraseP (LocalRegistry.isAt host tcpPort)).map Instance.pair,
      ¬ (Command.deregister key host tcpPort).Deregisters key p := by
    intro p hp hgone
    obtain ⟨j, hj, rfl⟩ := List.mem_map.mp hp
    exact ((hmem j).mp hj).2 hgone.2
  refine ⟨hl.distinct.sublist hsublist, fun j => ?_, fun p hp => ?_, ?_⟩
  · rw [hmem, hl.latest, Latest, Latest, since_concat]
    simp [Registers, Deregisters]
  · obtain ⟨n, hn⟩ := hl.entered p (hsublist.subset hp)
    exact ⟨n, hn.concat (hstays p hp)⟩
  · refine (hl.ordered.sublist hsublist).imp_of_mem fun hp hq ⟨m, n, hm, hn, hlt⟩ => ?_
    exact ⟨m, n, hm.concat (hstays _ hp), hn.concat (hstays _ hq), hlt⟩

end Listing

end Command

namespace Hub

open Command

variable {h h₀ : Hub} {c : ConnectorId} {cmds : List Command} {cmd : Command} {key host : String} {tcpPort : UInt16}

/-! ### Runs of a hub -/

theorem instances_register (hc : c < h.connectors.length) (key : String) (i : Instance) (k : String) :
    (h.after c (.register key i)).instances c k =
      if key = k then LocalRegistry.place i (h.instances c key) else h.instances c k := by
  rw [(instances_of_register hc key i).2, LocalRegistry.instancesAt_register]
  rfl

theorem instances_deregister (hc : c < h.connectors.length) (key host : String) (tcpPort : UInt16) (k : String) :
    (h.after c (.deregister key host tcpPort)).instances c k =
      if key = k then (h.instances c key).eraseP (LocalRegistry.isAt host tcpPort) else h.instances c k := by
  rw [(instances_of_deregister hc key host tcpPort).2]
  cases hd : (h.connector c).registry.deregister key host tcpPort with
  | some p => exact (LocalRegistry.deregister_eq_some hd).2.2 k
  | none =>
    have hnobody : ∀ j ∈ h.instances c key, ¬ LocalRegistry.isAt host tcpPort j = true := fun j hj hat =>
      LocalRegistry.deregister_eq_none hd j hj (LocalRegistry.isAt_iff.mp hat)
    rw [List.eraseP_of_forall_not hnobody]
    split_ifs with hk
    · rw [hk]
    · rfl

/-- What is not about a key leaves its instances alone. -/
theorem instances_elsewhere (hc : c < h.connectors.length) (hregisters : ∀ p, ¬ cmd.Registers key p)
    (hderegisters : ∀ p, ¬ cmd.Deregisters key p) : (h.after c cmd).instances c key = h.instances c key := by
  cases cmd with
  | register k i =>
    rw [instances_register hc, if_neg fun hk => hregisters i.pair ⟨hk, rfl⟩]
  | deregister k host tcpPort =>
    rw [instances_deregister hc, if_neg fun hk => hderegisters (host, tcpPort) ⟨hk, rfl⟩]
  | _ =>
    refine congrFun (instances_of_not_change hc ?_).2 key
    exact not_false

/-- **One more command** keeps the lists what the commands leave. -/
theorem listing_after (hc : c < h.connectors.length) (hl : ∀ key, Listing cmds key (h.instances c key))
    (cmd : Command) (key : String) : Listing (cmds ++ [cmd]) key ((h.after c cmd).instances c key) := by
  have other : (∀ p, ¬ cmd.Registers key p) → (∀ p, ¬ cmd.Deregisters key p) →
      Listing (cmds ++ [cmd]) key ((h.after c cmd).instances c key) := by
    intro hregisters hderegisters
    rw [instances_elsewhere hc hregisters hderegisters]
    exact (hl key).other hregisters hderegisters
  cases cmd with
  | register k i =>
    by_cases hk : k = key
    · rw [instances_register hc, if_pos hk, hk]
      exact (hl key).register i
    · exact other (fun _ h => hk h.1) fun _ => not_false
  | deregister k host tcpPort =>
    by_cases hk : k = key
    · rw [instances_deregister hc, if_pos hk, hk]
      exact (hl key).deregister host tcpPort
    · exact other (fun _ => not_false) fun _ h => hk h.1
  | _ => exact other (fun _ => not_false) fun _ => not_false

theorem listing_afterAll (hc : c < h₀.connectors.length) (hnone : ∀ key, h₀.instances c key = [])
    (cmds : List Command) : c < (h₀.afterAll c cmds).connectors.length ∧
      ∀ key, Listing cmds key ((h₀.afterAll c cmds).instances c key) := by
  have hdistinct : h₀.Distinct c := by
    intro key
    show ((h₀.instances c key).map Instance.url).Nodup
    rw [hnone]
    exact List.nodup_nil
  have hpresent : ∀ cmds, c < (h₀.afterAll c cmds).connectors.length := by
    intro cmds
    have hr : Runs c (fun _ _ => True) h₀ (h₀.afterAll c cmds) := runs_afterAll h₀ fun _ _ _ => trivial
    exact (hr.distinct hc hdistinct).1
  refine ⟨hpresent cmds, ?_⟩
  induction cmds using List.reverseRecOn with
  | nil =>
    intro key
    show Listing [] key (h₀.instances c key)
    rw [hnone]
    exact .nil key
  | append_singleton cmds cmd ih =>
    rw [afterAll_append_singleton]
    exact listing_after (hpresent cmds) ih cmd

/-! ### Who is told -/

/-- The registry of a connector becomes `r`, and the watcher of a key, if there is one, is told about an
instance; its failure is that of the call. -/
def told (c : ConnectorId) (h : Hub) (r : LocalRegistry) (key : String) (kind : ChangeKind) (i : Instance) :
    EStateM.Result Error Hub Unit :=
  let h₁ := h.modifyConnector c fun x => { x with registry := r }
  match h.watcher c key with
  | some l => Act.notify l (LocalRegistry.change key kind i) h₁
  | none => .ok () h₁

theorem notifyWatcher_eq_told (hc : c < h.connectors.length) {r : LocalRegistry}
    (hw : r.watchers = (h.connector c).registry.watchers) (key : String) (kind : ChangeKind) (i : Instance) :
    Act.notifyWatcher c key kind i (h.modifyConnector c fun x => { x with registry := r }) =
      h.told c r key kind i := by
  unfold Act.notifyWatcher told watcher
  rw [Act.get_bind, connector_modifyConnector hc, hw]
  cases (h.connector c).registry.watchers.get? key <;> rfl

/-- Registering an instance tells whether its pair was there. -/
theorem registerInstance_eq_told (hc : c < h.connectors.length) (key : String) (i : Instance) :
    Act.registerInstance c key i h = h.told c ((h.connector c).registry.register key i).1 key
      (if i.pair ∈ (h.instances c key).map Instance.pair then .updated else .added) i := by
  have hkind : ((h.connector c).registry.register key i).2 =
      if i.pair ∈ (h.instances c key).map Instance.pair then .updated else .added := by
    have hthere : (((h.connector c).registry.instancesAt key).any fun j => j.url == i.url) = true ↔
        i.pair ∈ (h.instances c key).map Instance.pair := by
      simp only [List.any_eq_true, beq_iff_eq, List.mem_map, Instance.url_eq_iff]
      rfl
    unfold LocalRegistry.register
    dsimp only
    simp only [hthere]
  rw [← hkind]
  exact notifyWatcher_eq_told (r := ((h.connector c).registry.register key i).1) hc rfl key _ i

theorem deregister_eq_none_iff {r : LocalRegistry} :
    r.deregister key host tcpPort = none ↔ (host, tcpPort) ∉ (r.instancesAt key).map Instance.pair := by
  unfold LocalRegistry.deregister
  simp only [Option.map_eq_none_iff, List.find?_eq_none, List.mem_map, Instance.pair, Prod.mk.injEq]
  simp

/-- Taking off an instance that is not there does nothing and answers false. -/
theorem deregisterInstance_of_not_mem (hp : (host, tcpPort) ∉ (h.instances c key).map Instance.pair) :
    Act.deregisterInstance c key host tcpPort h = .ok false h := by
  unfold Act.deregisterInstance
  rw [Act.get_bind, deregister_eq_none_iff.mpr hp]
  rfl

/-- Taking off an instance that is there tells that it is gone, and answers true unless the watcher fails. -/
theorem deregisterInstance_of_mem (hc : c < h.connectors.length)
    (hp : (host, tcpPort) ∈ (h.instances c key).map Instance.pair) :
    ∃ i r, i ∈ h.instances c key ∧ i.pair = (host, tcpPort) ∧
      (h.connector c).registry.deregister key host tcpPort = some (i, r) ∧
      Act.deregisterInstance c key host tcpPort h = match h.told c r key .deleted i with
        | .ok _ h' => .ok true h'
        | .error e h' => .error e h' := by
  obtain ⟨⟨i, r⟩, hd⟩ := Option.ne_none_iff_exists'.mp fun hno => deregister_eq_none_iff.mp hno hp
  obtain ⟨hi, hurl, -⟩ := LocalRegistry.deregister_eq_some hd
  have hwatchers : r.watchers = (h.connector c).registry.watchers := by
    obtain ⟨j, -, hj⟩ := Option.map_eq_some_iff.mp hd
    cases hj
    rfl
  refine ⟨i, r, hi, Prod.ext_iff.mpr (addressOf_inj.mp hurl), hd, ?_⟩
  have hrun : Act.deregisterInstance c key host tcpPort h =
      (Act.notifyWatcher c key .deleted i >>= fun _ => pure true)
        (h.modifyConnector c fun x => { x with registry := r }) := by
    unfold Act.deregisterInstance
    rw [Act.get_bind, hd]
    rfl
  rw [hrun, ← notifyWatcher_eq_told hc hwatchers]
  cases hn : Act.notifyWatcher c key .deleted i (h.modifyConnector c fun x => { x with registry := r }) with
  | ok u h₁ => exact Act.bind_of_ok hn _
  | error e h₁ => exact Act.bind_of_error hn _

/-! ### The map -/

/-- A connector as a map from keys to instances in the order in which they have entered, after some commands. -/
structure OrderedMap (c : ConnectorId) (cmds : List Command) (h : Hub) : Prop where
  listing : ∀ key, Listing cmds key (h.instances c key)
  /-- The pairs that are listed have been registered and not taken off since. -/
  standing : ∀ key p, p ∈ (h.instances c key).map Instance.pair ↔ Standing cmds key p
  /-- What is listed first has entered first. -/
  ordered : ∀ key, ((h.instances c key).map Instance.pair).Pairwise fun p q =>
    ∀ m n, Entered cmds key p m → Entered cmds key q n → m < n
  /-- A connector that is set up, and not instrumented, selects what is listed. -/
  selected : (h.connector c).registry.ready = true → (h.connector c).probe = none →
    ∀ key, Act.selectInstances c key h = .ok (h.instances c key) h
  registered : ∀ key i, Act.registerInstance c key i h =
    h.told c ((h.connector c).registry.register key i).1 key
      (if i.pair ∈ (h.instances c key).map Instance.pair then .updated else .added) i
  /-- What is absent is not taken off, and nobody is told. -/
  absent : ∀ key host tcpPort, (host, tcpPort) ∉ (h.instances c key).map Instance.pair →
    Act.deregisterInstance c key host tcpPort h = .ok false h
  /-- What is present is taken off, and the watcher is told; its failure is the answer. -/
  present : ∀ key host tcpPort, (host, tcpPort) ∈ (h.instances c key).map Instance.pair →
    ∃ i r, i ∈ h.instances c key ∧ i.pair = (host, tcpPort) ∧
      (h.connector c).registry.deregister key host tcpPort = some (i, r) ∧
      Act.deregisterInstance c key host tcpPort h = match h.told c r key .deleted i with
        | .ok _ h' => .ok true h'
        | .error e h' => .error e h'
  /-- What is about other keys leaves the instances of a key alone. -/
  elsewhere : ∀ cmd key, (∀ p, ¬ Registers key p cmd ∧ ¬ Deregisters key p cmd) →
    (h.after c cmd).instances c key = h.instances c key

/-- **The registry inside the process is an ordered map per key**, whatever a hub is told to do and whatever
becomes of it; and addresses tell apart the same instances as their hosts and numbers. -/
theorem ordered_map_after (hc : c < h₀.connectors.length) (hnone : ∀ key, h₀.instances c key = [])
    (cmds : List Command) : OrderedMap c cmds (h₀.afterAll c cmds) ∧
      ∀ i j : Instance, i.url = j.url ↔ i.host = j.host ∧ i.tcpPort = j.tcpPort := by
  obtain ⟨hpresent, hlisting⟩ := listing_afterAll hc hnone cmds
  refine ⟨?_, fun i j => addressOf_inj⟩
  exact {
    listing := hlisting
    standing := fun key p => (hlisting key).mem_pairs_iff
    ordered := fun key => (hlisting key).ordered.imp fun ⟨_, _, hm', hn', hlt⟩ _ _ hm hn => by
      rwa [hm.inj hm', hn.inj hn']
    selected := fun hready hplain key => Act.selectInstances_plain ⟨hpresent, hplain⟩ hready key
    registered := registerInstance_eq_told hpresent
    absent := fun key host tcpPort => deregisterInstance_of_not_mem
    present := fun key host tcpPort => deregisterInstance_of_mem hpresent
    elsewhere := fun cmd key hcmd =>
      instances_elsewhere hpresent (fun p => (hcmd p).1) fun p => (hcmd p).2 }

/-- Hosts that are made of colons; one instance is registered anew, and one after it has been taken off. -/
def colonHosts : List Command := [
  .create { id := "d1", registryType := "local" },
  .subscribe { id := "h1", discoveryId := "d1", listenerNode := "/k" } ⟨"s1", "one", "p", "ns"⟩,
  .register "/k" ⟨":", 1, 10, 0⟩,
  .register "/k" ⟨"::", 1, 10, 0⟩,
  .register "/other" ⟨":", 1, 10, 0⟩,
  .deregister "/k" ":" 1,
  .register "/k" ⟨"::", 1, 20, 0⟩,
  .register "/k" ⟨":", 1, 30, 1⟩]

theorem ordered_map_after_colonHosts :
    Act.selectInstances 0 "/k" ((create {} (.memory .empty)).afterAll 0 colonHosts) =
      .ok [⟨"::", 1, 20, 0⟩, ⟨":", 1, 30, 1⟩] ((create {} (.memory .empty)).afterAll 0 colonHosts) ∧
    Standing colonHosts "/k" (":", 1) ∧ ¬ Standing colonHosts "/k" ("", 1) := by
  have hmap : OrderedMap 0 colonHosts ((create {} (.memory .empty)).afterAll 0 colonHosts) :=
    (ordered_map_after (by decide) (fun _ => rfl) colonHosts).1
  have hlist : ((create {} (.memory .empty)).afterAll 0 colonHosts).instances 0 "/k" =
      [⟨"::", 1, 20, 0⟩, ⟨":", 1, 30, 1⟩] := by
    decide +kernel
  refine ⟨?_, ?_, ?_⟩
  · rw [← hlist]
    exact hmap.selected (by decide +kernel) (by decide +kernel) "/k"
  · rw [← hmap.standing, hlist]
    decide
  · rw [← hmap.standing, hlist]
    decide

end Hub

end RouteSync
