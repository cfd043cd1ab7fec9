import RouteSync.Proofs.Settings.Overlay
import RouteSync.Settings.Loading

/-!
# Which layer has the last word

`SettingName` lists the settings of a node with the type and the place of each.  A layer is sound if it is
clear about every setting and what it says last of each can be converted.  Sound layers laid over one
another show for every setting what the last layer with an opinion says (`Shows.overlay`), and what they
show can be read as settings (`Shows.ofSetting`).  The settings of the moment are such a layer as long as
their numbers fit into 64 bits with a sign: it says every setting as it is, an empty list of registrations
by leaving it out.  Hence the environment overrides the file and the file the settings of the moment,
setting by setting (`precedence_of_layers`).
-/

namespace RouteSync

open RouteSync.Text

/-! ### The settings by name -/

inductive SettingName
  | defaultListenerNode
  | defaultProtocol
  | lockStripes
  | eventCapacity
  | backend
  | directory
  | enabled
  | tcpPort
  | logDirectory
  | registrations
  deriving DecidableEq, Repr

namespace SettingName

/-- The type of a setting. -/
abbrev Content : SettingName → Type
  | defaultListenerNode => String
  | defaultProtocol => String
  | lockStripes => Nat
  | eventCapacity => Nat
  | backend => StorageBackend
  | directory => String
  | enabled => Bool
  | tcpPort => Nat
  | logDirectory => String
  | registrations => List Registration

/-- The names that lead to a setting. -/
def names : SettingName → List String
  | defaultListenerNode => ["discovery", "default_listener_node"]
  | defaultProtocol => ["discovery", "default_protocol"]
  | lockStripes => ["discovery", "lock_stripes"]
  | eventCapacity => ["discovery", "event_channel_capacity"]
  | backend => ["storage", "backend"]
  | directory => ["storage", "db_root_dir"]
  | enabled => ["monitoring", "prometheus_enabled"]
  | tcpPort => ["monitoring", "prometheus_port"]
  | logDirectory => ["log_dir"]
  | registrations => ["registrations"]

def path (n : SettingName) : SettingPath := n.names.map .name

/-- How a setting is given its type. -/
def convert : (n : SettingName) → Placed → Except SettingsError n.Content
  | defaultListenerNode => Placed.text
  | defaultProtocol => Placed.text
  | lockStripes => Placed.nat
  | eventCapacity => Placed.nat
  | backend => Placed.variant "StorageBackend" StorageBackend.all StorageBackend.label
  | directory => Placed.text
  | enabled => Placed.bool
  | tcpPort => Placed.nat16
  | logDirectory => Placed.text
  | registrations => Placed.list Registration.ofSetting

/-- What a value means for a setting; tables are parts of a document and mean nothing by themselves. -/
def content? (n : SettingName) (v : Setting) : Option n.Content :=
  if v.isTable then none else (n.convert ⟨n.path, v⟩).toOption

/-- All settings but the list of registrations. -/
def scalars : List SettingName :=
  [defaultListenerNode, defaultProtocol, lockStripes, eventCapacity, backend, directory, enabled, tcpPort,
    logDirectory]

/-- All settings. -/
def all : List SettingName := scalars ++ [registrations]

theorem mem_all (n : SettingName) : n ∈ all := by
  cases n <;> decide

theorem leads_path (n : SettingName) : n.path.leads n.names = true := by
  cases n <;> decide +kernel

theorem not_prefix {m n : SettingName} (h : m ≠ n) : ¬ m.names <+: n.names := by
  revert h
  cases m <;> cases n <;> decide

theorem inner_names (n : SettingName) : Inner n.names := by
  cases n <;> exact ⟨by decide, by decide⟩

end SettingName

namespace Settings

/-- The value of a setting. -/
def get (s : Settings) : (n : SettingName) → n.Content
  | .defaultListenerNode => s.discovery.defaultListenerNode
  | .defaultProtocol => s.discovery.defaultProtocol
  | .lockStripes => s.discovery.lockStripes
  | .eventCapacity => s.discovery.eventCapacity
  | .backend => s.storage.backend
  | .directory => s.storage.directory
  | .enabled => s.monitoring.enabled
  | .tcpPort => s.monitoring.tcpPort
  | .logDirectory => s.logDirectory
  | .registrations => s.registrations

/-- The settings with these values. -/
def of (f : (n : SettingName) → n.Content) : Settings where
  discovery := {
    defaultListenerNode := f .defaultListenerNode
    defaultProtocol := f .defaultProtocol
    lockStripes := f .lockStripes
    eventCapacity := f .eventCapacity }
  storage := { backend := f .backend, directory := f .directory }
  monitoring := { enabled := f .enabled, tcpPort := f .tcpPort }
  logDirectory := f .logDirectory
  registrations := f .registrations

@[simp] theorem get_of (f : (n : SettingName) → n.Content) (n : SettingName) : (of f).get n = f n := by
  cases n <;> rfl

theorem of_get (s : Settings) : of s.get = s := rfl

theorem ext_get {s s' : Settings} (h : ∀ n, s.get n = s'.get n) : s = s' := by
  rw [← of_get s, ← of_get s', funext h]

/-- The values that settings have where nothing is said. -/
def default (n : SettingName) : n.Content := ({} : Settings).get n

end Settings

/-! ### What layers show -/

namespace Layer

/-- What a layer says of a setting. -/
def content? (l : Layer) (n : SettingName) : Option n.Content := (said n.names l.assignments).bind n.content?

/-- Whatever a layer assigns is a value of a setting that can be converted, or has to do with none. -/
def Sound (l : Layer) : Prop :=
  ∀ a ∈ l.assignments, (∃ n : SettingName, a.1.leads n.names = true ∧ (n.content? a.2).isSome) ∨
    ∀ n : SettingName, a.1.parts n.names = true

instance (l : Layer) : Decidable l.Sound :=
  decidable_of_iff (∀ a ∈ l.assignments,
      (∃ n ∈ SettingName.all, a.1.leads n.names = true ∧ (n.content? a.2).isSome) ∨
        ∀ n ∈ SettingName.all, a.1.parts n.names = true)
    (by simp only [Sound, SettingName.mem_all, true_and, forall_true_left])

theorem Sound.clear {l : Layer} (h : l.Sound) (n : SettingName) : Clear l.assignments n.names := by
  intro a ha
  rcases h a ha with ⟨m, hm, -⟩ | hparts
  · by_cases hmn : m = n
    · exact .inl (hmn ▸ hm)
    · exact .inr (SettingPath.parts_of_leads hm (SettingName.not_prefix hmn)
        (SettingName.not_prefix (Ne.symm hmn)))
  · exact .inr (hparts n)

theorem Sound.reads {l : Layer} (h : l.Sound) {n : SettingName} {v : Setting}
    (hv : said n.names l.assignments = some v) : (n.content? v).isSome := by
  obtain ⟨a, ha, hleads, rfl⟩ := exists_of_said hv
  rcases h a ha with ⟨m, hm, hsome⟩ | hparts
  · have hmn : m = n := by
      by_contra hne
      have hnames := SettingPath.leads_unique hm hleads
      exact SettingName.not_prefix hne (hnames ▸ List.prefix_rfl)
    exact hmn ▸ hsome
  · exact absurd (hparts n) (SettingPath.not_parts_of_leads hleads)

end Layer

/-- A setting without a type shows these settings, and can be taken apart into sections. -/
structure Shows (t : Setting) (f : (n : SettingName) → Option n.Content) : Prop where
  isTable : t.isTable = true
  sections (k : String) (hk : k ∈ sections) : HoldsTable k t
  contents (n : SettingName) : (t.at? n.names).map n.content? = (f n).map some

theorem isTable_of_content? {n : SettingName} {v : Setting} (h : (n.content? v).isSome) :
    v.isTable = false := by
  cases hv : v.isTable with
  | false => rfl
  | true => simp [SettingName.content?, hv] at h

theorem Shows.empty : Shows Setting.emptyTable fun _ => none where
  isTable := rfl
  sections _ _ := nofun
  contents n := by cases n <;> rfl

/-- **A sound layer has the last word** on the settings that it says, and none on the others. -/
theorem Shows.overlay {t : Setting} {f : (n : SettingName) → Option n.Content} (h : Shows t f) {l : Layer}
    (hl : l.Sound) : Shows (t.overlay l) fun n => (l.content? n).or (f n) where
  isTable := isTable_overlay (SettingName.inner_names .backend).1 (hl.clear .backend) h.isTable
  sections k hk := by
    have hsome : ∃ n : SettingName, ∃ a, n.names = [k, a] := by
      simp only [RouteSync.sections, List.mem_cons, List.not_mem_nil, or_false] at hk
      rcases hk with rfl | rfl | rfl
      · exact ⟨.lockStripes, _, rfl⟩
      · exact ⟨.backend, _, rfl⟩
      · exact ⟨.tcpPort, _, rfl⟩
    obtain ⟨n, a, hn⟩ := hsome
    exact holdsTable_overlay (hn ▸ hl.clear n) (h.sections k hk)
  contents n := by
    have hassigned := assigned_overlay n.inner_names (hl.clear n) t
    cases hs : said n.names l.assignments with
    | none =>
      rw [hassigned.kept hs, h.contents n, Layer.content?, hs]
      rfl
    | some v =>
      have hreads := hl.reads hs
      obtain ⟨x, hx⟩ := Option.isSome_iff_exists.mp hreads
      rw [hassigned.last v hs (isTable_of_content? hreads), Layer.content?, hs]
      simp [hx]

/-! ### Reading what is shown -/

/-- A field of a record is read as what is shown there, or as its default. -/
theorem orElse_convert {n : SettingName} {parent : Placed} {k : String} {old : Option Setting}
    {o : Option n.Content} (hpath : parent.path ++ [.name k] = n.path)
    (h : old.map n.content? = o.map some) :
    Placed.orElse n.convert (Settings.default n) (old.map (parent.child (.name k))) =
      .ok (o.getD (Settings.default n)) := by
  cases old with
  | none =>
    obtain rfl : o = none := by simpa using h.symm
    rfl
  | some v =>
    obtain ⟨x, rfl, hx⟩ : ∃ x, o = some x ∧ n.content? v = some x := by
      cases o with
      | none => simp at h
      | some x => exact ⟨x, rfl, by simpa using h⟩
    have hv : (n.convert ⟨n.path, v⟩).toOption = some x := by
      rw [SettingName.content?] at hx
      split_ifs at hx
      exact hx
    show n.convert ⟨parent.path ++ [.name k], v⟩ = .ok x
    rw [hpath]
    cases hc : n.convert ⟨n.path, v⟩ with
    | error e => rw [hc] at hv; cases hv
    | ok y => rw [hc] at hv; exact congrArg Except.ok (Option.some.inj hv)

theorem fields_of_isTable (kind : String) (names : List String) {p : Placed}
    (hp : p.setting.isTable = true) : Placed.fields kind names p =
      .ok (names.map fun k => (p.setting.get? k).map (p.child (.name k))) := by
  obtain ⟨path, _ | _ | _⟩ := p
  · cases hp
  · cases hp
  · rfl

theorem at?_single (k : String) (t : Setting) : t.at? [k] = t.get? k := by
  rw [Setting.at?]
  cases t.get? k <;> rfl

theorem at?_pair (k a : String) (t : Setting) : t.at? [k, a] = (t.get? k).bind (Setting.get? a) := by
  rw [Setting.at?]
  congr 1
  funext s
  exact at?_single a s

section Records

open Placed

variable {p : Placed}

theorem DiscoverySettings.ofSetting_of_fields {node protocol stripes capacity : Option Placed}
    {s : DiscoverySettings}
    (hp : fields "DiscoveryConfig" fieldNames p = .ok [node, protocol, stripes, capacity])
    (hnode : orElse text ({} : DiscoverySettings).defaultListenerNode node = .ok s.defaultListenerNode)
    (hprotocol : orElse text ({} : DiscoverySettings).defaultProtocol protocol = .ok s.defaultProtocol)
    (hstripes : orElse nat ({} : DiscoverySettings).lockStripes stripes = .ok s.lockStripes)
    (hcapacity : orElse nat ({} : DiscoverySettings).eventCapacity capacity = .ok s.eventCapacity) :
    ofSetting p = .ok s := by
  rw [ofSetting, hp]
  simp only [bind, Except.bind, hnode, hprotocol, hstripes, hcapacity]
  rfl

theorem StorageSettings.ofSetting_of_fields {backend directory : Option Placed} {s : StorageSettings}
    (hp : fields "StorageConfig" fieldNames p = .ok [backend, directory])
    (hbackend : orElse (variant "StorageBackend" StorageBackend.all StorageBackend.label)
      ({} : StorageSettings).backend backend = .ok s.backend)
    (hdirectory : orElse text ({} : StorageSettings).directory directory = .ok s.directory) :
    ofSetting p = .ok s := by
  rw [ofSetting, hp]
  simp only [bind, Except.bind, hbackend, hdirectory]
  rfl

theorem MonitoringSettings.ofSetting_of_fields {enabled tcpPort : Option Placed} {s : MonitoringSettings}
    (hp : fields "MonitoringConfig" fieldNames p = .ok [enabled, tcpPort])
    (henabled : orElse bool ({} : MonitoringSettings).enabled enabled = .ok s.enabled)
    (hport : orElse nat16 ({} : MonitoringSettings).tcpPort tcpPort = .ok s.tcpPort) :
    ofSetting p = .ok s := by
  rw [ofSetting, hp]
  simp only [bind, Except.bind, henabled, hport]
  rfl

theorem Settings.ofSetting_of_fields {t : Setting} {discovery storage monitoring log registrations : Option Placed}
    {s : Settings}
    (ht : fields "DiscoveryNodeConfig" fieldNames ⟨[], t⟩ =
      .ok [discovery, storage, monitoring, log, registrations])
    (hdiscovery : orElse DiscoverySettings.ofSetting {} discovery = .ok s.discovery)
    (hstorage : orElse StorageSettings.ofSetting {} storage = .ok s.storage)
    (hmonitoring : orElse MonitoringSettings.ofSetting {} monitoring = .ok s.monitoring)
    (hlog : orElse text ({} : Settings).logDirectory log = .ok s.logDirectory)
    (hregistrations : orElse (list Registration.ofSetting) ({} : Settings).registrations registrations =
      .ok s.registrations) : ofSetting t = .ok s := by
  rw [ofSetting, ht]
  simp only [bind, Except.bind, hdiscovery, hstorage, hmonitoring, hlog, hregistrations]
  rfl

end Records

namespace Shows

variable {t : Setting} {f : (n : SettingName) → Option n.Content}

/-- A field of a section that is there. -/
theorem field (h : Shows t f) {n : SettingName} {k a : String} {s : Setting} (hn : n.names = [k, a])
    (hs : t.get? k = some s) :
    Placed.orElse n.convert (Settings.default n)
        ((s.get? a).map (Placed.child ⟨[.name k], s⟩ (.name a))) =
      .ok ((f n).getD (Settings.default n)) := by
  refine orElse_convert (by rw [SettingName.path, hn]; rfl) ?_
  have hcontents := h.contents n
  rwa [hn, at?_pair, hs] at hcontents

/-- Nothing is shown of a section that is not there. -/
theorem absent (h : Shows t f) {n : SettingName} {k a : String} (hn : n.names = [k, a])
    (hs : t.get? k = none) : f n = none := by
  have hcontents := h.contents n
  rw [hn, at?_pair, hs] at hcontents
  simpa using hcontents.symm

/-- The settings that are shown, with the defaults of the others. -/
def settings (_ : Shows t f) : Settings := .of fun n => (f n).getD (Settings.default n)

theorem discovery (h : Shows t f) :
    Placed.orElse DiscoverySettings.ofSetting {}
        ((t.get? "discovery").map (Placed.child ⟨[], t⟩ (.name "discovery"))) =
      .ok h.settings.discovery := by
  cases hs : t.get? "discovery" with
  | none =>
    simp only [settings, Settings.of, h.absent (n := .defaultListenerNode) rfl hs,
      h.absent (n := .defaultProtocol) rfl hs, h.absent (n := .lockStripes) rfl hs,
      h.absent (n := .eventCapacity) rfl hs]
    rfl
  | some s =>
    have hnode := h.field (n := .defaultListenerNode) rfl hs
    have hprotocol := h.field (n := .defaultProtocol) rfl hs
    have hstripes := h.field (n := .lockStripes) rfl hs
    have hcapacity := h.field (n := .eventCapacity) rfl hs
    have hfields := fields_of_isTable "DiscoveryConfig" DiscoverySettings.fieldNames
      (p := ⟨[.name "discovery"], s⟩) (h.sections "discovery" (by decide) s hs)
    exact DiscoverySettings.ofSetting_of_fields hfields hnode hprotocol hstripes hcapacity

theorem storage (h : Shows t f) :
    Placed.orElse StorageSettings.ofSetting {}
        ((t.get? "storage").map (Placed.child ⟨[], t⟩ (.name "storage"))) =
      .ok h.settings.storage := by
  cases hs : t.get? "storage" with
  | none =>
    simp only [settings, Settings.of, h.absent (n := .backend) rfl hs, h.absent (n := .directory) rfl hs]
    rfl
  | some s =>
    have hbackend := h.field (n := .backend) rfl hs
    have hdirectory := h.field (n := .directory) rfl hs
    have hfields := fields_of_isTable "StorageConfig" StorageSettings.fieldNames
      (p := ⟨[.name "storage"], s⟩) (h.sections "storage" (by decide) s hs)
    exact StorageSettings.ofSetting_of_fields hfields hbackend hdirectory

theorem monitoring (h : Shows t f) :
    Placed.orElse MonitoringSettings.ofSetting {}
        ((t.get? "monitoring").map (Placed.child ⟨[], t⟩ (.name "monitoring"))) =
      .ok h.settings.monitoring := by
  cases hs : t.get? "monitoring" with
  | none =>
    simp only [settings, Settings.of, h.absent (n := .enabled) rfl hs, h.absent (n := .tcpPort) rfl hs]
    rfl
  | some s =>
    have henabled := h.field (n := .enabled) rfl hs
    have hport := h.field (n := .tcpPort) rfl hs
    have hfields := fields_of_isTable "MonitoringConfig" MonitoringSettings.fieldNames
      (p := ⟨[.name "monitoring"], s⟩) (h.sections "monitoring" (by decide) s hs)
    exact MonitoringSettings.ofSetting_of_fields hfields henabled hport

/-- **What is shown can be read.** -/
theorem ofSetting (h : Shows t f) : Settings.ofSetting t = .ok h.settings := by
  have hfields := fields_of_isTable "DiscoveryNodeConfig" Settings.fieldNames (p := ⟨[], t⟩) h.isTable
  have hlog : (t.get? "log_dir").map _ = _ := at?_single "log_dir" t ▸ h.contents .logDirectory
  have hregistrations : (t.get? "registrations").map _ = _ :=
    at?_single "registrations" t ▸ h.contents .registrations
  exact Settings.ofSetting_of_fields hfields h.discovery h.storage h.monitoring
    (orElse_convert (n := .logDirectory) rfl hlog) (orElse_convert (n := .registrations) rfl hregistrations)

end Shows

/-! ### The settings of the moment -/

/-- The numbers of the settings can be written down as integers of 64 bits. -/
structure Settings.Fits (s : Settings) : Prop where
  lockStripes : (s.discovery.lockStripes : Int) ≤ maxInt64
  eventCapacity : (s.discovery.eventCapacity : Int) ≤ maxInt64
  tcpPort : s.monitoring.tcpPort ≤ 65535

instance (s : Settings) : Decidable s.Fits :=
  decidable_of_iff ((s.discovery.lockStripes : Int) ≤ maxInt64 ∧
      (s.discovery.eventCapacity : Int) ≤ maxInt64 ∧ s.monitoring.tcpPort ≤ 65535)
    ⟨fun ⟨hl, he, ht⟩ => ⟨hl, he, ht⟩, fun h => ⟨h.lockStripes, h.eventCapacity, h.tcpPort⟩⟩

/-- How a setting is said by the settings of the moment. -/
def SettingName.written : (n : SettingName) → n.Content → Setting
  | .defaultListenerNode => Setting.ofText
  | .defaultProtocol => Setting.ofText
  | .lockStripes => fun k => .scalar (.integer k) none
  | .eventCapacity => fun k => .scalar (.integer k) none
  | .backend => fun b => .ofText b.label
  | .directory => Setting.ofText
  | .enabled => Setting.ofBool
  | .tcpPort => fun k => .scalar (.integer k) none
  | .logDirectory => Setting.ofText
  | .registrations => fun l => .list (l.map Registration.toSetting) none

theorem mapM_items {α : Type} {write : α → Setting} {read : Placed → Except SettingsError α}
    (h : ∀ a path, read ⟨path, write a⟩ = .ok a) (l : List α) (path : SettingPath) :
    (Placed.items (l.map write) path).mapM read = .ok l := by
  have hfrom : ∀ (l : List α) (i : Nat),
      (((l.map write).zipIdx i).map fun e => Placed.mk (path ++ [.index e.2]) e.1).mapM read = .ok l := by
    intro l
    induction l with
    | nil => exact fun _ => rfl
    | cons a l ih =>
      intro i
      rw [List.map_cons, List.zipIdx_cons, List.map_cons, List.mapM_cons, h, ih]
      rfl
  exact hfrom l 0

theorem Registration.ofSetting_toSetting (r : Registration) (path : SettingPath) :
    ofSetting ⟨path, r.toSetting⟩ = .ok r := by
  obtain ⟨id, name, type, props, servers, namespaceId⟩ := r
  cases servers with
  | nil => rfl
  | cons a l =>
    have hservers : Placed.list Placed.text ⟨path ++ [.name "server_list"],
        .list ((a :: l).map Setting.ofText) none⟩ = .ok (a :: l) := mapM_items (fun _ _ => rfl) (a :: l) _
    show ((Placed.list Placed.text ⟨path ++ [.name "server_list"],
      .list ((a :: l).map Setting.ofText) none⟩).map some >>= fun servers =>
        Except.ok (Registration.mk id name type props (servers.getD []) namespaceId)) = _
    rw [hservers]
    rfl

theorem SettingName.content?_written {s : Settings} (hs : s.Fits) (n : SettingName) :
    n.content? (n.written (s.get n)) = some (s.get n) := by
  have hnat16 : ∀ path, Placed.nat16 ⟨path, .scalar (.integer s.monitoring.tcpPort) none⟩ =
      .ok s.monitoring.tcpPort := fun _ => if_pos hs.tcpPort
  have hbackend : ∀ path, Placed.variant "StorageBackend" StorageBackend.all StorageBackend.label
      ⟨path, .ofText s.storage.backend.label⟩ = .ok s.storage.backend := by
    intro path
    cases s.storage.backend <;> rfl
  have hregistrations : ∀ path, Placed.list Registration.ofSetting
      ⟨path, .list (s.registrations.map Registration.toSetting) none⟩ = .ok s.registrations :=
    mapM_items Registration.ofSetting_toSetting s.registrations
  cases n with
  | tcpPort => exact congrArg Except.toOption (hnat16 (path .tcpPort))
  | backend => exact congrArg Except.toOption (hbackend (path .backend))
  | registrations => exact congrArg Except.toOption (hregistrations (path .registrations))
  | _ => rfl

/-- What the settings of the moment say: no registrations are said by saying nothing. -/
def Settings.spoken (s : Settings) : List SettingName :=
  SettingName.scalars ++ if s.registrations = [] then [] else [.registrations]

theorem entryAssignments_section {k : String} (hk : k ∈ sections) (ms : List (String × Setting))
    (origin : Option String) :
    entryAssignments (k, .table ms origin) = ms.map fun m => ([.name k, .name m.1], m.2) := by
  have hread : SettingPath.read k = [.name k] ∧ lower k = k := by
    revert k
    decide +kernel
  simp only [entryAssignments, hread.1, hread.2, if_pos hk]

theorem entryAssignments_name {k : String} (hk : SettingPath.read k = [.name k]) {v : Setting}
    (hv : v.isTable = false) : entryAssignments (k, v) = [([.name k], v)] := by
  rcases entry_cases (k, v) with ⟨_, _, _, -, -, hv', -⟩ | he
  · rw [show v = _ from hv'] at hv
    cases hv
  · rw [he, hk]

theorem Settings.toLayer_of_fits {s : Settings} (hs : s.Fits) :
    ∃ l, s.toLayer = .ok l ∧ l.assignments = s.spoken.map fun n => (n.path, n.written (s.get n)) := by
  have hport : (s.monitoring.tcpPort : Int) ≤ maxInt64 := by
    have := hs.tcpPort
    unfold maxInt64
    omega
  have hdiscovery : s.discovery.toSetting = .ok (.table
      [("default_listener_node", .ofText s.discovery.defaultListenerNode),
        ("default_protocol", .ofText s.discovery.defaultProtocol),
        ("lock_stripes", .scalar (.integer s.discovery.lockStripes) none),
        ("event_channel_capacity", .scalar (.integer s.discovery.eventCapacity) none)] none) := by
    rw [DiscoverySettings.toSetting, Setting.ofNat, Setting.ofNat, if_pos hs.lockStripes,
      if_pos hs.eventCapacity]
    rfl
  have hmonitoring : s.monitoring.toSetting = .ok (.table
      [("prometheus_enabled", .ofBool s.monitoring.enabled),
        ("prometheus_port", .scalar (.integer s.monitoring.tcpPort) none)] none) := by
    rw [MonitoringSettings.toSetting, Setting.ofNat, if_pos hport]
    rfl
  refine ⟨_, by rw [toLayer, hdiscovery, hmonitoring]; rfl, ?_⟩
  rw [Layer.assignments, List.flatMap_append, Settings.spoken, List.map_append]
  congr 1
  · simp only [List.flatMap_cons, List.flatMap_nil, StorageSettings.toSetting,
      entryAssignments_section (show "discovery" ∈ sections by decide),
      entryAssignments_section (show "storage" ∈ sections by decide),
      entryAssignments_section (show "monitoring" ∈ sections by decide),
      entryAssignments_name (k := "log_dir") (v := .ofText s.logDirectory) (by decide +kernel) rfl]
    rfl
  · cases hr : s.registrations with
    | nil => rfl
    | cons r l =>
      have hread : SettingPath.read "registrations" = [.name "registrations"] := by decide +kernel
      show entryAssignments ("registrations", .list ((r :: l).map Registration.toSetting) none) ++ [] = _
      rw [entryAssignments_name hread rfl, if_neg (List.cons_ne_nil r l), ← hr]
      rfl

theorem said_map_path (l : List SettingName) (w : SettingName → Setting) (n : SettingName) :
    said n.names (l.map fun m => (m.path, w m)) = if n ∈ l then some (w n) else none := by
  induction l with
  | nil => rfl
  | cons m l ih =>
    have hsplit : (m :: l).map (fun m => (m.path, w m)) = [(m.path, w m)] ++ l.map fun m => (m.path, w m) :=
      rfl
    rw [hsplit, said_append, ih, said_singleton]
    by_cases hmn : m = n
    · subst hmn
      by_cases hm : m ∈ l <;> simp [hm, m.leads_path]
    · have hleads : ¬ m.path.leads n.names = true := fun h =>
        SettingName.not_prefix hmn (SettingPath.leads_unique m.leads_path h ▸ List.prefix_rfl)
      by_cases hn : n ∈ l <;> simp [hn, hleads, Ne.symm hmn]

/-- **The settings of the moment are a sound layer**, and it says them as they are. -/
theorem Settings.sound_toLayer {s : Settings} (hs : s.Fits) :
    ∃ l, s.toLayer = .ok l ∧ l.Sound ∧
      ∀ n, (l.content? n).getD (Settings.default n) = s.get n := by
  obtain ⟨l, hl, hassigned⟩ := toLayer_of_fits hs
  have hsaid (n : SettingName) : said n.names l.assignments =
      if n ∈ s.spoken then some (n.written (s.get n)) else none := by
    rw [hassigned, said_map_path]
  refine ⟨l, hl, ?_, ?_⟩
  · intro a ha
    rw [hassigned] at ha
    obtain ⟨n, -, rfl⟩ := List.mem_map.mp ha
    exact .inl ⟨n, n.leads_path, by rw [SettingName.content?_written hs]; rfl⟩
  · intro n
    rw [Layer.content?, hsaid]
    by_cases hn : n ∈ s.spoken
    · rw [if_pos hn, Option.bind_some, SettingName.content?_written hs]
      rfl
    · -- only an empty list of registrations goes unsaid
      have hempty : n = .registrations ∧ s.registrations = [] := by
        rw [Settings.spoken, List.mem_append, not_or] at hn
        obtain ⟨hscalar, hlist⟩ := hn
        have hn : n = .registrations := by
          revert hscalar
          cases n <;> decide
        refine ⟨hn, ?_⟩
        by_contra hne
        exact hlist (by simp [hne, hn])
      obtain ⟨rfl, hr⟩ := hempty
      rw [if_neg hn]
      exact hr.symm

/-! ### The whole -/

namespace Settings

variable {c : Settings} {files : FileTree} {env : Environment}

/-- The settings in which some layers, the strongest first, have their say and `c` has the rest. -/
def Follows (s : Settings) (layers : List Layer) (c : Settings) : Prop :=
  ∀ n, s.get n = (layers.findSome? fun l => l.content? n).getD (c.get n)

theorem ofLayers_follows (hc : c.Fits) {current : Layer} (hcurrent : c.toLayer = .ok current)
    (layers : List Layer) (hlayers : ∀ l ∈ layers, l.Sound) :
    ∃ s, ofLayers (current :: layers) = .ok s ∧ s.Follows layers.reverse c := by
  obtain ⟨l, hl, hsound, hvalue⟩ := sound_toLayer hc
  obtain rfl := Except.ok.inj (hcurrent.symm.trans hl)
  have hshows : ∀ (layers : List Layer), (∀ l ∈ layers, l.Sound) → ∀ {t f}, Shows t f →
      Shows (layers.foldl Setting.overlay t) fun n =>
        (layers.reverse.findSome? fun l => l.content? n).or (f n) := by
    intro layers
    induction layers with
    | nil => exact fun _ _ _ ht => by simpa using ht
    | cons l layers ih =>
      intro hl t f ht
      have hrest := ih (fun l' hl' => hl l' (List.mem_cons_of_mem _ hl'))
        (ht.overlay (hl l List.mem_cons_self))
      simpa [List.findSome?_append, Option.or_assoc] using hrest
  have hall := hshows layers hlayers (Shows.empty.overlay hsound)
  refine ⟨_, hall.ofSetting, fun n => ?_⟩
  simp only [Shows.settings, get_of, Option.or_none, ← hvalue n]
  cases layers.reverse.findSome? fun l => l.content? n <;> rfl

theorem overlaid_follows (hc : c.Fits) (henv : env.layer.Sound) :
    ∃ s, c.overlaid files env none = .ok s ∧ s.Follows [env.layer] c := by
  obtain ⟨current, hcurrent, -⟩ := sound_toLayer hc
  obtain ⟨s, hs, hfollows⟩ := ofLayers_follows hc hcurrent [env.layer] (by simpa using henv)
  refine ⟨s, ?_, hfollows⟩
  rw [overlaid, hcurrent]
  exact hs

theorem overlaid_file_follows (hc : c.Fits) (henv : env.layer.Sound) {name : String} {file : Layer}
    (hfile : files.fileLayer name = .ok file) (hsound : file.Sound) :
    ∃ s, c.overlaid files env (some name) = .ok s ∧ s.Follows [env.layer, file] c := by
  obtain ⟨current, hcurrent, -⟩ := sound_toLayer hc
  obtain ⟨s, hs, hfollows⟩ := ofLayers_follows hc hcurrent [file, env.layer] (by simp [*])
  refine ⟨s, ?_, hfollows⟩
  rw [overlaid, hcurrent]
  simp only [bind, Except.bind, hfile]
  exact hs

theorem fits_defaults : ({} : Settings).Fits := by decide

/-- **The environment overrides the file, and the file the settings of the moment**, setting by setting,
as long as every layer is sound; where neither says anything, nothing changes.  Loading does the same from
the defaults, with the file that the environment names. -/
theorem precedence_of_layers (hc : c.Fits) (henv : env.layer.Sound) {name : String} {file : Layer}
    (hfile : files.fileLayer name = .ok file) (hsound : file.Sound) :
    (∃ s, c.override files env name = .ok s ∧ s.Follows [env.layer, file] c) ∧
    ((∀ n, env.layer.content? n = none ∧ file.content? n = none) → c.override files env name = .ok c) ∧
    (env.settingsFile? = some name → ∃ s, load files env = .ok s ∧ s.Follows [env.layer, file] {}) ∧
    (env.settingsFile? = none → ∃ s, load files env = .ok s ∧ s.Follows [env.layer] {}) := by
  have hoverride : ∃ s, c.override files env name = .ok s ∧ s.Follows [env.layer, file] c :=
    overlaid_file_follows hc henv hfile hsound
  refine ⟨hoverride, fun hnone => ?_, fun hname => ?_, fun hname => ?_⟩
  · obtain ⟨s, hs, hfollows⟩ := hoverride
    have hsame : s = c := ext_get fun n => by
      rw [hfollows n]
      simp [List.findSome?, (hnone n).1, (hnone n).2]
    rw [hs, hsame]
  · rw [load, hname]
    exact overlaid_file_follows fits_defaults henv hfile hsound
  · rw [load, hname]
    exact overlaid_follows fits_defaults henv

/-- A file spells names in its own way, gives a list of registrations and says something that is no
setting; the environment speaks from texts about settings of the file and of the moment, and has an empty
variable. -/
theorem precedence_of_file_and_variables :
    let c : Settings := {
      discovery := { defaultListenerNode := "/c", lockStripes := 8, eventCapacity := 9 }
      storage := { backend := .embedded, directory := "c.lock_stripes[0]" }
      registrations := [{ id := "r", registryType := "local", servers := ["s"] }] }
    let files : FileTree := {
      working := ["work"]
      root := [("work", .directory [("node.toml", .file ("LOG_dir = \"logs\"\n" ++
        "[Discovery]\nLOCK_STRIPES = 16\nX = 1\n[[REGISTRATIONS]]\nid = \"a\"\ntype = \"local\"\n"))])] }
    let env : Environment := .ofList [("DISCOVERY__DISCOVERY__LOCK_STRIPES", "+128"),
      ("discovery__STORAGE__BACKEND", "MEMORY"), ("DISCOVERY__LOG_DIR", "")]
    let s : Settings := {
      discovery := { defaultListenerNode := "/c", lockStripes := 128, eventCapacity := 9 }
      storage := { backend := .memory, directory := "c.lock_stripes[0]" }
      logDirectory := "logs"
      registrations := [{ id := "a", registryType := "local" }] }
    c.Fits ∧ env.layer.Sound ∧ ∃ file, files.fileLayer "node" = .ok file ∧ file.Sound ∧
      c.override files env "node" = .ok s := by
  intro c files env s
  have hc : c.Fits := by decide
  have henv : env.layer.Sound := by decide +kernel
  have hread : (files.fileLayer "node").toOption.any (fun file => decide (file.Sound ∧
      of (fun n => ([env.layer, file].findSome? fun l => l.content? n).getD (c.get n)) = s)) = true := by
    decide +kernel
  cases hfile : files.fileLayer "node" with
  | error e => rw [hfile] at hread; cases hread
  | ok file =>
    rw [hfile] at hread
    obtain ⟨hsound, hs⟩ := of_decide_eq_true (show decide _ = true from hread)
    obtain ⟨s', hs', hfollows⟩ := (precedence_of_layers hc henv hfile hsound).1
    have hsame : s' = s := by rw [← of_get s', ← hs, funext hfollows]
    exact ⟨hc, henv, file, rfl, hsound, hsame ▸ hs'⟩

end Settings

end RouteSync
