import RouteSync.Proofs.Json.RoundTrip
import RouteSync.Wire

/-!
# Records read back

A record is written field by field, and a field that is absent is left out.  Such an object is laid out by
slots: the names of all fields, each with what is written for it, if anything.  As long as the names
differ, reading finds in every slot what was written there (`fields?_layout`), so a record reads back as
soon as each of its fields does.  `Wired` says this of a writer and a reader, and is carried from the
endpoints of a record to the record and from the records of an event to the event.

`RecordKind` lists the records that travel.  For each of them the text of a record reads back as the
record, and reading an accepted text and writing it again settles it: the written text means the same
record and is written the same again (`records_read_back`).
-/

namespace RouteSync.Json

open RouteSync.Json.Tree

/-! ### Objects laid out by slots -/

/-- The members that are written for some slots. -/
def layout (slots : List (String × Option Value)) : List (String × Value) :=
  slots.flatMap fun s => (s.2.map (Prod.mk s.1)).toList

theorem mem_layout {slots : List (String × Option Value)} {k : String} {v : Value} :
    (k, v) ∈ layout slots ↔ (k, some v) ∈ slots := by
  simp only [layout, List.mem_flatMap, Option.mem_toList, Option.map_eq_some_iff, Prod.mk.injEq]
  constructor
  · rintro ⟨⟨a, o⟩, hs, w, hw, rfl, rfl⟩
    exact hw ▸ hs
  · exact fun hs => ⟨(k, some v), hs, v, rfl, rfl, rfl⟩

/-- A slot is the only one of its name. -/
theorem filter_layout {slots : List (String × Option Value)} (hnames : (slots.map Prod.fst).Nodup)
    {k : String} {o : Option Value} (hs : (k, o) ∈ slots) :
    (layout slots).filter (fun e => e.1 == k) = (o.map (Prod.mk k)).toList := by
  induction slots with
  | nil => cases hs
  | cons s slots ih =>
    obtain ⟨a, w⟩ := s
    rw [List.map_cons, List.nodup_cons] at hnames
    have hsplit : layout ((a, w) :: slots) = (w.map (Prod.mk a)).toList ++ layout slots := rfl
    rw [hsplit, List.filter_append]
    by_cases hak : a = k
    · subst hak
      have hrest : (layout slots).filter (fun e => e.1 == a) = [] := by
        rw [List.filter_eq_nil_iff]
        rintro ⟨b, v⟩ hb he
        obtain rfl : b = a := by simpa using he
        exact hnames.1 (List.mem_map.mpr ⟨(b, some v), mem_layout.mp hb, rfl⟩)
      have hw : w = o := by
        rcases List.mem_cons.mp hs with he | hs
        · exact (Prod.mk.inj he).2.symm
        · exact absurd (List.mem_map_of_mem hs) hnames.1
      rw [hrest, List.append_nil, hw]
      cases o <;> simp
    · have hmem : (k, o) ∈ slots := by
        rcases List.mem_cons.mp hs with he | hs
        · exact absurd (Prod.mk.inj he).1.symm hak
        · exact hs
      have hnone : ((w.map (Prod.mk a)).toList).filter (fun e => e.1 == k) = [] := by
        cases w <;> simp [hak]
      rw [hnone, List.nil_append, ih hnames.2 hmem]

/-- **What was written for each field** is found again. -/
theorem fields?_layout {slots : List (String × Option Value)} {names : List String}
    (hnames : slots.map Prod.fst = names) (hdistinct : names.Nodup) :
    (Value.obj (layout slots)).tree.fields? names = some (slots.map fun s => s.2.map Value.tree) := by
  subst hnames
  have hall : (Value.memberTrees (layout slots)).all (fun e => e.1.isSome) = true := by
    simp [Value.memberTrees_eq]
  have hfind : ∀ s ∈ slots, (Value.memberTrees (layout slots)).filter (fun e => e.1 == some s.1) =
      (s.2.map fun v => (some s.1, v.tree)).toList := by
    rintro ⟨k, o⟩ hs
    have hfilter := filter_layout hdistinct hs
    rw [Value.memberTrees_eq, List.filter_map]
    show ((layout slots).filter fun e => some e.1 == some k).map _ = _
    simp only [Option.some_beq_some, hfilter]
    cases o <;> rfl
  have hfor : ∀ l : List (String × Option Value), (∀ s ∈ l, s ∈ slots) →
      membersFor? (Value.memberTrees (layout slots)) (l.map Prod.fst) =
        some (l.map fun s => s.2.map Value.tree) := by
    intro l hl
    induction l with
    | nil => rfl
    | cons s l ih =>
      obtain ⟨k, o⟩ := s
      have hrest := ih fun s hs => hl s (List.mem_cons_of_mem _ hs)
      have hk := hfind (k, o) (hl (k, o) List.mem_cons_self)
      rw [List.map_cons, membersFor?, hrest]
      simp only at hk
      simp only [hk]
      cases o <;> rfl
  show (if _ then _ else _) = _
  rw [if_pos hall]
  exact hfor slots fun _ h => h

/-! ### Fields that read back -/

/-- What `write` writes has no numbers beyond 64 bits, is not null, and is read back by `read`. -/
structure Wired {α : Type} (write : α → Value) (read : Tree → Option α) : Prop where
  whole (a : α) : (write a).Whole
  ne_null (a : α) : (write a).tree ≠ .null
  reads (a : α) : read (write a).tree = some a

theorem wired_text : Wired Value.str text? := ⟨fun _ => trivial, nofun, fun _ => rfl⟩

theorem int?_ofInt {n : Int} (hn : (Number.int n).Whole) : (Value.ofInt n).tree.int? = some n := by
  have hvalue : (Number.int n).numeral.value? = some (.int n) := by rw [numeral_int, value?_ofInt hn]
  have htree : (Value.ofInt n).tree = .number (Number.int n).numeral := rfl
  rw [htree, int?]
  simp only [hvalue]

theorem whole_int32 (n : Int32) : (Number.int n.toInt).Whole := by
  have hlow := n.le_toInt
  have hhigh := n.toInt_lt
  unfold Number.Whole Text.minInt64 Text.maxUInt64
  omega

theorem whole_nat {n : Nat} (hn : n ≤ Text.maxUInt64) : (Number.int n).Whole :=
  ⟨by unfold Text.minInt64; omega, by omega⟩

theorem nat?_ofNat {n bound : Nat} (hn : n ≤ bound) (hbound : bound ≤ Text.maxUInt64) :
    (Value.ofNat n).tree.nat? bound = some n := by
  have hread : (Value.ofNat n).tree.int? = some (n : Int) := int?_ofInt (whole_nat (by omega))
  rw [nat?, hread, Option.bind_some, if_pos (by omega), Int.toNat_natCast]

theorem wired_int32 : Wired int32Value int32? where
  whole n := whole_int32 n
  ne_null := nofun
  reads n := by
    have hlow := n.le_toInt
    have hhigh := n.toInt_lt
    have hread : (int32Value n).tree.int? = some n.toInt := int?_ofInt (whole_int32 n)
    rw [int32?, hread, Option.bind_some, if_pos (by omega), Int32.ofInt_toInt]

theorem wired_uint16 : Wired (fun n : UInt16 => Value.ofNat n.toNat) uint16? where
  whole n := whole_nat (by have := n.toNat_lt; unfold Text.maxUInt64; omega)
  ne_null := nofun
  reads n := by
    have hn := n.toNat_lt
    rw [uint16?, nat?_ofNat (by omega) (by decide), Option.map_some, UInt16.ofNat_toNat]

theorem wired_uint64 : Wired uint64Value uint64? where
  whole n := whole_nat (by have := n.toNat_lt; unfold Text.maxUInt64; omega)
  ne_null := nofun
  reads n := by
    have hn := n.toNat_lt
    have hread : (uint64Value n).tree.nat? Text.maxUInt64 = some n.toNat :=
      nat?_ofNat (by unfold Text.maxUInt64; omega) (Nat.le_refl _)
    rw [uint64?, hread, Option.map_some, UInt64.ofNat_toNat]

variable {α : Type} {write : α → Value} {read : Tree → Option α}

theorem Wired.list (h : Wired write read) : Wired (fun l : List α => .arr (l.map write)) (list? read) where
  whole l := Value.wholeItems_iff.mpr <| List.forall_mem_map.mpr fun a _ => h.whole a
  ne_null := nofun
  reads l := by
    show (Value.itemTrees (l.map write)).mapM read = some l
    rw [Value.itemTrees_eq, List.map_map]
    induction l with
    | nil => rfl
    | cons a l ih => rw [List.map_cons, List.mapM_cons, ih]; simp [h.reads]

theorem wired_texts : Wired Value.ofStrings (list? text?) := wired_text.list

theorem Wired.required (h : Wired write read) (a : α) :
    Tree.required read (some (write a).tree) = some a := h.reads a

theorem Wired.defaulted (h : Wired write read) (default a : α) :
    Tree.defaulted read default (some (write a).tree) = some a := h.reads a

theorem Wired.optional (h : Wired write read) (o : Option α) :
    Tree.optional read (o.map (Value.tree ∘ write)) = some o := by
  cases o with
  | none => rfl
  | some a =>
    have hne := h.ne_null a
    have hreads := h.reads a
    show Tree.optional read (some (write a).tree) = _
    unfold Tree.optional
    split
    · contradiction
    · rename_i he
      exact absurd (Option.some.inj he) hne
    · rename_i he
      rw [← Option.some.inj he, hreads]
      rfl

theorem member?_eq (name : String) (write : α → Value) (o : Option α) :
    member? name write o = layout [(name, o.map write)] := by
  cases o <;> rfl

theorem whole_layout {slots : List (String × Option Value)} :
    (Value.obj (layout slots)).Whole ↔ ∀ s ∈ slots, ∀ v, s.2 = some v → v.Whole := by
  refine Value.wholeMembers_iff.trans ⟨?_, ?_⟩
  · rintro h ⟨k, o⟩ hs v rfl
    exact h (k, v) (mem_layout.mpr hs)
  · rintro h ⟨k, v⟩ hm
    exact h (k, some v) (mem_layout.mp hm) v rfl

/-- A record is read back if it is written slot by slot and its fields are. -/
theorem Wired.ofSlots (slots : α → List (String × Option Value)) {names : List String}
    (hwrite : ∀ a, write a = .obj (layout (slots a)))
    (hnames : ∀ a, (slots a).map Prod.fst = names) (hdistinct : names.Nodup)
    (hwhole : ∀ a, ∀ s ∈ slots a, ∀ v, s.2 = some v → v.Whole)
    (hread : ∀ a t, t.fields? names = some ((slots a).map fun s => s.2.map Value.tree) →
      read t = some a) : Wired write read where
  whole a := hwrite a ▸ whole_layout.mpr (hwhole a)
  ne_null a := by
    rw [hwrite]
    nofun
  reads a := by
    rw [hwrite]
    exact hread a _ (fields?_layout (hnames a) hdistinct)

end RouteSync.Json

namespace RouteSync

open RouteSync.Json RouteSync.Json.Tree

/-! ### Records -/

namespace Registration

def slots (r : Registration) : List (String × Option Value) :=
  [("id", some (.str r.id)), ("name", some (.str r.name)), ("type", some (.str r.registryType)),
    ("props", some (.str r.props)), ("server_list", some (.ofStrings r.servers)),
    ("namespace_id", some (.str r.namespaceId))]

theorem wired : Wired toJson ofTree? := by
  refine .ofSlots slots (fun _ => rfl) (fun _ => rfl) (by decide : fieldNames.Nodup) ?_ ?_
  · simp [slots, wired_text.whole, wired_texts.whole]
  · intro r t ht
    simp [ofTree?, ht, slots, wired_text.required, wired_text.defaulted, wired_texts.defaulted]

end Registration

namespace Handler

def slots (h : Handler) : List (String × Option Value) :=
  [("id", some (.str h.id)), ("discovery_id", some (.str h.discoveryId)),
    ("listener_node", some (.str h.listenerNode)), ("handler", some (.str h.mapping)),
    ("props", some (.str h.props))]

theorem wired : Wired toJson ofTree? := by
  refine .ofSlots slots (fun _ => rfl) (fun _ => rfl) (by decide : fieldNames.Nodup) ?_ ?_
  · simp [slots, wired_text.whole]
  · intro h t ht
    simp [ofTree?, ht, slots, wired_text.required, wired_text.defaulted]

end Handler

namespace Selector

def slots (s : Selector) : List (String × Option Value) :=
  [("id", some (.str s.id)), ("name", some (.str s.name)), ("plugin_name", some (.str s.pluginName)),
    ("namespace_id", some (.str s.namespaceId))]

theorem wired : Wired toJson ofTree? := by
  refine .ofSlots slots (fun _ => rfl) (fun _ => rfl) (by decide : fieldNames.Nodup) ?_ ?_
  · simp [slots, wired_text.whole]
  · intro s t ht
    simp [ofTree?, ht, slots, wired_text.required, wired_text.defaulted]

end Selector

namespace Instance

def slots (i : Instance) : List (String × Option Value) :=
  [("host", some (.str i.host)), ("port", some (.ofNat i.tcpPort.toNat)),
    ("weight", some (int32Value i.weight)), ("status", some (int32Value i.status))]

theorem wired : Wired toJson ofTree? := by
  refine .ofSlots slots (fun _ => rfl) (fun _ => rfl) (by decide : fieldNames.Nodup) ?_ ?_
  · simp [slots, wired_text.whole, wired_uint16.whole, wired_int32.whole]
  · intro i t ht
    simp [ofTree?, ht, slots, wired_text.required, wired_uint16.required, wired_int32.required]

end Instance

namespace StoredEndpoint

def slots (r : StoredEndpoint) : List (String × Option Value) :=
  [("id", some (.str r.id)), ("discovery_handler_id", some (.str r.owner)),
    ("namespace_id", some (.str r.columns.namespaceId)), ("protocol", some (.str r.columns.protocol)),
    ("url", some (.str r.url)), ("status", some (int32Value r.columns.status)),
    ("weight", some (int32Value r.columns.weight)), ("props", some (.str r.columns.props)),
    ("date_created", some (uint64Value r.created)), ("date_updated", some (uint64Value r.updated))]

theorem wired : Wired toJson ofTree? := by
  refine .ofSlots slots (fun _ => rfl) (fun _ => rfl) (by decide : fieldNames.Nodup) ?_ ?_
  · simp [slots, wired_text.whole, wired_int32.whole, wired_uint64.whole]
  · intro r t ht
    simp [ofTree?, ht, slots, wired_text.required, wired_int32.required, wired_uint64.required]

end StoredEndpoint

namespace Endpoint

def slots (e : Endpoint) : List (String × Option Value) :=
  [("id", e.id.map .str), ("discoveryHandlerId", e.owner.map .str),
    ("namespaceId", e.namespaceId.map .str), ("url", some (.str e.url)),
    ("weight", some (int32Value e.weight)), ("status", some (int32Value e.status)),
    ("protocol", some (.str e.protocol)), ("props", e.props.map .str),
    ("dateCreated", e.created.map uint64Value), ("dateUpdated", e.updated.map uint64Value)]

theorem toJson_eq (e : Endpoint) : e.toJson = .obj (layout e.slots) := by
  simp [toJson, slots, member?_eq, layout]

theorem wired : Wired toJson ofTree? := by
  refine .ofSlots slots toJson_eq (fun _ => rfl) (by decide : fieldNames.Nodup) ?_ ?_
  · simp [slots, wired_text.whole, wired_int32.whole, wired_uint64.whole]
  · intro e t ht
    simp [ofTree?, ht, slots, wired_text.required, wired_text.optional, wired_int32.required,
      wired_uint64.optional]

end Endpoint

namespace RouteRecord

def slots (r : RouteRecord) : List (String × Option Value) :=
  [("pluginName", some (.str r.pluginName)), ("selectorId", some (.str r.selectorId)),
    ("selectorName", some (.str r.selectorName)), ("namespaceId", some (.str r.namespaceId)),
    ("discoveryHandlerId", r.owner.map .str),
    ("upstreamList", r.endpoints.map fun l => .arr (l.map Endpoint.toJson))]

theorem toJson_eq (r : RouteRecord) : r.toJson = .obj (layout r.slots) := by
  simp [toJson, slots, member?_eq, layout]

theorem wired : Wired toJson ofTree? := by
  refine .ofSlots slots toJson_eq (fun _ => rfl) (by decide : fieldNames.Nodup) ?_ ?_
  · simp [slots, wired_text.whole, Endpoint.wired.list.whole]
  · intro r t ht
    simp [ofTree?, ht, slots, wired_text.required, wired_text.optional, Endpoint.wired.list.optional]

end RouteRecord

theorem EventGroup.wired : Wired (fun g : EventGroup => .str g.label) fun t => t.name?.bind ofLabel? where
  whole _ := trivial
  ne_null := nofun
  reads g := by cases g <;> rfl

theorem EventAction.wired : Wired (fun a : EventAction => .str a.label) fun t => t.name?.bind ofLabel? where
  whole _ := trivial
  ne_null := nofun
  reads a := by cases a <;> rfl

namespace ChangeEvent

def slots (e : ChangeEvent) : List (String × Option Value) :=
  [("group", some (.str e.group.label)), ("type", some (.str e.action.label)),
    ("payload", some (.arr (e.payload.map RouteRecord.toJson)))]

theorem wired : Wired toJson ofTree? := by
  refine .ofSlots slots (fun _ => rfl) (fun _ => rfl) (by decide : fieldNames.Nodup) ?_ ?_
  · simp [slots, wired_text.whole, RouteRecord.wired.list.whole]
  · intro e t ht
    simp [ofTree?, ht, slots, EventGroup.wired.required, EventAction.wired.required,
      RouteRecord.wired.list.required]

end ChangeEvent

/-! ### Texts -/

/-- The records that travel as texts. -/
inductive RecordKind
  | changeEvent
  | routeRecord
  | endpoint
  | storedEndpoint
  | registration
  | handler
  | selector
  | liveInstance
  deriving DecidableEq, Repr

namespace RecordKind

abbrev Carrier : RecordKind → Type
  | changeEvent => ChangeEvent
  | routeRecord => RouteRecord
  | endpoint => Endpoint
  | storedEndpoint => StoredEndpoint
  | registration => Registration
  | handler => Handler
  | selector => Selector
  | liveInstance => Instance

def toJson : (k : RecordKind) → k.Carrier → Value
  | changeEvent => ChangeEvent.toJson
  | routeRecord => RouteRecord.toJson
  | endpoint => Endpoint.toJson
  | storedEndpoint => StoredEndpoint.toJson
  | registration => Registration.toJson
  | handler => Handler.toJson
  | selector => Selector.toJson
  | liveInstance => Instance.toJson

def ofTree? : (k : RecordKind) → Tree → Option k.Carrier
  | changeEvent => ChangeEvent.ofTree?
  | routeRecord => RouteRecord.ofTree?
  | endpoint => Endpoint.ofTree?
  | storedEndpoint => StoredEndpoint.ofTree?
  | registration => Registration.ofTree?
  | handler => Handler.ofTree?
  | selector => Selector.ofTree?
  | liveInstance => Instance.ofTree?

/-- The text of a record. -/
def encode (k : RecordKind) (a : k.Carrier) : String := (k.toJson a).print

/-- The record that a text holds; `none` if the text is not accepted. -/
def decode? (k : RecordKind) (s : String) : Option k.Carrier := (Tree.read? s).bind k.ofTree?

/-- The text that an accepted text is written as again. -/
def rewrite? (k : RecordKind) (s : String) : Option String := (k.decode? s).map k.encode

theorem wired (k : RecordKind) : Wired k.toJson k.ofTree? := by
  cases k with
  | changeEvent => exact ChangeEvent.wired
  | routeRecord => exact RouteRecord.wired
  | endpoint => exact Endpoint.wired
  | storedEndpoint => exact StoredEndpoint.wired
  | registration => exact Registration.wired
  | handler => exact Handler.wired
  | selector => exact Selector.wired
  | liveInstance => exact Instance.wired

theorem decode?_encode (k : RecordKind) (a : k.Carrier) : k.decode? (k.encode a) = some a := by
  rw [decode?, encode, Value.read?_tree (k.wired.whole a), Option.bind_some, k.wired.reads a]

/-- **Records travel unharmed.**  The text of a record reads back as the record.  An accepted text need
not be written this way, but the text it is written as again means the same record and stays as it is. -/
theorem records_read_back (k : RecordKind) :
    (∀ a, k.decode? (k.encode a) = some a) ∧
      ∀ s a, k.decode? s = some a →
        ∃ t, k.rewrite? s = some t ∧ k.decode? t = some a ∧ k.rewrite? t = some t := by
  refine ⟨k.decode?_encode, fun s a hs => ⟨k.encode a, ?_, k.decode?_encode a, ?_⟩⟩
  · rw [rewrite?, hs, Option.map_some]
  · rw [rewrite?, k.decode?_encode, Option.map_some]

/-- An event given by position, with an action named as a key, escapes, a key no record knows, and the fields
of its endpoint up to the last one that has to be there. -/
theorem positional_event_reads_back :
    let text := "[\"ROUTE_SELECTOR\", \x7b\"DELETE\":null\x7d, [\x7b\"x\":[1e9],\"selectorName\":\"\\u00e9\\n\"," ++
      "\"pluginName\":\"p\",\"selectorId\":\"s\",\"namespaceId\":\"\",\"discoveryHandlerId\":null," ++
      "\"upstreamList\":[[null,\"h\",null,\"u:1\",-5,7,\"grpc\"]]\x7d]]"
    let event : ChangeEvent := ⟨.routeSelector, .delete, [{
      pluginName := "p"
      selectorId := "s"
      selectorName := "é\n"
      namespaceId := ""
      endpoints := some [{ owner := some "h", url := "u:1", weight := -5, status := 7, protocol := "grpc" }] }]⟩
    changeEvent.decode? text = some event ∧
      ∃ t, changeEvent.rewrite? text = some t ∧ changeEvent.decode? t = some event ∧
        changeEvent.rewrite? t = some t := by
  intro text event
  have hread : changeEvent.decode? text = some event := by decide +kernel
  exact ⟨hread, (records_read_back .changeEvent).2 text event hread⟩

end RecordKind

end RouteSync
