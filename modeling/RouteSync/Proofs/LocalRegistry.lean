import RouteSync.LocalRegistry
import RouteSync.Payload
import RouteSync.Proofs.Json.RoundTrip

/-!
# Instances and their addresses

The address of an instance names its host and its number, so the registry inside the process may look for
either.  Under a key there is at most one instance per address, and this stays so (`Distinct`); what an
operation does to the instances of a key is then said by membership.  The payload that describes an
instance reads back as its address, weight and status (`read_payload`).
-/

namespace RouteSync

/-! ### Addresses -/

/-- Lists with one separator each are equal if the parts before and after it are. -/
theorem eq_of_append_cons {α : Type} {x : α} {a b d e : List α} (hd : x ∉ d) (he : x ∉ e)
    (h : a ++ x :: d = b ++ x :: e) : a = b ∧ d = e := by
  have tail : ∀ {t d e : List α}, x ∉ d → x :: d = t ++ x :: e → t = [] ∧ d = e := by
    intro t d e hd h
    cases t with
    | nil => exact ⟨rfl, (List.cons.inj h).2⟩
    | cons y t =>
      rw [List.cons_append] at h
      have hmem : x ∈ d := by
        rw [(List.cons.inj h).2]
        simp
      exact absurd hmem hd
  rcases List.append_eq_append_iff.mp h with ⟨t, hb, hrest⟩ | ⟨t, ha, hrest⟩
  · obtain ⟨rfl, hde⟩ := tail hd hrest
    exact ⟨by rw [hb, List.append_nil], hde⟩
  · obtain ⟨rfl, hde⟩ := tail he hrest
    exact ⟨by rw [ha, List.append_nil], hde.symm⟩

/-- The address of a host and a number. -/
def addressOf (host : String) (tcpPort : UInt16) : String := host ++ ":" ++ toString tcpPort.toNat

theorem Instance.url_eq (i : Instance) : i.url = addressOf i.host i.tcpPort := rfl

theorem addressOf_inj {host host' : String} {p p' : UInt16} :
    addressOf host p = addressOf host' p' ↔ host = host' ∧ p = p' := by
  refine ⟨fun h => ?_, fun ⟨hh, hp⟩ => by rw [hh, hp]⟩
  have hdigits : ∀ n : Nat, ':' ∉ Nat.toDigits 10 n := by
    intro n hmem
    have hdigit := Json.isDigit_of_mem_toDigits hmem
    exact absurd hdigit (by decide)
  have hchars : ∀ (host : String) (p : UInt16),
      (addressOf host p).toList = host.toList ++ ':' :: Nat.toDigits 10 p.toNat := by
    intro host p
    simp [addressOf]
  have hsplit := congrArg String.toList h
  rw [hchars, hchars] at hsplit
  -- the last colon is the one that ends the host
  obtain ⟨hhost, htcp⟩ := eq_of_append_cons (hdigits _) (hdigits _) hsplit
  have hnat : p.toNat = p'.toNat := by
    rw [← @Nat.ofDigitChars_ten_toDigits p.toNat, htcp, Nat.ofDigitChars_ten_toDigits]
  exact ⟨String.toList_inj.mp hhost, UInt16.toNat_inj.mp hnat⟩

/-- An address is no blank text. -/
theorem isBlank_url (i : Instance) : Text.isBlank i.url = false := by
  have hcolon : ':' ∈ i.url.toList := by
    simp [Instance.url]
  unfold Text.isBlank
  rw [List.all_eq_false]
  exact ⟨':', hcolon, by decide⟩

namespace LocalRegistry

variable {r r' : LocalRegistry} {key host : String} {tcpPort : UInt16} {i j : Instance} {l : List Instance}

/-! ### Instances under a key -/

/-- What addresses tell apart grows at the end by what was not there. -/
theorem map_place {β : Type} [DecidableEq β] {f : Instance → β} (hf : ∀ i j : Instance, i.url = j.url ↔ f i = f j)
    (i : Instance) (l : List Instance) :
    (place i l).map f = if f i ∈ l.map f then l.map f else l.map f ++ [f i] := by
  induction l with
  | nil => simp [place]
  | cons x l ih =>
    by_cases hx : f x = f i
    · simp [place, hf, hx]
    · have hx' : ¬ f i = f x := fun h => hx h.symm
      simp only [place, hf, if_neg hx, List.map_cons, ih, List.mem_cons, hx', false_or]
      split_ifs <;> simp

theorem nodup_place (hl : (l.map Instance.url).Nodup) : ((place i l).map Instance.url).Nodup := by
  rw [map_place fun _ _ => Iff.rfl]
  split_ifs with hmem
  · exact hl
  · rw [List.nodup_append]
    refine ⟨hl, by simp, ?_⟩
    intro a ha b hb
    rw [List.mem_singleton] at hb
    rintro rfl
    exact hmem (hb ▸ ha)

/-- Placing an instance leaves it in the place of what had its address. -/
theorem mem_place (hl : (l.map Instance.url).Nodup) : j ∈ place i l ↔ j = i ∨ j ∈ l ∧ j.url ≠ i.url := by
  induction l with
  | nil => simp [place]
  | cons x l ih =>
    rw [List.map_cons, List.nodup_cons] at hl
    have hrest : ∀ {y}, y ∈ l → y.url ≠ x.url := fun hy he => hl.1 (List.mem_map.mpr ⟨_, hy, he⟩)
    by_cases hx : x.url = i.url
    · rw [place, if_pos hx, List.mem_cons, List.mem_cons]
      constructor
      · rintro (rfl | hj)
        · exact .inl rfl
        · exact .inr ⟨.inr hj, hx ▸ hrest hj⟩
      · rintro (rfl | ⟨rfl | hj, hne⟩)
        · exact .inl rfl
        · exact absurd hx hne
        · exact .inr hj
    · rw [place, if_neg hx, List.mem_cons, List.mem_cons, ih hl.2]
      constructor
      · rintro (rfl | rfl | ⟨hj, hne⟩)
        · exact .inr ⟨.inl rfl, hx⟩
        · exact .inl rfl
        · exact .inr ⟨.inr hj, hne⟩
      · rintro (rfl | ⟨rfl | hj, hne⟩)
        · exact .inr (.inl rfl)
        · exact .inl rfl
        · exact .inr (.inr ⟨hj, hne⟩)

/-- Whether an instance has this host and number. -/
def isAt (host : String) (tcpPort : UInt16) (i : Instance) : Bool := i.host == host && i.tcpPort == tcpPort

theorem isAt_iff : isAt host tcpPort i = true ↔ i.url = addressOf host tcpPort := by
  rw [Instance.url_eq, addressOf_inj]
  simp [isAt]

/-- Taking off the first instance of an address takes off all there are. -/
theorem mem_eraseP (hl : (l.map Instance.url).Nodup) :
    j ∈ l.eraseP (isAt host tcpPort) ↔ j ∈ l ∧ j.url ≠ addressOf host tcpPort := by
  induction l with
  | nil => simp
  | cons x l ih =>
    rw [List.map_cons, List.nodup_cons] at hl
    by_cases hx : isAt host tcpPort x = true
    · have hurl := isAt_iff.mp hx
      have hrest : ∀ {y}, y ∈ l → y.url ≠ addressOf host tcpPort :=
        fun hy he => hl.1 (List.mem_map.mpr ⟨_, hy, he.trans hurl.symm⟩)
      rw [List.eraseP_cons_of_pos hx, List.mem_cons]
      constructor
      · exact fun hj => ⟨.inr hj, hrest hj⟩
      · rintro ⟨rfl | hj, hne⟩
        · exact absurd hurl hne
        · exact hj
    · rw [List.eraseP_cons_of_neg hx, List.mem_cons, List.mem_cons, ih hl.2]
      have hurl : x.url ≠ addressOf host tcpPort := fun h => hx (isAt_iff.mpr h)
      constructor
      · rintro (rfl | ⟨hj, hne⟩)
        · exact ⟨.inl rfl, hurl⟩
        · exact ⟨.inr hj, hne⟩
      · rintro ⟨rfl | hj, hne⟩
        · exact .inl rfl
        · exact .inr ⟨hj, hne⟩

/-! ### The registry -/

/-- Under every key there is at most one instance per address. -/
def Distinct (r : LocalRegistry) : Prop := ∀ key, ((r.instancesAt key).map Instance.url).Nodup

theorem instancesAt_insert {t : Table String (List Instance)} {l : List Instance} (k : String) :
    ({ r with instances := t.insert key l } : LocalRegistry).instancesAt k =
      if key = k then l else ({ r with instances := t } : LocalRegistry).instancesAt k := by
  unfold instancesAt
  rw [Table.get?_insert]
  split_ifs <;> rfl

theorem instancesAt_register (r : LocalRegistry) (key : String) (i : Instance) (k : String) :
    (r.register key i).1.instancesAt k =
      if key = k then place i (r.instancesAt key) else r.instancesAt k :=
  instancesAt_insert k

/-- What is taken off was there at its address. -/
theorem deregister_eq_some (hd : r.deregister key host tcpPort = some (i, r')) :
    i ∈ r.instancesAt key ∧ i.url = addressOf host tcpPort ∧
      ∀ k, r'.instancesAt k =
        if key = k then (r.instancesAt key).eraseP (isAt host tcpPort) else r.instancesAt k := by
  obtain ⟨x, hfind, hx⟩ := Option.map_eq_some_iff.mp hd
  obtain ⟨rfl, rfl⟩ := Prod.mk.inj hx
  exact ⟨List.mem_of_find?_eq_some hfind, isAt_iff.mp (List.find?_some hfind), fun k => instancesAt_insert k⟩

theorem deregister_eq_none (hd : r.deregister key host tcpPort = none) :
    ∀ j ∈ r.instancesAt key, j.url ≠ addressOf host tcpPort := by
  intro j hj hurl
  have hnone := List.find?_eq_none.mp (Option.map_eq_none_iff.mp hd) j hj
  exact hnone (isAt_iff.mpr hurl)

theorem Distinct.register (hr : r.Distinct) (key : String) (i : Instance) : (r.register key i).1.Distinct := by
  intro k
  rw [instancesAt_register]
  split_ifs with hk
  · exact nodup_place (hr key)
  · exact hr k

theorem Distinct.deregister (hr : r.Distinct) (hd : r.deregister key host tcpPort = some (i, r')) :
    r'.Distinct := by
  obtain ⟨-, -, hinstances⟩ := deregister_eq_some hd
  intro k
  rw [hinstances]
  split_ifs with hk
  · exact (hr key).sublist (List.eraseP_sublist.map Instance.url)
  · exact hr k

/-! ### Payloads -/

/-- An instance as its payload describes it. -/
def described (i : Instance) : Endpoint := { Payload.start with
  url := i.url
  weight := i.weight
  status := i.status }

open RouteSync.Json in
theorem read?_payload (i : Instance) : Value.read? (payload i) = some (.obj
    [("status", .ofInt i.status.toInt), ("url", .str i.url), ("weight", .ofInt i.weight.toInt)]) := by
  refine Value.read?_print ?_
  have hwhole : ∀ n : Int32, (Number.int n.toInt).Whole := by
    intro n
    have hlow := Int32.le_toInt n
    have hhigh := Int32.toInt_lt n
    simp only [Number.Whole, Text.minInt64, Text.maxUInt64]
    omega
  have hkeys : ["status", "url", "weight"].Pairwise (· < ·) := by decide
  exact ⟨hkeys, hwhole _, trivial, hwhole _, trivial⟩

theorem int32?_ofInt (n : Int32) : Payload.int32? (.ofInt n.toInt) = some n := by
  have hlow := Int32.le_toInt n
  have hhigh := Int32.toInt_lt n
  have hint : (Json.Number.int n.toInt).int64? = some n.toInt := by
    rw [Json.Number.int64?, if_pos]
    simp only [Text.maxInt64]
    omega
  show ((Json.Number.int n.toInt).int64?).bind _ = _
  rw [hint, Option.bind_some, if_pos ⟨by omega, by omega⟩, Int32.ofInt_toInt]

/-- **The payload of an instance** reads as the instance. -/
theorem read_payload (i : Instance) : Payload.read .plain (payload i) = .ok [described i] := by
  have hblank : Text.isBlank (payload i) = false := by
    rw [payload, Json.Value.print, Text.isBlank, String.toList_ofList]
    rfl
  have hstatus : Payload.int32 .status (.ofInt i.status.toInt) = .ok i.status := by
    rw [Payload.int32, int32?_ofInt]
  have hweight : Payload.int32 .weight (.ofInt i.weight.toInt) = .ok i.weight := by
    rw [Payload.int32, int32?_ofInt]
  have hobject : Payload.ofObject .plain
      [("status", .ofInt i.status.toInt), ("url", .str i.url), ("weight", .ofInt i.weight.toInt)] =
        .ok (described i) := by
    have hfields : Mapping.plain.field? "status" = some .status ∧ Mapping.plain.field? "url" = some .url ∧
        Mapping.plain.field? "weight" = some .weight := by decide
    unfold Payload.ofObject
    simp only [List.foldlM_cons, List.foldlM_nil, Payload.addMember, hfields, Payload.setField, hstatus, hweight]
    show (if Text.isBlank i.url then _ else _) = _
    rw [isBlank_url]
    rfl
  unfold Payload.read
  rw [hblank, read?_payload]
  show (Payload.ofObject .plain _).map ([·]) = _
  rw [hobject]
  rfl

end LocalRegistry

/-- A blank mapping gives no key a new meaning. -/
theorem Mapping.read_of_isBlank {raw : String} (hb : Text.isBlank raw = true) : Mapping.read raw = .ok .plain := by
  unfold Mapping.read FlatObject.read
  rw [if_pos hb]
  rfl

end RouteSync
