import RouteSync.Proofs.Json.Grammar

/-!
# Texts that are documents

A text is read exactly if it is written by the rules, and as what it was written from (`Tree.read?_eq_some_iff`).
That all that is read is written follows the steps of the reader; that all that is written is read follows the
tree, for any rest that may come behind a value.  The reader is given two steps for every character, one for a
value and one for the item or member it stands in, and it never needs more.

Beyond the rules there are three limits: numbers are finite, texts are made of whole characters, and arrays and
objects nest only so deep.  A text within them has a value, and no other text has one (`Value.read?_eq_some_iff`).
-/

namespace RouteSync.Json

open RouteSync.Text RouteSync.Json.Tree

variable {s w r g : List Char} {k : Option String} {t : Tree} {ts : List Tree} {ms : List (Option String × Tree)}
  {fuel : Nat} {P : List Char → Prop}

/-! ### All that is read is written -/

/-- What is read after a gap, with the gap and the one behind it. -/
theorem exists_padded (hs : skip s = w ++ r) (h : P w) : ∃ p, Padded P p ∧ s = p ++ skip r := by
  obtain ⟨g, hg, hsg⟩ := exists_gap s
  obtain ⟨g', hg', hrg⟩ := exists_gap r
  refine ⟨_, .mk hg h hg', ?_⟩
  rw [List.append_assoc, List.append_assoc, ← hrg, ← hs, ← hsg]

theorem Padded.gap (h : Padded P w) (hg : Gap g) : Padded P (g ++ w) := by
  cases h with
  | @mk g₁ v g₂ hg₁ h hg₂ =>
    rw [← List.append_assoc]
    exact .mk (fun c hc => (List.mem_append.mp hc).elim (hg c) (hg₁ c)) h hg₂

theorem itemsWritten_cons (hts : ts ≠ []) (ht : Padded t.Written w) (h : ItemsWritten ts r) :
    ItemsWritten (t :: ts) (w ++ ',' :: r) := by
  cases ts with
  | nil => exact absurd rfl hts
  | cons u us => exact ⟨w, r, ht, h, rfl⟩

theorem membersWritten_cons {v : List Char} (hms : ms ≠ []) (hk : Padded (TextWritten k) v)
    (ht : Padded t.Written w) (h : MembersWritten ms r) :
    MembersWritten ((k, t) :: ms) (v ++ ':' :: (w ++ ',' :: r)) := by
  cases ms with
  | nil => exact absurd rfl hms
  | cons m ms => exact ⟨v, w, r, hk, ht, h, rfl⟩

theorem ItemsWritten.gap (h : ItemsWritten ts w) (hg : Gap g) : ItemsWritten ts (g ++ w) := by
  match ts, h with
  | [], h => exact fun c hc => (List.mem_append.mp hc).elim (hg c) (h c)
  | [t], h => exact Padded.gap h hg
  | t :: u :: us, ⟨v, r, ht, h, hw⟩ =>
    refine ⟨g ++ v, r, ht.gap hg, h, ?_⟩
    rw [hw, List.append_assoc]

theorem MembersWritten.gap (h : MembersWritten ms w) (hg : Gap g) : MembersWritten ms (g ++ w) := by
  match ms, h with
  | [], h => exact fun c hc => (List.mem_append.mp hc).elim (hg c) (h c)
  | [(k, t)], ⟨v, r, hk, ht, hw⟩ =>
    refine ⟨g ++ v, r, hk.gap hg, ht, ?_⟩
    rw [hw, List.append_assoc]
  | (k, t) :: m :: ms, ⟨v, r, z, hk, ht, h, hw⟩ =>
    refine ⟨g ++ v, r, z, hk.gap hg, ht, h, ?_⟩
    rw [hw, List.append_assoc]

mutual

/-- **What the reader takes** is written by the rules, and the rest is left as it is. -/
theorem exists_of_readValue : ∀ {fuel : Nat} {s r : List Char} {t : Tree}, readValue fuel s = some (t, r) →
    ∃ w, t.Written w ∧ s = w ++ r
  | 0, _, _, _, h => by cases h
  | fuel + 1, s, r, t, h => by
    unfold readValue at h
    split at h
    · cases h
      exact ⟨_, rfl, rfl⟩
    · cases h
      exact ⟨_, rfl, rfl⟩
    · cases h
      exact ⟨_, rfl, rfl⟩
    · obtain ⟨⟨k, r⟩, hread, h⟩ := Option.map_eq_some_iff.mp h
      cases h
      obtain ⟨w, hw, rfl⟩ := exists_of_readText hread
      exact ⟨_, hw, rfl⟩
    · rename_i r'
      obtain ⟨g, hg, hr'⟩ := exists_gap r'
      split at h
      · rename_i hskip
        cases h
        rw [hskip] at hr'
        exact ⟨'[' :: (g ++ [']']), ⟨g, hg, rfl⟩, by simp [hr']⟩
      · obtain ⟨⟨l, r⟩, hread, h⟩ := Option.map_eq_some_iff.mp h
        cases h
        obtain ⟨w, -, hw, hskip⟩ := exists_of_readItems hread
        rw [hskip] at hr'
        exact ⟨'[' :: (g ++ w ++ [']']), ⟨_, hw.gap hg, rfl⟩, by simp [hr']⟩
    · rename_i r'
      obtain ⟨g, hg, hr'⟩ := exists_gap r'
      split at h
      · rename_i hskip
        cases h
        rw [hskip] at hr'
        exact ⟨'\x7b' :: (g ++ ['\x7d']), ⟨g, hg, rfl⟩, by simp [hr']⟩
      · obtain ⟨⟨l, r⟩, hread, h⟩ := Option.map_eq_some_iff.mp h
        cases h
        obtain ⟨w, -, hw, hskip⟩ := exists_of_readMembers hread
        rw [hskip] at hr'
        exact ⟨'\x7b' :: (g ++ w ++ ['\x7d']), ⟨_, hw.gap hg, rfl⟩, by simp [hr']⟩
    · obtain ⟨⟨n, r⟩, hread, h⟩ := Option.map_eq_some_iff.mp h
      cases h
      exact exists_of_readNumeral hread

theorem exists_of_readItems : ∀ {fuel : Nat} {s r : List Char} {ts : List Tree},
    readItems fuel s = some (ts, r) → ∃ w, ts ≠ [] ∧ ItemsWritten ts w ∧ s = w ++ ']' :: r
  | 0, _, _, _, h => by cases h
  | fuel + 1, s, r, ts, h => by
    obtain ⟨⟨t, s₁⟩, hvalue, hnext⟩ := Option.bind_eq_some_iff.mp h
    obtain ⟨w, hw, hs⟩ := exists_of_readValue hvalue
    obtain ⟨p, hp, hs⟩ := exists_padded hs hw
    dsimp only at hnext
    split at hnext
    · rename_i s₂ hcomma
      obtain ⟨⟨ts, r⟩, hitems, hnext⟩ := Option.bind_eq_some_iff.mp hnext
      cases hnext
      obtain ⟨w, hts, hw, rfl⟩ := exists_of_readItems hitems
      exact ⟨p ++ ',' :: w, nofun, itemsWritten_cons hts hp hw, by simp [hs, hcomma]⟩
    · rename_i s₂ hbracket
      cases hnext
      exact ⟨p, nofun, hp, by rw [hs, hbracket]⟩
    · cases hnext

theorem exists_of_readMembers : ∀ {fuel : Nat} {s r : List Char} {ms : List (Option String × Tree)},
    readMembers fuel s = some (ms, r) → ∃ w, ms ≠ [] ∧ MembersWritten ms w ∧ s = w ++ '\x7d' :: r
  | 0, _, _, _, h => by cases h
  | fuel + 1, s, r, ms, h => by
    unfold readMembers at h
    split at h
    · rename_i s₁ hquote
      obtain ⟨⟨k, s₂⟩, hkey, hnext⟩ := Option.bind_eq_some_iff.mp h
      obtain ⟨v, hv, hs₁⟩ := exists_of_readText hkey
      rw [hs₁] at hquote
      obtain ⟨q, hq, hs⟩ := exists_padded hquote hv
      dsimp only at hnext
      split at hnext
      · rename_i s₃ hcolon
        obtain ⟨⟨t, s₄⟩, hvalue, hnext⟩ := Option.bind_eq_some_iff.mp hnext
        obtain ⟨w, hw, hs₃⟩ := exists_of_readValue hvalue
        obtain ⟨p, hp, hs₃⟩ := exists_padded hs₃ hw
        dsimp only at hnext
        split at hnext
        · rename_i s₅ hcomma
          obtain ⟨⟨ms, r⟩, hmembers, hnext⟩ := Option.bind_eq_some_iff.mp hnext
          cases hnext
          obtain ⟨w, hms, hw, rfl⟩ := exists_of_readMembers hmembers
          exact ⟨_, nofun, membersWritten_cons hms hq hp hw, by simp [hs, hcolon, hs₃, hcomma]⟩
        · rename_i s₅ hbrace
          cases hnext
          exact ⟨q ++ ':' :: p, nofun, ⟨q, p, hq, hp, rfl⟩, by simp [hs, hcolon, hs₃, hbrace]⟩
        · cases hnext
      · cases hnext
    · cases h

end

/-! ### All that is written is read -/

theorem readValue_number (h : Begins opensNumber s) :
    readValue (fuel + 1) s = (readNumeral s).map fun p => (.number p.1, p.2) := by
  unfold readValue
  split
  case h_7 => rfl
  all_goals exact absurd rfl (h.ne_cons (by decide) _)

/-- Items and members are read from their first character on. -/
theorem readItems_skip (fuel : Nat) (s : List Char) : readItems fuel (skip s) = readItems fuel s := by
  cases fuel with
  | zero => rfl
  | succ fuel => rw [readItems, readItems, skip_skip]

theorem readMembers_skip (fuel : Nat) (s : List Char) : readMembers fuel (skip s) = readMembers fuel s := by
  cases fuel with
  | zero => rfl
  | succ fuel => rw [readMembers, readMembers, skip_skip]

theorem readValue_array (h : Begins opensValue (skip s)) :
    readValue (fuel + 1) ('[' :: s) = (readItems fuel s).map fun p => (.array p.1, p.2) := by
  rw [readValue, ← readItems_skip]
  split
  · rename_i hs
    exact absurd hs (h.ne_cons (by decide) _)
  · rfl

theorem readValue_object (h : Begins opensValue (skip s)) :
    readValue (fuel + 1) ('\x7b' :: s) = (readMembers fuel s).map fun p => (.object p.1, p.2) := by
  rw [readValue, ← readMembers_skip]
  split
  · rename_i hs
    exact absurd hs (h.ne_cons (by decide) _)
  · rfl

theorem TextWritten.begins (h : TextWritten k w) : Begins opensValue w := by
  cases h
  exact ⟨_, _, rfl, rfl⟩

/-- What is left of a part of a document and what follows it, once the gap before it is skipped. -/
theorem Padded.exists_skip (h : Padded P w) (hP : ∀ v, P v → Begins opensValue v) (r : List Char) :
    ∃ v g, P v ∧ v.length ≤ w.length ∧ Gap g ∧ skip (w ++ r) = v ++ (g ++ r) := by
  cases h with
  | @mk g v g' hg h hg' =>
    refine ⟨v, g', h, by simp; omega, hg', ?_⟩
    rw [List.append_assoc, hg.skip_append, List.append_assoc, skip_of_begins ((hP v h).append _)]

theorem Padded.begins (h : Padded P w) (hP : ∀ v, P v → Begins opensValue v) (r : List Char) :
    Begins opensValue (skip (w ++ r)) := by
  obtain ⟨v, g, hv, -, -, hskip⟩ := h.exists_skip hP r
  rw [hskip]
  exact (hP v hv).append _

theorem readText_padded (h : Padded (TextWritten k) w) (r : List Char) :
    ∃ v r', skip (w ++ r) = '"' :: v ∧ readText v = some (k, r') ∧ skip r' = skip r := by
  obtain ⟨v, g, hv, -, hg, hskip⟩ := h.exists_skip (fun _ => TextWritten.begins) r
  cases hv with
  | quoted hps =>
    rw [List.cons_append] at hskip
    exact ⟨_, g ++ r, hskip, readText_append (.quoted hps) (g ++ r), hg.skip_append r⟩

theorem readValue_padded
    (hread : ∀ {v r}, t.Written v → 2 * v.length ≤ fuel → Ends r → readValue fuel (v ++ r) = some (t, r))
    (h : Padded t.Written w) (hf : 2 * w.length ≤ fuel) (hr : Ends r) :
    ∃ r', readValue fuel (skip (w ++ r)) = some (t, r') ∧ skip r' = skip r := by
  obtain ⟨v, g, hv, hlen, hg, hskip⟩ := h.exists_skip (fun _ => Tree.Written.begins) r
  exact ⟨g ++ r, by rw [hskip, hread hv (by omega) (hg.ends hr)], hg.skip_append r⟩

theorem ItemsWritten.begins (h : ItemsWritten (t :: ts) w) (r : List Char) : Begins opensValue (skip (w ++ r)) := by
  match ts, h with
  | [], h => exact Padded.begins h (fun _ => Tree.Written.begins) r
  | u :: us, ⟨v, z, hv, _, hw⟩ =>
    rw [hw, List.append_assoc]
    exact hv.begins (fun _ => Tree.Written.begins) _

theorem MembersWritten.begins {m : Option String × Tree} (h : MembersWritten (m :: ms) w) (r : List Char) :
    Begins opensValue (skip (w ++ r)) := by
  match ms, h with
  | [], ⟨v, z, hv, _, hw⟩ =>
    rw [hw, List.append_assoc]
    exact hv.begins (fun _ => TextWritten.begins) _
  | u :: us, ⟨v, z, y, hv, _, _, hw⟩ =>
    rw [hw, List.append_assoc]
    exact hv.begins (fun _ => TextWritten.begins) _

theorem readItems_of_value (h : readValue fuel (skip s) = some (t, r)) :
    readItems (fuel + 1) s = match skip r with
      | ',' :: r => (readItems fuel r).bind fun p => some (t :: p.1, p.2)
      | ']' :: r => some ([t], r)
      | _ => none := by
  rw [readItems, h]
  rfl

theorem readMembers_of_value {u v : List Char} (hkey : skip s = '"' :: v) (htext : readText v = some (k, u))
    (hcolon : skip u = ':' :: w) (h : readValue fuel (skip w) = some (t, r)) :
    readMembers (fuel + 1) s = match skip r with
      | ',' :: r => (readMembers fuel r).bind fun p => some ((k, t) :: p.1, p.2)
      | '\x7d' :: r => some ([(k, t)], r)
      | _ => none := by
  rw [readMembers, hkey]
  show (readText v).bind _ = _
  rw [htext, Option.bind_some]
  dsimp only
  rw [hcolon]
  show (readValue fuel (skip w)).bind _ = _
  rw [h]
  rfl

mutual

/-- **What is written by the rules** is read, whatever comes behind it that may follow a value. -/
theorem readValue_append : ∀ (t : Tree) {w r : List Char} {fuel : Nat}, t.Written w → 2 * w.length ≤ fuel →
    Ends r → readValue fuel (w ++ r) = some (t, r)
  | t, w, r, 0, h, hf, _ => by
    obtain ⟨c, v, rfl, -⟩ := Tree.Written.begins h
    simp at hf
  | .null, _, _, fuel + 1, h, _, _ => by
    subst h
    rfl
  | .bool true, _, _, fuel + 1, h, _, _ => by
    subst h
    rfl
  | .bool false, _, _, fuel + 1, h, _, _ => by
    subst h
    rfl
  | .number n, w, r, fuel + 1, h, _, hr => by
    rw [readValue_number ((Numeral.Written.begins h).append r), readNumeral_append h hr]
    rfl
  | .text k, w, r, fuel + 1, h, _, _ => by
    obtain ⟨v, rfl⟩ : ∃ v, w = '"' :: v := by
      cases h
      exact ⟨_, rfl⟩
    show (readText (v ++ r)).map _ = _
    rw [readText_append h]
    rfl
  | .array [], w, r, fuel + 1, h, _, _ => by
    obtain ⟨g, hg, rfl⟩ := h
    have hskip : skip (g ++ ']' :: r) = ']' :: r := hg.skip_append _
    rw [List.cons_append, List.append_assoc, List.singleton_append, readValue, hskip]
    rfl
  | .array (t :: ts), w, r, fuel + 1, h, hf, _ => by
    obtain ⟨v, hv, rfl⟩ := h
    rw [List.cons_append, List.append_assoc, List.singleton_append, readValue_array (hv.begins _),
      readItems_append t ts hv (by simp at hf; omega)]
    rfl
  | .object [], w, r, fuel + 1, h, _, _ => by
    obtain ⟨g, hg, rfl⟩ := h
    have hskip : skip (g ++ '\x7d' :: r) = '\x7d' :: r := hg.skip_append _
    rw [List.cons_append, List.append_assoc, List.singleton_append, readValue, hskip]
    rfl
  | .object ((k, t) :: ms), w, r, fuel + 1, h, hf, _ => by
    obtain ⟨v, hv, rfl⟩ := h
    rw [List.cons_append, List.append_assoc, List.singleton_append, readValue_object (hv.begins _),
      readMembers_append k t ms hv (by simp at hf; omega)]
    rfl

theorem readItems_append : ∀ (t : Tree) (ts : List Tree) {w r : List Char} {fuel : Nat},
    ItemsWritten (t :: ts) w → 2 * w.length + 1 ≤ fuel → readItems fuel (w ++ ']' :: r) = some (t :: ts, r)
  | _, _, _, _, 0, _, hf => by omega
  | t, [], w, r, fuel + 1, h, hf => by
    have hvalue : 2 * w.length ≤ fuel := by omega
    obtain ⟨r', hread, hskip⟩ := readValue_padded (readValue_append t) h hvalue (.bracket r)
    rw [readItems_of_value hread, hskip]
    rfl
  | t, u :: us, w, r, fuel + 1, h, hf => by
    obtain ⟨v, z, hv, hz, rfl⟩ := h
    have hlen : (v ++ ',' :: z).length = v.length + z.length + 1 := by
      simp
      omega
    have hvalue : 2 * v.length ≤ fuel := by omega
    have hitems : 2 * z.length + 1 ≤ fuel := by omega
    obtain ⟨r', hread, hskip⟩ := readValue_padded (readValue_append t) hv hvalue (.comma (z ++ ']' :: r))
    have hrest := readItems_append u us (r := r) hz hitems
    rw [List.append_assoc, List.cons_append, readItems_of_value hread, hskip]
    show (readItems fuel (z ++ ']' :: r)).bind _ = _
    rw [hrest]
    rfl

theorem readMembers_append : ∀ (k : Option String) (t : Tree) (ms : List (Option String × Tree))
    {w r : List Char} {fuel : Nat}, MembersWritten ((k, t) :: ms) w → 2 * w.length + 1 ≤ fuel →
      readMembers fuel (w ++ '\x7d' :: r) = some ((k, t) :: ms, r)
  | _, _, _, _, _, 0, _, hf => by omega
  | k, t, [], w, r, fuel + 1, h, hf => by
    obtain ⟨q, v, hq, hv, rfl⟩ := h
    have hlen : (q ++ ':' :: v).length = q.length + v.length + 1 := by
      simp
      omega
    have hvalue : 2 * v.length ≤ fuel := by omega
    obtain ⟨r', hread, hskip⟩ := readValue_padded (readValue_append t) hv hvalue (.brace r)
    obtain ⟨u, r'', hquote, htext, hcolon⟩ := readText_padded hq (':' :: (v ++ '\x7d' :: r))
    rw [List.append_assoc, List.cons_append, readMembers_of_value hquote htext hcolon hread, hskip]
    rfl
  | k, t, m :: ms, w, r, fuel + 1, h, hf => by
    obtain ⟨q, v, z, hq, hv, hz, rfl⟩ := h
    have hlen : (q ++ ':' :: (v ++ ',' :: z)).length = q.length + v.length + z.length + 2 := by
      simp
      omega
    have hvalue : 2 * v.length ≤ fuel := by omega
    have hmembers : 2 * z.length + 1 ≤ fuel := by omega
    obtain ⟨r', hread, hskip⟩ := readValue_padded (readValue_append t) hv hvalue (.comma (z ++ '\x7d' :: r))
    obtain ⟨u, r'', hquote, htext, hcolon⟩ := readText_padded hq (':' :: (v ++ ',' :: (z ++ '\x7d' :: r)))
    have hrest := readMembers_append m.1 m.2 ms (r := r) hz hmembers
    rw [List.append_assoc, List.cons_append, List.append_assoc, List.cons_append,
      readMembers_of_value hquote htext hcolon hread, hskip]
    show (readMembers fuel (z ++ '\x7d' :: r)).bind _ = _
    rw [hrest]
    rfl

end

/-! ### Whole texts -/

/-- **A text is read** exactly if it is written by the rules, with white space around it. -/
theorem Tree.read?_eq_some_iff {s : String} : read? s = some t ↔ Padded t.Written s.toList := by
  constructor
  · intro h
    obtain ⟨⟨u, r⟩, hread, hend⟩ := Option.bind_eq_some_iff.mp h
    obtain ⟨w, hw, hskip⟩ := exists_of_readValue hread
    obtain ⟨p, hp, hs⟩ := exists_padded hskip hw
    dsimp only at hend
    split_ifs at hend with hr
    cases hend
    rw [hs, hr, List.append_nil]
    exact hp
  · intro h
    obtain ⟨r, hread, hr⟩ := readValue_padded (readValue_append t) h (Nat.le_add_right _ 2) .nil
    rw [List.append_nil] at hread
    rw [read?, readChars?, hread]
    exact if_pos hr

/-! ### Documents with a meaning -/

namespace Tree

mutual

/-- Every number of a document is one, and every text and key joins. -/
def Meaningful : Tree → Prop
  | .null => True
  | .bool _ => True
  | .number n => ∃ x, n.value? = some x
  | .text s => ∃ x, s = some x
  | .array l => MeaningfulItems l
  | .object l => MeaningfulMembers l

def MeaningfulItems : List Tree → Prop
  | [] => True
  | t :: ts => t.Meaningful ∧ MeaningfulItems ts

def MeaningfulMembers : List (Option String × Tree) → Prop
  | [] => True
  | (k, t) :: ms => (∃ x, k = some x) ∧ t.Meaningful ∧ MeaningfulMembers ms

end

mutual

/-- How deep arrays and objects nest. -/
def height : Tree → Nat
  | .null => 0
  | .bool _ => 0
  | .number _ => 0
  | .text _ => 0
  | .array l => itemsHeight l + 1
  | .object l => membersHeight l + 1

def itemsHeight : List Tree → Nat
  | [] => 0
  | t :: ts => max t.height (itemsHeight ts)

def membersHeight : List (Option String × Tree) → Nat
  | [] => 0
  | (_, t) :: ms => max t.height (membersHeight ms)

end

end Tree

namespace Value

mutual

theorem exists_ofTreeAt_iff : ∀ {depth : Nat} (t : Tree),
    (∃ v, ofTreeAt depth t = some v) ↔ t.Meaningful ∧ t.height ≤ depth
  | _, .null => by simp [ofTreeAt, Tree.Meaningful, Tree.height]
  | _, .bool _ => by simp [ofTreeAt, Tree.Meaningful, Tree.height]
  | _, .number n => by simp [ofTreeAt, Tree.Meaningful, Tree.height]
  | _, .text s => by simp [ofTreeAt, Tree.Meaningful, Tree.height]
  | 0, .array l => by simp [ofTreeAt, Tree.height]
  | 0, .object l => by simp [ofTreeAt, Tree.height]
  | depth + 1, .array l => by
    have hitems : (∃ vs, ofItems depth l = some vs) ↔ _ := exists_ofItems_iff l
    simpa [ofTreeAt, Tree.Meaningful, Tree.height] using hitems
  | depth + 1, .object l => by
    have hmembers : (∃ vs, ofPairs depth l = some vs) ↔ _ := exists_ofPairs_iff l
    simpa [ofTreeAt, Tree.Meaningful, Tree.height] using hmembers

theorem exists_ofItems_iff : ∀ {depth : Nat} (ts : List Tree),
    (∃ vs, ofItems depth ts = some vs) ↔ MeaningfulItems ts ∧ itemsHeight ts ≤ depth
  | _, [] => by simp [ofItems, MeaningfulItems, itemsHeight]
  | depth, t :: ts => by
    have hcons : (∃ vs, ofItems depth (t :: ts) = some vs) ↔
        (∃ v, ofTreeAt depth t = some v) ∧ ∃ vs, ofItems depth ts = some vs := by
      rw [ofItems]
      cases ofTreeAt depth t <;> cases ofItems depth ts <;> simp
    rw [hcons, exists_ofTreeAt_iff t, exists_ofItems_iff ts, MeaningfulItems, itemsHeight, Nat.max_le]
    exact and_and_and_comm

theorem exists_ofPairs_iff : ∀ {depth : Nat} (ms : List (Option String × Tree)),
    (∃ vs, ofPairs depth ms = some vs) ↔ MeaningfulMembers ms ∧ membersHeight ms ≤ depth
  | _, [] => by simp [ofPairs, MeaningfulMembers, membersHeight]
  | depth, (k, t) :: ms => by
    have hcons : (∃ vs, ofPairs depth ((k, t) :: ms) = some vs) ↔
        (∃ x, k = some x) ∧ (∃ v, ofTreeAt depth t = some v) ∧ ∃ vs, ofPairs depth ms = some vs := by
      rw [ofPairs]
      cases k <;> cases ofTreeAt depth t <;> cases ofPairs depth ms <;> simp
    rw [hcons, exists_ofTreeAt_iff t, exists_ofPairs_iff ms, MeaningfulMembers, membersHeight, Nat.max_le,
      and_and_and_comm]
    simp only [and_assoc]

end

mutual

/-- The bound on the nesting decides whether a tree has a meaning, and not which one. -/
theorem ofTreeAt_mono : ∀ {depth depth' : Nat} (t : Tree) {v : Value}, depth ≤ depth' →
    ofTreeAt depth t = some v → ofTreeAt depth' t = some v
  | _, _, .null, _, _, h => h
  | _, _, .bool _, _, _, h => h
  | _, _, .number _, _, _, h => h
  | _, _, .text _, _, _, h => h
  | 0, _, .array _, _, _, h => nomatch h
  | 0, _, .object _, _, _, h => nomatch h
  | depth + 1, depth' + 1, .array ts, v, hle, h => by
    obtain ⟨vs, hvs, rfl⟩ := Option.map_eq_some_iff.mp h
    exact Option.map_eq_some_iff.mpr ⟨vs, ofItems_mono ts (Nat.le_of_succ_le_succ hle) hvs, rfl⟩
  | depth + 1, depth' + 1, .object ms, v, hle, h => by
    obtain ⟨vs, hvs, rfl⟩ := Option.map_eq_some_iff.mp h
    exact Option.map_eq_some_iff.mpr ⟨vs, ofPairs_mono ms (Nat.le_of_succ_le_succ hle) hvs, rfl⟩

theorem ofItems_mono : ∀ {depth depth' : Nat} (ts : List Tree) {vs : List Value}, depth ≤ depth' →
    ofItems depth ts = some vs → ofItems depth' ts = some vs
  | _, _, [], _, _, h => h
  | _, _, t :: ts, _, hle, h => by
    obtain ⟨v, hv, h⟩ := Option.bind_eq_some_iff.mp h
    obtain ⟨vs, hvs, h⟩ := Option.bind_eq_some_iff.mp h
    cases h
    rw [ofItems, ofTreeAt_mono t hle hv, ofItems_mono ts hle hvs]
    rfl

theorem ofPairs_mono : ∀ {depth depth' : Nat} (ms : List (Option String × Tree)) {vs : List (String × Value)},
    depth ≤ depth' → ofPairs depth ms = some vs → ofPairs depth' ms = some vs
  | _, _, [], _, _, h => h
  | _, _, (k, t) :: ms, _, hle, h => by
    obtain ⟨x, rfl, h⟩ := Option.bind_eq_some_iff.mp h
    obtain ⟨v, hv, h⟩ := Option.bind_eq_some_iff.mp h
    obtain ⟨vs, hvs, h⟩ := Option.bind_eq_some_iff.mp h
    cases h
    rw [ofPairs, ofTreeAt_mono t hle hv, ofPairs_mono ms hle hvs]
    rfl

end

end Value

namespace Tree

/-- What a tree means, however deep it nests. -/
def Means (t : Tree) (v : Value) : Prop := ∃ depth, Value.ofTreeAt depth t = some v

theorem Means.unique {v v' : Value} (h : t.Means v) (h' : t.Means v') : v = v' := by
  obtain ⟨depth, h⟩ := h
  obtain ⟨depth', h'⟩ := h'
  -- both are the meaning within the larger bound
  have heq := Value.ofTreeAt_mono t (Nat.le_max_left depth depth') h
  rw [Value.ofTreeAt_mono t (Nat.le_max_right depth depth') h'] at heq
  exact (Option.some.inj heq).symm

end Tree

/-- A text that is a document: it is written by the rules, all that it holds has a meaning, and it does not nest
deeper than the reader goes. -/
structure Document (s : String) (t : Tree) : Prop where
  written : Padded t.Written s.toList
  meaningful : t.Meaningful
  height : t.height ≤ Value.maxDepth

/-- **Which texts have a value**: those that are documents. -/
theorem Value.read?_eq_some_iff {s : String} {v : Value} :
    read? s = some v ↔ ∃ t, Document s t ∧ ofTree? t = some v := by
  unfold read?
  rw [Option.bind_eq_some_iff]
  refine exists_congr fun t => ?_
  rw [Tree.read?_eq_some_iff]
  refine ⟨fun ⟨ht, hv⟩ => ?_, fun ⟨ht, hv⟩ => ⟨ht.written, hv⟩⟩
  obtain ⟨hmeaningful, hheight⟩ := (exists_ofTreeAt_iff t).mp ⟨v, hv⟩
  exact ⟨⟨ht, hmeaningful, hheight⟩, hv⟩

theorem Document.exists_value {s : String} (h : Document s t) : ∃ v, Value.ofTree? t = some v :=
  (Value.exists_ofTreeAt_iff t).mpr ⟨h.meaningful, h.height⟩

/-- No text is two documents. -/
theorem Document.unique {s : String} {u : Tree} (h : Document s t) (h' : Document s u) : t = u := by
  have hread := Tree.read?_eq_some_iff.mpr h.written
  rw [Tree.read?_eq_some_iff.mpr h'.written] at hread
  exact (Option.some.inj hread).symm

end RouteSync.Json
