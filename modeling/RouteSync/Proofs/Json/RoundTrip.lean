import Mathlib.Tactic.Common
import Mathlib.Tactic.IntervalCases
import RouteSync.Proofs.Json.Documents

/-!
# Documents read back

What is printed compactly is one way to write the tree of the value (`written_chars`), so it reads back as this
tree (`read?_tree`).  A tree of a canonical value means this value, so printing and reading a canonical value
gives it back (`read?_print`).  Numbers are integers here, as long as 64 bits hold them.
-/

namespace RouteSync.Json

open RouteSync.Text RouteSync.Decimal

/-! ### Numbers -/

/-- An integer that 64 bits hold, with a sign or without one. -/
def Number.Whole : Number → Prop
  | .int n => minInt64 ≤ n ∧ n ≤ maxUInt64
  | .real _ => False

/-- The decimal digits of a number. -/
def digitsOf (n : Nat) : List Nat := (Nat.toDigits 10 n).map fun c => c.toNat - 48

/-- The numeral of an integer. -/
def Numeral.ofInt (n : Int) : Numeral := ⟨decide (n < 0), digitsOf n.natAbs, [], none⟩

/-- The numeral as which a number is printed. -/
def Number.numeral (n : Number) : Numeral :=
  ((Tree.readNumeral n.chars).map Prod.fst).getD ⟨false, [0], [], none⟩

theorem digit?_of_isDigit {c : Char} (hc : c.isDigit = true) : digit? c = some (c.toNat - 48) := by
  have hrange : '0' ≤ c ∧ c ≤ '9' := by
    simpa [Char.isDigit, Char.le_def] using hc
  rw [digit?, if_pos hrange]

theorem isDigit_of_mem_toDigits {n : Nat} {c : Char} (hc : c ∈ Nat.toDigits 10 n) : c.isDigit = true :=
  Nat.isDigit_of_mem_toDigits (by decide) (by decide) hc

theorem head_toDigits_ne_zero {n : Nat} (hn : 0 < n) (r : List Char) : Nat.toDigits 10 n ≠ '0' :: r := by
  induction n using Nat.strongRecOn generalizing r with
  | _ n ih =>
    intro he
    rw [Nat.toDigits_eq_if (by decide)] at he
    split_ifs at he with hsmall
    · have hdigit := (List.cons.inj he).1
      rw [Nat.digitChar_eq_zero] at hdigit
      omega
    · -- the digits of a number from ten on begin as those of its tenth
      cases hd : Nat.toDigits 10 (n / 10) with
      | nil => exact Nat.toDigits_ne_nil hd
      | cons d ds =>
        rw [hd] at he
        have hhead := (List.cons.inj he).1
        subst hhead
        exact ih (n / 10) (by omega) (by omega) ds hd

theorem digitsWritten_toDigits (n : Nat) : DigitsWritten (digitsOf n) (Nat.toDigits 10 n) := by
  refine ⟨by simp [digitsOf], ?_⟩
  rw [digitsOf, List.forall₂_map_right_iff, List.forall₂_same]
  exact fun c hc => digit?_of_isDigit (isDigit_of_mem_toDigits hc)

theorem wholeWritten_toDigits (n : Nat) : WholeWritten (digitsOf n) (Nat.toDigits 10 n) := by
  rcases Nat.eq_zero_or_pos n with rfl | hn
  · exact .zero
  · have hdigits := digitsWritten_toDigits n
    cases hd : Nat.toDigits 10 n with
    | nil => exact absurd hd Nat.toDigits_ne_nil
    | cons d ds =>
      rw [hd] at hdigits
      refine .digits ?_ hdigits
      rintro rfl
      exact head_toDigits_ne_zero hn ds hd

theorem written_ofInt (n : Int) : (Numeral.ofInt n).Written (Number.int n).chars := by
  have hmagnitude : MagnitudeWritten (Numeral.ofInt n) (Nat.toDigits 10 n.natAbs) := by
    have hparts := MagnitudeWritten.parts (n := Numeral.ofInt n) (wholeWritten_toDigits n.natAbs) .none .none
    rwa [List.append_nil, List.append_nil] at hparts
  rw [Number.chars, signed]
  by_cases hneg : n < 0
  · rw [if_pos (decide_eq_true hneg)]
    exact .minus (decide_eq_true hneg) hmagnitude
  · rw [if_neg (by simpa using hneg)]
    exact .plain (decide_eq_false hneg) hmagnitude

theorem numeral_int (n : Int) : (Number.int n).numeral = .ofInt n := by
  have hread := readNumeral_append (written_ofInt n) .nil
  rw [List.append_nil] at hread
  rw [Number.numeral, hread]
  rfl

/-- Digits are gathered whole as long as the number fits. -/
theorem gather_of_le {ds : List Nat} {m : Nat} (hle : ds.foldl (fun n d => 10 * n + d) m ≤ maxUInt64) :
    Numeral.gather m ds = (ds.foldl (fun n d => 10 * n + d) m, 0) := by
  have hgrow : ∀ (ds : List Nat) (m : Nat), m ≤ ds.foldl (fun n d => 10 * n + d) m := by
    intro ds
    induction ds with
    | nil => exact fun m => Nat.le_refl m
    | cons d ds ih =>
      intro m
      have hstep := ih (10 * m + d)
      rw [List.foldl_cons]
      omega
  induction ds generalizing m with
  | nil => rfl
  | cons d ds ih =>
    rw [List.foldl_cons] at hle ⊢
    have hfits := Nat.le_trans (hgrow ds (10 * m + d)) hle
    rw [Numeral.gather, if_pos hfits, ih hle]

theorem foldl_digitsOf (n : Nat) : (digitsOf n).foldl (fun n d => 10 * n + d) 0 = n := by
  have hread := @Nat.ofDigitChars_ten_toDigits n
  rw [Nat.ofDigitChars_eq_foldl] at hread
  rw [digitsOf, List.foldl_map]
  exact hread

theorem value?_ofInt {n : Int} (hn : (Number.int n).Whole) : (Numeral.ofInt n).value? = some (.int n) := by
  obtain ⟨hlow, hhigh⟩ := hn
  unfold minInt64 at hlow
  unfold maxUInt64 at hhigh
  have hfold := foldl_digitsOf n.natAbs
  have hgather : Numeral.gather 0 (digitsOf n.natAbs) = (n.natAbs, 0) := by
    rw [gather_of_le (by rw [hfold]; unfold maxUInt64; omega), hfold]
  unfold Numeral.value? Numeral.ofInt
  simp only [hgather]
  by_cases hneg : n < 0
  · rw [if_neg (by simp [hneg]), if_pos (by omega)]
    congr 2
    omega
  · rw [if_pos (by simp [hneg])]
    congr 2
    omega

/-! ### Texts -/

/-- The piece as which a character reads back: a control without a short escape is given by its number. -/
def pieceOf (c : Char) : Tree.Piece :=
  if c.toNat < 0x20 ∧ c ∉ ['\x08', '\x0c', '\n', '\r', '\t'] then .unit c.toNat else .char c

theorem hex4?_unitEscape {n : Nat} (hn : n < 0x20) :
    Tree.hex4? '0' '0' (Nat.digitChar (n / 16)) (Nat.digitChar (n % 16)) = some n := by
  interval_cases n <;> rfl

theorem written_escape (c : Char) : (pieceOf c).Written (Value.escape c) := by
  have hshort : ∀ {e}, Tree.shortEscape? e = some c → pieceOf c = .char c → (pieceOf c).Written ['\\', e] := by
    intro e he hp
    rw [hp]
    exact .short he
  unfold Value.escape
  split_ifs with hquote hslash h3 h4 h5 h6 h7 hcontrol
  · subst hquote
    exact hshort rfl rfl
  · subst hslash
    exact hshort rfl rfl
  · subst h3
    exact hshort rfl rfl
  · subst h4
    exact hshort rfl rfl
  · subst h5
    exact hshort rfl rfl
  · subst h6
    exact hshort rfl rfl
  · subst h7
    exact hshort rfl rfl
  · have hp : pieceOf c = .unit c.toNat := if_pos ⟨hcontrol, by simp [h3, h4, h5, h6, h7]⟩
    rw [hp]
    exact .unit (hex4?_unitEscape hcontrol)
  · have hp : pieceOf c = .char c := if_neg fun h => hcontrol h.1
    rw [hp]
    exact .plain hquote hslash hcontrol

theorem piecesWritten_flatMap_escape (s : List Char) : PiecesWritten (s.map pieceOf) (s.flatMap Value.escape) := by
  induction s with
  | nil => exact .nil
  | cons c s ih => exact .cons (written_escape c) ih

/-- A code unit that is no surrogate stands for itself. -/
theorem joinPieces_unit {u : Nat} (hu : u < 0xD800) (l : List Tree.Piece) :
    Tree.joinPieces (.unit u :: l) = (Tree.joinPieces l).map (Char.ofNat u :: ·) := by
  have hlow : ¬ (0xD800 ≤ u ∧ u < 0xE000) := by omega
  cases l with
  | nil => simp [Tree.joinPieces, hlow]
  | cons p l =>
    cases p with
    | char c => simp [Tree.joinPieces, hlow]
    | unit v =>
      have hpair : ¬ (0xD800 ≤ u ∧ u < 0xDC00 ∧ 0xDC00 ≤ v ∧ v < 0xE000) := by omega
      rw [Tree.joinPieces, if_neg hpair, if_neg hlow]

theorem joinPieces_map_pieceOf (s : List Char) : Tree.joinPieces (s.map pieceOf) = some s := by
  induction s with
  | nil => rfl
  | cons c s ih =>
    rw [List.map_cons]
    by_cases hc : c.toNat < 0x20 ∧ c ∉ ['\x08', '\x0c', '\n', '\r', '\t']
    · have hp : pieceOf c = .unit c.toNat := if_pos hc
      rw [hp, joinPieces_unit (by omega), ih, Char.ofNat_toNat]
      rfl
    · have hp : pieceOf c = .char c := if_neg hc
      rw [hp, Tree.joinPieces, ih]
      rfl

/-- **A printed text** is one way to write it. -/
theorem textWritten_textChars (s : String) : TextWritten (some s) (Value.textChars s) := by
  have hwritten := TextWritten.quoted (piecesWritten_flatMap_escape s.toList)
  rwa [joinPieces_map_pieceOf, Option.map_some, String.ofList_toList] at hwritten

/-! ### Values -/

namespace Value

mutual

/-- All numbers of a value are integers of 64 bits. -/
def Whole : Value → Prop
  | .null => True
  | .bool _ => True
  | .num n => n.Whole
  | .str _ => True
  | .arr l => WholeItems l
  | .obj l => WholeMembers l

def WholeItems : List Value → Prop
  | [] => True
  | v :: vs => v.Whole ∧ WholeItems vs

def WholeMembers : List (String × Value) → Prop
  | [] => True
  | (_, v) :: vs => v.Whole ∧ WholeMembers vs

end

mutual

/-- The document as which a value is printed. -/
def tree : Value → Tree
  | .null => .null
  | .bool b => .bool b
  | .num n => .number n.numeral
  | .str s => .text (some s)
  | .arr l => .array (itemTrees l)
  | .obj l => .object (memberTrees l)

def itemTrees : List Value → List Tree
  | [] => []
  | v :: vs => v.tree :: itemTrees vs

def memberTrees : List (String × Value) → List (Option String × Tree)
  | [] => []
  | (k, v) :: vs => (some k, v.tree) :: memberTrees vs

end

theorem wholeMembers_iff {l : List (String × Value)} : WholeMembers l ↔ ∀ e ∈ l, e.2.Whole := by
  induction l with
  | nil => exact ⟨fun _ => nofun, fun _ => trivial⟩
  | cons e l ih => rw [List.forall_mem_cons, ← ih]; rfl

theorem wholeItems_iff {l : List Value} : WholeItems l ↔ ∀ v ∈ l, v.Whole := by
  induction l with
  | nil => exact ⟨fun _ => nofun, fun _ => trivial⟩
  | cons v l ih => rw [List.forall_mem_cons, ← ih]; rfl

theorem memberTrees_eq (l : List (String × Value)) :
    memberTrees l = l.map fun e => (some e.1, e.2.tree) := by
  induction l with
  | nil => rfl
  | cons e l ih => rw [memberTrees, ih]; rfl

theorem itemTrees_eq (l : List Value) : itemTrees l = l.map tree := by
  induction l with
  | nil => rfl
  | cons v l ih => rw [itemTrees, ih]; rfl

mutual

/-- **A printed value** is one way to write its tree. -/
theorem written_chars : ∀ (v : Value), v.Whole → v.tree.Written v.chars
  | .null, _ => rfl
  | .bool true, _ => rfl
  | .bool false, _ => rfl
  | .num (.real _), hv => absurd hv not_false
  | .num (.int n), _ => by
    show (Number.int n).numeral.Written (Number.int n).chars
    rw [numeral_int]
    exact written_ofInt n
  | .str s, _ => textWritten_textChars s
  | .arr l, hv => ⟨_, itemsWritten_itemChars l hv, rfl⟩
  | .obj l, hv => ⟨_, membersWritten_memberChars l hv, rfl⟩

theorem itemsWritten_itemChars : ∀ (l : List Value), WholeItems l → ItemsWritten (itemTrees l) (itemChars l)
  | [], _ => nofun
  | [v], hv => .self (written_chars v hv.1)
  | v :: w :: ws, hv =>
    ⟨_, _, .self (written_chars v hv.1), itemsWritten_itemChars (w :: ws) hv.2, rfl⟩

theorem membersWritten_memberChars : ∀ (l : List (String × Value)), WholeMembers l →
    MembersWritten (memberTrees l) (memberChars l)
  | [], _ => nofun
  | [(k, v)], hv => ⟨_, _, .self (textWritten_textChars k), .self (written_chars v hv.1), rfl⟩
  | (k, v) :: e :: es, hv =>
    ⟨_, _, _, .self (textWritten_textChars k), .self (written_chars v hv.1),
      membersWritten_memberChars (e :: es) hv.2, rfl⟩

end

/-- **A printed value** is read as its tree. -/
theorem read?_tree {v : Value} (hv : v.Whole) : Tree.read? v.print = some v.tree := by
  rw [Tree.read?_eq_some_iff, print, String.toList_ofList]
  exact .self (written_chars v hv)

/-! ### Canonical values -/

mutual

/-- A value that can be read: it nests at most so deep, and its objects are in the order of their keys. -/
def Canonical : Nat → Value → Prop
  | _, .null => True
  | _, .bool _ => True
  | _, .num n => n.Whole
  | _, .str _ => True
  | 0, .arr _ => False
  | depth + 1, .arr l => CanonicalItems depth l
  | 0, .obj _ => False
  | depth + 1, .obj l => (l.map Prod.fst).Pairwise (· < ·) ∧ CanonicalMembers depth l

def CanonicalItems : Nat → List Value → Prop
  | _, [] => True
  | depth, v :: vs => Canonical depth v ∧ CanonicalItems depth vs

def CanonicalMembers : Nat → List (String × Value) → Prop
  | _, [] => True
  | depth, (_, v) :: vs => Canonical depth v ∧ CanonicalMembers depth vs

end

theorem put_of_lt {k : String} {v : Value} {l : List (String × Value)} (hl : ∀ e ∈ l, e.1 < k) :
    put k v l = l ++ [(k, v)] := by
  induction l with
  | nil => rfl
  | cons e l ih =>
    obtain ⟨a, b⟩ := e
    have ha : a < k := hl (a, b) (by simp)
    have hne : k ≠ a := by
      rintro rfl
      exact String.lt_irrefl _ ha
    rw [put, if_neg hne, if_neg (String.lt_asymm ha), ih fun e he => hl e (by simp [he])]
    rfl

theorem ofMembers_of_pairwise {l : List (String × Value)} (hl : (l.map Prod.fst).Pairwise (· < ·)) :
    ofMembers l = l := by
  have hfold : ∀ (l acc : List (String × Value)), (l.map Prod.fst).Pairwise (· < ·) →
      (∀ e ∈ acc, ∀ x ∈ l, e.1 < x.1) → l.foldl (fun acc e => put e.1 e.2 acc) acc = acc ++ l := by
    intro l
    induction l with
    | nil => exact fun acc _ _ => (List.append_nil acc).symm
    | cons x l ih =>
      intro acc hsorted hbelow
      rw [List.map_cons, List.pairwise_cons] at hsorted
      have hput := put_of_lt (v := x.2) fun e he => hbelow e he x (by simp)
      rw [List.foldl_cons, hput, ih _ hsorted.2]
      · simp
      · intro e he y hy
        rcases List.mem_append.mp he with he | he
        · exact hbelow e he y (by simp [hy])
        · obtain rfl := List.mem_singleton.mp he
          exact hsorted.1 y.1 (List.mem_map_of_mem hy)
  exact hfold l [] hl nofun

mutual

theorem whole_of_canonical : ∀ {depth : Nat} {v : Value}, Canonical depth v → v.Whole
  | _, .null, _ => trivial
  | _, .bool _, _ => trivial
  | _, .num _, hv => hv
  | _, .str _, _ => trivial
  | _ + 1, .arr _, hv => wholeItems_of_canonical hv
  | _ + 1, .obj _, hv => wholeMembers_of_canonical hv.2

theorem wholeItems_of_canonical : ∀ {depth : Nat} {l : List Value}, CanonicalItems depth l → WholeItems l
  | _, [], _ => trivial
  | _, _ :: _, hl => ⟨whole_of_canonical hl.1, wholeItems_of_canonical hl.2⟩

theorem wholeMembers_of_canonical : ∀ {depth : Nat} {l : List (String × Value)},
    CanonicalMembers depth l → WholeMembers l
  | _, [], _ => trivial
  | _, _ :: _, hl => ⟨whole_of_canonical hl.1, wholeMembers_of_canonical hl.2⟩

end

mutual

theorem ofTreeAt_tree : ∀ {depth : Nat} {v : Value}, Canonical depth v → ofTreeAt depth v.tree = some v
  | _, .null, _ => by rw [tree, ofTreeAt]
  | _, .bool _, _ => by rw [tree, ofTreeAt]
  | _, .num (.real _), hv => absurd hv not_false
  | _, .num (.int n), hv => by
    rw [tree, ofTreeAt, numeral_int, value?_ofInt hv]
    rfl
  | _, .str _, _ => by
    rw [tree, ofTreeAt]
    rfl
  | depth + 1, .arr l, hv => by
    rw [tree, ofTreeAt, ofItems_itemTrees hv]
    rfl
  | depth + 1, .obj l, hv => by
    rw [tree, ofTreeAt, ofPairs_memberTrees hv.2, Option.map_some, ofMembers_of_pairwise hv.1]

theorem ofItems_itemTrees : ∀ {depth : Nat} {l : List Value}, CanonicalItems depth l →
    ofItems depth (itemTrees l) = some l
  | _, [], _ => rfl
  | depth, v :: vs, hl => by
    rw [itemTrees, ofItems, ofTreeAt_tree hl.1, ofItems_itemTrees hl.2]
    rfl

theorem ofPairs_memberTrees : ∀ {depth : Nat} {l : List (String × Value)}, CanonicalMembers depth l →
    ofPairs depth (memberTrees l) = some l
  | _, [], _ => rfl
  | depth, (k, v) :: vs, hl => by
    rw [memberTrees, ofPairs, ofTreeAt_tree hl.1, ofPairs_memberTrees hl.2]
    rfl

end

/-- **A canonical value** is given back by printing and reading. -/
theorem read?_print {v : Value} (hv : Canonical maxDepth v) : read? v.print = some v := by
  rw [read?, read?_tree (whole_of_canonical hv)]
  exact ofTreeAt_tree hv

end Value

end RouteSync.Json
