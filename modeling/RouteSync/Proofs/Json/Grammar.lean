import Mathlib.Data.List.DropRight
import Mathlib.Data.List.Forall2
import RouteSync.Json.Value

/-!
# The grammar of documents

How documents are written, rule by rule and without the reader (`Tree.Written`).  White space may stand around
values, keys and the marks between them; a numeral has no leading zeros; a text is made of escapes and of
characters that need none.

The readers of numerals and texts take what is written up to its end, whatever comes behind it
(`readNumeral_append`, `readText_append`), and they take nothing else (`exists_of_readNumeral`,
`exists_of_readText`).
-/

namespace RouteSync.Json

open RouteSync.Text RouteSync.Json.Tree

/-! ### The rules -/

/-- Digits, at least one. -/
def DigitsWritten (ds : List Nat) (s : List Char) : Prop :=
  ds ≠ [] ∧ List.Forall₂ (fun c d => digit? c = some d) s ds

/-- Digits before the point: a zero at their front stands alone. -/
inductive WholeWritten : List Nat → List Char → Prop
  | zero : WholeWritten [0] ['0']
  | digits {ds c s} (hc : c ≠ '0') (h : DigitsWritten ds (c :: s)) : WholeWritten ds (c :: s)

/-- A point with digits behind it, or nothing. -/
inductive FractionWritten : List Nat → List Char → Prop
  | none : FractionWritten [] []
  | digits {ds s} (h : DigitsWritten ds s) : FractionWritten ds ('.' :: s)

/-- The sign of an exponent, which may be missing if it is positive. -/
inductive SignWritten : Bool → List Char → Prop
  | none : SignWritten false []
  | plus : SignWritten false ['+']
  | minus : SignWritten true ['-']

/-- An exponent, which may be missing. -/
inductive ExponentWritten : Option (Bool × List Nat) → List Char → Prop
  | none : ExponentWritten none []
  | digits {e down ds sign s} (he : e = 'e' ∨ e = 'E') (hsign : SignWritten down sign)
      (h : DigitsWritten ds s) : ExponentWritten (some (down, ds)) (e :: (sign ++ s))

/-- A numeral without its sign. -/
inductive MagnitudeWritten : Numeral → List Char → Prop
  | parts {n w f e} (hw : WholeWritten n.whole w) (hf : FractionWritten n.fraction f)
      (he : ExponentWritten n.exponent e) : MagnitudeWritten n (w ++ (f ++ e))

/-- A numeral; only a negative one has a sign. -/
inductive Numeral.Written : Numeral → List Char → Prop
  | plain {n s} (hn : n.negative = false) (h : MagnitudeWritten n s) : Written n s
  | minus {n s} (hn : n.negative = true) (h : MagnitudeWritten n s) : Written n ('-' :: s)

/-- A piece of a text: an escape, or a character as it stands, which is neither a quote, a backslash nor a
control. -/
inductive Tree.Piece.Written : Piece → List Char → Prop
  | plain {c} (hquote : c ≠ '"') (hslash : c ≠ '\\') (hc : ¬ c.toNat < 0x20) : Written (.char c) [c]
  | short {e c} (h : shortEscape? e = some c) : Written (.char c) ['\\', e]
  | unit {a b c d u} (h : hex4? a b c d = some u) : Written (.unit u) ['\\', 'u', a, b, c, d]

inductive PiecesWritten : List Piece → List Char → Prop
  | nil : PiecesWritten [] []
  | cons {p ps s r} (h : p.Written s) (hs : PiecesWritten ps r) : PiecesWritten (p :: ps) (s ++ r)

/-- A text in quotes, which is absent if its pieces do not join: half a character has no text. -/
inductive TextWritten : Option String → List Char → Prop
  | quoted {ps s} (h : PiecesWritten ps s) :
      TextWritten ((joinPieces ps).map String.ofList) ('"' :: (s ++ ['"']))

/-- White space. -/
def Gap (s : List Char) : Prop := ∀ c ∈ s, isGap c = true

/-- A part of a document with white space around it. -/
inductive Padded (P : List Char → Prop) : List Char → Prop
  | mk {g w g'} (hg : Gap g) (h : P w) (hg' : Gap g') : Padded P (g ++ (w ++ g'))

theorem Padded.self {P : List Char → Prop} {w : List Char} (h : P w) : Padded P w := by
  have hgap : Gap [] := nofun
  have hpadded := Padded.mk hgap h hgap
  rwa [List.nil_append, List.append_nil] at hpadded

mutual

/-- How a document may be written, from its first character to its last. -/
def Tree.Written : Tree → List Char → Prop
  | .null, s => s = ['n', 'u', 'l', 'l']
  | .bool true, s => s = ['t', 'r', 'u', 'e']
  | .bool false, s => s = ['f', 'a', 'l', 's', 'e']
  | .number n, s => n.Written s
  | .text t, s => TextWritten t s
  | .array l, s => ∃ w, ItemsWritten l w ∧ s = '[' :: (w ++ [']'])
  | .object l, s => ∃ w, MembersWritten l w ∧ s = '\x7b' :: (w ++ ['\x7d'])

/-- Items between commas. -/
def ItemsWritten : List Tree → List Char → Prop
  | [], s => Gap s
  | [t], s => Padded t.Written s
  | t :: ts, s => ∃ w r, Padded t.Written w ∧ ItemsWritten ts r ∧ s = w ++ ',' :: r

/-- Members between commas, each a key and a value with a colon between them. -/
def MembersWritten : List (Option String × Tree) → List Char → Prop
  | [], s => Gap s
  | [(k, t)], s => ∃ v w, Padded (TextWritten k) v ∧ Padded t.Written w ∧ s = v ++ ':' :: w
  | (k, t) :: ms, s => ∃ v w r, Padded (TextWritten k) v ∧ Padded t.Written w ∧ MembersWritten ms r ∧
      s = v ++ ':' :: (w ++ ',' :: r)

end

variable {s w r g : List Char} {c d : Char} {ds : List Nat} {n : Numeral}

/-! ### First characters -/

/-- A text that begins with a character of some kind. -/
def Begins (p : Char → Bool) (w : List Char) : Prop := ∃ c v, w = c :: v ∧ p c = true

theorem Begins.mono {p q : Char → Bool} (h : Begins p w) (hq : ∀ c, p c = true → q c = true) : Begins q w := by
  obtain ⟨c, v, rfl, hc⟩ := h
  exact ⟨c, v, rfl, hq c hc⟩

theorem Begins.append {p : Char → Bool} (h : Begins p w) (r : List Char) : Begins p (w ++ r) := by
  obtain ⟨c, v, rfl, hc⟩ := h
  exact ⟨c, v ++ r, rfl, hc⟩

theorem Begins.ne_cons {p : Char → Bool} (h : Begins p w) (hd : p d = false) (r : List Char) : w ≠ d :: r := by
  obtain ⟨c, v, rfl, hc⟩ := h
  intro he
  rw [(List.cons.inj he).1, hd] at hc
  cases hc

def isDecimal (c : Char) : Bool := (digit? c).isSome

/-- The characters at which a number begins. -/
def opensNumber (c : Char) : Bool := c == '-' || isDecimal c

/-- The characters at which a value begins. -/
def opensValue (c : Char) : Bool := ['n', 't', 'f', '"', '[', '\x7b'].contains c || opensNumber c

theorem DigitsWritten.begins (h : DigitsWritten ds w) : Begins isDecimal w := by
  obtain ⟨hne, hw⟩ := h
  cases hw with
  | nil => exact absurd rfl hne
  | cons hd _ => exact ⟨_, _, rfl, by rw [isDecimal, hd]; rfl⟩

theorem WholeWritten.begins (h : WholeWritten ds w) : Begins isDecimal w := by
  cases h with
  | zero => exact ⟨_, _, rfl, rfl⟩
  | digits _ h => exact h.begins

theorem MagnitudeWritten.begins (h : MagnitudeWritten n w) : Begins isDecimal w := by
  cases h with
  | parts hw _ _ => exact hw.begins.append _

theorem Numeral.Written.begins (h : n.Written w) : Begins opensNumber w := by
  cases h with
  | plain _ h => exact h.begins.mono fun c hc => by simp [opensNumber, hc]
  | minus _ _ => exact ⟨_, _, rfl, rfl⟩

theorem Tree.Written.begins {t : Tree} (h : t.Written w) : Begins opensValue w := by
  cases t with
  | null => exact ⟨_, _, h, rfl⟩
  | bool b => cases b <;> exact ⟨_, _, h, rfl⟩
  | number n => exact (Numeral.Written.begins h).mono fun c hc => by simp [opensValue, hc]
  | text t =>
    cases h
    exact ⟨_, _, rfl, rfl⟩
  | array l =>
    obtain ⟨v, -, rfl⟩ := h
    exact ⟨_, _, rfl, rfl⟩
  | object l =>
    obtain ⟨v, -, rfl⟩ := h
    exact ⟨_, _, rfl, rfl⟩

/-! ### White space -/

theorem eq_of_isGap (hc : isGap c = true) : c = ' ' ∨ c = '\t' ∨ c = '\n' ∨ c = '\r' := by
  simpa [isGap, or_assoc] using hc

theorem isGap_of_opensValue (hc : opensValue c = true) : isGap c = false := by
  rw [Bool.eq_false_iff]
  intro hgap
  rcases eq_of_isGap hgap with rfl | rfl | rfl | rfl <;> exact absurd hc (by decide)

theorem skip_of_begins (h : Begins opensValue w) : skip w = w := by
  obtain ⟨c, v, rfl, hc⟩ := h
  rw [skip, List.dropWhile_cons, isGap_of_opensValue hc]
  rfl

theorem skip_skip (s : List Char) : skip (skip s) = skip s := List.dropWhile_idempotent isGap s

theorem Gap.skip_append (h : Gap g) (r : List Char) : skip (g ++ r) = skip r := by
  rw [skip, skip, List.dropWhile_append_of_pos h]

theorem exists_gap (s : List Char) : ∃ g, Gap g ∧ s = g ++ skip s :=
  ⟨s.takeWhile isGap, fun _ hc => List.mem_takeWhile_imp hc, List.takeWhile_append_dropWhile.symm⟩

/-- What may follow a value: a gap, a comma or a closing bracket, or nothing. -/
inductive Ends : List Char → Prop
  | nil : Ends []
  | gap {c : Char} (hc : isGap c = true) (r : List Char) : Ends (c :: r)
  | comma (r : List Char) : Ends (',' :: r)
  | bracket (r : List Char) : Ends (']' :: r)
  | brace (r : List Char) : Ends ('\x7d' :: r)

theorem Gap.ends (h : Gap g) (hr : Ends r) : Ends (g ++ r) := by
  cases g with
  | nil => exact hr
  | cons c g => exact .gap (h c List.mem_cons_self) (g ++ r)

/-! ### Numerals -/

theorem spanDigits_append (h : List.Forall₂ (fun c d => digit? c = some d) w ds)
    (hr : spanDigits r = ([], r)) : spanDigits (w ++ r) = (ds, r) := by
  induction h with
  | nil => exact hr
  | cons hc _ ih => simp [spanDigits, hc, ih]

theorem exists_of_spanDigits (s : List Char) :
    ∃ w, List.Forall₂ (fun c d => digit? c = some d) w (spanDigits s).1 ∧ s = w ++ (spanDigits s).2 := by
  induction s with
  | nil => exact ⟨[], .nil, rfl⟩
  | cons c s ih =>
    rw [spanDigits]
    cases hc : digit? c with
    | none => exact ⟨[], .nil, rfl⟩
    | some d =>
      obtain ⟨w, hw, hs⟩ := ih
      exact ⟨c :: w, .cons hc hw, congrArg (c :: ·) hs⟩

theorem someDigits_append (h : DigitsWritten ds w) (hr : spanDigits r = ([], r)) :
    someDigits (w ++ r) = some (ds, r) := by
  obtain ⟨hne, hw⟩ := h
  unfold someDigits
  rw [spanDigits_append hw hr]
  cases ds with
  | nil => exact absurd rfl hne
  | cons d ds => rfl

theorem exists_of_someDigits (h : someDigits s = some (ds, r)) : ∃ w, DigitsWritten ds w ∧ s = w ++ r := by
  obtain ⟨w, hw, hs⟩ := exists_of_spanDigits s
  unfold someDigits at h
  split at h
  · cases h
  · rename_i hne
    rw [Option.some.inj h] at hw hs
    refine ⟨w, ⟨?_, hw⟩, hs⟩
    rintro rfl
    exact hne r (Option.some.inj h)

theorem readWhole_append (h : WholeWritten ds w) (hr : spanDigits r = ([], r)) :
    readWhole (w ++ r) = some (ds, r) := by
  cases h with
  | zero => rfl
  | digits hc h =>
    have hread := someDigits_append h hr
    unfold readWhole
    split
    · rename_i he
      exact absurd (List.cons.inj he).1 hc
    · exact hread

theorem exists_of_readWhole (h : readWhole s = some (ds, r)) : ∃ w, WholeWritten ds w ∧ s = w ++ r := by
  unfold readWhole at h
  split at h
  · cases h
    exact ⟨['0'], .zero, rfl⟩
  · rename_i hzero
    obtain ⟨w, hw, rfl⟩ := exists_of_someDigits h
    obtain ⟨c, v, rfl, -⟩ := hw.begins
    refine ⟨c :: v, .digits ?_ hw, rfl⟩
    rintro rfl
    exact hzero _ rfl

theorem readFraction_append (h : FractionWritten ds w) (hr : spanDigits r = ([], r))
    (hdot : ∀ r', r ≠ '.' :: r') : readFraction (w ++ r) = some (ds, r) := by
  cases h with
  | none =>
    rw [List.nil_append]
    unfold readFraction
    split
    · exact absurd rfl (hdot _)
    · rfl
  | digits h => exact someDigits_append h hr

theorem exists_of_readFraction (h : readFraction s = some (ds, r)) : ∃ w, FractionWritten ds w ∧ s = w ++ r := by
  unfold readFraction at h
  split at h
  · obtain ⟨w, hw, rfl⟩ := exists_of_someDigits h
    exact ⟨'.' :: w, .digits hw, rfl⟩
  · cases h
    exact ⟨[], .none, rfl⟩

theorem readExponentDigits_append {down : Bool} {sign : List Char} (hsign : SignWritten down sign)
    (h : DigitsWritten ds w) (hr : spanDigits r = ([], r)) :
    readExponentDigits (sign ++ (w ++ r)) = some ((down, ds), r) := by
  have hread := someDigits_append h hr
  cases hsign with
  | plus | minus =>
    show (someDigits (w ++ r)).map _ = _
    rw [hread]
    rfl
  | none =>
    -- without a sign a digit comes first
    have hbegins := h.begins.append r
    rw [List.nil_append]
    unfold readExponentDigits
    split
    · rename_i he
      exact absurd he (hbegins.ne_cons (by decide) _)
    · rename_i he
      exact absurd he (hbegins.ne_cons (by decide) _)
    · rw [hread]
      rfl

theorem exists_of_readExponentDigits {down : Bool} (h : readExponentDigits s = some ((down, ds), r)) :
    ∃ sign w, SignWritten down sign ∧ DigitsWritten ds w ∧ s = sign ++ (w ++ r) := by
  unfold readExponentDigits at h
  split at h
  all_goals
    obtain ⟨p, hp, hds⟩ := Option.map_eq_some_iff.mp h
    cases hds
    obtain ⟨w, hw, rfl⟩ := exists_of_someDigits hp
  · exact ⟨['+'], w, .plus, hw, rfl⟩
  · exact ⟨['-'], w, .minus, hw, rfl⟩
  · exact ⟨[], w, .none, hw, rfl⟩

/-- Nothing that belongs to a number follows a value. -/
theorem Ends.stops (hr : Ends r) :
    spanDigits r = ([], r) ∧ (∀ r', r ≠ '.' :: r') ∧ readExponent r = some (none, r) := by
  cases hr with
  | gap hc r => rcases eq_of_isGap hc with rfl | rfl | rfl | rfl <;> exact ⟨rfl, nofun, rfl⟩
  | _ => exact ⟨rfl, nofun, rfl⟩

theorem ExponentWritten.stops {e : Option (Bool × List Nat)} (h : ExponentWritten e w) (hr : Ends r) :
    spanDigits (w ++ r) = ([], w ++ r) ∧ ∀ r', w ++ r ≠ '.' :: r' := by
  cases h with
  | none => exact ⟨hr.stops.1, hr.stops.2.1⟩
  | digits he _ _ => rcases he with rfl | rfl <;> exact ⟨rfl, nofun⟩

theorem FractionWritten.stops (h : FractionWritten ds w) (hr : spanDigits r = ([], r)) :
    spanDigits (w ++ r) = ([], w ++ r) := by
  cases h with
  | none => exact hr
  | digits _ => rfl

theorem readExponent_append {e : Option (Bool × List Nat)} (h : ExponentWritten e w) (hr : Ends r) :
    readExponent (w ++ r) = some (e, r) := by
  cases h with
  | none => exact hr.stops.2.2
  | digits he hsign h =>
    have hread := readExponentDigits_append hsign h hr.stops.1
    rw [List.cons_append, List.append_assoc]
    rcases he with rfl | rfl
    all_goals
      rw [readExponent, hread]
      rfl

theorem exists_of_readExponent {e : Option (Bool × List Nat)} (h : readExponent s = some (e, r)) :
    ∃ w, ExponentWritten e w ∧ s = w ++ r := by
  have hdigits : ∀ {c s}, c = 'e' ∨ c = 'E' →
      (readExponentDigits s).map (fun p => (some p.1, p.2)) = some (e, r) →
      ∃ w, ExponentWritten e w ∧ c :: s = w ++ r := by
    intro c s hc h
    obtain ⟨⟨⟨down, ds⟩, r⟩, hread, he⟩ := Option.map_eq_some_iff.mp h
    cases he
    obtain ⟨sign, w, hsign, hw, rfl⟩ := exists_of_readExponentDigits hread
    exact ⟨_, .digits hc hsign hw, by rw [List.cons_append, List.append_assoc]⟩
  unfold readExponent at h
  split at h
  · exact hdigits (.inl rfl) h
  · exact hdigits (.inr rfl) h
  · cases h
    exact ⟨[], .none, rfl⟩

theorem readMagnitude_append (h : MagnitudeWritten n w) (hr : Ends r) :
    readMagnitude n.negative (w ++ r) = some (n, r) := by
  cases h with
  | parts hw hf he =>
    obtain ⟨hdigits, hdot⟩ := he.stops hr
    rw [List.append_assoc, List.append_assoc, readMagnitude, readWhole_append hw (hf.stops hdigits)]
    show (readFraction _).bind _ = _
    rw [readFraction_append hf hdigits hdot]
    show (readExponent _).bind _ = _
    rw [readExponent_append he hr]
    rfl

theorem exists_of_readMagnitude {negative : Bool} (h : readMagnitude negative s = some (n, r)) :
    n.negative = negative ∧ ∃ w, MagnitudeWritten n w ∧ s = w ++ r := by
  obtain ⟨⟨whole, s₁⟩, hwhole, h⟩ := Option.bind_eq_some_iff.mp h
  obtain ⟨⟨fraction, s₂⟩, hfraction, h⟩ := Option.bind_eq_some_iff.mp h
  obtain ⟨⟨exponent, s₃⟩, hexponent, h⟩ := Option.bind_eq_some_iff.mp h
  cases h
  obtain ⟨w, hw, rfl⟩ := exists_of_readWhole hwhole
  obtain ⟨f, hf, rfl⟩ := exists_of_readFraction hfraction
  obtain ⟨e, he, rfl⟩ := exists_of_readExponent hexponent
  exact ⟨rfl, w ++ (f ++ e), .parts hw hf he, by simp only [List.append_assoc]⟩

theorem readNumeral_append (h : n.Written w) (hr : Ends r) : readNumeral (w ++ r) = some (n, r) := by
  cases h with
  | minus hn h =>
    have hread := readMagnitude_append h hr
    rw [hn] at hread
    exact hread
  | plain hn h =>
    have hread := readMagnitude_append h hr
    rw [hn] at hread
    unfold readNumeral
    split
    · rename_i he
      exact absurd he ((h.begins.append r).ne_cons (by decide) _)
    · exact hread

theorem exists_of_readNumeral (h : readNumeral s = some (n, r)) : ∃ w, n.Written w ∧ s = w ++ r := by
  unfold readNumeral at h
  split at h
  · obtain ⟨hn, w, hw, rfl⟩ := exists_of_readMagnitude h
    exact ⟨'-' :: w, .minus hn hw, rfl⟩
  · obtain ⟨hn, w, hw, rfl⟩ := exists_of_readMagnitude h
    exact ⟨w, .plain hn hw, rfl⟩

/-! ### Texts -/

variable {p : Piece} {ps : List Piece} {k : Option String}

theorem readPieces_piece (h : p.Written w) (r : List Char) :
    readPieces (w ++ r) = (readPieces r).map fun q => (p :: q.1, q.2) := by
  cases h with
  | plain hquote hslash hc =>
    show readPieces (_ :: r) = _
    rw [readPieces]
    · rw [if_neg hc]
      cases readPieces r <;> rfl
    · exact hquote
    · rintro a b c' d r' he -
      exact hslash he
    · rintro e r' he -
      exact hslash he
  | @short e c h =>
    show readPieces ('\\' :: e :: r) = _
    rw [readPieces]
    · rw [h]
      cases readPieces r <;> rfl
    · rintro a b c d r' rfl -
      cases h
  | unit h =>
    show readPieces ('\\' :: 'u' :: _ :: _ :: _ :: _ :: r) = _
    rw [readPieces, h]
    cases readPieces r <;> rfl

theorem readPieces_append (h : PiecesWritten ps w) (r : List Char) :
    readPieces (w ++ '"' :: r) = some (ps, r) := by
  induction h with
  | nil => rfl
  | cons hp _ ih =>
    rw [List.append_assoc, readPieces_piece hp, ih]
    rfl

theorem exists_of_readPieces (h : readPieces s = some (ps, r)) :
    ∃ w, PiecesWritten ps w ∧ s = w ++ '"' :: r := by
  fun_induction readPieces s generalizing ps r with
  | case1 => cases h
  | case2 r' =>
    cases h
    exact ⟨[], .nil, rfl⟩
  | case3 a b c d r' ih =>
    obtain ⟨u, hu, h⟩ := Option.bind_eq_some_iff.mp h
    obtain ⟨⟨ps, r⟩, hread, h⟩ := Option.bind_eq_some_iff.mp h
    cases h
    obtain ⟨w, hw, rfl⟩ := ih hread
    exact ⟨_, .cons (.unit hu) hw, rfl⟩
  | case4 e r' _ ih =>
    obtain ⟨c, hc, h⟩ := Option.bind_eq_some_iff.mp h
    obtain ⟨⟨ps, r⟩, hread, h⟩ := Option.bind_eq_some_iff.mp h
    cases h
    obtain ⟨w, hw, rfl⟩ := ih hread
    exact ⟨_, .cons (.short hc) hw, rfl⟩
  | case5 c r' hquote hunit hslash hc => cases h
  | case6 c r' hquote hunit hslash hc ih =>
    obtain ⟨⟨ps, r⟩, hread, h⟩ := Option.bind_eq_some_iff.mp h
    cases h
    obtain ⟨w, hw, rfl⟩ := ih hread
    -- something follows, so the character is no backslash
    have hfollowed : ∃ e z, w ++ '"' :: r = e :: z := by cases w <;> exact ⟨_, _, rfl⟩
    obtain ⟨e, z, he⟩ := hfollowed
    exact ⟨_, .cons (.plain hquote (fun hc => hslash e z hc he) hc) hw, rfl⟩

theorem readText_append (h : TextWritten k ('"' :: w)) (r : List Char) : readText (w ++ r) = some (k, r) := by
  cases h with
  | quoted h => rw [List.append_assoc, List.singleton_append, readText, readPieces_append h, Option.map_some]

theorem exists_of_readText (h : readText s = some (k, r)) : ∃ w, TextWritten k ('"' :: w) ∧ s = w ++ r := by
  obtain ⟨⟨ps, r⟩, hread, h⟩ := Option.map_eq_some_iff.mp h
  cases h
  obtain ⟨w, hw, rfl⟩ := exists_of_readPieces hread
  exact ⟨_, .quoted hw, by simp⟩

end RouteSync.Json
