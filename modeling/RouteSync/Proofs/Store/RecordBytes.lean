import Mathlib.Algebra.Group.Nat.Defs
import Mathlib.Tactic.Common
import RouteSync.Store.RecordCodec

/-!
# Records read back

Reading takes from the bytes of a record exactly that record, whatever follows (`decode?_encode`), as
long as the length of each of its texts fits into eight bytes.  So two such records with the same bytes
are the same record.  The bytes of a text determine the text, and hold a zero byte only if the text holds
a zero character (`zero_mem_textBytes`).
-/

namespace RouteSync.RecordCodec

/-! ### Texts -/

theorem text?_textBytes (s : String) : text? (textBytes s) = some s := by
  have hs : (⟨(textBytes s).toArray⟩ : ByteArray) = s.toByteArray := by simp [textBytes]
  unfold text? String.fromUTF8?
  rw [hs, dif_pos s.isValidUTF8]
  rfl

theorem textBytes_inj {s t : String} : textBytes s = textBytes t ↔ s = t := by
  refine ⟨fun h => ?_, fun h => h ▸ rfl⟩
  have h1 := text?_textBytes s
  rw [h, text?_textBytes] at h1
  exact (Option.some.inj h1).symm

theorem textBytes_eq (s : String) : textBytes s = s.toList.flatMap String.utf8EncodeChar := by
  rw [textBytes, ← String.utf8Encode_toList]
  simp [List.utf8Encode]

/-- Beyond ASCII every byte of a character has its high bit set, so only the zero character has a zero
byte. -/
theorem zero_mem_utf8EncodeChar {c : Char} (h : (0 : UInt8) ∈ String.utf8EncodeChar c) : c = '\x00' := by
  have hz : ∀ n : Nat, (0 : UInt8) = UInt8.ofNat n → n % 256 = 0 := by
    intro n hn
    have hnat := congrArg UInt8.toNat hn
    simpa using hnat.symm
  have hv : c.val.toNat = 0 := by
    unfold String.utf8EncodeChar at h
    dsimp only at h
    split_ifs at h <;> simp only [List.mem_cons, List.not_mem_nil, or_false] at h
    · have h0 := hz _ h
      omega
    · rcases h with h | h
      all_goals
        have h0 := hz _ h
        omega
    · rcases h with h | h | h
      all_goals
        have h0 := hz _ h
        omega
    · rcases h with h | h | h | h
      all_goals
        have h0 := hz _ h
        omega
  exact Char.ext (UInt32.toNat_inj.mp hv)

theorem zero_mem_textBytes {s : String} (h : (0 : UInt8) ∈ textBytes s) : '\x00' ∈ s.toList := by
  rw [textBytes_eq] at h
  obtain ⟨c, hc, h0⟩ := List.mem_flatMap.mp h
  exact zero_mem_utf8EncodeChar h0 ▸ hc

/-! ### Numbers -/

@[simp] theorem length_littleEndian (width n : Nat) : (littleEndian width n).length = width := by
  induction width generalizing n with
  | zero => rfl
  | succ width ih => simp only [littleEndian, List.length_cons, ih]

theorem ofLittleEndian_littleEndian {width n : Nat} (h : n < 256 ^ width) :
    ofLittleEndian (littleEndian width n) = n := by
  induction width generalizing n with
  | zero => simp only [littleEndian, ofLittleEndian]; omega
  | succ width ih =>
    have hb : (UInt8.ofNat (n % 256)).toNat = n % 256 := by simp
    rw [littleEndian, ofLittleEndian, hb, ih (by rw [Nat.pow_succ] at h; omega)]
    omega

theorem take?_append {b r : Bytes} {n : Nat} (h : b.length = n) : take? n (b ++ r) = some (b, r) := by
  subst h
  simp [take?]

theorem readNat_littleEndian {width n : Nat} (h : n < 256 ^ width) (r : Bytes) :
    readNat width (littleEndian width n ++ r) = some (n, r) := by
  simp [readNat, take?_append, ofLittleEndian_littleEndian h]

theorem readInt32_writeInt32 (n : Int32) (r : Bytes) : readInt32 (writeInt32 n ++ r) = some (n, r) := by
  rw [readInt32, writeInt32, readNat_littleEndian n.toUInt32.toNat_lt]
  show some ((UInt32.ofNat n.toUInt32.toNat).toInt32, r) = some (n, r)
  rw [UInt32.ofNat_toNat, Int32.toInt32_toUInt32]

theorem readUInt64_writeUInt64 (n : UInt64) (r : Bytes) :
    readUInt64 (writeUInt64 n ++ r) = some (n, r) := by
  rw [readUInt64, writeUInt64, readNat_littleEndian n.toNat_lt]
  simp

/-! ### Records -/

/-- A text whose length in bytes can be written down. -/
def Fits (s : String) : Prop := (textBytes s).length < 256 ^ 8

instance (s : String) : Decidable (Fits s) := inferInstanceAs (Decidable ((textBytes s).length < 256 ^ 8))

theorem readText_writeText {s : String} (h : Fits s) (r : Bytes) :
    readText (writeText s ++ r) = some (s, r) := by
  simp [readText, writeText, readNat_littleEndian h, take?_append, text?_textBytes]

end RouteSync.RecordCodec

namespace RouteSync

open RecordCodec

/-- The columns of a record can be written down. -/
structure Columns.Fit (c : Columns) : Prop where
  namespaceId : Fits c.namespaceId
  protocol : Fits c.protocol
  props : Fits c.props

/-- All texts of a record can be written down. -/
structure StoredEndpoint.Fit (r : StoredEndpoint) : Prop where
  id : Fits r.id
  owner : Fits r.owner
  url : Fits r.url
  columns : r.columns.Fit

instance (c : Columns) : Decidable c.Fit :=
  decidable_of_iff (Fits c.namespaceId ∧ Fits c.protocol ∧ Fits c.props)
    ⟨fun ⟨hn, hp, hq⟩ => ⟨hn, hp, hq⟩, fun h => ⟨h.namespaceId, h.protocol, h.props⟩⟩

instance (r : StoredEndpoint) : Decidable r.Fit :=
  decidable_of_iff (Fits r.id ∧ Fits r.owner ∧ Fits r.url ∧ r.columns.Fit)
    ⟨fun ⟨hi, ho, hu, hc⟩ => ⟨hi, ho, hu, hc⟩, fun h => ⟨h.id, h.owner, h.url, h.columns⟩⟩

namespace RecordCodec

/-- **A record reads back.** -/
theorem decode?_encode {r : StoredEndpoint} (h : r.Fit) : decode? (encode r) = some r := by
  have h8 := readUInt64_writeUInt64 r.updated []
  rw [List.append_nil] at h8
  simp [decode?, encode, List.append_assoc, readText_writeText h.id, readText_writeText h.owner,
    readText_writeText h.url, readText_writeText h.columns.namespaceId,
    readText_writeText h.columns.protocol, readText_writeText h.columns.props, readInt32_writeInt32,
    readUInt64_writeUInt64, h8]

theorem encode_inj {r s : StoredEndpoint} (hr : r.Fit) (hs : s.Fit) (h : encode r = encode s) : r = s := by
  have h1 := decode?_encode hr
  rw [h, decode?_encode hs] at h1
  exact (Option.some.inj h1).symm

end RecordCodec

end RouteSync
