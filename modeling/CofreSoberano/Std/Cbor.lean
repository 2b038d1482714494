import CofreSoberano.Std.Wire
import Mathlib.Tactic.Ring

/-!
# CBOR data items

The definite-length items that a serde struct of integers, strings and byte
strings is written with: an initial byte holding the major type and a small
number or the width of a big-endian one.
-/

namespace CofreSoberano.Std.Cbor

/-- The last `width` bytes of a number, most significant first. -/
def bigEndian : Nat → Nat → List UInt8
  | 0, _ => []
  | width + 1, n => bigEndian width (n / 256) ++ [UInt8.ofNat n]

/-- The number that bytes stand for, continuing from `high`. -/
def ofBigEndian (bytes : List UInt8) (high : Nat) : Nat :=
  bytes.foldl (fun number byte => number * 256 + byte.toNat) high

@[simp] theorem bigEndian_length (width n : Nat) : (bigEndian width n).length = width := by
  induction width generalizing n with
  | zero => rfl
  | succ width inductionHypothesis => simp [bigEndian, inductionHypothesis]

/-- A number that fits its width is read back. -/
theorem ofBigEndian_bigEndian {width n : Nat} (fits : n < 256 ^ width) :
    ofBigEndian (bigEndian width n) 0 = n := by
  induction width generalizing n with
  | zero =>
      have zero : n = 0 := by simpa using fits
      simp [bigEndian, ofBigEndian, zero]
  | succ width inductionHypothesis =>
      have high : n / 256 < 256 ^ width := by
        rw [Nat.div_lt_iff_lt_mul (by decide), ← Nat.pow_succ]
        exact fits
      have earlier := inductionHypothesis high
      simp only [ofBigEndian] at earlier
      simp only [bigEndian, ofBigEndian, List.foldl_append, List.foldl_cons, List.foldl_nil,
        earlier, UInt8.toNat_ofNat']
      omega

/-- The initial byte of an item. -/
def initial (major : Fin 8) (info : Nat) : UInt8 := UInt8.ofNat (major.val * 32 + info)

/-- A number that exceeds eight bytes has no CBOR head. No integer and no length
of the program does; the unary tail only makes the format total. -/
def unaryTail (n : Nat) : List UInt8 := List.replicate n 1 ++ [0]

/-- The head of an item: the shortest form of its number, as serializers write. -/
def head (major : Fin 8) (n : Nat) : List UInt8 :=
  if n < 24 then [initial major n]
  else if n < 256 ^ 1 then initial major 24 :: bigEndian 1 n
  else if n < 256 ^ 2 then initial major 25 :: bigEndian 2 n
  else if n < 256 ^ 4 then initial major 26 :: bigEndian 4 n
  else if n < 256 ^ 8 then initial major 27 :: bigEndian 8 n
  else initial major 28 :: unaryTail n

/-- Read a big-endian number of a given width. -/
def readNumber (width : Nat) (input : List UInt8) : Option (Nat × List UInt8) :=
  if width ≤ input.length then some (ofBigEndian (input.take width) 0, input.drop width) else none

/-- Read a unary tail, counting from `start`. -/
def readUnary (start : Nat) : List UInt8 → Option (Nat × List UInt8)
  | [] => none
  | byte :: rest => if byte = 0 then some (start, rest) else readUnary (start + 1) rest

/-- Read the head of an item of the given major type. -/
def readHead (major : Fin 8) : List UInt8 → Option (Nat × List UInt8)
  | [] => none
  | first :: rest =>
      if first.toNat / 32 = major.val then
        match first.toNat % 32 with
        | 24 => readNumber 1 rest
        | 25 => readNumber 2 rest
        | 26 => readNumber 4 rest
        | 27 => readNumber 8 rest
        | 28 => readUnary 0 rest
        | small => if small < 24 then some (small, rest) else none
      else none

theorem initial_toNat {major : Fin 8} {info : Nat} (small : info < 32) :
    (initial major info).toNat = major.val * 32 + info := by
  have bound := major.isLt
  rw [initial, UInt8.toNat_ofNat', Nat.mod_eq_of_lt (by omega)]

theorem readNumber_bigEndian {width n : Nat} (fits : n < 256 ^ width) (rest : List UInt8) :
    readNumber width (bigEndian width n ++ rest) = some (n, rest) := by
  rw [readNumber, if_pos (by simp), List.take_left' (bigEndian_length _ _),
    List.drop_left' (bigEndian_length _ _), ofBigEndian_bigEndian fits]

theorem readUnary_unaryTail (start n : Nat) (rest : List UInt8) :
    readUnary start (unaryTail n ++ rest) = some (start + n, rest) := by
  induction n generalizing start with
  | zero => simp [unaryTail, readUnary]
  | succ n inductionHypothesis =>
      have next := inductionHypothesis (start + 1)
      simp only [unaryTail] at next
      simp only [unaryTail, List.replicate_succ, List.cons_append, readUnary]
      rw [if_neg (by decide), next, Nat.add_assoc, Nat.add_comm 1]

/-- Every head is read back, whatever follows it. -/
theorem readHead_head (major : Fin 8) (n : Nat) (rest : List UInt8) :
    readHead major (head major n ++ rest) = some (n, rest) := by
  have opened : ∀ {info : Nat}, info < 32 → (initial major info).toNat / 32 = major.val ∧
      (initial major info).toNat % 32 = info := by
    intro info small
    rw [initial_toNat small]
    omega
  simp only [head]
  split
  · rename_i small
    obtain ⟨majorRead, infoRead⟩ := opened (show n < 32 by omega)
    simp only [List.cons_append, List.nil_append, readHead, majorRead, infoRead, if_true]
    split <;> first | omega | simp [small]
  · split
    · rename_i fits
      obtain ⟨majorRead, infoRead⟩ := opened (show 24 < 32 by decide)
      simp only [List.cons_append, readHead, majorRead, infoRead, if_true]
      exact readNumber_bigEndian fits rest
    · split
      · rename_i fits
        obtain ⟨majorRead, infoRead⟩ := opened (show 25 < 32 by decide)
        simp only [List.cons_append, readHead, majorRead, infoRead, if_true]
        exact readNumber_bigEndian fits rest
      · split
        · rename_i fits
          obtain ⟨majorRead, infoRead⟩ := opened (show 26 < 32 by decide)
          simp only [List.cons_append, readHead, majorRead, infoRead, if_true]
          exact readNumber_bigEndian fits rest
        · split
          · rename_i fits
            obtain ⟨majorRead, infoRead⟩ := opened (show 27 < 32 by decide)
            simp only [List.cons_append, readHead, majorRead, infoRead, if_true]
            exact readNumber_bigEndian fits rest
          · obtain ⟨majorRead, infoRead⟩ := opened (show 28 < 32 by decide)
            simp only [List.cons_append, readHead, majorRead, infoRead, if_true]
            rw [readUnary_unaryTail, Nat.zero_add]

instance majorTypes : NeZero 8 := ⟨by decide⟩

/-- The head of an item as a format of its number. -/
def headFormat (major : Fin 8) : WireFormat Nat where
  encode := head major
  decode := readHead major
  decode_encode := readHead_head major

/-- The first byte of a head shows its major type. -/
theorem head_first (major : Fin 8) (n : Nat) :
    ∃ info rest, info < 32 ∧ head major n = initial major info :: rest := by
  simp only [head]
  split
  · exact ⟨n, [], by omega, rfl⟩
  · split
    · exact ⟨24, _, by decide, rfl⟩
    · split
      · exact ⟨25, _, by decide, rfl⟩
      · split
        · exact ⟨26, _, by decide, rfl⟩
        · split
          · exact ⟨27, _, by decide, rfl⟩
          · exact ⟨28, _, by decide, rfl⟩

theorem readNumber_append {width n : Nat} {input rest : List UInt8} (more : List UInt8)
    (read : readNumber width input = some (n, rest)) :
    readNumber width (input ++ more) = some (n, rest ++ more) := by
  obtain ⟨enough, read⟩ := Option.ite_none_right_eq_some.mp read
  cases read
  rw [readNumber, if_pos (by rw [List.length_append]; omega),
    List.take_append_of_le_length enough, List.drop_append_of_le_length enough]

theorem readUnary_append {start n : Nat} {input rest : List UInt8} (more : List UInt8)
    (read : readUnary start input = some (n, rest)) :
    readUnary start (input ++ more) = some (n, rest ++ more) := by
  induction input generalizing start with
  | nil => cases read
  | cons byte input inductionHypothesis =>
      simp only [readUnary, List.cons_append] at read ⊢
      split at read
      · cases read
        rw [if_pos ‹_›]
      · rw [if_neg ‹_›]
        exact inductionHypothesis read

/-- A head is read without looking at what follows it. -/
theorem headFormat_stable (major : Fin 8) : (headFormat major).Stable := by
  rintro (_ | ⟨first, tail⟩) value rest more decoded
  · cases decoded
  · simp only [headFormat, readHead, List.cons_append] at decoded ⊢
    obtain ⟨sameMajor, decoded⟩ := Option.ite_none_right_eq_some.mp decoded
    rw [if_pos sameMajor]
    split at decoded
    · exact readNumber_append more decoded
    · exact readNumber_append more decoded
    · exact readNumber_append more decoded
    · exact readNumber_append more decoded
    · exact readUnary_append more decoded
    · obtain ⟨small, decoded⟩ := Option.ite_none_right_eq_some.mp decoded
      cases decoded
      rw [if_pos small]

/-- An unsigned integer. -/
def unsigned : WireFormat Nat := headFormat 0

/-- A byte string of any length. -/
def bytes : WireFormat (List UInt8) := .list (headFormat 2) .byte

/-- A byte string of a known length. -/
def octets (count : Nat) : WireFormat (Octets count) := .marked (head 2 count) (.octets count)

/-- The UTF-8 bytes of a text. -/
def utf8 (text : String) : List UInt8 := text.toByteArray.data.toList

/-- The text that bytes encode, if they are UTF-8. -/
def ofUtf8 (bytes : List UInt8) : Option String := String.fromUTF8? ⟨bytes.toArray⟩

theorem ofUtf8_utf8 (text : String) : ofUtf8 (utf8 text) = some text := by
  have restored : (⟨(utf8 text).toArray⟩ : ByteArray) = text.toByteArray := by
    simp [utf8]
  rw [ofUtf8, restored, String.fromUTF8?, dif_pos text.isValidUTF8]
  rfl

/-- A text. -/
def text : WireFormat String := (.list (headFormat 3) .byte : WireFormat (List UInt8)).convert
  utf8 ofUtf8 ofUtf8_utf8

/-- A key of a struct, written as text in front of its value. -/
def field {V : Type} (name : String) (value : WireFormat V) : WireFormat V :=
  .marked (head 3 (utf8 name).length ++ utf8 name) value

/-- A struct of the given number of fields. -/
def struct {V : Type} (fields : Nat) (value : WireFormat V) : WireFormat V :=
  .marked (head 5 fields) value

theorem unsigned_stable : unsigned.Stable := headFormat_stable 0

theorem bytes_stable : bytes.Stable := (headFormat_stable 2).list .byte

theorem octets_stable (count : Nat) : (octets count).Stable :=
    (WireFormat.Stable.octets count).marked _

theorem text_stable : text.Stable :=
  ((headFormat_stable 3).list WireFormat.Stable.byte).convert _

theorem field_stable {V : Type} {value : WireFormat V} (stable : value.Stable) (name : String) :
    (field name value).Stable := stable.marked _

theorem struct_stable {V : Type} {value : WireFormat V} (stable : value.Stable) (fields : Nat) :
    (struct fields value).Stable := stable.marked _

end CofreSoberano.Std.Cbor
