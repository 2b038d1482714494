import Mathlib.Tactic.TypeStar
import Mathlib.Logic.Function.Basic

/-!
# Self-delimiting wire formats

A format writes values as bytes and reads one value back from the front of an
input, leaving the rest untouched. The law is part of the format, so formats
built from formats need no proof of their own, and a format is injective even
with arbitrary bytes after it.
-/

namespace CofreSoberano.Std

/-- Byte strings of a fixed length. -/
abbrev Octets (count : Nat) := {bytes : List UInt8 // bytes.length = count}

/-- One byte, repeated. -/
def Octets.replicate (count : Nat) (byte : UInt8) : Octets count :=
  ⟨List.replicate count byte, List.length_replicate⟩

/-- The two hexadecimal digits of every byte. -/
def hexEncode (bytes : List UInt8) : String :=
  String.ofList (bytes.flatMap fun byte =>
    [Nat.digitChar (byte.toNat / 16), Nat.digitChar (byte.toNat % 16)])

theorem hexEncode_injective : Function.Injective hexEncode := by
  have digit : ∀ m < 16, ∀ n < 16, Nat.digitChar m = Nat.digitChar n → m = n := by decide
  intro left right same
  replace same := String.ofList_injective same
  induction left generalizing right with
  | nil => cases right <;> simp_all
  | cons byte left inductionHypothesis =>
      cases right with
      | nil => simp at same
      | cons other right =>
          simp only [List.flatMap_cons, List.cons_append, List.nil_append, List.cons.injEq] at same
          obtain ⟨high, low, rest⟩ := same
          have byteBound := byte.toNat_lt
          have otherBound := other.toNat_lt
          have sameHigh := digit _ (by omega) _ (by omega) high
          have sameLow := digit _ (by omega) _ (by omega) low
          rw [UInt8.toNat_inj.mp (show byte.toNat = other.toNat by omega),
            inductionHypothesis rest]

/-- A self-delimiting format of values of type `V`. -/
structure WireFormat (V : Type) where
  encode : V → List UInt8
  decode : List UInt8 → Option (V × List UInt8)
  decode_encode : ∀ value rest, decode (encode value ++ rest) = some (value, rest)

namespace WireFormat

variable {V W : Type}

/-- What two encodings are followed by does not help to confuse them. -/
theorem append_inj (format : WireFormat V) {left right : V} {leftRest rightRest : List UInt8}
    (same : format.encode left ++ leftRest = format.encode right ++ rightRest) :
    left = right ∧ leftRest = rightRest := by
  have decoded := congrArg format.decode same
  rw [format.decode_encode, format.decode_encode] at decoded
  simpa using decoded

theorem encode_injective (format : WireFormat V) : Function.Injective format.encode := by
  intro left right same
  exact (format.append_inj (congrArg (· ++ []) same)).1

/-- A fixed mark in front of a value. -/
def marked (mark : List UInt8) (format : WireFormat V) : WireFormat V where
  encode value := mark ++ format.encode value
  decode input := if mark.isPrefixOf input then format.decode (input.drop mark.length) else none
  decode_encode value rest := by
    rw [List.append_assoc, if_pos (List.isPrefixOf_iff_prefix.mpr (List.prefix_append _ _)),
      List.drop_left, format.decode_encode]

/-- Two values in a row. -/
def pair (left : WireFormat V) (right : WireFormat W) : WireFormat (V × W) where
  encode value := left.encode value.1 ++ right.encode value.2
  decode input := do
    let (first, rest) ← left.decode input
    let (second, rest) ← right.decode rest
    return ((first, second), rest)
  decode_encode value rest := by
    simp [List.append_assoc, left.decode_encode, right.decode_encode]

/-- Values written as values of another type. -/
def convert (format : WireFormat V) (write : W → V) (read : V → Option W)
    (inverse : ∀ value, read (write value) = some value) : WireFormat W where
  encode value := format.encode (write value)
  decode input := do
    let (raw, rest) ← format.decode input
    let value ← read raw
    return (value, rest)
  decode_encode value rest := by
    simp [format.decode_encode, inverse]

/-- Exactly `count` bytes. -/
def octets (count : Nat) : WireFormat (Octets count) where
  encode value := value.1
  decode input :=
    if enough : count ≤ input.length then
      some (⟨input.take count, List.length_take_of_le enough⟩, input.drop count)
    else none
  decode_encode value rest := by
    obtain ⟨bytes, rfl⟩ := value
    simp

/-- Read a number of values in a row. -/
def decodeMany (item : WireFormat V) : Nat → List UInt8 → Option (List V × List UInt8)
  | 0, input => some ([], input)
  | count + 1, input => do
      let (first, rest) ← item.decode input
      let (others, rest) ← decodeMany item count rest
      return (first :: others, rest)

theorem decodeMany_flatMap (item : WireFormat V) (values : List V) (rest : List UInt8) :
    item.decodeMany values.length (values.flatMap item.encode ++ rest) = some (values, rest) := by
  induction values with
  | nil => rfl
  | cons value values inductionHypothesis =>
      simp [decodeMany, List.append_assoc, item.decode_encode, inductionHypothesis]

/-- Exactly `count` values in a row. -/
def repeated (count : Nat) (item : WireFormat V) :
    WireFormat {values : List V // values.length = count} where
  encode values := values.1.flatMap item.encode
  decode input := do
    let (values, rest) ← item.decodeMany count input
    if exact : values.length = count then return (⟨values, exact⟩, rest) else none
  decode_encode values rest := by
    obtain ⟨values, rfl⟩ := values
    simp [item.decodeMany_flatMap]

/-- A list: the number of its values, then the values. -/
def list (count : WireFormat Nat) (item : WireFormat V) : WireFormat (List V) where
  encode values := count.encode values.length ++ values.flatMap item.encode
  decode input := do
    let (length, rest) ← count.decode input
    item.decodeMany length rest
  decode_encode values rest := by
    simp [List.append_assoc, count.decode_encode, item.decodeMany_flatMap]

/-- One byte as it is. -/
def byte : WireFormat UInt8 where
  encode value := [value]
  decode
    | [] => none
    | value :: rest => some (value, rest)
  decode_encode _ _ := rfl

/-- An optional value: a single byte for its absence, or the value itself, whose
encoding starts with another byte. -/
def orByte (absent : UInt8) (format : WireFormat V)
    (apart : ∀ value, ∃ first rest, format.encode value = first :: rest ∧ first ≠ absent) :
    WireFormat (Option V) where
  encode
    | none => [absent]
    | some value => format.encode value
  decode
    | [] => none
    | first :: rest =>
        if first = absent then some (none, rest)
        else (format.decode (first :: rest)).map fun result => (some result.1, result.2)
  decode_encode value rest := by
    cases value with
    | none => simp
    | some value =>
        obtain ⟨first, tail, split, different⟩ := apart value
        have decoded := format.decode_encode value rest
        rw [split, List.cons_append] at decoded
        simp [split, different, decoded]

/-- No encoding that is cut short decodes. -/
def SelfDelimiting (format : WireFormat V) : Prop :=
  ∀ value front back, format.encode value = front ++ back → back ≠ [] →
    format.decode front = none

/-- What is read does not depend on what follows it. -/
def Stable (format : WireFormat V) : Prop :=
  ∀ input value rest more, format.decode input = some (value, rest) →
    format.decode (input ++ more) = some (value, rest ++ more)

/-- If more input does not change what is read, a cut encoding cannot decode: the
whole of it would decode to something that leaves the cut part over. -/
theorem Stable.selfDelimiting {format : WireFormat V} (stable : format.Stable) :
    format.SelfDelimiting := by
  intro value front back cut nonempty
  cases decoded : format.decode front with
  | none => rfl
  | some result =>
      have whole := stable front result.1 result.2 back decoded
      have exactly := format.decode_encode value []
      rw [List.append_nil, cut, whole] at exactly
      simp only [Option.some.injEq, Prod.mk.injEq, List.append_eq_nil_iff] at exactly
      exact absurd exactly.2.2 nonempty

theorem Stable.marked {format : WireFormat V} (stable : format.Stable) (mark : List UInt8) :
    (format.marked mark).Stable := by
  intro input value rest more decoded
  simp only [WireFormat.marked] at decoded ⊢
  obtain ⟨isMarked, decoded⟩ := Option.ite_none_right_eq_some.mp decoded
  obtain ⟨tail, rfl⟩ := List.isPrefixOf_iff_prefix.mp isMarked
  rw [List.append_assoc, if_pos (List.isPrefixOf_iff_prefix.mpr (List.prefix_append _ _)),
    List.drop_left]
  rw [List.drop_left] at decoded
  exact stable tail value rest more decoded

theorem Stable.pair {left : WireFormat V} {right : WireFormat W} (leftStable : left.Stable)
    (rightStable : right.Stable) : (left.pair right).Stable := by
  intro input value rest more decoded
  obtain ⟨⟨first, middle⟩, isFirst, decoded⟩ := Option.bind_eq_some_iff.mp decoded
  obtain ⟨⟨second, remaining⟩, isSecond, decoded⟩ := Option.bind_eq_some_iff.mp decoded
  cases decoded
  refine Option.bind_eq_some_iff.mpr ⟨_, leftStable _ _ _ more isFirst, ?_⟩
  exact Option.bind_eq_some_iff.mpr ⟨_, rightStable _ _ _ more isSecond, rfl⟩

theorem Stable.convert {format : WireFormat V} (stable : format.Stable) {write : W → V}
    {read : V → Option W} (inverse : ∀ value, read (write value) = some value) :
    (format.convert write read inverse).Stable := by
  intro input value rest more decoded
  obtain ⟨⟨raw, remaining⟩, isRaw, decoded⟩ := Option.bind_eq_some_iff.mp decoded
  obtain ⟨converted, isConverted, decoded⟩ := Option.bind_eq_some_iff.mp decoded
  cases decoded
  refine Option.bind_eq_some_iff.mpr ⟨_, stable _ _ _ more isRaw, ?_⟩
  exact Option.bind_eq_some_iff.mpr ⟨_, isConverted, rfl⟩

theorem Stable.octets (count : Nat) : (WireFormat.octets count).Stable := by
  intro input value rest more decoded
  simp only [WireFormat.octets] at decoded ⊢
  split at decoded
  · rename_i enough
    cases decoded
    rw [dif_pos (by rw [List.length_append]; omega)]
    simp [List.take_append_of_le_length enough, List.drop_append_of_le_length enough]
  · cases decoded

theorem Stable.decodeMany {item : WireFormat V} (stable : item.Stable) {count : Nat}
    {input rest : List UInt8} {values : List V} (more : List UInt8)
    (decoded : item.decodeMany count input = some (values, rest)) :
    item.decodeMany count (input ++ more) = some (values, rest ++ more) := by
  induction count generalizing input values with
  | zero =>
      cases decoded
      rfl
  | succ count inductionHypothesis =>
      obtain ⟨⟨first, middle⟩, isFirst, decoded⟩ := Option.bind_eq_some_iff.mp decoded
      obtain ⟨⟨others, remaining⟩, isOthers, decoded⟩ := Option.bind_eq_some_iff.mp decoded
      cases decoded
      refine Option.bind_eq_some_iff.mpr ⟨_, stable _ _ _ more isFirst, ?_⟩
      exact Option.bind_eq_some_iff.mpr ⟨_, inductionHypothesis isOthers, rfl⟩

theorem Stable.repeated {item : WireFormat V} (stable : item.Stable) (count : Nat) :
    (item.repeated count).Stable := by
  intro input value rest more decoded
  obtain ⟨⟨values, remaining⟩, isValues, decoded⟩ := Option.bind_eq_some_iff.mp decoded
  refine Option.bind_eq_some_iff.mpr ⟨_, stable.decodeMany more isValues, ?_⟩
  by_cases exactly : values.length = count
  · simp only [exactly, dite_true] at decoded ⊢
    cases decoded
    rfl
  · simp [exactly] at decoded

theorem Stable.list {count : WireFormat Nat} {item : WireFormat V} (countStable : count.Stable)
    (itemStable : item.Stable) : (WireFormat.list count item).Stable := by
  intro input value rest more decoded
  obtain ⟨⟨length, remaining⟩, isLength, decoded⟩ := Option.bind_eq_some_iff.mp decoded
  exact Option.bind_eq_some_iff.mpr
    ⟨_, countStable _ _ _ more isLength, itemStable.decodeMany more decoded⟩

theorem Stable.byte : WireFormat.byte.Stable := by
  rintro (_ | ⟨first, tail⟩) value rest more decoded
  · cases decoded
  · cases decoded
    rfl

theorem Stable.orByte {format : WireFormat V} (stable : format.Stable) (absent : UInt8)
    (apart : ∀ value, ∃ first rest, format.encode value = first :: rest ∧ first ≠ absent) :
    (WireFormat.orByte absent format apart).Stable := by
  rintro (_ | ⟨first, tail⟩) value rest more decoded
  · cases decoded
  · simp only [WireFormat.orByte, List.cons_append] at decoded ⊢
    split at decoded
    · rename_i isAbsent
      cases decoded
      rw [if_pos isAbsent]
    · rename_i present
      obtain ⟨⟨inner, remaining⟩, isInner, decoded⟩ := Option.map_eq_some_iff.mp decoded
      cases decoded
      rw [if_neg present]
      exact Option.map_eq_some_iff.mpr ⟨_, stable _ _ _ more isInner, rfl⟩

/-- Where written values are cut: after some of them, or inside the next one. -/
theorem cut_flatMap (item : WireFormat V) {values : List V} {front back : List UInt8}
    (cut : values.flatMap item.encode = front ++ back) :
    ∃ whole later inside, values = whole ++ later ∧
      front = whole.flatMap item.encode ++ inside ∧
      (inside = [] ∨ ∃ next after outside, later = next :: after ∧
        item.encode next = inside ++ outside ∧ inside ≠ [] ∧ outside ≠ []) := by
  induction values generalizing front with
  | nil =>
      obtain ⟨rfl, _⟩ := List.append_eq_nil_iff.mp cut.symm
      exact ⟨[], [], [], rfl, rfl, .inl rfl⟩
  | cons value values inductionHypothesis =>
      rw [List.flatMap_cons] at cut
      rcases List.append_eq_append_iff.mp cut with ⟨others, rfl, cutLater⟩ |
        ⟨outside, written, _⟩
      · obtain ⟨whole, later, inside, rfl, rfl, place⟩ := inductionHypothesis cutLater
        exact ⟨value :: whole, later, inside, rfl, by simp, place⟩
      · by_cases nothing : front = []
        · exact ⟨[], value :: values, [], rfl, nothing, .inl rfl⟩
        · by_cases all : outside = []
          · rw [all, List.append_nil] at written
            exact ⟨[value], values, [], rfl, by simp [written], .inl rfl⟩
          · exact ⟨[], value :: values, front, rfl, rfl,
              .inr ⟨value, values, outside, rfl, written, nothing, all⟩⟩

end WireFormat
end CofreSoberano.Std
