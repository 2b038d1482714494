import Mathlib.Data.List.Forall2
import Mathlib.Data.List.TakeWhile
import Mathlib.Tactic.IntervalCases

/-!
# JSON texts

The values of RFC 8259 and a parser for them, on lists of characters. Numbers keep
their exact decimal value, and the members of an object their order. `Encodes` says that
a text is read as a value in any context a value can stand in; compound texts are put
together from it.
-/

namespace CofreSoberano.Std

/-- A JSON value. A number is `mantissa * 10 ^ exponent`. -/
inductive Json where
  | null
  | bool (value : Bool)
  | number (mantissa exponent : Int)
  | string (text : String)
  | array (items : List Json)
  | object (members : List (String × Json))

namespace Json

/-- Insignificant white space. -/
def isSpace (c : Char) : Bool := c = ' ' || c = '\t' || c = '\n' || c = '\r'

def skipSpace (text : List Char) : List Char := text.dropWhile isSpace

/-- The value of a hexadecimal digit. -/
def hexDigit? (c : Char) : Option Nat :=
  if '0' ≤ c ∧ c ≤ '9' then some (c.toNat - 48)
  else if 'a' ≤ c ∧ c ≤ 'f' then some (c.toNat - 87)
  else if 'A' ≤ c ∧ c ≤ 'F' then some (c.toNat - 55)
  else none

/-- What a character after a backslash stands for. -/
def simpleEscape? (c : Char) : Option Char :=
  if c = '"' then some '"'
  else if c = '\\' then some '\\'
  else if c = '/' then some '/'
  else if c = 'b' then some '\x08'
  else if c = 'f' then some '\x0c'
  else if c = 'n' then some '\n'
  else if c = 'r' then some '\r'
  else if c = 't' then some '\t'
  else none

/-- A piece of a string: a character, or a UTF-16 code unit that was written as such. -/
inductive StringItem where
  | char (c : Char)
  | unit (code : Nat)

/-- The pieces of a string, after its opening quote, and what follows its closing one. -/
def stringItems : List Char → Option (List StringItem × List Char)
  | [] => none
  | c :: rest =>
      if c = '"' then some ([], rest)
      else if c = '\\' then
        match rest with
        | [] => none
        | escaped :: rest =>
            if escaped = 'u' then
              match rest with
              | first :: second :: third :: fourth :: rest => do
                  let first ← hexDigit? first
                  let second ← hexDigit? second
                  let third ← hexDigit? third
                  let fourth ← hexDigit? fourth
                  let (items, rest) ← stringItems rest
                  return (.unit (((first * 16 + second) * 16 + third) * 16 + fourth) :: items, rest)
              | _ => none
            else do
              let c ← simpleEscape? escaped
              let (items, rest) ← stringItems rest
              return (.char c :: items, rest)
      else if c.toNat < 0x20 then none
      else do
        let (items, rest) ← stringItems rest
        return (.char c :: items, rest)

/-- The characters of the pieces. Surrogates come in pairs. -/
def combine : List StringItem → Option (List Char)
  | [] => some []
  | .char c :: rest => (combine rest).map (c :: ·)
  | .unit code :: rest =>
      if code < 0xD800 ∨ 0xE000 ≤ code then (combine rest).map (Char.ofNat code :: ·)
      else match rest with
      | .unit low :: rest =>
          if code < 0xDC00 ∧ 0xDC00 ≤ low ∧ low < 0xE000 then
            (combine rest).map
              (Char.ofNat (0x10000 + (code - 0xD800) * 0x400 + (low - 0xDC00)) :: ·)
          else none
      | _ => none

/-- A string, after its opening quote. -/
def string? (text : List Char) : Option (String × List Char) := do
  let (items, rest) ← stringItems text
  let chars ← combine items
  return (String.ofList chars, rest)

/-- A fraction, if there is one. -/
def fraction? : List Char → Option (List Char × List Char)
  | '.' :: rest =>
      if rest.takeWhile Char.isDigit = [] then none
      else some (rest.takeWhile Char.isDigit, rest.dropWhile Char.isDigit)
  | text => some ([], text)

/-- The digits of an exponent. -/
def exponentDigits? (negative : Bool) (text : List Char) : Option (Int × List Char) :=
  if text.takeWhile Char.isDigit = [] then none
  else
    let size : Int := Nat.ofDigitChars 10 (text.takeWhile Char.isDigit) 0
    some (if negative then -size else size, text.dropWhile Char.isDigit)

/-- An exponent, if there is one. -/
def exponent? : List Char → Option (Int × List Char)
  | c :: rest =>
      if c = 'e' ∨ c = 'E' then
        match rest with
        | '-' :: rest => exponentDigits? true rest
        | '+' :: rest => exponentDigits? false rest
        | _ => exponentDigits? false rest
      else some (0, c :: rest)
  | [] => some (0, [])

/-- A number without its sign. -/
def unsigned? (negative : Bool) (text : List Char) : Option (Json × List Char) := do
  let whole := text.takeWhile Char.isDigit
  if whole = [] ∨ whole.head? = some '0' ∧ 1 < whole.length then none
  else
    let (fraction, rest) ← fraction? (text.dropWhile Char.isDigit)
    let (exponent, rest) ← exponent? rest
    let size : Int := Nat.ofDigitChars 10 (whole ++ fraction) 0
    return (.number (if negative then -size else size) (exponent - fraction.length), rest)

def number? : List Char → Option (Json × List Char)
  | '-' :: rest => unsigned? true rest
  | text => unsigned? false text

mutual

/-- A value, and what follows it. The fuel bounds the nesting and the number of members. -/
def value? : Nat → List Char → Option (Json × List Char)
  | 0, _ => none
  | fuel + 1, text =>
      match skipSpace text with
      | '"' :: rest => (string? rest).map fun (text, rest) => (.string text, rest)
      | '{' :: rest =>
          match skipSpace rest with
          | '}' :: rest => some (.object [], rest)
          | rest => (members? fuel rest).map fun (members, rest) => (.object members, rest)
      | '[' :: rest =>
          match skipSpace rest with
          | ']' :: rest => some (.array [], rest)
          | rest => (items? fuel rest).map fun (items, rest) => (.array items, rest)
      | 't' :: 'r' :: 'u' :: 'e' :: rest => some (.bool true, rest)
      | 'f' :: 'a' :: 'l' :: 's' :: 'e' :: rest => some (.bool false, rest)
      | 'n' :: 'u' :: 'l' :: 'l' :: rest => some (.null, rest)
      | rest => number? rest

/-- The members of an object up to its closing brace. -/
def members? : Nat → List Char → Option (List (String × Json) × List Char)
  | 0, _ => none
  | fuel + 1, text =>
      match skipSpace text with
      | '"' :: rest => do
          let (key, rest) ← string? rest
          match skipSpace rest with
          | ':' :: rest => do
              let (value, rest) ← value? fuel rest
              match skipSpace rest with
              | ',' :: rest => do
                  let (members, rest) ← members? fuel rest
                  return ((key, value) :: members, rest)
              | '}' :: rest => return ([(key, value)], rest)
              | _ => none
          | _ => none
      | _ => none

/-- The items of an array up to its closing bracket. -/
def items? : Nat → List Char → Option (List Json × List Char)
  | 0, _ => none
  | fuel + 1, text => do
      let (value, rest) ← value? fuel text
      match skipSpace rest with
      | ',' :: rest => do
          let (items, rest) ← items? fuel rest
          return (value :: items, rest)
      | ']' :: rest => return ([value], rest)
      | _ => none

end

/-- A JSON text: one value, and nothing after it. -/
def parse (text : String) : Option Json := do
  let (value, rest) ← value? (text.toList.length + 1) text.toList
  if skipSpace rest = [] then some value else none

/-! ### Strings -/

/-- The text inside a string that stands for the character `c`. -/
def Spells (text : List Char) (c : Char) : Prop :=
  ∃ item, (∀ rest, stringItems (text ++ rest) =
      (stringItems rest).map fun (items, rest) => (item :: items, rest)) ∧
    ∀ items, combine (item :: items) = (combine items).map (c :: ·)

theorem spells_plain {c : Char} (quote : c ≠ '"') (backslash : c ≠ '\\')
    (printable : 0x20 ≤ c.toNat) : Spells [c] c := by
  refine ⟨.char c, fun rest => ?_, fun items => by rw [combine]⟩
  rw [List.singleton_append, stringItems.eq_def]
  simp only [quote, backslash, if_false, Nat.not_lt.mpr printable]
  cases stringItems rest <;> rfl

theorem spells_simple {escaped c : Char} (escape : simpleEscape? escaped = some c)
    (short : escaped ≠ 'u') : Spells ['\\', escaped] c := by
  refine ⟨.char c, fun rest => ?_, fun items => by rw [combine]⟩
  rw [List.cons_append, List.singleton_append, stringItems.eq_def]
  simp only [show '\\' ≠ '"' by decide, short, if_false, if_true, escape]
  cases stringItems rest <;> rfl

/-- Four hexadecimal digits of a code point that is no surrogate. -/
theorem spells_code {first second third fourth : Char} {a b c d : Nat}
    (firstDigit : hexDigit? first = some a) (secondDigit : hexDigit? second = some b)
    (thirdDigit : hexDigit? third = some c) (fourthDigit : hexDigit? fourth = some d)
    (scalar : ((a * 16 + b) * 16 + c) * 16 + d < 0xD800) :
    Spells ['\\', 'u', first, second, third, fourth]
      (Char.ofNat (((a * 16 + b) * 16 + c) * 16 + d)) := by
  refine ⟨.unit (((a * 16 + b) * 16 + c) * 16 + d), fun rest => ?_, fun items => ?_⟩
  · rw [show ['\\', 'u', first, second, third, fourth] ++ rest =
      '\\' :: 'u' :: first :: second :: third :: fourth :: rest from rfl, stringItems.eq_def]
    simp only [show '\\' ≠ '"' by decide, if_false, if_true, firstDigit, secondDigit, thirdDigit,
      fourthDigit]
    cases stringItems rest <;> rfl
  · rw [combine.eq_def]
    simp only [scalar, true_or, if_true]

/-- A text that, with a quote after it, is read as the rest of the string `value`. -/
def EncodesString (text : List Char) (value : String) : Prop :=
  ∀ rest, string? (text ++ '"' :: rest) = some (value, rest)

/-- A string is spelled character by character. -/
theorem encodesString_flatMap (spell : Char → List Char) (value : String)
    (spells : ∀ c ∈ value.toList, Spells (spell c) c) :
    EncodesString (value.toList.flatMap spell) value := by
  intro rest
  have read : ∀ chars : List Char, (∀ c ∈ chars, Spells (spell c) c) → ∃ items,
      stringItems (chars.flatMap spell ++ '"' :: rest) = some (items, rest) ∧
      combine items = some chars := by
    intro chars spells
    induction chars with
    | nil => exact ⟨[], by rw [List.flatMap_nil, List.nil_append, stringItems.eq_def]; rfl, rfl⟩
    | cons c chars inductionHypothesis =>
        obtain ⟨items, read, combined⟩ := inductionHypothesis
          fun c member => spells c (List.mem_cons_of_mem _ member)
        obtain ⟨item, itemRead, itemCombined⟩ := spells c List.mem_cons_self
        refine ⟨item :: items, ?_, ?_⟩
        · rw [List.flatMap_cons, List.append_assoc, itemRead, read]
          rfl
        · rw [itemCombined, combined]
          rfl
  obtain ⟨items, read, combined⟩ := read value.toList spells
  simp [string?, read, combined]

/-- A string of characters that need no escape stands for itself. -/
theorem encodesString_plain {value : String}
    (plain : ∀ c ∈ value.toList, c ≠ '"' ∧ c ≠ '\\' ∧ 0x20 ≤ c.toNat) :
    EncodesString value.toList value := by
  have spelled := encodesString_flatMap (fun c => [c]) value
    fun c member => spells_plain (plain c member).1 (plain c member).2.1 (plain c member).2.2
  rwa [List.flatMap_singleton'] at spelled

/-! ### Values -/

/-- What may stand after a value. -/
def Delimited (rest : List Char) : Prop :=
  ∀ c, rest.head? = some c → c = ',' ∨ c = '}' ∨ c = ']' ∨ isSpace c = true

/-- A text that is read as `value` wherever a value may stand. -/
def Encodes (text : List Char) (value : Json) : Prop :=
  ∀ fuel, text.length < fuel → ∀ rest, Delimited rest →
    value? fuel (text ++ rest) = some (value, rest)

theorem skipSpace_cons {c : Char} (visible : isSpace c = false) (text : List Char) :
    skipSpace (c :: text) = c :: text := by
  simp [skipSpace, visible]

theorem encodes_string {text : List Char} {value : String} (encodes : EncodesString text value) :
    Encodes ('"' :: text ++ ['"']) (.string value) := by
  intro fuel enough rest _
  obtain ⟨fuel, rfl⟩ : ∃ n, fuel = n + 1 := ⟨fuel - 1, by omega⟩
  rw [value?, show '"' :: text ++ ['"'] ++ rest = '"' :: (text ++ '"' :: rest) by simp,
    skipSpace_cons rfl]
  simp [encodes rest]

theorem Delimited.fraction {rest : List Char} (delimited : Delimited rest) :
    fraction? rest = some ([], rest) := by
  unfold fraction?
  split
  · have := delimited '.' rfl
    simp [isSpace] at this
  · rfl

theorem Delimited.exponent {rest : List Char} (delimited : Delimited rest) :
    exponent? rest = some (0, rest) := by
  cases rest with
  | nil => rfl
  | cons c rest =>
      have none : ¬(c = 'e' ∨ c = 'E') := by
        rintro (rfl | rfl) <;> simp [Delimited, isSpace] at delimited
      rw [exponent?.eq_def]
      simp only [none, if_false]

theorem Delimited.undigit {rest : List Char} (delimited : Delimited rest) (c : Char)
    (first : rest.head? = some c) : c.isDigit = false := by
  rcases delimited c first with rfl | rfl | rfl | space
  · rfl
  · rfl
  · rfl
  · simp only [isSpace, Bool.or_eq_true, decide_eq_true_eq, or_assoc] at space
    rcases space with rfl | rfl | rfl | rfl <;> rfl

/-- Digits that end where `rest` begins. -/
theorem Delimited.whole {rest : List Char} (delimited : Delimited rest) (digits : List Char)
    (numeric : ∀ c ∈ digits, c.isDigit = true) :
    (digits ++ rest).takeWhile Char.isDigit = digits ∧
      (digits ++ rest).dropWhile Char.isDigit = rest := by
  have stops : rest.takeWhile Char.isDigit = [] ∧ rest.dropWhile Char.isDigit = rest := by
    cases rest with
    | nil => exact ⟨rfl, rfl⟩
    | cons c rest => simp [delimited.undigit c rfl]
  rw [List.takeWhile_append_of_pos numeric, List.dropWhile_append_of_pos numeric, stops.1,
    stops.2, List.append_nil]
  exact ⟨rfl, rfl⟩

/-- Decimal digits have no superfluous zero in front. -/
theorem toDigits_head {n : Nat} (positive : 0 < n) : (Nat.toDigits 10 n).head? ≠ some '0' := by
  induction n using Nat.strongRecOn with
  | _ n inductionHypothesis =>
      by_cases small : n < 10
      · rw [Nat.toDigits_of_lt_base small]
        interval_cases n <;> decide
      · rw [Nat.toDigits_of_base_le (by decide) (by omega)]
        intro zero
        rw [List.head?_append, Option.or_of_isSome (by simp [Nat.toDigits_ne_nil])] at zero
        exact inductionHypothesis (n / 10) (by omega) (by omega) zero

theorem unsigned_toDigits (n : Nat) {rest : List Char} (delimited : Delimited rest) :
    unsigned? false (Nat.toDigits 10 n ++ rest) = some (.number n 0, rest) := by
  obtain ⟨taken, dropped⟩ := delimited.whole (Nat.toDigits 10 n)
    fun c member => Nat.isDigit_of_mem_toDigits (by decide) (by decide) member
  have shortest : ¬(Nat.toDigits 10 n = [] ∨
      (Nat.toDigits 10 n).head? = some '0' ∧ 1 < (Nat.toDigits 10 n).length) := by
    rintro (empty | ⟨zero, long⟩)
    · exact Nat.toDigits_ne_nil empty
    · rcases Nat.eq_zero_or_pos n with rfl | positive
      · simp at long
      · exact toDigits_head positive zero
  simp only [unsigned?, taken, dropped, if_neg shortest, delimited.fraction]
  simp [delimited.exponent, Nat.ofDigitChars_ten_toDigits]

/-- A natural number in decimal. -/
theorem encodes_nat (n : Nat) : Encodes n.repr.toList (.number n 0) := by
  intro fuel enough rest delimited
  obtain ⟨fuel, rfl⟩ : ∃ n, fuel = n + 1 := ⟨fuel - 1, by omega⟩
  rw [Nat.toList_repr]
  have read := unsigned_toDigits n delimited
  obtain ⟨c, digits, split⟩ :=
    List.exists_cons_of_ne_nil (Nat.toDigits_ne_nil (n := n) (b := 10))
  have numeric : c.isDigit = true :=
    Nat.isDigit_of_mem_toDigits (b := 10) (n := n) (by decide) (by decide) (by simp [split])
  rw [split, List.cons_append] at read ⊢
  have visible : isSpace c = false := by
    cases space : isSpace c with
    | false => rfl
    | true =>
        simp only [isSpace, Bool.or_eq_true, decide_eq_true_eq, or_assoc] at space
        rcases space with rfl | rfl | rfl | rfl <;> cases numeric
  rw [value?, skipSpace_cons visible]
  -- no digit opens a string, an object, an array or a keyword, or is a sign
  split
  all_goals try
    rename_i opens
    rw [(List.cons.inj opens).1] at numeric
    exact absurd numeric (by decide)
  unfold number?
  split
  · rename_i opens
    rw [(List.cons.inj opens).1] at numeric
    exact absurd numeric (by decide)
  · exact read

/-! ### Objects -/

/-- The texts of an object's members, with a comma between any two. -/
def commaSeparated : List (List Char) → List Char
  | [] => []
  | [text] => text
  | text :: next :: rest => text ++ ',' :: commaSeparated (next :: rest)

/-- The text of a member: its key, a colon and its value. -/
def EncodesMember (text : List Char) (member : String × Json) : Prop :=
  ∃ key value, text = '"' :: key ++ '"' :: ':' :: value ∧
    EncodesString key member.1 ∧ Encodes value member.2

theorem delimited_comma (rest : List Char) : Delimited (',' :: rest) := by
  simp [Delimited]

theorem delimited_brace (rest : List Char) : Delimited ('}' :: rest) := by
  simp [Delimited]

/-- The last member of an object. -/
theorem EncodesMember.last {text : List Char} {member : String × Json}
    (encodes : EncodesMember text member) {fuel : Nat} (enough : text.length < fuel)
    (rest : List Char) : members? fuel (text ++ '}' :: rest) = some ([member], rest) := by
  obtain ⟨key, value, rfl, keyEncodes, valueEncodes⟩ := encodes
  simp only [List.length_append, List.length_cons] at enough
  obtain ⟨fuel, rfl⟩ : ∃ n, fuel = n + 1 := ⟨fuel - 1, by omega⟩
  have keyRead := keyEncodes (':' :: (value ++ '}' :: rest))
  have valueRead := valueEncodes fuel (by omega) ('}' :: rest) (delimited_brace rest)
  rw [members?, show '"' :: key ++ '"' :: ':' :: value ++ '}' :: rest =
    '"' :: (key ++ '"' :: ':' :: (value ++ '}' :: rest)) by simp, skipSpace_cons rfl]
  simp [keyRead, valueRead, skipSpace_cons (show isSpace ':' = false from rfl),
    skipSpace_cons (show isSpace '}' = false from rfl)]

/-- A member of an object with members after it. -/
theorem EncodesMember.more {text others : List Char} {member : String × Json}
    {members : List (String × Json)} (encodes : EncodesMember text member) {fuel : Nat}
    (enough : text.length ≤ fuel) {rest : List Char}
    (later : members? fuel others = some (members, rest)) :
    members? (fuel + 1) (text ++ ',' :: others) = some (member :: members, rest) := by
  obtain ⟨key, value, rfl, keyEncodes, valueEncodes⟩ := encodes
  simp only [List.length_append, List.length_cons] at enough
  have keyRead := keyEncodes (':' :: (value ++ ',' :: others))
  have valueRead := valueEncodes fuel (by omega) (',' :: others) (delimited_comma others)
  rw [members?, show '"' :: key ++ '"' :: ':' :: value ++ ',' :: others =
    '"' :: (key ++ '"' :: ':' :: (value ++ ',' :: others)) by simp, skipSpace_cons rfl]
  simp [keyRead, valueRead, later, skipSpace_cons (show isSpace ':' = false from rfl),
    skipSpace_cons (show isSpace ',' = false from rfl)]

theorem members_commaSeparated {texts : List (List Char)} {members : List (String × Json)}
    (encodes : List.Forall₂ EncodesMember texts members) (inhabited : texts ≠ []) :
    ∀ fuel, (commaSeparated texts).length < fuel → ∀ rest,
      members? fuel (commaSeparated texts ++ '}' :: rest) = some (members, rest) := by
  induction encodes with
  | nil => exact absurd rfl inhabited
  | @cons text member texts members first others inductionHypothesis =>
      intro fuel enough rest
      cases others with
      | nil => exact first.last enough rest
      | @cons next nextMember texts members second others =>
          simp only [commaSeparated, List.length_append, List.length_cons] at enough
          obtain ⟨fuel, rfl⟩ : ∃ n, fuel = n + 1 := ⟨fuel - 1, by omega⟩
          have later := inductionHypothesis (by simp) fuel (by omega) rest
          rw [commaSeparated, List.append_assoc, List.cons_append]
          exact first.more (by omega) later

/-- Members start with the quote of a key. -/
theorem commaSeparated_quote {text : List Char} {member : String × Json}
    (encodes : EncodesMember text member) (texts : List (List Char)) :
    ∃ others, commaSeparated (text :: texts) = '"' :: others := by
  obtain ⟨key, value, rfl, -, -⟩ := encodes
  cases texts with
  | nil => exact ⟨_, rfl⟩
  | cons next texts => exact ⟨_, rfl⟩

/-- An object of members. -/
theorem encodes_object {texts : List (List Char)} {members : List (String × Json)}
    (encodes : List.Forall₂ EncodesMember texts members) :
    Encodes ('{' :: commaSeparated texts ++ ['}']) (.object members) := by
  intro fuel enough rest _
  simp only [List.length_append, List.length_cons] at enough
  obtain ⟨fuel, rfl⟩ : ∃ n, fuel = n + 1 := ⟨fuel - 1, by omega⟩
  cases encodes with
  | nil => rfl
  | @cons text member texts members first others =>
      have read := members_commaSeparated (.cons first others) (by simp) fuel (by omega) rest
      obtain ⟨behind, split⟩ := commaSeparated_quote first texts
      rw [split] at read ⊢
      rw [value?, show '{' :: ('"' :: behind) ++ ['}'] ++ rest =
        '{' :: '"' :: (behind ++ '}' :: rest) by simp, skipSpace_cons rfl]
      rw [List.cons_append] at read
      simp [skipSpace_cons (show isSpace '"' = false from rfl), read]

/-- What two values are followed by does not help to confuse them. -/
theorem Encodes.append_inj {left right leftRest rightRest : List Char} {leftValue rightValue : Json}
    (leftEncodes : Encodes left leftValue) (rightEncodes : Encodes right rightValue)
    (leftDelimited : Delimited leftRest) (rightDelimited : Delimited rightRest)
    (same : left ++ leftRest = right ++ rightRest) :
    leftValue = rightValue ∧ leftRest = rightRest := by
  have leftRead := leftEncodes (left.length + right.length + 1) (by omega) leftRest leftDelimited
  have rightRead := rightEncodes (left.length + right.length + 1) (by omega) rightRest
    rightDelimited
  rw [same, rightRead] at leftRead
  simpa [eq_comm] using leftRead

/-- A text that encodes a value is read as that value. -/
theorem parse_of_encodes {text : String} {value : Json} (encodes : Encodes text.toList value) :
    parse text = some value := by
  have delimited : Delimited [] := by simp [Delimited]
  have read := encodes (text.toList.length + 1) (Nat.lt_succ_self _) [] delimited
  rw [List.append_nil] at read
  rw [parse, read]
  rfl

end Json
end CofreSoberano.Std
