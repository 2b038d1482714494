import Mathlib.Data.List.TakeWhile

/-!
# The text exposition format

A parser for the line oriented text in which metrics are scraped: help and type comments,
and samples with labels. A label value stands in quotes and spells a backslash, a quote and
a line feed with a backslash. `Sample.text` is how a sample is written; whatever characters
its label values hold, it is one line and is read back as that sample.
-/

namespace CofreSoberano.Std.Exposition

structure Label where
  name : List Char
  value : List Char
deriving DecidableEq, Repr

/-- A value of a series; a time stamp is never written here. -/
structure Sample where
  metric : List Char
  labels : List Label
  value : List Char
deriving DecidableEq, Repr

inductive Line where
  | help (metric text : List Char)
  | type (metric kind : List Char)
  | sample (sample : Sample)
deriving DecidableEq, Repr

def isNameChar (c : Char) : Bool := c.isAlphanum || c = '_' || c = ':'

/-- What a character after a backslash stands for in a label value. -/
def unescape? (c : Char) : Option Char :=
  if c = '\\' then some '\\'
  else if c = '"' then some '"'
  else if c = 'n' then some '\n'
  else none

/-- A label value after its opening quote, and what follows the closing one. -/
def quoted? : List Char → Option (List Char × List Char)
  | [] => none
  | c :: rest =>
      if c = '"' then some ([], rest)
      else if c = '\\' then
        match rest with
        | [] => none
        | escaped :: rest => do
            let c ← unescape? escaped
            let (value, rest) ← quoted? rest
            return (c :: value, rest)
      else do
        let (value, rest) ← quoted? rest
        return (c :: value, rest)

/-- Labels up to the closing brace. The fuel bounds their number. -/
def labels? : Nat → List Char → Option (List Label × List Char)
  | 0, _ => none
  | fuel + 1, text =>
      match text.dropWhile isNameChar with
      | '=' :: '"' :: rest => do
          let (value, rest) ← quoted? rest
          let label : Label := { name := text.takeWhile isNameChar, value }
          match rest with
          | ',' :: rest => do
              let (labels, rest) ← labels? fuel rest
              return (label :: labels, rest)
          | '}' :: rest => return ([label], rest)
          | _ => none
      | _ => none

/-- A value, which ends the line. -/
def value? : List Char → Option (List Char)
  | ' ' :: value => if value = [] ∨ ' ' ∈ value then none else some value
  | _ => none

def sample? (text : List Char) : Option Sample :=
  let metric := text.takeWhile isNameChar
  if metric = [] then none
  else match text.dropWhile isNameChar with
    | '{' :: rest => do
        let (labels, rest) ← labels? (rest.length + 1) rest
        let value ← value? rest
        return { metric, labels, value }
    | rest => do
        let value ← value? rest
        return { metric, labels := [], value }

/-- A name and the text after it. -/
def named? (text : List Char) : Option (List Char × List Char) :=
  match text.dropWhile isNameChar with
  | ' ' :: rest => some (text.takeWhile isNameChar, rest)
  | _ => none

def line? (text : List Char) : Option Line :=
  if ['#', ' ', 'H', 'E', 'L', 'P', ' '].isPrefixOf text then
    (named? (text.drop 7)).map fun (metric, text) => .help metric text
  else if ['#', ' ', 'T', 'Y', 'P', 'E', ' '].isPrefixOf text then
    (named? (text.drop 7)).map fun (metric, kind) => .type metric kind
  else (sample? text).map .sample

/-- The lines of a text, each of which is ended by a line feed. -/
def split? (line : List Char) : List Char → Option (List (List Char))
  | [] => if line = [] then some [] else none
  | c :: rest => if c = '\n' then (split? [] rest).map (line :: ·) else split? (line ++ [c]) rest

def parse? (text : List Char) : Option (List Line) := do
  let lines ← split? [] text
  lines.mapM line?

/-- How a character of a label value is written. -/
def escape (c : Char) : List Char :=
  if c = '\\' then ['\\', '\\']
  else if c = '"' then ['\\', '"']
  else if c = '\n' then ['\\', 'n']
  else [c]

def Label.text (label : Label) : List Char :=
  label.name ++ '=' :: '"' :: label.value.flatMap escape ++ ['"']

/-- Labels with commas between them. -/
def labelsText : List Label → List Char
  | [] => []
  | [label] => label.text
  | label :: rest => label.text ++ ',' :: labelsText rest

def Sample.text (sample : Sample) : List Char :=
  match sample.labels with
  | [] => sample.metric ++ ' ' :: sample.value
  | labels => sample.metric ++ '{' :: labelsText labels ++ '}' :: ' ' :: sample.value

def Line.text : Line → List Char
  | .help metric text => ['#', ' ', 'H', 'E', 'L', 'P', ' '] ++ (metric ++ ' ' :: text)
  | .type metric kind => ['#', ' ', 'T', 'Y', 'P', 'E', ' '] ++ (metric ++ ' ' :: kind)
  | .sample shown => shown.text

/-- A name that is read as a whole. -/
def IsName (name : List Char) : Prop := name ≠ [] ∧ ∀ c ∈ name, isNameChar c = true

/-- The parts of a line that are not escaped may not break it. -/
def Line.Sound : Line → Prop
  | .help metric text => IsName metric ∧ '\n' ∉ text
  | .type metric kind => IsName metric ∧ '\n' ∉ kind
  | .sample shown => IsName shown.metric ∧ (∀ label ∈ shown.labels, IsName label.name) ∧
      shown.value ≠ [] ∧ ' ' ∉ shown.value ∧ '\n' ∉ shown.value

section Reading

/-- A name is taken as a whole before a character that cannot stand in one. -/
theorem IsName.split {name : List Char} (named : IsName name) {c : Char}
    (stops : isNameChar c = false) (rest : List Char) :
    (name ++ c :: rest).takeWhile isNameChar = name ∧
      (name ++ c :: rest).dropWhile isNameChar = c :: rest := by
  constructor
  · rw [List.takeWhile_append_of_pos named.2, List.takeWhile_cons_of_neg (by simp [stops]),
      List.append_nil]
  · rw [List.dropWhile_append_of_pos named.2, List.dropWhile_cons_of_neg (by simp [stops])]

/-- A written character of a label value is read back. -/
theorem quoted?_spelled (c : Char) (rest : List Char) :
    quoted? (escape c ++ rest) = (quoted? rest).map (Prod.map (c :: ·) id) := by
  rw [escape]
  split_ifs with backslash quote newline
  · subst backslash
    rw [List.cons_append, List.singleton_append, quoted?.eq_def]
    simp only [show '\\' ≠ '"' by decide, if_false, if_true, unescape?]
    cases quoted? rest <;> rfl
  · subst quote
    rw [List.cons_append, List.singleton_append, quoted?.eq_def]
    simp only [show '\\' ≠ '"' by decide, show '"' ≠ '\\' by decide,
      if_false, if_true, unescape?]
    cases quoted? rest <;> rfl
  · subst newline
    rw [List.cons_append, List.singleton_append, quoted?.eq_def]
    simp only [show '\\' ≠ '"' by decide, if_false, if_true, unescape?,
      show 'n' ≠ '"' by decide, show 'n' ≠ '\\' by decide]
    cases quoted? rest <;> rfl
  · rw [List.singleton_append, quoted?.eq_def]
    simp only [quote, backslash, if_false]
    cases quoted? rest <;> rfl

/-- A written label value is read up to its closing quote. -/
theorem quoted?_escape (value rest : List Char) :
    quoted? (value.flatMap escape ++ '"' :: rest) = some (value, rest) := by
  induction value with
  | nil =>
      rw [List.flatMap_nil, List.nil_append, quoted?.eq_def]
      rfl
  | cons c value inductionHypothesis =>
      rw [List.flatMap_cons, List.append_assoc, quoted?_spelled, inductionHypothesis]
      rfl

theorem labels?_text {labels : List Label} (some : labels ≠ [])
    (named : ∀ label ∈ labels, IsName label.name) (rest : List Char) {fuel : Nat}
    (enough : labels.length ≤ fuel) :
    labels? fuel (labelsText labels ++ '}' :: rest) = .some (labels, rest) := by
  induction labels generalizing fuel with
  | nil => exact absurd rfl some
  | cons label labels inductionHypothesis =>
      obtain ⟨fuel, rfl⟩ : ∃ less, fuel = less + 1 :=
        ⟨fuel - 1, by simp at enough; omega⟩
      have own := named label List.mem_cons_self
      have stops : isNameChar '=' = false := by decide
      cases labels with
      | nil =>
          obtain ⟨taken, dropped⟩ := own.split stops
            ('"' :: (label.value.flatMap escape ++ '"' :: '}' :: rest))
          have text : labelsText [label] ++ '}' :: rest =
              label.name ++ '=' :: '"' :: (label.value.flatMap escape ++ '"' :: '}' :: rest) := by
            simp [labelsText, Label.text]
          rw [text, labels?, taken, dropped]
          simp [quoted?_escape]
      | cons second others =>
          obtain ⟨taken, dropped⟩ := own.split stops
            ('"' :: (label.value.flatMap escape ++ '"' :: ',' ::
              (labelsText (second :: others) ++ '}' :: rest)))
          have text : labelsText (label :: second :: others) ++ '}' :: rest =
              label.name ++ '=' :: '"' :: (label.value.flatMap escape ++ '"' :: ',' ::
                (labelsText (second :: others) ++ '}' :: rest)) := by
            simp [labelsText, Label.text]
          have later := inductionHypothesis (List.cons_ne_nil _ _)
            (fun other member => named other (List.mem_cons_of_mem _ member))
            (by simpa using enough : (second :: others).length ≤ fuel)
          rw [text, labels?, taken, dropped]
          simp [quoted?_escape, later]

theorem value?_text {value : List Char} (some : value ≠ []) (whole : ' ' ∉ value) :
    value? (' ' :: value) = .some value := by
  simp [value?, some, whole]

theorem length_labelsText (labels : List Label) : labels.length ≤ (labelsText labels).length := by
  induction labels with
  | nil => exact Nat.le_refl _
  | cons label labels inductionHypothesis =>
      cases labels with
      | nil =>
          simp [labelsText, Label.text]
          omega
      | cons second others =>
          simp only [labelsText, List.length_append, List.length_cons] at inductionHypothesis ⊢
          omega

/-- A written sample is read back, whatever its label values are. -/
theorem sample?_text {sample : Sample} (sound : (Line.sample sample).Sound) :
    sample? sample.text = some sample := by
  obtain ⟨named, labelled, some, whole, _⟩ := sound
  obtain ⟨metric, labels, value⟩ := sample
  have first : metric ≠ [] := named.1
  cases labels with
  | nil =>
      obtain ⟨taken, dropped⟩ := named.split (c := ' ') (by decide) value
      simp only at taken dropped
      rw [Sample.text, sample?, taken, dropped, if_neg first]
      simp [value?_text some whole]
  | cons label labels =>
      obtain ⟨taken, dropped⟩ := named.split (c := '{') (by decide)
        (labelsText (label :: labels) ++ '}' :: ' ' :: value)
      have enough : (label :: labels).length ≤
          (labelsText (label :: labels) ++ '}' :: ' ' :: value).length + 1 := by
        have longer := length_labelsText (label :: labels)
        rw [List.length_append]
        omega
      have read := labels?_text (List.cons_ne_nil label labels) labelled (' ' :: value) enough
      have text : Sample.text { metric, labels := label :: labels, value } =
          metric ++ '{' :: (labelsText (label :: labels) ++ '}' :: ' ' :: value) := by
        simp [Sample.text]
      simp only at taken dropped
      rw [text, sample?, taken, dropped, if_neg first]
      simp only [read, Option.bind_eq_bind, Option.bind_some, value?_text some whole]
      rfl

theorem named?_text {name : List Char} (named : IsName name) (text : List Char) :
    named? (name ++ ' ' :: text) = some (name, text) := by
  obtain ⟨taken, dropped⟩ := named.split (c := ' ') (by decide) text
  rw [named?, taken, dropped]
  rfl

/-- A name does not start a comment. -/
theorem IsName.head {name : List Char} (named : IsName name) :
    ∃ c rest, name = c :: rest ∧ c ≠ '#' := by
  obtain ⟨some, named⟩ := named
  cases name with
  | nil => exact absurd rfl some
  | cons c rest =>
      refine ⟨c, rest, rfl, ?_⟩
      rintro rfl
      exact absurd (named '#' List.mem_cons_self) (by decide)

theorem Sample.text_head {sample : Sample} (named : IsName sample.metric) :
    ∃ c rest, sample.text = c :: rest ∧ c ≠ '#' := by
  obtain ⟨c, rest, same, other⟩ := named.head
  obtain ⟨metric, labels, value⟩ := sample
  simp only at same
  subst same
  cases labels with
  | nil => exact ⟨c, _, rfl, other⟩
  | cons label labels => exact ⟨c, _, rfl, other⟩

/-- Every written line is read back. -/
theorem line?_text {line : Line} (sound : line.Sound) : line? line.text = some line := by
  cases line with
  | help metric text => simp [line?, Line.text, named?_text sound.1]
  | type metric kind => simp [line?, Line.text, named?_text sound.1]
  | sample shown =>
      obtain ⟨c, rest, text, other⟩ := Sample.text_head sound.1
      have read := sample?_text sound
      rw [text] at read
      simp [line?, Line.text, text, Ne.symm other, read]

theorem escape_unbroken (c : Char) : '\n' ∉ escape c := by
  rw [escape]
  split_ifs with backslash quote newline
  · decide
  · decide
  · decide
  · simpa using Ne.symm newline

theorem IsName.unbroken {name : List Char} (named : IsName name) : '\n' ∉ name :=
  fun member => absurd (named.2 _ member) (by decide)

theorem labelsText_unbroken {labels : List Label}
    (named : ∀ label ∈ labels, IsName label.name) : '\n' ∉ labelsText labels := by
  induction labels with
  | nil => simp [labelsText]
  | cons label labels inductionHypothesis =>
      have own : '\n' ∉ label.text := by
        have name := (named label List.mem_cons_self).unbroken
        simp [Label.text, name, escape_unbroken]
      cases labels with
      | nil => exact own
      | cons second others =>
          have later := inductionHypothesis fun other member =>
            named other (List.mem_cons_of_mem _ member)
          simp [labelsText, own, later]

/-- No written line holds a line feed. -/
theorem text_unbroken {line : Line} (sound : line.Sound) : '\n' ∉ line.text := by
  cases line with
  | help metric text => simp [Line.text, sound.1.unbroken, sound.2]
  | type metric kind => simp [Line.text, sound.1.unbroken, sound.2]
  | sample shown =>
      obtain ⟨named, labelled, _, _, value⟩ := sound
      have labels := labelsText_unbroken labelled
      have metric := named.unbroken
      rw [Line.text, Sample.text]
      split
      · simp [metric, value]
      · simp [metric, labels, value]

end Reading

section Texts

/-- A line without a line feed is collected up to the line feed that ends it. -/
theorem split?_line {line : List Char} (unbroken : '\n' ∉ line) (before rest : List Char) :
    split? before (line ++ '\n' :: rest) = (split? [] rest).map ((before ++ line) :: ·) := by
  induction line generalizing before with
  | nil => simp [split?]
  | cons c line inductionHypothesis =>
      obtain ⟨other, unbroken⟩ := not_or.mp (mt List.mem_cons.mpr unbroken)
      rw [List.cons_append, split?, if_neg (Ne.symm other), inductionHypothesis unbroken]
      simp

/-- Lines that hold no line feed are split where they were joined. -/
theorem split?_lines {lines : List (List Char)} (unbroken : ∀ line ∈ lines, '\n' ∉ line) :
    split? [] (lines.flatMap (· ++ ['\n'])) = some lines := by
  induction lines with
  | nil => rfl
  | cons line lines inductionHypothesis =>
      have later := inductionHypothesis fun other member =>
        unbroken other (List.mem_cons_of_mem _ member)
      rw [List.flatMap_cons, List.append_assoc, List.singleton_append,
        split?_line (unbroken line List.mem_cons_self), later]
      rfl

/-- A text of written lines is read as these lines. -/
theorem parse?_lines {lines : List Line} (sound : ∀ line ∈ lines, line.Sound) :
    parse? (lines.flatMap (·.text ++ ['\n'])) = some lines := by
  have split : split? [] ((lines.map Line.text).flatMap (· ++ ['\n'])) =
      some (lines.map Line.text) := by
    refine split?_lines fun text member => ?_
    obtain ⟨line, present, rfl⟩ := List.mem_map.mp member
    exact text_unbroken (sound line present)
  rw [List.flatMap_map] at split
  rw [parse?, split, Option.bind_eq_bind, Option.bind_some, List.mapM_map]
  clear split
  induction lines with
  | nil => rfl
  | cons line lines inductionHypothesis =>
      have later := inductionHypothesis fun other member =>
        sound other (List.mem_cons_of_mem _ member)
      simp [List.mapM_cons, line?_text (sound line List.mem_cons_self), later]

end Texts

end CofreSoberano.Std.Exposition
