import CofreSoberano.Std.Xml
import Mathlib.Data.List.Forall2
import Mathlib.Data.List.TakeWhile

/-!
# Reading written XML

What a parser reports of a document that was written from events. Line breaks in texts and
white space in the values of attributes are normalised on the way, and nothing else is
lost; characters that may not stand in a document make it malformed. `Writes` is the
specification of an element that is being written, put together from its children.
-/

namespace CofreSoberano.Std.Xml

theorem write_decl (layout : Layout) (before : List Event) (version encoding : String) :
    (Event.decl version encoding).write layout before =
      layout.indent before (.decl version encoding) ++ ("<?xml".toList ++
        [("version", version), ("encoding", encoding)].flatMap writeAttribute ++ ['?', '>']) :=
  rfl

theorem write_start (layout : Layout) (before : List Event) (name : String)
    (attributes : List (String × String)) :
    (Event.start name attributes).write layout before = layout.indent before
      (.start name attributes) ++
      ('<' :: name.toList ++ attributes.flatMap writeAttribute ++ ['>']) :=
  rfl

theorem write_close (layout : Layout) (before : List Event) (name : String) :
    (Event.close name).write layout before =
      layout.indent before (.close name) ++ ('<' :: '/' :: name.toList ++ ['>']) :=
  rfl

theorem write_text (layout : Layout) (before : List Event) (data : String) :
    (Event.text data).write layout before = escape data.toList :=
  rfl

theorem writeAll_append (layout : Layout) (before first second : List Event) :
    writeAll layout before (first ++ second) =
      writeAll layout before first ++ writeAll layout (before ++ first) second := by
  induction first generalizing before with
  | nil => simp [writeAll]
  | cons event first inductionHypothesis => simp [writeAll, inductionHypothesis]

/-! ### Line breaks -/

theorem normalizeEol_cons {c : Char} (other : c ≠ '\r') (rest : List Char) :
    normalizeEol (c :: rest) = c :: normalizeEol rest := by
  rw [normalizeEol]
  · simp [other]
  · simp [other]

theorem normalizeEol_append {text : List Char} (clean : '\r' ∉ text) (rest : List Char) :
    normalizeEol (text ++ rest) = text ++ normalizeEol rest := by
  induction text with
  | nil => rfl
  | cons c text inductionHypothesis =>
      rw [List.mem_cons, not_or] at clean
      rw [List.cons_append, normalizeEol_cons (Ne.symm clean.1), inductionHypothesis clean.2,
        List.cons_append]

theorem normalizeEol_clean {text : List Char} (clean : '\r' ∉ text) :
    normalizeEol text = text := by
  simpa [normalizeEol] using normalizeEol_append clean []

theorem carriage_not_mem_normalizeEol (text : List Char) : '\r' ∉ normalizeEol text := by
  induction text using normalizeEol.induct with
  | case1 => simp [normalizeEol]
  | case2 rest inductionHypothesis => simp [normalizeEol, inductionHypothesis]
  | case3 rest lone inductionHypothesis =>
      rw [normalizeEol]
      · simp [inductionHypothesis]
      · exact lone
  | case4 c rest single other inductionHypothesis =>
      have different : c ≠ '\r' := by
        rintro rfl
        exact other rfl
      rw [normalizeEol_cons different]
      simp [inductionHypothesis, Ne.symm different]

/-- Line breaks are not changed exactly when there is no carriage return. -/
theorem normalizeEol_eq_iff (text : List Char) : normalizeEol text = text ↔ '\r' ∉ text := by
  refine ⟨fun same => ?_, normalizeEol_clean⟩
  rw [← same]
  exact carriage_not_mem_normalizeEol text

/-! ### Escaping -/

theorem escape_cons (c : Char) (text : List Char) :
    escape (c :: text) = escapeChar c ++ escape text :=
  List.flatMap_cons

theorem escapeChar_line (c : Char) : c ≠ '\r' → '\r' ∉ escapeChar c := by
  intro other
  unfold escapeChar
  split_ifs <;> simp [Ne.symm other]

/-- A line feed in front of an escaped text was in front of the text. -/
theorem escape_head {text rest : List Char} (first : (escape text ++ rest).head? = some '\n') :
    text.head? = some '\n' ∨ text = [] ∧ rest.head? = some '\n' := by
  cases text with
  | nil => exact .inr ⟨rfl, first⟩
  | cons c text =>
      rw [escape_cons] at first
      unfold escapeChar at first
      split_ifs at first <;> simp_all

theorem normalizeEol_lone {rest : List Char} (lone : rest.head? ≠ some '\n') :
    normalizeEol ('\r' :: rest) = '\n' :: normalizeEol rest := by
  rw [normalizeEol]
  rintro behind rfl
  exact lone rfl

/-- Line breaks are normalised in a text and behind it, unless one goes across its end. -/
theorem normalizeEol_escape (text : List Char) {rest : List Char}
    (apart : rest.head? ≠ some '\n') :
    normalizeEol (escape text ++ rest) = escape (normalizeEol text) ++ normalizeEol rest := by
  have feed : escapeChar '\n' = ['\n'] := rfl
  have carriage : escapeChar '\r' = ['\r'] := rfl
  induction text using normalizeEol.induct with
  | case1 => rfl
  | case2 text inductionHypothesis =>
      simp only [normalizeEol, escape_cons, feed, carriage, List.cons_append, List.nil_append,
        inductionHypothesis]
  | case3 text lone inductionHypothesis =>
      have inside : text.head? ≠ some '\n' := by
        cases text with
        | nil => simp
        | cons c text =>
            rintro ⟨⟩
            exact lone text rfl
      have behind : (escape text ++ rest).head? ≠ some '\n' := by
        intro first
        rcases escape_head first with within | ⟨_, outside⟩
        · exact inside within
        · exact apart outside
      simp only [normalizeEol_lone inside, escape_cons, feed, carriage, List.cons_append,
        List.nil_append, normalizeEol_lone behind, inductionHypothesis]
  | case4 c text single other inductionHypothesis =>
      have different : c ≠ '\r' := by
        rintro rfl
        exact other rfl
      rw [normalizeEol_cons different, escape_cons, escape_cons, List.append_assoc,
        normalizeEol_append (escapeChar_line c different), inductionHypothesis, List.append_assoc]

theorem resolve_reference (normalize : Char → Char) (body : List Char) {c : Char}
    (unended : ';' ∉ body) (stands : character? body = some c) (rest : List Char) :
    resolve normalize none ('&' :: body ++ ';' :: rest) =
      (resolve normalize none rest).map (c :: ·) := by
  have pending (read left : List Char) (unended : ';' ∉ left) :
      resolve normalize (some read) (left ++ ';' :: rest) =
        resolve normalize (some (left.reverse ++ read)) (';' :: rest) := by
    induction left generalizing read with
    | nil => rfl
    | cons next left inductionHypothesis =>
        rw [List.mem_cons, not_or] at unended
        rw [List.cons_append, resolve, if_neg (Ne.symm unended.1), inductionHypothesis _ unended.2,
          List.reverse_cons, List.append_assoc]
        rfl
  rw [List.cons_append, resolve, if_pos rfl, pending [] body unended, resolve, if_pos rfl,
    List.append_nil, List.reverse_reverse, stands]
  cases resolve normalize none rest <;> rfl

/-- Resolving the references of an escaped text undoes the escaping. -/
theorem resolve_escape (normalize : Char → Char) (text : List Char)
    (fixed : ∀ c ∈ ['<', '>', '\'', '&', '"'], normalize c = c) :
    resolve normalize none (escape text) = some (text.map normalize) := by
  induction text with
  | nil => rfl
  | cons c text inductionHypothesis =>
      have resolved : resolve normalize none (escapeChar c ++ escape text) =
          (resolve normalize none (escape text)).map (normalize c :: ·) := by
        unfold escapeChar
        split_ifs with less greater apostrophe ampersand quote
        · rw [less, fixed '<' (by decide)]
          exact resolve_reference normalize ['l', 't'] (by decide) (by decide) _
        · rw [greater, fixed '>' (by decide)]
          exact resolve_reference normalize ['g', 't'] (by decide) (by decide) _
        · rw [apostrophe, fixed '\'' (by decide)]
          exact resolve_reference normalize ['a', 'p', 'o', 's'] (by decide) (by decide) _
        · rw [ampersand, fixed '&' (by decide)]
          exact resolve_reference normalize ['a', 'm', 'p'] (by decide) (by decide) _
        · rw [quote, fixed '"' (by decide)]
          exact resolve_reference normalize ['q', 'u', 'o', 't'] (by decide) (by decide) _
        · rw [List.singleton_append, resolve, if_neg ampersand]
      rw [escape_cons, resolved, inductionHypothesis]
      rfl

/-- An escaped text holds no markup. -/
theorem escape_markup (text : List Char) (c : Char) (member : c ∈ escape text) :
    c ≠ '<' ∧ c ≠ '>' ∧ c ≠ '"' := by
  obtain ⟨source, -, member⟩ := List.mem_flatMap.mp member
  unfold escapeChar at member
  split_ifs at member with less greater apostrophe ampersand quote
  · simp only [List.mem_cons, List.not_mem_nil, or_false] at member
    rcases member with rfl | rfl | rfl | rfl <;> decide
  · simp only [List.mem_cons, List.not_mem_nil, or_false] at member
    rcases member with rfl | rfl | rfl | rfl <;> decide
  · simp only [List.mem_cons, List.not_mem_nil, or_false] at member
    rcases member with rfl | rfl | rfl | rfl | rfl | rfl <;> decide
  · simp only [List.mem_cons, List.not_mem_nil, or_false] at member
    rcases member with rfl | rfl | rfl | rfl | rfl <;> decide
  · simp only [List.mem_cons, List.not_mem_nil, or_false] at member
    rcases member with rfl | rfl | rfl | rfl | rfl | rfl <;> decide
  · obtain rfl := List.mem_singleton.mp member
    exact ⟨less, greater, quote⟩

/-- Text up to a mark it does not hold. -/
theorem span_mark {mark : Char} {text : List Char} (free : ∀ c ∈ text, c ≠ mark)
    (rest : List Char) : (text ++ mark :: rest).takeWhile (· ≠ mark) = text ∧
      (text ++ mark :: rest).dropWhile (· ≠ mark) = mark :: rest := by
  have holds : ∀ c ∈ text, decide (c ≠ mark) = true :=
    fun c member => decide_eq_true (free c member)
  rw [List.takeWhile_append_of_pos holds, List.dropWhile_append_of_pos holds]
  simp

theorem characterData_escape (text : List Char) :
    characterData? (escape text) = some (String.ofList text) := by
  have unended : ¬[']', ']', '>'] <:+: escape text := fun infixed =>
    (escape_markup text '>' (infixed.subset (by simp))).2.1 rfl
  rw [characterData?, if_neg unended, resolve_escape id text fun _ _ => rfl,
    List.map_id]
  rfl

theorem normalizeEol_attributeValue (value rest : List Char) :
    normalizeEol (escape value ++ '"' :: rest) = escape (normalizeEol value) ++
      '"' :: normalizeEol rest := by
  rw [normalizeEol_escape value (by simp), normalizeEol_cons (by decide)]

/-! ### Tags -/

/-- A name in the grammar of the recommendation. -/
def isName (name : String) : Bool :=
  match name.toList with
  | [] => false
  | c :: rest => isNameStart c && rest.all isNameChar

theorem name_append {name : String} (legal : isName name = true) (rest : List Char)
    (ends : ∀ c, rest.head? = some c → isNameChar c = false) :
    name? (name.toList ++ rest) = some (name, rest) := by
  unfold isName at legal
  split at legal
  · cases legal
  · rename_i c text split
    rw [Bool.and_eq_true, List.all_eq_true] at legal
    have stops : rest.takeWhile isNameChar = [] ∧ rest.dropWhile isNameChar = rest := by
      cases rest with
      | nil => exact ⟨rfl, rfl⟩
      | cons next rest => simp [ends next rfl]
    rw [split, List.cons_append, name?, if_pos legal.1, List.takeWhile_append_of_pos legal.2,
      List.dropWhile_append_of_pos legal.2, stops.1, stops.2, List.append_nil, ← split,
      String.ofList_toList]

/-- No name holds white space. -/
theorem isName_space {name : String} (legal : isName name = true) (c : Char)
    (member : c ∈ name.toList) : isSpace c = false := by
  have named : isNameChar c = true := by
    unfold isName at legal
    split at legal
    · cases legal
    · rename_i first rest split
      rw [Bool.and_eq_true, List.all_eq_true] at legal
      rw [split, List.mem_cons] at member
      rcases member with rfl | member
      · simp [isNameChar, legal.1]
      · exact legal.2 c member
  cases space : isSpace c with
  | false => rfl
  | true =>
      simp only [isSpace, Bool.or_eq_true, decide_eq_true_eq, or_assoc] at space
      rcases space with rfl | rfl | rfl | rfl <;> exact absurd named (by decide)

theorem isName_ne_nil {name : String} (legal : isName name = true) : name.toList ≠ [] := by
  intro empty
  simp [isName, empty] at legal

/-- The value a parser reports for an attribute with the value `value` after line breaks
were normalised. -/
def attributeText (value : List Char) : String := String.ofList (value.map normalizeSpace)

theorem attributeValue_escape (value rest : List Char) :
    attributeValue? '"' (escape value ++ '"' :: rest) = some (attributeText value, rest) := by
  obtain ⟨taken, dropped⟩ := span_mark (fun c member => (escape_markup value c member).2.2) rest
  have unopened : '<' ∉ escape value := fun member => (escape_markup value '<' member).1 rfl
  rw [attributeValue?, taken, dropped]
  simp [unopened, resolve_escape normalizeSpace value (by simp [normalizeSpace, isSpace]),
    attributeText]

/-- What ends the attributes of a tag. -/
def EndsTag (rest : List Char) : Prop :=
  ∃ c tail, rest = c :: tail ∧ isSpace c = false ∧ isNameStart c = false

theorem skipSpace_cons {c : Char} (visible : isSpace c = false) (text : List Char) :
    skipSpace (c :: text) = c :: text := by
  simp [skipSpace, visible]

/-- The attributes of a tag are read as they were written. -/
theorem attributes_write (pairs : List (String × String))
    (legal : ∀ pair ∈ pairs, isName pair.1 = true) (rest : List Char) (ends : EndsTag rest) :
    ∀ fuel, (pairs.flatMap writeAttribute).length < fuel →
      attributes? fuel (pairs.flatMap writeAttribute ++ rest) =
        some (pairs.map fun pair => (pair.1, attributeText pair.2.toList), rest) := by
  induction pairs with
  | nil =>
      intro fuel enough
      obtain ⟨fuel, rfl⟩ : ∃ n, fuel = n + 1 := ⟨fuel - 1, by omega⟩
      obtain ⟨c, tail, rfl, visible, unnamed⟩ := ends
      simp [attributes?, skipSpace_cons visible, name?, unnamed]
  | cons pair pairs inductionHypothesis =>
      intro fuel enough
      simp only [List.flatMap_cons, List.length_append, writeAttribute, List.length_cons] at enough
      obtain ⟨fuel, rfl⟩ : ∃ n, fuel = n + 1 := ⟨fuel - 1, by omega⟩
      have later :=
        inductionHypothesis (fun pair member => legal pair (List.mem_cons_of_mem _ member))
        fuel (by omega)
      have isLegal := legal pair List.mem_cons_self
      obtain ⟨c, tail, split⟩ := List.exists_cons_of_ne_nil (isName_ne_nil isLegal)
      have skipped (behind : List Char) :
          skipSpace (' ' :: (pair.1.toList ++ behind)) = pair.1.toList ++ behind := by
        rw [split]
        exact skipSpace_cons (isName_space isLegal c (by simp [split])) (tail ++ behind)
      have value (others : List Char) :
          afterName? ('=' :: '"' :: (escape pair.2.toList ++ '"' :: others)) =
            some (attributeText pair.2.toList, others) :=
        attributeValue_escape pair.2.toList others
      have named (behind : List Char) := name_append isLegal ('=' :: behind)
        (by rintro c ⟨⟩; decide)
      rw [List.flatMap_cons, writeAttribute, attributes?]
      simp only [List.cons_append, List.append_assoc, List.nil_append, skipped,
        named, value]
      rw [if_neg (fun same => by simpa using congrArg List.length same), Option.bind_eq_bind,
        Option.bind_some, later]
      rfl

theorem endTag_write {name : String} (legal : isName name = true) (rest : List Char) :
    endTag? name ('<' :: '/' :: name.toList ++ '>' :: rest) = some rest := by
  have read := name_append legal ('>' :: rest)
    (by rintro c ⟨⟩; decide)
  simp only [endTag?, List.cons_append, read]
  simp [skipSpace_cons (show isSpace '>' = false from rfl)]

/-! ### Elements -/

/-- A text that, after an opening bracket, is read as the element `node`. -/
def ElementOf (text : List Char) (node : Node) : Prop :=
  ∀ fuel, text.length < fuel → ∀ rest, element? fuel (text ++ rest) = some (node, rest)

/-- A text that is read as the content `nodes` of an element. -/
def ContentOf (text : List Char) (nodes : List Node) : Prop :=
  ∀ fuel, text.length < fuel → ∀ rest,
    content? fuel (text ++ '<' :: '/' :: rest) = some (nodes, '<' :: '/' :: rest)

theorem contentOf_text (text : List Char) :
    ContentOf (escape text) [.text (String.ofList text)] := by
  intro fuel enough rest
  obtain ⟨fuel, rfl⟩ : ∃ n, fuel = n + 1 := ⟨fuel - 1, by omega⟩
  obtain ⟨taken, dropped⟩ :=
    span_mark (fun c member => (escape_markup text c member).1) ('/' :: rest)
  rw [content?, taken, dropped, characterData_escape]
  rfl

theorem ElementOf.starts {text : List Char} {node : Node} (element : ElementOf text node) :
    ∃ c tail, text = c :: tail ∧ isNameStart c = true := by
  have read := element (text.length + 1) (Nat.lt_succ_self _) []
  cases text with
  | nil => simp [element?, name?] at read
  | cons c tail =>
      refine ⟨c, tail, rfl, ?_⟩
      by_contra unnamed
      simp [element?, name?, unnamed] at read

/-- Text, then an element, then more content. -/
theorem contentOf_cons (before : List Char) {text more : List Char} {node : Node}
    {nodes : List Node} (element : ElementOf text node) (content : ContentOf more nodes) :
    ContentOf (escape before ++ '<' :: (text ++ more))
      (.text (String.ofList before) :: node :: nodes) := by
  intro fuel enough rest
  simp only [List.length_append, List.length_cons] at enough
  obtain ⟨fuel, rfl⟩ : ∃ n, fuel = n + 1 := ⟨fuel - 1, by omega⟩
  have elementRead := element fuel (by omega) (more ++ '<' :: '/' :: rest)
  have contentRead := content fuel (by omega) rest
  obtain ⟨taken, dropped⟩ := span_mark (fun c member => (escape_markup before c member).1)
    (text ++ (more ++ '<' :: '/' :: rest))
  obtain ⟨c, tail, rfl, named⟩ := element.starts
  rw [show escape before ++ '<' :: (c :: tail ++ more) ++ '<' :: '/' :: rest =
    escape before ++ '<' :: (c :: tail ++ (more ++ '<' :: '/' :: rest)) by simp, content?, taken,
    dropped, characterData_escape]
  simp only [Option.bind_eq_bind, Option.bind_some]
  -- the first character of a name opens no other markup
  split
  all_goals try
    rename_i opens
    rw [(List.cons.inj (List.cons.inj opens).2).1] at named
    exact absurd named (by decide)
  · rename_i opens
    cases opens
  · rename_i opens
    rw [← (List.cons.inj opens).2, elementRead, Option.bind_some, contentRead]
    rfl

/-- A start tag, content and the end tag. -/
theorem elementOf_content {name : String} (legal : isName name = true)
    (pairs : List (String × String)) (legalPairs : ∀ pair ∈ pairs, isName pair.1 = true)
    (distinct : (pairs.map Prod.fst).Nodup) {text : List Char} {nodes : List Node}
    (content : ContentOf text nodes) :
    ElementOf (name.toList ++ (pairs.flatMap writeAttribute ++ '>' :: (text ++
        '<' :: '/' :: (name.toList ++ ['>']))))
      (.element name (pairs.map fun pair => (pair.1, attributeText pair.2.toList)) nodes) := by
  intro fuel enough rest
  simp only [List.length_append, List.length_cons] at enough
  obtain ⟨fuel, rfl⟩ : ∃ n, fuel = n + 1 := ⟨fuel - 1, by omega⟩
  have contentRead := content fuel (by omega) (name.toList ++ '>' :: rest)
  have closed := endTag_write legal rest
  have tag (behind : List Char) := attributes_write pairs legalPairs ('>' :: behind)
    ⟨'>', behind, rfl, rfl, by decide⟩ _
    (show _ < (pairs.flatMap writeAttribute ++ '>' :: behind).length + 1 by
      rw [List.length_append]; omega)
  have named (behind : List Char) := name_append legal
    (pairs.flatMap writeAttribute ++ '>' :: behind) (by
      cases pairs with
      | nil => rintro c ⟨⟩; decide
      | cons pair pairs => rintro c ⟨⟩; decide)
  have sameNames : (pairs.map fun pair => (pair.1, attributeText pair.2.toList)).map Prod.fst =
      pairs.map Prod.fst := by
    rw [List.map_map]
    rfl
  rw [element?]
  simp only [List.append_assoc, List.cons_append, List.nil_append, named, Option.bind_eq_bind,
    Option.bind_some, tag, sameNames, distinct, not_true, if_false, contentRead]
  rw [← List.cons_append, ← List.cons_append, closed]
  rfl

/-! ### Written documents -/

/-- The text of a value after line breaks are normalised. -/
def reportedText (text : String) : String := String.ofList (normalizeEol text.toList)

theorem reportedText_eq_iff (text : String) : reportedText text = text ↔
    '\r' ∉ text.toList := by
  rw [← normalizeEol_eq_iff, reportedText, ← String.toList_inj, String.toList_ofList]

/-- The value of an attribute is reported as it is exactly when its white space is spaces. -/
theorem attributeText_eq_iff (value : String) :
    attributeText (normalizeEol value.toList) = value ↔
      ∀ c ∈ value.toList, c ≠ '\r' ∧ c ≠ '\n' ∧ c ≠ '\t' := by
  rw [attributeText, ← String.toList_inj, String.toList_ofList]
  constructor
  · intro same c member
    rw [← same] at member
    obtain ⟨source, -, rfl⟩ := List.mem_map.mp member
    by_cases space : isSpace source = true
    · rw [normalizeSpace, if_pos space]
      decide
    · rw [normalizeSpace, if_neg space]
      refine ⟨?_, ?_, ?_⟩ <;> rintro rfl <;> exact space rfl
  · intro spaces
    rw [normalizeEol_clean fun member => (spaces _ member).1 rfl]
    have same : ∀ c ∈ value.toList, normalizeSpace c = id c := by
      intro c member
      obtain ⟨carriage, feed, tab⟩ := spaces c member
      simp [normalizeSpace, isSpace, carriage, feed, tab, eq_comm]
    rw [List.map_congr_left same, List.map_id]

/-- The attributes a parser reports. -/
def reportedAttributes (attributes : List (String × String)) : List (String × String) :=
  attributes.map fun (name, value) => (name, attributeText (normalizeEol value.toList))

/-- Events that are written as one element, as which a parser reports a node with `spec`. -/
def Writes (layout : Layout) (events : List Event) (spec : Node → Prop) : Prop :=
  ∀ before, ∃ blank text name attributes children, (∀ c ∈ blank, c = ' ' ∨ c = '\n') ∧
    (∀ rest, normalizeEol (writeAll layout before events ++ rest) =
      blank ++ '<' :: (text ++ normalizeEol rest)) ∧
    ElementOf text (.element name attributes children) ∧ spec (.element name attributes children)

/-- A node with text only. -/
def IsLeaf (name : String) (attributes : List (String × String)) (text : String) (node : Node) :
    Prop :=
  node = .element name (reportedAttributes attributes) [.text (reportedText text)]

/-- A node with white space between the elements in it. -/
def IsBranch (name : String) (attributes : List (String × String)) (specs : List (Node → Prop))
    (node : Node) : Prop :=
  ∃ children, node = .element name (reportedAttributes attributes) children ∧
    List.Forall₂ (fun spec child => spec child) specs (elements children)

/-- Attributes with legal names, each once. -/
def legalAttributes (attributes : List (String × String)) : Bool :=
  attributes.all (fun pair => isName pair.1) && decide (attributes.map Prod.fst).Nodup

/-- The attributes of a tag with their line breaks normalised. -/
theorem normalizeEol_attributes {pairs : List (String × String)}
    (legal : ∀ pair ∈ pairs, isName pair.1 = true) (rest : List Char) :
    normalizeEol (pairs.flatMap writeAttribute ++ rest) =
      (pairs.map fun pair => (pair.1, reportedText pair.2)).flatMap writeAttribute ++
        normalizeEol rest := by
  induction pairs with
  | nil => rfl
  | cons pair pairs inductionHypothesis =>
      have later := inductionHypothesis fun pair member =>
        legal pair (List.mem_cons_of_mem _ member)
      have clean : '\r' ∉ pair.1.toList := fun member =>
        absurd (isName_space (legal pair List.mem_cons_self) _ member) (by decide)
      simp only [List.flatMap_cons, List.map_cons, writeAttribute, List.cons_append,
        List.append_assoc, List.nil_append, normalizeEol_cons (show ' ' ≠ '\r' by decide),
        normalizeEol_append clean, normalizeEol_cons (show '=' ≠ '\r' by decide),
        normalizeEol_cons (show '"' ≠ '\r' by decide), normalizeEol_attributeValue, later,
        reportedText, String.toList_ofList]

/-- The text of a start tag, after its opening bracket, with line breaks normalised. -/
def startText (name : String) (attributes : List (String × String)) : List Char :=
  name.toList ++
    (attributes.map fun pair => (pair.1, reportedText pair.2)).flatMap writeAttribute ++ ['>']

theorem Layout.clean (layout : Layout) (before : List Event) (next : Event) :
    '\r' ∉ layout.indent before next := by
  intro member
  rcases layout.blank before next _ member with same | same <;> cases same

theorem isName_clean {name : String} (legal : isName name = true) : '\r' ∉ name.toList :=
  fun member => absurd (isName_space legal _ member) (by decide)

theorem normalizeEol_start (layout : Layout) (before : List Event) {name : String}
    (legal : isName name = true) {attributes : List (String × String)}
    (legalPairs : legalAttributes attributes = true) (rest : List Char) :
    normalizeEol ((Event.start name attributes).write layout before ++ rest) =
      layout.indent before (.start name attributes) ++
      '<' :: (startText name attributes ++ normalizeEol rest) := by
  simp only [legalAttributes, Bool.and_eq_true, List.all_eq_true] at legalPairs
  simp only [write_start, startText, List.append_assoc, List.cons_append, List.nil_append,
    normalizeEol_append (layout.clean before _), normalizeEol_cons (show '<' ≠ '\r' by decide),
    normalizeEol_append (isName_clean legal), normalizeEol_attributes legalPairs.1,
    normalizeEol_cons (show '>' ≠ '\r' by decide)]

theorem normalizeEol_close (layout : Layout) (before : List Event) {name : String}
    (legal : isName name = true) (rest : List Char) :
    normalizeEol ((Event.close name).write layout before ++ rest) =
      layout.indent before (.close name) ++
      '<' :: '/' :: (name.toList ++ '>' :: normalizeEol rest) := by
  simp only [write_close, List.append_assoc, List.cons_append, List.nil_append,
    normalizeEol_append (layout.clean before _), normalizeEol_cons (show '<' ≠ '\r' by decide),
    normalizeEol_cons (show '/' ≠ '\r' by decide), normalizeEol_append (isName_clean legal),
    normalizeEol_cons (show '>' ≠ '\r' by decide)]

/-- A start tag, content and the end tag, as a parser sees them. -/
theorem elementOf_reported {name : String} (legal : isName name = true)
    {attributes : List (String × String)} (legalPairs : legalAttributes attributes = true)
    {text : List Char} {nodes : List Node} (content : ContentOf text nodes) :
    ElementOf (startText name attributes ++ (text ++ '<' :: '/' :: (name.toList ++ ['>'])))
      (.element name (reportedAttributes attributes) nodes) := by
  simp only [legalAttributes, Bool.and_eq_true, List.all_eq_true, decide_eq_true_eq] at legalPairs
  have element := elementOf_content legal
    (attributes.map fun pair => (pair.1, reportedText pair.2))
    (List.forall_mem_map.mpr legalPairs.1) (by rw [List.map_map]; exact legalPairs.2) content
  have reported : ((attributes.map fun pair => (pair.1, reportedText pair.2)).map
      fun pair => (pair.1, attributeText pair.2.toList)) = reportedAttributes attributes := by
    rw [List.map_map]
    exact List.map_congr_left fun pair _ => by simp [reportedText]
  rw [reported] at element
  rw [startText, List.append_assoc, List.append_assoc]
  exact element

theorem writes_leaf (layout : Layout) {name : String} (legal : isName name = true)
    {attributes : List (String × String)} (legalPairs : legalAttributes attributes = true)
    (text : String) :
    Writes layout [.start name attributes, .text text, .close name]
    (IsLeaf name attributes text) := by
  intro before
  have closing := layout.afterText (before ++ [.start name attributes]) text (.close name)
  rw [List.append_assoc] at closing
  refine ⟨_, _, _, _, _, layout.blank before (.start name attributes), fun rest => ?_,
    elementOf_reported legal legalPairs (contentOf_text (normalizeEol text.toList)), rfl⟩
  have written : writeAll layout before [.start name attributes, .text text, .close name] ++ rest =
      (Event.start name attributes).write layout before ++ (escape text.toList ++
        '<' :: '/' :: (name.toList ++ '>' :: rest)) := by
    simp [writeAll, write_text, write_close,
      show layout.indent (before ++ [.start name attributes, .text text]) (.close name) = []
        from closing]
  rw [written, normalizeEol_start layout before legal legalPairs,
    normalizeEol_escape _ (by simp), normalizeEol_cons (by decide), normalizeEol_cons (by decide),
    normalizeEol_append (isName_clean legal), normalizeEol_cons (by decide)]
  simp

/-- Elements one after another, up to an end tag. -/
theorem contentOf_writes (layout : Layout) {name : String} (legal : isName name = true)
    {children : List (List Event)} {specs : List (Node → Prop)}
    (writes : List.Forall₂ (Writes layout) children specs) (before : List Event) :
    ∃ text nodes,
      (∀ rest, normalizeEol (writeAll layout before (children.flatten ++ [.close name]) ++ rest) =
        text ++ '<' :: '/' :: (name.toList ++ '>' :: normalizeEol rest)) ∧
      ContentOf text nodes ∧ List.Forall₂ (fun spec child => spec child) specs
        (elements nodes) := by
  have plain {blank : List Char} (isBlank : ∀ c ∈ blank, c = ' ' ∨ c = '\n') :
      escape blank = blank := by
    have same : ∀ c ∈ blank, escapeChar c = [c] := fun c member => by
      rcases isBlank c member with rfl | rfl <;> rfl
    rw [escape, List.flatMap_congr same, List.flatMap_singleton']
  induction writes generalizing before with
  | nil =>
      refine ⟨layout.indent before (.close name),
        [.text (String.ofList (layout.indent before (.close name)))], ?_, ?_, .nil⟩
      · intro rest
        simpa [writeAll] using normalizeEol_close layout before legal rest
      · have content := contentOf_text (layout.indent before (.close name))
        rwa [plain (layout.blank before _)] at content
  | @cons child spec children specs first others inductionHypothesis =>
      obtain ⟨blank, text, tag, reported, inner, isBlank, written, element, specified⟩ :=
        first before
      obtain ⟨more, nodes, writtenMore, content, specifiedMore⟩ :=
        inductionHypothesis (before ++ child)
      refine ⟨blank ++ '<' :: (text ++ more),
        .text (String.ofList blank) :: .element tag reported inner :: nodes, ?_, ?_, ?_⟩
      · intro rest
        rw [List.flatten_cons, List.append_assoc, writeAll_append, List.append_assoc, written,
          writtenMore]
        simp
      · have whole := contentOf_cons blank element content
        rwa [plain isBlank] at whole
      · exact .cons specified specifiedMore

theorem writes_branch (layout : Layout) (name : String) (legal : isName name = true)
    (attributes : List (String × String)) (legalPairs : legalAttributes attributes = true)
    {children : List (List Event)} {specs : List (Node → Prop)}
    (writes : List.Forall₂ (Writes layout) children specs) :
    Writes layout (.start name attributes :: children.flatten ++ [.close name])
      (IsBranch name attributes specs) := by
  intro before
  obtain ⟨text, nodes, written, content, specified⟩ :=
    contentOf_writes layout legal writes (before ++ [.start name attributes])
  refine ⟨_, _, _, _, _, layout.blank before (.start name attributes), fun rest => ?_,
    elementOf_reported legal legalPairs content, nodes, rfl, specified⟩
  rw [List.cons_append, writeAll, List.append_assoc,
    normalizeEol_start layout before legal legalPairs, written]
  simp

/-- The strings of an event. -/
def Event.strings : Event → List String
  | .decl version encoding => [version, encoding]
  | .start name attributes => name :: attributes.flatMap fun (key, value) => [key, value]
  | .text data => [data]
  | .close name => [name]

/-- A text without characters that may not stand in a document. -/
def Legal (text : List Char) : Prop := ∀ c ∈ text, isChar c = true

instance (text : List Char) : Decidable (Legal text) :=
  List.decidableBAll _ text

theorem legal_nil : Legal [] := by simp [Legal]

theorem legal_append {left right : List Char} : Legal (left ++ right) ↔
    Legal left ∧ Legal right :=
  List.forall_mem_append

theorem legal_cons {c : Char} {text : List Char} :
    Legal (c :: text) ↔ isChar c = true ∧ Legal text :=
  List.forall_mem_cons

theorem legal_escape {text : List Char} : Legal (escape text) ↔ Legal text := by
  have each (c : Char) : Legal (escapeChar c) ↔ isChar c = true := by
    unfold escapeChar
    split_ifs with less greater apostrophe ampersand quote
    · subst less
      decide
    · subst greater
      decide
    · subst apostrophe
      decide
    · subst ampersand
      decide
    · subst quote
      decide
    · simp [Legal]
  rw [Legal, escape, List.forall_mem_flatMap]
  exact forall₂_congr fun c _ => each c

theorem legal_writeAttribute {pair : String × String} :
    Legal (writeAttribute pair) ↔ Legal pair.1.toList ∧ Legal pair.2.toList := by
  simp only [writeAttribute, legal_append, legal_cons, legal_nil, legal_escape,
    show isChar ' ' = true from rfl, show isChar '=' = true from rfl,
    show isChar '"' = true from rfl, true_and, and_true]

/-- Attributes without characters that may not stand in a document. -/
def LegalPairs (pairs : List (String × String)) : Prop :=
  ∀ pair ∈ pairs, Legal pair.1.toList ∧ Legal pair.2.toList

instance (pairs : List (String × String)) : Decidable (LegalPairs pairs) :=
  List.decidableBAll _ pairs

theorem legal_writeAttributes {pairs : List (String × String)} :
    Legal (pairs.flatMap writeAttribute) ↔ LegalPairs pairs := by
  rw [Legal, List.forall_mem_flatMap]
  exact forall₂_congr fun _ _ => legal_writeAttribute

/-- What is written for an event has legal characters exactly when its strings have. -/
theorem Event.write_legal (layout : Layout) (before : List Event) (event : Event) :
    Legal (event.write layout before) ↔ ∀ string ∈ event.strings, Legal string.toList := by
  have blank (next : Event) : Legal (layout.indent before next) := fun c member => by
    rcases layout.blank before next c member with rfl | rfl <;> decide
  have less : isChar '<' = true := rfl
  have greater : isChar '>' = true := rfl
  have slash : isChar '/' = true := rfl
  have question : isChar '?' = true := rfl
  have opening : Legal "<?xml".toList := by decide
  cases event with
  | decl version encoding =>
      have names : Legal "version".toList ∧ Legal "encoding".toList := by decide
      simp only [write_decl, Event.strings, legal_append, legal_cons, legal_nil,
        legal_writeAttributes, LegalPairs, List.forall_mem_cons, List.not_mem_nil, false_imp_iff,
        implies_true, blank, opening, question, greater, names.1, names.2, true_and, and_true]
  | start name attributes =>
      simp only [write_start, Event.strings, legal_append, legal_cons, legal_nil,
        legal_writeAttributes, LegalPairs, List.forall_mem_cons, List.forall_mem_flatMap,
        List.not_mem_nil, false_imp_iff, implies_true, blank, less, greater, true_and, and_true]
  | text data => simp [write_text, Event.strings, legal_escape]
  | close name =>
      simp [write_close, Event.strings, legal_append, legal_cons, legal_nil, blank, less, slash,
        greater]

/-- Events whose strings have legal characters. -/
def LegalEvents (events : List Event) : Prop :=
  ∀ event ∈ events, ∀ string ∈ event.strings, Legal string.toList

theorem legalEvents_cons {event : Event} {events : List Event} :
    LegalEvents (event :: events) ↔
      (∀ string ∈ event.strings, Legal string.toList) ∧ LegalEvents events :=
  List.forall_mem_cons

theorem legalEvents_append {first second : List Event} :
    LegalEvents (first ++ second) ↔ LegalEvents first ∧ LegalEvents second :=
  List.forall_mem_append

theorem legalEvents_flatMap {A : Type} {items : List A} {events : A → List Event} :
    LegalEvents (items.flatMap events) ↔ ∀ item ∈ items, LegalEvents (events item) :=
  List.forall_mem_flatMap

/-- A document is written with legal characters exactly when its strings have no others. -/
theorem writeAll_legal (layout : Layout) (before events : List Event) :
    Legal (writeAll layout before events) ↔ LegalEvents events := by
  induction events generalizing before with
  | nil => simp [writeAll, legal_nil, LegalEvents]
  | cons event events inductionHypothesis =>
      rw [writeAll, legal_append, inductionHypothesis, event.write_legal layout before,
        legalEvents_cons]

/-- A document with a character that may not stand in it is malformed. -/
theorem legal_of_parse {text : List Char} {root : Node}
    (parsed : parse (String.ofList text) = some root) : Legal text := by
  unfold parse at parsed
  split at parsed
  · rename_i legal
    rwa [String.toList_ofList, List.all_eq_true] at legal
  · cases parsed

/-- The XML declaration of a document in UTF-8. -/
theorem afterDeclaration_utf8 (rest : List Char) :
    afterDeclaration? ("<?xml version=\"1.0\" encoding=\"UTF-8\"?>".toList ++ rest) =
    some rest := by
  have items := attributes_write [("version", "1.0"), ("encoding", "UTF-8")] (by decide)
    ('?' :: '>' :: rest)
    ⟨'?', '>' :: rest, rfl, rfl, by decide⟩
    (("version=\"1.0\" encoding=\"UTF-8\"?>".toList ++ rest).length + 2)
    (by
      rw [List.length_append]
      have short : ([("version", "1.0"), ("encoding", "UTF-8")].flatMap writeAttribute).length <
        "version=\"1.0\" encoding=\"UTF-8\"?>".toList.length := by decide
      omega)
  have plain : isSpace ' ' ∧
      '&' ∉ ("version=\"1.0\" encoding=\"UTF-8\"?>".toList ++ rest).takeWhile (· ≠ '?') :=
    ⟨rfl, by
      rw [show ("version=\"1.0\" encoding=\"UTF-8\"?>".toList ++ rest).takeWhile (· ≠ '?') =
        "version=\"1.0\" encoding=\"UTF-8\"".toList from rfl]
      decide⟩
  rw [show "<?xml version=\"1.0\" encoding=\"UTF-8\"?>".toList ++ rest =
    '<' :: '?' :: 'x' :: 'm' :: 'l' :: ' ' ::
      ("version=\"1.0\" encoding=\"UTF-8\"?>".toList ++ rest) from rfl, afterDeclaration?,
    if_pos plain]
  rw [show ' ' :: ("version=\"1.0\" encoding=\"UTF-8\"?>".toList ++ rest) =
    [("version", "1.0"), ("encoding", "UTF-8")].flatMap writeAttribute ++
    '?' :: '>' :: rest from rfl, items]
  rfl

/-- A document with an XML declaration and a root element is well-formed when its characters
are legal. -/
theorem parse_write (layout : Layout) {root : List Event} {spec : Node → Prop}
    (writes : Writes layout root spec)
    (legal : Legal (writeAll layout [] (.decl "1.0" "UTF-8" :: root))) :
    ∃ node, parse (String.ofList (writeAll layout [] (.decl "1.0" "UTF-8" :: root))) =
      some node ∧ spec node := by
  obtain ⟨blank, text, name, attributes, children, isBlank, written, element, specified⟩ :=
    writes [.decl "1.0" "UTF-8"]
  refine ⟨_, ?_, specified⟩
  have normal : normalizeEol (writeAll layout [] (.decl "1.0" "UTF-8" :: root)) =
      "<?xml version=\"1.0\" encoding=\"UTF-8\"?>".toList ++ (blank ++ '<' :: text) := by
    have wrote : (Event.decl "1.0" "UTF-8").write layout [] =
        "<?xml version=\"1.0\" encoding=\"UTF-8\"?>".toList := by
      simp only [Event.write, layout.first, List.nil_append]
      rfl
    have behind := written []
    rw [List.append_nil] at behind
    rw [writeAll, wrote, normalizeEol_append (by decide), List.nil_append, behind]
    simp [normalizeEol]
  have skipped : misc? ((blank ++ '<' :: text).length + 1) (blank ++ '<' :: text) =
      some ('<' :: text) := by
    obtain ⟨c, tail, rfl, named⟩ := element.starts
    have space : ∀ c ∈ blank, isSpace c = true := fun c member => by
      rcases isBlank c member with rfl | rfl <;> rfl
    rw [misc?, skipSpace, List.dropWhile_append_of_pos space]
    simp only [List.dropWhile_cons, show isSpace '<' = false from rfl]
    split
    all_goals try
      rename_i opens
      rw [(List.cons.inj (List.cons.inj opens).2).1] at named
      exact absurd named (by decide)
    rfl
  have read := element (text.length + 1) (Nat.lt_succ_self _) []
  rw [List.append_nil] at read
  rw [parse, String.toList_ofList, if_pos (List.all_eq_true.mpr legal), normal,
    afterDeclaration_utf8]
  simp only [Option.bind_eq_bind, Option.bind_some, skipped, read]
  rfl

end CofreSoberano.Std.Xml
