import Mathlib.Data.List.Infix
import Mathlib.Data.List.TakeWhile

/-!
# XML documents

The documents of XML 1.0 without a document type declaration: a parser with the end-of-line
and attribute-value normalisation of the recommendation, and a writer that is given the
events of a document.
-/

namespace CofreSoberano.Std.Xml

/-- Part of a parsed document. Text stands between any two tags, be it empty. -/
inductive Node where
  | text (data : String)
  | element (name : String) (attributes : List (String × String)) (children : List Node)

/-- The children of an element that are elements. -/
def elements (children : List Node) : List Node :=
  children.filter fun
    | .element _ _ _ => true
    | .text _ => false

namespace Node

def isNamed (name : String) : Node → Bool
  | .element other _ _ => other = name
  | .text _ => false

/-- The child elements with a name, in their order. -/
def childrenNamed (name : String) : Node → List Node
  | .element _ _ children => (elements children).filter (isNamed name)
  | .text _ => []

/-- The first child element with a name. -/
def child? (name : String) (node : Node) : Option Node := (node.childrenNamed name).head?

/-- The text directly in an element. -/
def content : Node → String
  | .element _ _ children => String.join (children.map fun
      | .text data => data
      | .element _ _ _ => "")
  | .text data => data

def attribute? (name : String) : Node → Option String
  | .element _ attributes _ => attributes.lookup name
  | .text _ => none

end Node

/-! ### Characters -/

/-- A character that may stand in a document. -/
def isChar (c : Char) : Bool :=
  c = '\t' || c = '\n' || c = '\r' || (0x20 ≤ c.toNat && c.toNat ≤ 0xD7FF) ||
    (0xE000 ≤ c.toNat && c.toNat ≤ 0xFFFD) || 0x10000 ≤ c.toNat

def isSpace (c : Char) : Bool := c = ' ' || c = '\t' || c = '\n' || c = '\r'

def skipSpace (text : List Char) : List Char := text.dropWhile isSpace

/-- The ranges beyond ASCII in which a name may start. -/
def nameRanges : List (Nat × Nat) :=
  [(0xC0, 0xD6), (0xD8, 0xF6), (0xF8, 0x2FF), (0x370, 0x37D), (0x37F, 0x1FFF), (0x200C, 0x200D),
   (0x2070, 0x218F), (0x2C00, 0x2FEF), (0x3001, 0xD7FF), (0xF900, 0xFDCF), (0xFDF0, 0xFFFD),
   (0x10000, 0xEFFFF)]

def isNameStart (c : Char) : Bool :=
  c = ':' || c = '_' || c.isAlpha || nameRanges.any fun (low, high) =>
    low ≤ c.toNat && c.toNat ≤ high

def isNameChar (c : Char) : Bool :=
  isNameStart c || c = '-' || c = '.' || c.isDigit || c.toNat = 0xB7 ||
    (0x300 ≤ c.toNat && c.toNat ≤ 0x36F) || (0x203F ≤ c.toNat && c.toNat ≤ 0x2040)

/-- Every line break becomes a line feed before anything else is done with the input. -/
def normalizeEol : List Char → List Char
  | [] => []
  | '\r' :: '\n' :: rest => '\n' :: normalizeEol rest
  | '\r' :: rest => '\n' :: normalizeEol rest
  | c :: rest => c :: normalizeEol rest

/-- White space in the value of an attribute becomes a space. -/
def normalizeSpace (c : Char) : Char := if isSpace c then ' ' else c

/-! ### References -/

/-- The character of a code point that may stand in a document. -/
def codePoint? (code : Nat) : Option Char :=
  if code < 0xD800 ∨ (0xE000 ≤ code ∧ code < 0x110000) then
    if isChar (Char.ofNat code) then some (Char.ofNat code) else none
  else none

def hexDigit? (c : Char) : Option Nat :=
  if c.isDigit then some (c.toNat - 48)
  else if 'a' ≤ c ∧ c ≤ 'f' then some (c.toNat - 87)
  else if 'A' ≤ c ∧ c ≤ 'F' then some (c.toNat - 55)
  else none

/-- The character of a reference, given what stands between `&` and `;`. -/
def character? (body : List Char) : Option Char :=
  match body with
  | '#' :: 'x' :: digits =>
      if digits = [] then none
      else (digits.mapM hexDigit?).bind fun digits =>
        codePoint? (digits.foldl (fun code digit => code * 16 + digit) 0)
  | '#' :: digits =>
      if digits = [] ∨ ¬digits.all Char.isDigit then none
      else codePoint? (Nat.ofDigitChars 10 digits 0)
  | _ =>
      if body = ['l', 't'] then some '<'
      else if body = ['g', 't'] then some '>'
      else if body = ['a', 'm', 'p'] then some '&'
      else if body = ['a', 'p', 'o', 's'] then some '\''
      else if body = ['q', 'u', 'o', 't'] then some '"'
      else none

/-- Text with its references resolved. `normalize` is applied to what is no reference, and
`pending` holds the reference that is being read, backwards. -/
def resolve (normalize : Char → Char) : Option (List Char) → List Char → Option (List Char)
  | none, [] => some []
  | some _, [] => none
  | none, c :: rest =>
      if c = '&' then resolve normalize (some []) rest
      else (resolve normalize none rest).map (normalize c :: ·)
  | some pending, c :: rest =>
      if c = ';' then do
        let c ← character? pending.reverse
        let rest ← resolve normalize none rest
        return c :: rest
      else resolve normalize (some (c :: pending)) rest

/-! ### Markup -/

def name? : List Char → Option (String × List Char)
  | [] => none
  | c :: rest =>
      if isNameStart c then
        some (String.ofList (c :: rest.takeWhile isNameChar), rest.dropWhile isNameChar)
      else none

/-- The value of an attribute, after its opening quote. -/
def attributeValue? (quote : Char) (text : List Char) : Option (String × List Char) :=
  let value := text.takeWhile (· ≠ quote)
  match text.dropWhile (· ≠ quote) with
  | [] => none
  | _ :: rest =>
      if '<' ∈ value then none
      else (resolve normalizeSpace none value).map fun value => (String.ofList value, rest)

/-- The equals sign and the value of an attribute. -/
def afterName? (text : List Char) : Option (String × List Char) :=
  match skipSpace text with
  | '=' :: rest =>
      match skipSpace rest with
      | '"' :: rest => attributeValue? '"' rest
      | '\'' :: rest => attributeValue? '\'' rest
      | _ => none
  | _ => none

/-- The attributes of a tag, each after white space, and the white space behind them. -/
def attributes? : Nat → List Char → Option (List (String × String) × List Char)
  | 0, _ => none
  | fuel + 1, text =>
      match name? (skipSpace text) with
      | none => some ([], skipSpace text)
      | some (name, rest) =>
          if skipSpace text = text then none
          else do
            let (value, rest) ← afterName? rest
            let (attributes, rest) ← attributes? fuel rest
            return ((name, value) :: attributes, rest)

/-- What follows a comment. -/
def afterComment? : List Char → Option (List Char)
  | [] => none
  | '-' :: '-' :: '>' :: rest => some rest
  | '-' :: '-' :: _ => none
  | _ :: rest => afterComment? rest

/-- The text of a `CDATA` section, and what follows it. -/
def cdata? : List Char → Option (List Char × List Char)
  | [] => none
  | ']' :: ']' :: '>' :: rest => some ([], rest)
  | c :: rest => (cdata? rest).map fun (text, rest) => (c :: text, rest)

/-- What follows the end of a processing instruction. -/
def afterInstruction? : List Char → Option (List Char)
  | [] => none
  | '?' :: '>' :: rest => some rest
  | _ :: rest => afterInstruction? rest

/-- What follows a processing instruction, after its opening mark. -/
def instruction? (text : List Char) : Option (List Char) := do
  let (target, rest) ← name? text
  if target.toLower = "xml" then none
  else if rest.take 2 = ['?', '>'] ∨ skipSpace rest ≠ rest then afterInstruction? rest
  else none

/-- The end tag of an element. -/
def endTag? (name : String) (text : List Char) : Option (List Char) :=
  match text with
  | '<' :: '/' :: rest => do
      let (closed, rest) ← name? rest
      match skipSpace rest with
      | '>' :: rest => if closed = name then some rest else none
      | _ => none
  | _ => none

/-- Text up to the next tag, with its references resolved. -/
def characterData? (data : List Char) : Option String :=
  if [']', ']', '>'] <:+: data then none
  else (resolve id none data).map String.ofList

mutual

/-- An element, after its opening bracket, and what follows it. The fuel bounds the number
of pieces of markup. -/
def element? : Nat → List Char → Option (Node × List Char)
  | 0, _ => none
  | fuel + 1, text => do
      let (name, rest) ← name? text
      let (attributes, rest) ← attributes? (rest.length + 1) rest
      if ¬(attributes.map Prod.fst).Nodup then none
      else match rest with
      | '/' :: '>' :: rest => some (.element name attributes [], rest)
      | '>' :: rest => do
          let (children, rest) ← content? fuel rest
          let rest ← endTag? name rest
          return (.element name attributes children, rest)
      | _ => none

/-- The content of an element, up to its end tag. -/
def content? : Nat → List Char → Option (List Node × List Char)
  | 0, _ => none
  | fuel + 1, text => do
      let data ← characterData? (text.takeWhile (· ≠ '<'))
      match text.dropWhile (· ≠ '<') with
      | [] => none
      | '<' :: '/' :: rest => return ([.text data], '<' :: '/' :: rest)
      | '<' :: '!' :: '-' :: '-' :: rest => do
          let rest ← afterComment? rest
          let (nodes, rest) ← content? fuel rest
          return (.text data :: nodes, rest)
      | '<' :: '!' :: '[' :: 'C' :: 'D' :: 'A' :: 'T' :: 'A' :: '[' :: rest => do
          let (section', rest) ← cdata? rest
          let (nodes, rest) ← content? fuel rest
          return (.text data :: .text (String.ofList section') :: nodes, rest)
      | '<' :: '?' :: rest => do
          let rest ← instruction? rest
          let (nodes, rest) ← content? fuel rest
          return (.text data :: nodes, rest)
      | _ :: rest => do
          let (node, rest) ← element? fuel rest
          let (nodes, rest) ← content? fuel rest
          return (.text data :: node :: nodes, rest)

end

/-- White space, comments and processing instructions outside the root element. -/
def misc? : Nat → List Char → Option (List Char)
  | 0, _ => none
  | fuel + 1, text =>
      match skipSpace text with
      | '<' :: '!' :: '-' :: '-' :: rest => (afterComment? rest).bind (misc? fuel)
      | '<' :: '?' :: rest => (instruction? rest).bind (misc? fuel)
      | rest => some rest

def isVersion (value : String) : Bool :=
  match value.toList with
  | '1' :: '.' :: digits => digits ≠ [] && digits.all Char.isDigit
  | _ => false

def isEncoding (value : String) : Bool :=
  match value.toList with
  | c :: rest =>
      c.isAlpha && rest.all fun c => c.isAlphanum || c = '.' || c = '_' || c = '-'
  | [] => false

/-- The items an XML declaration may have. -/
def isDeclaration : List (String × String) → Bool
  | [("version", version)] => isVersion version
  | [("version", version), ("encoding", encoding)] => isVersion version && isEncoding encoding
  | [("version", version), ("standalone", answer)] =>
      isVersion version && (answer = "yes" || answer = "no")
  | [("version", version), ("encoding", encoding), ("standalone", answer)] =>
      isVersion version && isEncoding encoding && (answer = "yes" || answer = "no")
  | _ => false

/-- What follows the XML declaration, if there is one. -/
def afterDeclaration? (text : List Char) : Option (List Char) :=
  match text with
  | '<' :: '?' :: 'x' :: 'm' :: 'l' :: c :: rest =>
      if isSpace c ∧ '&' ∉ rest.takeWhile (· ≠ '?') then do
        let (items, rest) ← attributes? (rest.length + 2) (c :: rest)
        match rest with
        | '?' :: '>' :: rest => if isDeclaration items then some rest else none
        | _ => none
      else if isSpace c then none
      else some text
  | _ => some text

/-- The root element of a well-formed document. -/
def parse (input : String) : Option Node :=
  if input.toList.all isChar then do
    let rest ← afterDeclaration? (normalizeEol input.toList)
    match ← misc? (rest.length + 1) rest with
    | '<' :: rest => do
        let (root, rest) ← element? (rest.length + 1) rest
        let rest ← misc? (rest.length + 1) rest
        if rest = [] then some root else none
    | _ => none
  else none

/-! ### Writing -/

/-- Something written to a document. -/
inductive Event where
  | decl (version encoding : String)
  | start (name : String) (attributes : List (String × String))
  | text (data : String)
  | close (name : String)

/-- The five characters that are written as references. -/
def escapeChar (c : Char) : List Char :=
  if c = '<' then ['&', 'l', 't', ';']
  else if c = '>' then ['&', 'g', 't', ';']
  else if c = '\'' then ['&', 'a', 'p', 'o', 's', ';']
  else if c = '&' then ['&', 'a', 'm', 'p', ';']
  else if c = '"' then ['&', 'q', 'u', 'o', 't', ';']
  else [c]

def escape (text : List Char) : List Char := text.flatMap escapeChar

/-- An attribute in a tag. -/
def writeAttribute (pair : String × String) : List Char :=
  ' ' :: pair.1.toList ++ '=' :: '"' :: escape pair.2.toList ++ ['"']

/-- The white space of an indenting writer: what it puts in front of the tag `next`, after
the events it has written before. Text stays as it is, with nothing around it. -/
structure Layout where
  indent : List Event → Event → List Char
  blank : ∀ before next, ∀ c ∈ indent before next, c = ' ' ∨ c = '\n'
  first : ∀ next, indent [] next = []
  afterText : ∀ before data next, indent (before ++ [.text data]) next = []

/-- The text of a tag, or of the XML declaration. -/
def Event.markup : Event → List Char
  | .decl version encoding =>
      "<?xml".toList ++ [("version", version), ("encoding", encoding)].flatMap writeAttribute ++
        ['?', '>']
  | .start name attributes => '<' :: name.toList ++ attributes.flatMap writeAttribute ++ ['>']
  | .text data => escape data.toList
  | .close name => '<' :: '/' :: name.toList ++ ['>']

/-- What is written for an event after the events `before`. -/
def Event.write (layout : Layout) (before : List Event) (event : Event) : List Char :=
  match event with
  | .text _ => event.markup
  | _ => layout.indent before event ++ event.markup

def writeAll (layout : Layout) : List Event → List Event → List Char
  | _, [] => []
  | before, event :: events =>
      event.write layout before ++ writeAll layout (before ++ [event]) events

end CofreSoberano.Std.Xml
