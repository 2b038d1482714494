import CofreSoberano.Audit.Log
import CofreSoberano.Std.Json

/-!
# The JSON lines export

`export_jsonl` puts its objects together by hand. Whatever characters an event holds,
every entry becomes one line, and a JSON parser reads the entry back from it.
-/

namespace CofreSoberano.Audit

open CofreSoberano.Std

/-- `format!("{:04x}", n)`. -/
def hexPadded (n : Nat) : List Char :=
  List.replicate (4 - (Nat.toDigits 16 n).length) '0' ++ Nat.toDigits 16 n

/-- What `json_escape` writes for one character. -/
def jsonEscapeChar (c : Char) : List Char :=
  if c = '"' then ['\\', '"']
  else if c = '\\' then ['\\', '\\']
  else if c = '\n' then ['\\', 'n']
  else if c = '\r' then ['\\', 'r']
  else if c = '\t' then ['\\', 't']
  else if c.toNat < 0x20 then '\\' :: 'u' :: hexPadded c.toNat
  else [c]

/-- `json_escape`. -/
def jsonEscape (s : String) : String := String.ofList (s.toList.flatMap jsonEscapeChar)

/-- `json_field`. -/
def jsonField (out k rawValue : String) (quoted : Bool) : String :=
  let out := out.push '"'
  let out := out ++ k
  let out := out ++ "\":"
  let out := if quoted then out.push '"' else out
  let out := out ++ rawValue
  if quoted then out.push '"' else out

/-- One turn of the loop over an event's metadata. `first` is the loop's flag. -/
def jsonMetadata (s : String) (first : Bool) : List (String × String) → String
  | [] => s
  | (k, v) :: rest =>
      let s := if first then s else s.push ','
      let s := s.push '"'
      let s := s ++ jsonEscape k
      let s := s ++ "\":\""
      let s := s ++ jsonEscape v
      let s := s.push '"'
      jsonMetadata s false rest

section

-- `to_rfc3339_opts(SecondsFormat::Millis, true)`
variable (toRfc3339Millis : Timestamp → String)

/-- The object that `export_jsonl` builds for an entry, without the line break. -/
def jsonEntry (e : LogEntry) : String :=
  let s := "".push '{'
  let s := jsonField s "index" (toString e.index) false
  let s := s.push ','
  let s := jsonField s "appended_at" (jsonEscape (toRfc3339Millis e.appendedAt)) true
  let s := s.push ','
  let s := jsonField s "actor" (jsonEscape e.event.actor) true
  let s := s.push ','
  let s := jsonField s "action" (jsonEscape e.event.action) true
  let s := s.push ','
  let s := jsonField s "resource" (jsonEscape e.event.resource) true
  let s := s.push ','
  let s := jsonField s "outcome" (jsonEscape e.event.outcome) true
  let s := s.push ','
  let s := s ++ "\"metadata\":\x7b"
  let s := jsonMetadata s true e.event.metadata.entries
  let s := s.push '}'
  let s := s.push ','
  let s := jsonField s "prev_root" (hexEncode e.prevRoot.1) true
  let s := s.push ','
  let s := jsonField s "new_root" (hexEncode e.newRoot.1) true
  let s := s.push ','
  let s := jsonField s "signature" (hexEncode e.signature.bytes) true
  s.push '}'

/-- `export_jsonl`. -/
def exportJsonl (log : AuditLog) : Except Error String :=
  .ok (log.entries.foldl (fun out e => out ++ (jsonEntry toRfc3339Millis e).push '\n') "")

end

/-- What the export shows of an entry. -/
structure ExportedEntry where
  index : Nat
  appendedAt : String
  actor : String
  action : String
  resource : String
  outcome : String
  metadata : OrderedMap String String
  prevRoot : Hash
  newRoot : Hash
  signature : List UInt8
deriving DecidableEq

def LogEntry.exported (toRfc3339Millis : Timestamp → String) (e : LogEntry) : ExportedEntry where
  index := e.index
  appendedAt := toRfc3339Millis e.appendedAt
  actor := e.event.actor
  action := e.event.action
  resource := e.event.resource
  outcome := e.event.outcome
  metadata := e.event.metadata
  prevRoot := e.prevRoot
  newRoot := e.newRoot
  signature := e.signature.bytes

/-- The JSON value of an exported entry. -/
def ExportedEntry.json (entry : ExportedEntry) : Json :=
  .object
    [("index", .number entry.index 0),
     ("appended_at", .string entry.appendedAt),
     ("actor", .string entry.actor),
     ("action", .string entry.action),
     ("resource", .string entry.resource),
     ("outcome", .string entry.outcome),
     ("metadata", .object (entry.metadata.entries.map fun (k, v) => (k, .string v))),
     ("prev_root", .string (hexEncode entry.prevRoot.1)),
     ("new_root", .string (hexEncode entry.newRoot.1)),
     ("signature", .string (hexEncode entry.signature))]

/-! ### Escaping -/

theorem hexPadded_control : ∀ n < 0x20, hexPadded n =
    ['0', '0', Nat.digitChar (n / 16), Nat.digitChar (n % 16)] := by
  decide

theorem hexDigit_digitChar : ∀ n < 16, Json.hexDigit? (Nat.digitChar n) = some n := by
  decide

/-- What `json_escape` writes for a character is read as that character. -/
theorem jsonEscapeChar_spells (c : Char) : Json.Spells (jsonEscapeChar c) c := by
  unfold jsonEscapeChar
  split_ifs with quote backslash newline carriage tab control
  · subst quote
    exact Json.spells_simple rfl (by decide)
  · subst backslash
    exact Json.spells_simple rfl (by decide)
  · subst newline
    exact Json.spells_simple rfl (by decide)
  · subst carriage
    exact Json.spells_simple rfl (by decide)
  · subst tab
    exact Json.spells_simple rfl (by decide)
  · have zero : Json.hexDigit? '0' = some 0 := rfl
    have spelled := Json.spells_code zero zero
      (hexDigit_digitChar (c.toNat / 16) (by omega)) (hexDigit_digitChar (c.toNat % 16) (by omega))
      (by omega)
    rw [hexPadded_control _ control]
    rwa [show ((0 * 16 + 0) * 16 + c.toNat / 16) * 16 + c.toNat % 16 = c.toNat by omega,
      Char.ofNat_toNat] at spelled
  · exact Json.spells_plain quote backslash (Nat.not_lt.mp control)

theorem jsonEscape_encodes (s : String) : Json.EncodesString (jsonEscape s).toList s := by
  rw [jsonEscape, String.toList_ofList]
  exact Json.encodesString_flatMap _ _ fun c _ => jsonEscapeChar_spells c

theorem hexEncode_plain (bytes : List UInt8) (c : Char) (member : c ∈ (hexEncode bytes).toList) :
    c ≠ '"' ∧ c ≠ '\\' ∧ 0x20 ≤ c.toNat := by
  have digits : ∀ n < 16, Nat.digitChar n ≠ '"' ∧ Nat.digitChar n ≠ '\\' ∧
      0x20 ≤ (Nat.digitChar n).toNat := by
    decide
  simp only [hexEncode, String.toList_ofList, List.mem_flatMap, List.mem_cons,
    List.not_mem_nil, or_false] at member
  obtain ⟨byte, -, rfl | rfl⟩ := member
  · exact digits _ (by have := byte.toNat_lt; omega)
  · exact digits _ (by omega)

theorem hexEncode_encodes (bytes : List UInt8) :
    Json.EncodesString (hexEncode bytes).toList (hexEncode bytes) :=
  Json.encodesString_plain (hexEncode_plain bytes)

/-! ### One entry -/

/-- The text of a member with a string value. -/
def quotedMember (k rawValue : String) : List Char :=
  '"' :: k.toList ++ '"' :: ':' :: ('"' :: rawValue.toList ++ ['"'])

theorem quotedMember_encodes {k rawKey rawValue value : String}
    (key : Json.EncodesString rawKey.toList k)
    (encodes : Json.EncodesString rawValue.toList value) :
    Json.EncodesMember (quotedMember rawKey rawValue) (k, .string value) :=
  ⟨_, _, rfl, key, Json.encodes_string encodes⟩

theorem jsonField_quoted (out k rawValue : String) :
    (jsonField out k rawValue true).toList = out.toList ++ quotedMember k rawValue := by
  simp [jsonField, quotedMember]

theorem jsonField_plain (out k rawValue : String) :
    (jsonField out k rawValue false).toList =
      out.toList ++ ('"' :: k.toList ++ '"' :: ':' :: rawValue.toList) := by
  simp [jsonField]

/-- The members of the object of an event's metadata. -/
def metadataMembers (entries : List (String × String)) : List (List Char) :=
  entries.map fun (k, v) => quotedMember (jsonEscape k) (jsonEscape v)

theorem jsonMetadata_toList (s : String) (first : Bool) (entries : List (String × String)) :
    (jsonMetadata s first entries).toList = s.toList ++
      (if first ∨ entries = [] then [] else [',']) ++
      Json.commaSeparated (metadataMembers entries) := by
  induction entries generalizing s first with
  | nil => simp [jsonMetadata, metadataMembers, Json.commaSeparated]
  | cons pair rest inductionHypothesis =>
      rw [jsonMetadata, inductionHypothesis]
      cases rest <;> cases first <;> simp [metadataMembers, Json.commaSeparated, quotedMember]

/-- The members of an entry's object, in their order. -/
def entryMembers (toRfc3339Millis : Timestamp → String) (e : LogEntry) : List (List Char) :=
  ['"' :: "index".toList ++ '"' :: ':' :: (Nat.repr e.index).toList,
   quotedMember "appended_at" (jsonEscape (toRfc3339Millis e.appendedAt)),
   quotedMember "actor" (jsonEscape e.event.actor),
   quotedMember "action" (jsonEscape e.event.action),
   quotedMember "resource" (jsonEscape e.event.resource),
   quotedMember "outcome" (jsonEscape e.event.outcome),
   '"' :: "metadata".toList ++ '"' :: ':' :: ('{' ::
     Json.commaSeparated (metadataMembers e.event.metadata.entries) ++ ['}']),
   quotedMember "prev_root" (hexEncode e.prevRoot.1),
   quotedMember "new_root" (hexEncode e.newRoot.1),
   quotedMember "signature" (hexEncode e.signature.bytes)]

theorem jsonEntry_toList (toRfc3339Millis : Timestamp → String) (e : LogEntry) :
    (jsonEntry toRfc3339Millis e).toList =
      '{' :: Json.commaSeparated (entryMembers toRfc3339Millis e) ++ ['}'] := by
  simp [jsonEntry, jsonField_quoted, jsonField_plain, jsonMetadata_toList, entryMembers,
    Json.commaSeparated]

/-- The object of an entry is read as the entry. -/
theorem jsonEntry_encodes (toRfc3339Millis : Timestamp → String) (e : LogEntry) :
    Json.Encodes (jsonEntry toRfc3339Millis e).toList (e.exported toRfc3339Millis).json := by
  have literal {k : String}
      (plain : k.toList.all fun c => c ≠ '"' && c ≠ '\\' && 0x20 ≤ c.toNat) :
      Json.EncodesString k.toList k :=
    Json.encodesString_plain (by simpa [and_assoc] using plain)
  have metadata : List.Forall₂ Json.EncodesMember
      (metadataMembers e.event.metadata.entries)
      (e.event.metadata.entries.map fun (k, v) => (k, .string v)) := by
    rw [metadataMembers, List.forall₂_map_left_iff, List.forall₂_map_right_iff]
    exact List.forall₂_same.mpr fun pair _ =>
      quotedMember_encodes (jsonEscape_encodes pair.1) (jsonEscape_encodes pair.2)
  rw [jsonEntry_toList]
  exact Json.encodes_object
    (.cons ⟨_, _, rfl, literal (by decide), Json.encodes_nat e.index⟩
    (.cons (quotedMember_encodes (literal (by decide)) (jsonEscape_encodes _))
    (.cons (quotedMember_encodes (literal (by decide)) (jsonEscape_encodes _))
    (.cons (quotedMember_encodes (literal (by decide)) (jsonEscape_encodes _))
    (.cons (quotedMember_encodes (literal (by decide)) (jsonEscape_encodes _))
    (.cons (quotedMember_encodes (literal (by decide)) (jsonEscape_encodes _))
    (.cons ⟨_, _, rfl, literal (by decide), Json.encodes_object metadata⟩
    (.cons (quotedMember_encodes (literal (by decide)) (hexEncode_encodes _))
    (.cons (quotedMember_encodes (literal (by decide)) (hexEncode_encodes _))
    (.cons (quotedMember_encodes (literal (by decide)) (hexEncode_encodes _)) .nil))))))))))

/-! ### Lines -/

/-- No line break is left in an escaped text. -/
theorem jsonEscape_line (s : String) : '\n' ∉ (jsonEscape s).toList := by
  rw [jsonEscape, String.toList_ofList, List.mem_flatMap]
  rintro ⟨c, -, member⟩
  unfold jsonEscapeChar at member
  split_ifs at member with quote backslash newline carriage tab control
  · simp at member
  · simp at member
  · simp at member
  · simp at member
  · simp at member
  · have digits : ∀ n < 16, '\n' ≠ Nat.digitChar n := by decide
    rw [hexPadded_control _ control] at member
    simp [digits (c.toNat / 16) (by omega), digits (c.toNat % 16) (by omega)] at member
  · simp [Ne.symm newline] at member

theorem hexEncode_line (bytes : List UInt8) : '\n' ∉ (hexEncode bytes).toList := by
  intro member
  have printable := (hexEncode_plain bytes _ member).2.2
  exact absurd printable (by decide)

theorem commaSeparated_line {texts : List (List Char)} (lines : ∀ text ∈ texts, '\n' ∉ text) :
    '\n' ∉ Json.commaSeparated texts := by
  induction texts using Json.commaSeparated.induct with
  | case1 => simp [Json.commaSeparated]
  | case2 text => simpa [Json.commaSeparated] using lines
  | case3 text next rest inductionHypothesis =>
      have first := lines text List.mem_cons_self
      have later := inductionHypothesis fun text member =>
        lines text (List.mem_cons_of_mem _ member)
      simp [Json.commaSeparated, first, later]

theorem quotedMember_line {k rawValue : String} (key : '\n' ∉ k.toList)
    (value : '\n' ∉ rawValue.toList) : '\n' ∉ quotedMember k rawValue := by
  simp [quotedMember, key, value]

theorem jsonEntry_line (toRfc3339Millis : Timestamp → String) (e : LogEntry) :
    '\n' ∉ (jsonEntry toRfc3339Millis e).toList := by
  have digits : '\n' ∉ Nat.toDigits 10 e.index := by
    intro member
    exact absurd (Nat.isDigit_of_mem_toDigits (by decide) (by decide) member) (by decide)
  have metadata : '\n' ∉ Json.commaSeparated (metadataMembers e.event.metadata.entries) := by
    refine commaSeparated_line fun text member => ?_
    obtain ⟨pair, -, rfl⟩ := List.mem_map.mp member
    exact quotedMember_line (jsonEscape_line _) (jsonEscape_line _)
  have members : '\n' ∉ Json.commaSeparated (entryMembers toRfc3339Millis e) := by
    refine commaSeparated_line ?_
    simp [entryMembers, quotedMember, digits, metadata, jsonEscape_line, hexEncode_line]
  simp [jsonEntry_toList, members]

/-! ### Whole exports -/

theorem ExportedEntry.json_injective : Function.Injective ExportedEntry.json := by
  rintro ⟨index, appendedAt, actor, action, resource, outcome, ⟨metadata, sorted⟩, prevRoot,
    newRoot, signature⟩ ⟨index', appendedAt', actor', action', resource', outcome',
    ⟨metadata', sorted'⟩, prevRoot', newRoot', signature'⟩ same
  simp only [ExportedEntry.json, Json.object.injEq, List.cons.injEq, Prod.mk.injEq, true_and,
    Json.number.injEq, Json.string.injEq, and_true, Nat.cast_inj] at same
  obtain ⟨rfl, rfl, rfl, rfl, rfl, rfl, sameMetadata, samePrev, sameNew, sameSignature⟩ := same
  have pairs : Function.Injective fun pair : String × String => (pair.1, Json.string pair.2) := by
    rintro ⟨k, v⟩ ⟨k', v'⟩ same
    simpa using same
  obtain rfl : metadata = metadata' := List.map_injective_iff.mpr pairs sameMetadata
  obtain rfl := Subtype.ext (hexEncode_injective samePrev)
  obtain rfl := Subtype.ext (hexEncode_injective sameNew)
  obtain rfl := hexEncode_injective sameSignature
  rfl

/-- The text of an export: the objects of the entries, each with a line break. -/
theorem exportJsonl_eq (toRfc3339Millis : Timestamp → String) (log : AuditLog) :
    exportJsonl toRfc3339Millis log = .ok (String.join
      (log.entries.map fun e => (jsonEntry toRfc3339Millis e).push '\n')) := by
  rw [exportJsonl, String.join, List.foldl_map]

/-- Exports that agree come from entries that show the same. -/
theorem exported_of_joined (toRfc3339Millis : Timestamp → String) {left right : List LogEntry}
    (same : String.join (left.map fun e => (jsonEntry toRfc3339Millis e).push '\n') =
      String.join (right.map fun e => (jsonEntry toRfc3339Millis e).push '\n')) :
    left.map (·.exported toRfc3339Millis) = right.map (·.exported toRfc3339Millis) := by
  induction left generalizing right with
  | nil =>
      cases right with
      | nil => rfl
      | cons e right =>
          have lengths := congrArg String.length same
          simp [String.join_cons] at lengths
          omega
  | cons e left inductionHypothesis =>
      cases right with
      | nil =>
          have lengths := congrArg String.length same
          simp [String.join_cons] at lengths
      | cons e' right =>
          simp only [List.map_cons, String.join_cons, ← String.toList_inj, String.toList_append,
            String.toList_push, List.append_assoc] at same
          have broken (rest : List Char) : Json.Delimited (['\n'] ++ rest) := by
            simp [Json.Delimited, Json.isSpace]
          obtain ⟨sameJson, sameRest⟩ := (jsonEntry_encodes toRfc3339Millis e).append_inj
            (jsonEntry_encodes toRfc3339Millis e') (broken _) (broken _) same
          rw [List.map_cons, List.map_cons, ExportedEntry.json_injective sameJson,
            inductionHypothesis (String.toList_inj.mp (List.append_cancel_left sameRest))]

/-- Every entry is exported as one line, which a JSON parser reads as that entry, so
different entries have different exports, whatever characters their events hold. -/
theorem export_jsonl_faithful (toRfc3339Millis : Timestamp → String) (log : AuditLog) :
    ∃ lines : List String,
      exportJsonl toRfc3339Millis log = .ok (String.join (lines.map (·.push '\n'))) ∧
      (∀ line ∈ lines, '\n' ∉ line.toList) ∧
      lines.map Json.parse =
        log.entries.map (fun e => some (e.exported toRfc3339Millis).json) ∧
      (∀ other : AuditLog, exportJsonl toRfc3339Millis other = exportJsonl toRfc3339Millis log →
        other.entries.map (·.exported toRfc3339Millis) =
          log.entries.map (·.exported toRfc3339Millis)) ∧
      ∀ s : String, Json.parse ("\"" ++ jsonEscape s ++ "\"") = some (.string s) := by
  refine ⟨log.entries.map (jsonEntry toRfc3339Millis), ?_, ?_, ?_, ?_, ?_⟩
  · rw [exportJsonl_eq, List.map_map]
    rfl
  · intro line member
    obtain ⟨e, -, rfl⟩ := List.mem_map.mp member
    exact jsonEntry_line toRfc3339Millis e
  · rw [List.map_map]
    exact List.map_congr_left fun e _ => Json.parse_of_encodes (jsonEntry_encodes toRfc3339Millis e)
  · intro other same
    rw [exportJsonl_eq, exportJsonl_eq] at same
    exact exported_of_joined toRfc3339Millis (Except.ok.inj same)
  · intro s
    refine Json.parse_of_encodes ?_
    have quoted := Json.encodes_string (jsonEscape_encodes s)
    simpa using quoted

end CofreSoberano.Audit
