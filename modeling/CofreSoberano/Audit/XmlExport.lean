import CofreSoberano.Audit.Log
import CofreSoberano.Std.XmlRoundTrip

/-!
# The XML export

`export_xml` writes a log as the events of a document. The writer escapes the five special
characters and leaves every other one as it is, so what a parser recovers depends on the
characters of the log's strings.
-/

namespace CofreSoberano.Audit

open CofreSoberano.Std

/-- `NAMESPACE`. -/
def xmlNamespace : String := "https://securityops.co/schemas/qaudit-export-v1"

/-- `VERSION`, of the workspace. -/
def version : String := "1.0.4"

/-- `write_text_elem`. -/
def writeTextElem (name text : String) : List Xml.Event :=
  [.start name [], .text text, .close name]

/-- `write_hex_elem`. -/
def writeHexElem (name : String) (bytes : List UInt8) : List Xml.Event :=
  [.start name [("encoding", "hex")], .text (hexEncode bytes), .close name]

/-- `write_signature_elem`. -/
def writeSignatureElem (bytes : List UInt8) : List Xml.Event :=
  [.start "Signature" [("encoding", "hex"), ("algorithm", "ml-dsa-87")],
   .text (hexEncode bytes), .close "Signature"]

/-- What `to_rfc3339_opts` writes for a time, with seconds or milliseconds. -/
structure TimeTexts where
  secs : Timestamp → String
  millis : Timestamp → String

/-- An item of an event's metadata. -/
def writeItem (item : String × String) : List Xml.Event :=
  [.start "Item" [("key", item.1)], .text item.2, .close "Item"]

/-- The events of one turn of the loop over the entries. -/
def writeEntry (times : TimeTexts) (entry : LogEntry) : List Xml.Event :=
  List.flatten
    [[.start "Entry" [("index", toString entry.index)]],
     writeTextElem "AppendedAt" (times.millis entry.appendedAt),
     [.start "Event" []],
     writeTextElem "Schema" (toString entry.event.schema.toNat),
     writeTextElem "Timestamp" (times.millis entry.event.timestamp),
     writeTextElem "Actor" entry.event.actor,
     writeTextElem "Action" entry.event.action,
     writeTextElem "Resource" entry.event.resource,
     writeTextElem "Outcome" entry.event.outcome,
     [.start "Metadata" []],
     entry.event.metadata.entries.flatMap writeItem,
     [.close "Metadata"],
     [.close "Event"],
     writeHexElem "PrevRoot" entry.prevRoot.1,
     writeHexElem "NewRoot" entry.newRoot.1,
     writeSignatureElem entry.signature.bytes,
     [.close "Entry"]]

/-- The events of the root element that `export_xml` writes at time `now`. -/
def rootEvents (crates : Crates) (times : TimeTexts) (log : AuditLog) (now : Timestamp) :
    List Xml.Event :=
  List.flatten
    [[.start "AuditLogExport" [("xmlns", xmlNamespace)]],
     [.start "Header" []],
     writeTextElem "LogId" (hexEncode log.header.logId.1),
     writeTextElem "Suite" log.header.suite,
     writeTextElem "WireVersion" (toString log.header.wireVersion.toNat),
     writeTextElem "CreatedAt" (times.secs log.header.createdAt),
     writeTextElem "Label" log.header.label,
     writeTextElem "SignatureAlgorithm" "ml-dsa-87",
     writeTextElem "HashAlgorithm" "blake3-256",
     writeHexElem "PublicKey" log.header.pubkey.bytes,
     [.close "Header"],
     [.start "Entries" [("count", toString log.len)]],
     log.entries.flatMap (writeEntry times),
     [.close "Entries"],
     [.start "Trailer" []],
     writeHexElem "FinalRoot" (log.currentRoot crates).1,
     writeTextElem "EntryCount" (toString log.len),
     writeTextElem "ExportedAt" (times.secs now),
     writeTextElem "ProducerVersion" s!"qaudit-core {version}",
     [.close "Trailer"],
     [.close "AuditLogExport"]]

/-- `export_xml`, with the layout of the indenting writer. -/
def exportXml (crates : Crates) (layout : Xml.Layout) (times : TimeTexts) (log : AuditLog)
    (now : Timestamp) : Except Error String :=
  .ok (String.ofList
    (Xml.writeAll layout [] (.decl "1.0" "UTF-8" :: rootEvents crates times log now)))

/-! ### Reading an export -/

/-- What a consumer of the document takes from an entry. -/
structure XmlEntry where
  index : String
  actor : String
  action : String
  resource : String
  outcome : String
  metadata : List (String × String)
  prevRoot : String
  newRoot : String
  signature : String
deriving DecidableEq

def LogEntry.xmlEntry (entry : LogEntry) : XmlEntry where
  index := toString entry.index
  actor := entry.event.actor
  action := entry.event.action
  resource := entry.event.resource
  outcome := entry.event.outcome
  metadata := entry.event.metadata.entries
  prevRoot := hexEncode entry.prevRoot.1
  newRoot := hexEncode entry.newRoot.1
  signature := hexEncode entry.signature.bytes

/-- The text of a child element. -/
def childText? (name : String) (node : Xml.Node) : Option String :=
  (node.child? name).map Xml.Node.content

def readXmlItem (node : Xml.Node) : Option (String × String) :=
  (node.attribute? "key").map fun key => (key, node.content)

def readXmlEntry (node : Xml.Node) : Option XmlEntry := do
  let index ← node.attribute? "index"
  let event ← node.child? "Event"
  let actor ← childText? "Actor" event
  let action ← childText? "Action" event
  let resource ← childText? "Resource" event
  let outcome ← childText? "Outcome" event
  let metadata ← event.child? "Metadata"
  let metadata ← (metadata.childrenNamed "Item").mapM readXmlItem
  let prevRoot ← childText? "PrevRoot" node
  let newRoot ← childText? "NewRoot" node
  let signature ← childText? "Signature" node
  return { index, actor, action, resource, outcome, metadata, prevRoot, newRoot, signature }

/-- The entries in an export. -/
def readXmlEntries (root : Xml.Node) : Option (List XmlEntry) := do
  let entries ← root.child? "Entries"
  (entries.childrenNamed "Entry").mapM readXmlEntry

/-! ### What a parser reports -/

open Xml (IsLeaf IsBranch Writes)

/-- The node of an entry. -/
def entrySpec (times : TimeTexts) (entry : LogEntry) : Xml.Node → Prop :=
  IsBranch "Entry" [("index", toString entry.index)]
    [IsLeaf "AppendedAt" [] (times.millis entry.appendedAt),
     IsBranch "Event" []
       [IsLeaf "Schema" [] (toString entry.event.schema.toNat),
        IsLeaf "Timestamp" [] (times.millis entry.event.timestamp),
        IsLeaf "Actor" [] entry.event.actor,
        IsLeaf "Action" [] entry.event.action,
        IsLeaf "Resource" [] entry.event.resource,
        IsLeaf "Outcome" [] entry.event.outcome,
        IsBranch "Metadata" []
          (entry.event.metadata.entries.map fun item => IsLeaf "Item" [("key", item.1)] item.2)],
     IsLeaf "PrevRoot" [("encoding", "hex")] (hexEncode entry.prevRoot.1),
     IsLeaf "NewRoot" [("encoding", "hex")] (hexEncode entry.newRoot.1),
     IsLeaf "Signature" [("encoding", "hex"), ("algorithm", "ml-dsa-87")]
       (hexEncode entry.signature.bytes)]

theorem writes_textElem (layout : Xml.Layout) (name text : String)
    (legal : Xml.isName name = true) : Writes layout (writeTextElem name text)
    (IsLeaf name [] text) :=
  Xml.writes_leaf layout legal rfl text

theorem writes_hexElem (layout : Xml.Layout) (name : String) (bytes : List UInt8)
    (legal : Xml.isName name = true) :
    Writes layout (writeHexElem name bytes) (IsLeaf name [("encoding", "hex")] (hexEncode bytes)) :=
  Xml.writes_leaf layout legal (by decide) (hexEncode bytes)

theorem writes_signatureElem (layout : Xml.Layout) (bytes : List UInt8) :
    Writes layout (writeSignatureElem bytes)
      (IsLeaf "Signature" [("encoding", "hex"), ("algorithm", "ml-dsa-87")] (hexEncode bytes)) :=
  Xml.writes_leaf layout (by decide) (by decide) (hexEncode bytes)

theorem legalAttributes_single (key : String) (legal : Xml.isName key = true) (value : String) :
    Xml.legalAttributes [(key, value)] = true := by
  simp [Xml.legalAttributes, legal]

theorem writes_metadata (layout : Xml.Layout) (items : List (String × String)) :
    Writes layout ([.start "Metadata" []] ++ items.flatMap writeItem ++ [.close "Metadata"])
      (IsBranch "Metadata" [] (items.map fun item => IsLeaf "Item" [("key", item.1)] item.2)) := by
  have each : List.Forall₂ (Writes layout) (items.map writeItem)
      (items.map fun item => IsLeaf "Item" [("key", item.1)] item.2) := by
    rw [List.forall₂_map_left_iff, List.forall₂_map_right_iff]
    exact List.forall₂_same.mpr fun item _ =>
      Xml.writes_leaf layout (by decide) (legalAttributes_single "key" (by decide) item.1) item.2
  exact Xml.writes_branch layout "Metadata" (by decide) [] (by decide) each

theorem writes_entry (layout : Xml.Layout) (times : TimeTexts) (entry : LogEntry) :
    Writes layout (writeEntry times entry) (entrySpec times entry) := by
  have event := Xml.writes_branch layout "Event" (by decide) [] (by decide)
    (.cons (writes_textElem layout "Schema" (toString entry.event.schema.toNat) (by decide))
    (.cons (writes_textElem layout "Timestamp" (times.millis entry.event.timestamp) (by decide))
    (.cons (writes_textElem layout "Actor" entry.event.actor (by decide))
    (.cons (writes_textElem layout "Action" entry.event.action (by decide))
    (.cons (writes_textElem layout "Resource" entry.event.resource (by decide))
    (.cons (writes_textElem layout "Outcome" entry.event.outcome (by decide))
    (.cons (writes_metadata layout entry.event.metadata.entries) .nil)))))))
  have whole := Xml.writes_branch layout "Entry" (by decide) _
    (legalAttributes_single "index" (by decide) (toString entry.index))
    (.cons (writes_textElem layout "AppendedAt" (times.millis entry.appendedAt) (by decide))
    (.cons event
    (.cons (writes_hexElem layout "PrevRoot" entry.prevRoot.1 (by decide))
    (.cons (writes_hexElem layout "NewRoot" entry.newRoot.1 (by decide))
    (.cons (writes_signatureElem layout entry.signature.bytes) .nil)))))
  unfold writeEntry entrySpec
  simp only [List.flatten_cons, List.flatten_nil, List.append_assoc, List.cons_append,
    List.nil_append, List.append_nil] at whole ⊢
  exact whole

/-- The node of the header. -/
def headerSpec (times : TimeTexts) (header : LogHeader) : Xml.Node → Prop :=
  IsBranch "Header" []
    [IsLeaf "LogId" [] (hexEncode header.logId.1),
     IsLeaf "Suite" [] header.suite,
     IsLeaf "WireVersion" [] (toString header.wireVersion.toNat),
     IsLeaf "CreatedAt" [] (times.secs header.createdAt),
     IsLeaf "Label" [] header.label,
     IsLeaf "SignatureAlgorithm" [] "ml-dsa-87",
     IsLeaf "HashAlgorithm" [] "blake3-256",
     IsLeaf "PublicKey" [("encoding", "hex")] (hexEncode header.pubkey.bytes)]

/-- The node of the trailer. -/
def trailerSpec (crates : Crates) (times : TimeTexts) (log : AuditLog) (now : Timestamp) :
    Xml.Node → Prop :=
  IsBranch "Trailer" []
    [IsLeaf "FinalRoot" [("encoding", "hex")] (hexEncode (log.currentRoot crates).1),
     IsLeaf "EntryCount" [] (toString log.len),
     IsLeaf "ExportedAt" [] (times.secs now),
     IsLeaf "ProducerVersion" [] s!"qaudit-core {version}"]

/-- The root node of an export. -/
def exportSpec (crates : Crates) (times : TimeTexts) (log : AuditLog) (now : Timestamp) :
    Xml.Node → Prop :=
  IsBranch "AuditLogExport" [("xmlns", xmlNamespace)]
    [headerSpec times log.header,
     IsBranch "Entries" [("count", toString log.len)] (log.entries.map (entrySpec times)),
     trailerSpec crates times log now]

theorem writes_export (crates : Crates) (layout : Xml.Layout) (times : TimeTexts) (log : AuditLog)
    (now : Timestamp) :
    Writes layout (rootEvents crates times log now) (exportSpec crates times log now) := by
  have header := Xml.writes_branch layout "Header" (by decide) []
    (by decide)
    (.cons (writes_textElem layout "LogId" (hexEncode log.header.logId.1) (by decide))
    (.cons (writes_textElem layout "Suite" log.header.suite (by decide))
    (.cons (writes_textElem layout "WireVersion" (toString log.header.wireVersion.toNat)
      (by decide))
    (.cons (writes_textElem layout "CreatedAt" (times.secs log.header.createdAt) (by decide))
    (.cons (writes_textElem layout "Label" log.header.label (by decide))
    (.cons (writes_textElem layout "SignatureAlgorithm" "ml-dsa-87" (by decide))
    (.cons (writes_textElem layout "HashAlgorithm" "blake3-256" (by decide))
    (.cons (writes_hexElem layout "PublicKey" log.header.pubkey.bytes (by decide)) .nil))))))))
  have each : List.Forall₂ (Writes layout) (log.entries.map (writeEntry times))
      (log.entries.map (entrySpec times)) := by
    rw [List.forall₂_map_left_iff, List.forall₂_map_right_iff]
    exact List.forall₂_same.mpr fun entry _ => writes_entry layout times entry
  have entries := Xml.writes_branch layout "Entries" (by decide) _
    (legalAttributes_single "count" (by decide) (toString log.len)) each
  have trailer := Xml.writes_branch layout "Trailer" (by decide) []
    (by decide)
    (.cons (writes_hexElem layout "FinalRoot" (log.currentRoot crates).1 (by decide))
    (.cons (writes_textElem layout "EntryCount" (toString log.len) (by decide))
    (.cons (writes_textElem layout "ExportedAt" (times.secs now) (by decide))
    (.cons (writes_textElem layout "ProducerVersion" s!"qaudit-core {version}" (by decide)) .nil))))
  have whole := Xml.writes_branch layout "AuditLogExport" (by decide) _
    (legalAttributes_single "xmlns" (by decide) xmlNamespace)
    (.cons header (.cons entries (.cons trailer .nil)))
  unfold rootEvents exportSpec headerSpec trailerSpec
  simp only [List.flatten_cons, List.flatten_nil, List.append_assoc, List.cons_append,
    List.nil_append, List.append_nil, List.flatMap_def] at whole ⊢
  exact whole

/-! ### What a consumer recovers -/

/-- What a consumer recovers of an entry. -/
def LogEntry.recovered (entry : LogEntry) : XmlEntry where
  index := toString entry.index
  actor := Xml.reportedText entry.event.actor
  action := Xml.reportedText entry.event.action
  resource := Xml.reportedText entry.event.resource
  outcome := Xml.reportedText entry.event.outcome
  metadata := entry.event.metadata.entries.map fun item =>
    (Xml.attributeText (Xml.normalizeEol item.1.toList), Xml.reportedText item.2)
  prevRoot := hexEncode entry.prevRoot.1
  newRoot := hexEncode entry.newRoot.1
  signature := hexEncode entry.signature.bytes

/-- A list of children with one name is read child by child. -/
theorem mapM_named {A B : Type} {name : String} {spec : A → Xml.Node → Prop}
    {read : Xml.Node → Option B} {value : A → B} {sources : List A} {children : List Xml.Node}
    (each : ∀ source child, spec source child →
      child.isNamed name = true ∧ read child = some (value source))
    (all : List.Forall₂ (fun spec child => spec child) (sources.map spec) children) :
    (children.filter (Xml.Node.isNamed name)).mapM read = some (sources.map value) := by
  rw [List.forall₂_map_left_iff] at all
  induction all with
  | nil => rfl
  | @cons source child sources children first others inductionHypothesis =>
      obtain ⟨named, reads⟩ := each source child first
      rw [List.filter_cons_of_pos named, List.mapM_cons, reads, inductionHypothesis]
      rfl

theorem readXmlItem_leaf (item : String × String) (node : Xml.Node)
    (leaf : IsLeaf "Item" [("key", item.1)] item.2 node) :
    node.isNamed "Item" = true ∧ readXmlItem node =
      some (Xml.attributeText (Xml.normalizeEol item.1.toList), Xml.reportedText item.2) := by
  subst leaf
  refine ⟨rfl, ?_⟩
  simp [readXmlItem, Xml.Node.attribute?, Xml.Node.content, Xml.reportedAttributes, String.join]

theorem hexEncode_reported (bytes : List UInt8) :
    Xml.reportedText (hexEncode bytes) = hexEncode bytes := by
  have digits : ∀ n < 16, Nat.digitChar n ≠ '\r' := by decide
  refine (Xml.reportedText_eq_iff _).mpr fun member => ?_
  simp only [hexEncode, String.toList_ofList, List.mem_flatMap, List.mem_cons, List.not_mem_nil,
    or_false] at member
  obtain ⟨byte, -, high | low⟩ := member
  · exact digits _ (by have := byte.toNat_lt; omega) high.symm
  · exact digits _ (by omega) low.symm

theorem decimal_reported (n : Nat) :
    Xml.attributeText (Xml.normalizeEol (Nat.toDigits 10 n)) = n.repr := by
  rw [← Nat.toList_repr]
  refine (Xml.attributeText_eq_iff _).mpr fun c member => ?_
  rw [Nat.toList_repr] at member
  have digit : c.isDigit = true := Nat.isDigit_of_mem_toDigits (by decide) (by decide) member
  refine ⟨?_, ?_, ?_⟩ <;> rintro rfl <;> cases digit

theorem readXmlEntry_spec (times : TimeTexts) (entry : LogEntry) (node : Xml.Node)
    (spec : entrySpec times entry node) :
    node.isNamed "Entry" = true ∧ readXmlEntry node = some entry.recovered := by
  obtain ⟨children, rfl, all⟩ := spec
  refine ⟨rfl, ?_⟩
  simp only [List.forall₂_cons_left_iff, List.forall₂_nil_left_iff] at all
  obtain ⟨appended, _, isAppended, ⟨event, _, isEvent, ⟨prev, _, isPrev, ⟨new, _, isNew,
    ⟨signature, _, isSignature, rfl, rfl⟩, rfl⟩, rfl⟩, rfl⟩, kids⟩ := all
  obtain ⟨inner, rfl, all⟩ := isEvent
  simp only [List.forall₂_cons_left_iff, List.forall₂_nil_left_iff] at all
  obtain ⟨schema, _, isSchema,
    ⟨timestamp, _, isTimestamp, ⟨actor, _, isActor, ⟨action, _, isAction,
    ⟨resource, _, isResource,
      ⟨outcome, _, isOutcome, ⟨metadata, _, isMetadata, rfl, rfl⟩, rfl⟩,
    rfl⟩, rfl⟩, rfl⟩, rfl⟩, innerKids⟩ := all
  obtain ⟨items, rfl, all⟩ := isMetadata
  subst isAppended isPrev isNew isSignature isSchema isTimestamp isActor isAction isResource
  subst isOutcome
  have itemsRead := mapM_named readXmlItem_leaf all
  simp [readXmlEntry, childText?, Xml.Node.attribute?, Xml.Node.child?, Xml.Node.childrenNamed,
    Xml.Node.isNamed, Xml.Node.content, kids, innerKids, itemsRead, Xml.reportedAttributes,
    LogEntry.recovered, hexEncode_reported, decimal_reported, String.join]

/-- A consumer recovers every entry of a document, with what normalisation left of it. -/
theorem readXmlEntries_spec {crates : Crates} {times : TimeTexts} {log : AuditLog} {now : Timestamp}
    {root : Xml.Node} (spec : exportSpec crates times log now root) :
    readXmlEntries root = some (log.entries.map LogEntry.recovered) := by
  obtain ⟨children, rfl, all⟩ := spec
  simp only [List.forall₂_cons_left_iff, List.forall₂_nil_left_iff] at all
  obtain ⟨header, _, ⟨_, rfl, _⟩,
    ⟨entries, _, ⟨inner, rfl, all⟩, ⟨trailer, _, ⟨_, rfl, _⟩, rfl,
    rfl⟩, rfl⟩, kids⟩ := all
  have entriesRead := mapM_named (readXmlEntry_spec _) all
  simp [readXmlEntries, Xml.Node.child?, Xml.Node.childrenNamed,
    Xml.Node.isNamed, kids, entriesRead]

/-! ### Legal characters -/

theorem legalPairs_single {key value : String} (legal : Xml.Legal key.toList) :
    Xml.LegalPairs [(key, value)] ↔ Xml.Legal value.toList := by
  rw [Xml.LegalPairs, List.forall_mem_singleton]
  exact and_iff_right legal

theorem start_legal {name : String} {attributes : List (String × String)}
    (legal : Xml.Legal name.toList) :
    Xml.LegalEvents [.start name attributes] ↔ Xml.LegalPairs attributes := by
  simp only [Xml.LegalEvents, Xml.LegalPairs, Xml.Event.strings, List.forall_mem_cons,
    List.forall_mem_flatMap, List.not_mem_nil, false_imp_iff, implies_true,
    and_true, legal, true_and]

theorem close_legal {name : String} (legal : Xml.Legal name.toList) :
    Xml.LegalEvents [.close name] := by
  simpa [Xml.LegalEvents, Xml.Event.strings] using legal

theorem text_legal {text : String} : Xml.LegalEvents [.text text] ↔ Xml.Legal text.toList := by
  simp [Xml.LegalEvents, Xml.Event.strings]

theorem elem_legal {name text : String} {attributes : List (String × String)}
    (legal : Xml.Legal name.toList) :
    Xml.LegalEvents [.start name attributes, .text text, .close name] ↔
      Xml.LegalPairs attributes ∧ Xml.Legal text.toList := by
  have parts : [Xml.Event.start name attributes, .text text, .close name] =
      [.start name attributes] ++ [.text text] ++ [.close name] := rfl
  rw [parts, Xml.legalEvents_append, Xml.legalEvents_append, start_legal legal, text_legal]
  exact and_iff_left (close_legal legal)

theorem textElem_legal {name text : String} (legal : Xml.Legal name.toList) :
    Xml.LegalEvents (writeTextElem name text) ↔ Xml.Legal text.toList := by
  rw [writeTextElem, elem_legal legal]
  exact and_iff_right (by decide)

theorem hexEncode_legal (bytes : List UInt8) : Xml.Legal (hexEncode bytes).toList := by
  have digits : ∀ n < 16, Xml.isChar (Nat.digitChar n) = true := by decide
  intro c member
  simp only [hexEncode, String.toList_ofList, List.mem_flatMap, List.mem_cons, List.not_mem_nil,
    or_false] at member
  obtain ⟨byte, -, rfl | rfl⟩ := member
  · exact digits _ (by have := byte.toNat_lt; omega)
  · exact digits _ (by omega)

theorem decimal_legal (n : Nat) : Xml.Legal (toString n).toList := by
  intro c member
  have digit : c.isDigit = true :=
    Nat.isDigit_of_mem_toDigits (b := 10) (n := n) (by decide) (by decide) (by simpa using member)
  have bounds := Char.isDigit_iff_toNat.mp digit
  have low : 0x20 ≤ c.toNat := Nat.le_trans (by decide) bounds.1
  have high : c.toNat ≤ 0xD7FF := Nat.le_trans bounds.2 (by decide)
  simp [Xml.isChar, low, high]

theorem hexElem_legal {name : String} {bytes : List UInt8} (legal : Xml.Legal name.toList) :
    Xml.LegalEvents (writeHexElem name bytes) := by
  have encoding : Xml.LegalPairs [("encoding", "hex")] := by decide
  exact (elem_legal legal).mpr ⟨encoding, hexEncode_legal bytes⟩

theorem signatureElem_legal {bytes : List UInt8} : Xml.LegalEvents (writeSignatureElem bytes) := by
  have encoding : Xml.LegalPairs [("encoding", "hex"), ("algorithm", "ml-dsa-87")] := by decide
  exact (elem_legal (by decide)).mpr ⟨encoding, hexEncode_legal bytes⟩

theorem item_legal {item : String × String} :
    Xml.LegalEvents (writeItem item) ↔ Xml.Legal item.1.toList ∧ Xml.Legal item.2.toList := by
  have key : Xml.Legal "key".toList := by decide
  rw [writeItem, elem_legal (by decide), legalPairs_single key]

/-- An entry whose strings may stand in a document. -/
def LogEntry.XmlLegal (entry : LogEntry) : Prop :=
  Xml.Legal entry.event.actor.toList ∧ Xml.Legal entry.event.action.toList ∧
    Xml.Legal entry.event.resource.toList ∧ Xml.Legal entry.event.outcome.toList ∧
    ∀ item ∈ entry.event.metadata.entries, Xml.Legal item.1.toList ∧ Xml.Legal item.2.toList

/-- Times are written with legal characters. -/
def TimeTexts.Legal (times : TimeTexts) : Prop :=
  ∀ time, Xml.Legal (times.secs time).toList ∧ Xml.Legal (times.millis time).toList

theorem entry_legal {times : TimeTexts} (legal : times.Legal) (entry : LogEntry) :
    Xml.LegalEvents (writeEntry times entry) ↔ entry.XmlLegal := by
  have none : Xml.LegalPairs [] := by decide
  unfold writeEntry LogEntry.XmlLegal
  simp (disch := decide) only [List.flatten_cons, List.flatten_nil, List.append_nil,
    Xml.legalEvents_append, start_legal, close_legal, textElem_legal,
    hexElem_legal, signatureElem_legal, Xml.legalEvents_flatMap, item_legal, decimal_legal,
    legalPairs_single, none, (legal _).2, true_and, and_true]

/-- The document of a log is written with legal characters exactly when its label and the
strings of its entries are legal. -/
theorem export_legal {crates : Crates} {times : TimeTexts} (legal : times.Legal) {log : AuditLog}
    (now : Timestamp) (suite : log.header.suite = suiteId) :
    Xml.LegalEvents (.decl "1.0" "UTF-8" :: rootEvents crates times log now) ↔
      Xml.Legal log.header.label.toList ∧ ∀ entry ∈ log.entries, entry.XmlLegal := by
  have none : Xml.LegalPairs [] := by decide
  have root : Xml.LegalPairs [("xmlns", xmlNamespace)] := by decide
  have declaration : ∀ string ∈ (Xml.Event.decl "1.0" "UTF-8").strings,
      Xml.Legal string.toList := by
    decide
  have suiteLegal : Xml.Legal log.header.suite.toList := by
    rw [suite]
    decide
  have fixed : Xml.Legal "ml-dsa-87".toList ∧ Xml.Legal "blake3-256".toList ∧
      Xml.Legal (s!"qaudit-core {version}").toList := by
    decide
  rw [Xml.legalEvents_cons, and_iff_right declaration]
  unfold rootEvents
  simp (disch := decide) only [List.flatten_cons, List.flatten_nil, List.append_nil,
    Xml.legalEvents_append, start_legal, close_legal, textElem_legal,
    hexElem_legal, Xml.legalEvents_flatMap, entry_legal legal, decimal_legal, hexEncode_legal,
    legalPairs_single, none, (legal _).1, root, suiteLegal, fixed.1, fixed.2.1,
    fixed.2.2, true_and, and_true]

/-! ### Lossless exports -/

/-- A text that a parser reports as it is: its characters may stand in a document, and
there is no carriage return. -/
def XmlText (text : String) : Prop := ∀ c ∈ text.toList, Xml.isChar c = true ∧ c ≠ '\r'

/-- A key that a parser reports as it is: there is no tab and no line feed either. -/
def XmlKey (key : String) : Prop :=
  ∀ c ∈ key.toList, Xml.isChar c = true ∧ c ≠ '\r' ∧ c ≠ '\n' ∧ c ≠ '\t'

/-- An entry whose strings survive the export. -/
structure LogEntry.XmlSafe (entry : LogEntry) : Prop where
  actor : XmlText entry.event.actor
  action : XmlText entry.event.action
  resource : XmlText entry.event.resource
  outcome : XmlText entry.event.outcome
  metadata : ∀ item ∈ entry.event.metadata.entries, XmlKey item.1 ∧ XmlText item.2

theorem xmlText_iff {text : String} :
    XmlText text ↔ Xml.Legal text.toList ∧ Xml.reportedText text = text := by
  rw [Xml.reportedText_eq_iff]
  constructor
  · exact fun safe => ⟨fun c member => (safe c member).1, fun member => (safe _ member).2 rfl⟩
  · rintro ⟨legal, clean⟩ c member
    refine ⟨legal c member, ?_⟩
    rintro rfl
    exact clean member

theorem xmlKey_iff {key : String} : XmlKey key ↔
    Xml.Legal key.toList ∧ Xml.attributeText (Xml.normalizeEol key.toList) = key := by
  rw [Xml.attributeText_eq_iff]
  exact forall₂_and

theorem xmlSafe_iff {entry : LogEntry} :
    entry.XmlSafe ↔ entry.XmlLegal ∧ entry.recovered = entry.xmlEntry := by
  have items : entry.recovered.metadata = entry.event.metadata.entries ↔
      ∀ item ∈ entry.event.metadata.entries,
        Xml.attributeText (Xml.normalizeEol item.1.toList) = item.1 ∧
          Xml.reportedText item.2 = item.2 := by
    simpa [LogEntry.recovered, Prod.ext_iff] using
      List.map_inj_left (l := entry.event.metadata.entries) (g := id)
        (f := fun item =>
          (Xml.attributeText (Xml.normalizeEol item.1.toList), Xml.reportedText item.2))
  constructor
  · rintro ⟨actor, action, resource, outcome, metadata⟩
    rw [xmlText_iff] at actor action resource outcome
    simp only [xmlKey_iff, xmlText_iff] at metadata
    refine ⟨⟨actor.1, action.1, resource.1, outcome.1,
      fun item member => ⟨(metadata item member).1.1, (metadata item member).2.1⟩⟩, ?_⟩
    have sameItems := items.mpr fun item member =>
      ⟨(metadata item member).1.2, (metadata item member).2.2⟩
    simp only [LogEntry.recovered] at sameItems
    simp [LogEntry.recovered, LogEntry.xmlEntry, actor.2, action.2, resource.2, outcome.2,
      sameItems]
  · rintro ⟨⟨actor, action, resource, outcome, metadata⟩, same⟩
    have sameItems := items.mp (congrArg XmlEntry.metadata same)
    exact {
      actor := xmlText_iff.mpr ⟨actor, congrArg XmlEntry.actor same⟩
      action := xmlText_iff.mpr ⟨action, congrArg XmlEntry.action same⟩
      resource := xmlText_iff.mpr ⟨resource, congrArg XmlEntry.resource same⟩
      outcome := xmlText_iff.mpr ⟨outcome, congrArg XmlEntry.outcome same⟩
      metadata := fun item member =>
        ⟨xmlKey_iff.mpr ⟨(metadata item member).1, (sameItems item member).1⟩,
          xmlText_iff.mpr ⟨(metadata item member).2, (sameItems item member).2⟩⟩ }

/-- The document of a log that verifies has legal characters exactly when its label and the
strings of its entries are legal. -/
theorem document_legal (crates : Crates) (layout : Xml.Layout) {times : TimeTexts} {log : AuditLog}
    (now : Timestamp) (legal : times.Legal) (verified : log.verify crates = .ok ()) :
    Xml.Legal (Xml.writeAll layout [] (.decl "1.0" "UTF-8" :: rootEvents crates times log now)) ↔
      Xml.Legal log.header.label.toList ∧ ∀ entry ∈ log.entries, entry.XmlLegal := by
  obtain ⟨_, valid, _⟩ := bind_eq_ok.mp verified
  exact (Xml.writeAll_legal layout [] _).trans
    (export_legal legal now (validateHeader_eq_ok.mp valid).1.2)

/-- The entries a consumer recovers from the export of a log that verifies are the log's
exactly when all characters may stand in a document, no text or key has a carriage return,
and no key a tab or a line feed. -/
theorem export_xml_lossless_iff (crates : Crates) (layout : Xml.Layout) (times : TimeTexts)
    (log : AuditLog) (now : Timestamp) (legal : times.Legal)
    (verified : log.verify crates = .ok ()) :
    (∃ document root, exportXml crates layout times log now = .ok document ∧
        Xml.parse document = some root ∧
        readXmlEntries root = some (log.entries.map LogEntry.xmlEntry)) ↔
      Xml.Legal log.header.label.toList ∧ ∀ entry ∈ log.entries, entry.XmlSafe := by
  have legalIff := document_legal crates layout now legal verified
  have reads := Xml.parse_write layout (writes_export crates layout times log now)
  constructor
  · rintro ⟨_, root, ⟨⟩, parsed, recovered⟩
    have allLegal := Xml.legal_of_parse parsed
    obtain ⟨label, entries⟩ := legalIff.mp allLegal
    obtain ⟨same, parsedSame, spec⟩ := reads allLegal
    obtain rfl := Option.some.inj (parsed.symm.trans parsedSame)
    have sameEntries := List.map_inj_left.mp
      (Option.some.inj ((readXmlEntries_spec spec).symm.trans recovered))
    exact ⟨label, fun entry member => xmlSafe_iff.mpr ⟨entries entry member,
      sameEntries entry member⟩⟩
  · rintro ⟨label, entries⟩
    have allLegal :=
      legalIff.mpr ⟨label, fun entry member => (xmlSafe_iff.mp (entries entry member)).1⟩
    obtain ⟨root, parsed, spec⟩ := reads allLegal
    refine ⟨_, root, rfl, parsed, ?_⟩
    rw [readXmlEntries_spec spec,
      List.map_congr_left fun entry member => (xmlSafe_iff.mp (entries entry member)).2]

/-- The tags that are open after events. -/
def openTags (events : List Xml.Event) : Nat :=
  events.foldl (fun depth event =>
    match event with
    | .start _ _ => depth + 1
    | .close _ => depth - 1
    | _ => depth) 0

/-- `Writer::new_with_indent(_, b' ', 2)`. -/
def twoSpaces : Xml.Layout where
  indent before next :=
    match before.getLast?, next with
    | none, _ | some (.text _), _ => []
    | _, .close _ => '\n' :: List.replicate (2 * (openTags before - 1)) ' '
    | _, _ => '\n' :: List.replicate (2 * openTags before) ' '
  blank before next c member := by
    split at member
    · cases member
    · cases member
    · rcases List.mem_cons.mp member with feed | spaces
      · exact .inr feed
      · exact .inl (List.eq_of_mem_replicate spaces)
    · rcases List.mem_cons.mp member with feed | spaces
      · exact .inr feed
      · exact .inl (List.eq_of_mem_replicate spaces)
  first _ := rfl
  afterText before data next := by
    simp

/-- Times in RFC 3339, from whole seconds. -/
def wholeSeconds : TimeTexts where
  secs time := String.ofList (time.toList.filter Xml.isChar)
  millis time := String.ofList ((time.toList.filter Xml.isChar).dropLast ++ ".000Z".toList)

theorem wholeSeconds_legal : wholeSeconds.Legal := by
  intro time
  have kept : Xml.Legal (time.toList.filter Xml.isChar) :=
    fun c member => (List.mem_filter.mp member).2
  refine ⟨by simpa [wholeSeconds] using kept, ?_⟩
  rw [wholeSeconds, String.toList_ofList, Xml.legal_append]
  exact ⟨fun c member => kept c (List.dropLast_subset _ member), by decide⟩

/-- A log with one event. -/
def loggedEvent (event : AuditEvent) : AuditLog :=
  (plainLog.append plainCrates event plainSign "2026-05-01T00:00:02Z").1

theorem loggedEvent_verifies (event : AuditEvent) :
    (loggedEvent event).verify plainCrates = .ok () := by
  have created := AuditLog.sound_createWithSigner plainCrates "gateway" (.replicate 16 1)
    "2026-05-01T00:00:00Z" plainSigner_wellFormed
  exact (created.append plainSign_honours).verify

theorem loggedEvent_entries (event : AuditEvent) (entry : LogEntry)
    (member : entry ∈ (loggedEvent event).entries) : entry.event = event := by
  rcases plainLog.append_cases plainCrates event plainSign "2026-05-01T00:00:02Z" with
    ⟨failure, failed⟩ | ⟨signer, signature, _, _, committed⟩
  · rw [loggedEvent, failed] at member
    cases member
  · rw [loggedEvent, committed] at member
    obtain rfl := List.mem_singleton.mp member
    rfl

instance (text : String) : Decidable (XmlText text) :=
  List.decidableBAll _ text.toList

instance (key : String) : Decidable (XmlKey key) :=
  List.decidableBAll _ key.toList

/-- An event with everything that the export escapes, in its texts and in a metadata key. -/
def markupEvent : AuditEvent :=
  { loginEvent with
    actor := "user:<ana> & \"eva\"'s"
    outcome := "ok\n\t&amp;"
    metadata := OrderedMap.empty.insert "from <\"a\"> & 'b'" "10.0.0.1\n]]>" }

/-- The export of an event full of markup. -/
theorem export_xml_lossless_markup :
    (loggedEvent markupEvent).entries.map LogEntry.event = [markupEvent] ∧
      ∃ document root, exportXml plainCrates twoSpaces wholeSeconds (loggedEvent markupEvent)
          "2026-05-02T00:00:00Z" = .ok document ∧ Xml.parse document = some root ∧
        readXmlEntries root = some ((loggedEvent markupEvent).entries.map LogEntry.xmlEntry) := by
  have events := loggedEvent_entries markupEvent
  have safe : ∀ entry ∈ (loggedEvent markupEvent).entries, entry.XmlSafe := by
    intro entry member
    have same := events entry member
    exact {
      actor := by rw [same]; decide
      action := by rw [same]; decide
      resource := by rw [same]; decide
      outcome := by rw [same]; decide
      metadata := by rw [same]; decide }
  have one : (loggedEvent markupEvent).entries.length = 1 := by decide +kernel
  obtain ⟨entry, only⟩ := List.length_eq_one_iff.mp one
  refine ⟨?_, (export_xml_lossless_iff plainCrates twoSpaces wholeSeconds _ "2026-05-02T00:00:00Z"
    wholeSeconds_legal (loggedEvent_verifies markupEvent)).mpr ⟨by decide +kernel, safe⟩⟩
  rw [only, List.map_singleton, events entry (by simp [only])]

/-- An event whose actor has a control character. -/
def bellEvent : AuditEvent := { loginEvent with actor := "user:\x07ana" }

/-- A log with a control character in it verifies, and its export is malformed. -/
theorem export_xml_malformed :
    (loggedEvent bellEvent).verify plainCrates = .ok () ∧ (loggedEvent bellEvent).len = 1 ∧
      ∀ document, exportXml plainCrates twoSpaces wholeSeconds (loggedEvent bellEvent)
        "2026-05-02T00:00:00Z" = .ok document → Xml.parse document = none := by
  have verified := loggedEvent_verifies bellEvent
  have one : (loggedEvent bellEvent).entries.length = 1 := by decide +kernel
  refine ⟨verified, one, ?_⟩
  intro document exported
  rw [exportXml] at exported
  rw [← Except.ok.inj exported, Option.eq_none_iff_forall_ne_some]
  intro root parsed
  obtain ⟨entry, only⟩ := List.length_eq_one_iff.mp one
  have member : entry ∈ (loggedEvent bellEvent).entries := by simp [only]
  have legal := (document_legal plainCrates twoSpaces "2026-05-02T00:00:00Z" wholeSeconds_legal
    verified).mp (Xml.legal_of_parse parsed)
  have actor := (legal.2 entry member).1
  rw [loggedEvent_entries bellEvent entry member] at actor
  exact absurd actor (by decide)

end CofreSoberano.Audit
