import CofreSoberano.Audit.Export
import CofreSoberano.Audit.Rotation
import CofreSoberano.Audit.XmlExport

/-!
# Inspecting untrusted logs

The functions that show or verify a log that was read from a file, with their slices,
indices and subtractions, each of which can panic. A file can hold an entry whose signature
has any length.
-/

namespace CofreSoberano.Audit

open CofreSoberano.Std

/-! ### Verification -/

namespace Checked

/-- The loop of `MerkleTree::append` from level `i` on, with its accesses to the frontier. -/
def appendLoop (crates : Crates) (carry : Hash) (i : Nat) (frontier : List (Option Hash)) :
    Option (List (Option Hash)) :=
  if i ≥ frontier.length then some (frontier ++ [some carry])
  else match index frontier i with
  | none => none
  | some none => setIndex (frontier.set i none) i (some carry)
  | some (some left) => appendLoop crates (nodeHash crates left carry) (i + 1) (frontier.set i none)
termination_by frontier.length - i
decreasing_by
  rw [List.length_set]
  omega

/-- The loop fills the frontier from level `i` on, and leaves the levels below alone. -/
theorem appendLoop_eq (crates : Crates) (carry : Hash) (i : Nat) (frontier : List (Option Hash))
    (within : i ≤ frontier.length) :
    appendLoop crates carry i frontier =
      some (frontier.take i ++ MerkleTree.carryInto crates carry (frontier.drop i)) := by
  fun_induction appendLoop crates carry i frontier with
  | case1 carry i frontier past =>
      obtain rfl : i = frontier.length := by omega
      simp [MerkleTree.carryInto]
  | case2 carry i frontier past missing =>
      simp [index] at missing
      omega
  | case3 carry i frontier past found =>
      have inside : i < frontier.length := by omega
      rw [setIndex, List.length_set, if_pos inside, List.set_set, drop_of_index found,
        MerkleTree.carryInto, List.set_eq_take_append_cons_drop, if_pos inside]
  | case4 carry i frontier past left found inductionHypothesis =>
      have inside : i < frontier.length := by omega
      have below : (frontier.set i none).take (i + 1) = frontier.take i ++ [none] := by
        rw [List.take_set, List.take_add_one, List.set_append_right _ _ (by simp)]
        simp [inside, Nat.min_eq_left (Nat.le_of_lt inside)]
      rw [inductionHypothesis (by rw [List.length_set]; omega), drop_of_index found,
        MerkleTree.carryInto, below, List.drop_set_of_lt (Nat.lt_succ_self i)]
      simp

/-- `MerkleTree::append`. -/
def append (crates : Crates) (tree : MerkleTree) (content : Hash) : Option MerkleTree :=
  (appendLoop crates (leafHash crates content) 0 tree.frontier).map fun frontier =>
    { count := tree.count + 1, frontier }

theorem append_eq (crates : Crates) (tree : MerkleTree) (content : Hash) :
    append crates tree content = some (tree.append crates content) := by
  rw [append, appendLoop_eq crates _ 0 _ (Nat.zero_le _)]
  rfl

/-- The loop of `verify_with_pubkey` from position `i` on. -/
def verifyEntries (crates : Crates) (header : LogHeader) :
    Nat → MerkleTree → Hash → List LogEntry → Option (Except Error Unit)
  | _, _, _, [] => some (.ok ())
  | i, tree, expectedPrev, e :: rest =>
      if e.index ≠ i then
        some (.error (.invalidEntry i s!"declared index {e.index} but position {i}"))
      else if e.prevRoot ≠ expectedPrev then
        some (.error (.chainBroken e.index (hexEncode expectedPrev.1) (hexEncode e.prevRoot.1)))
      else do
        let eventHash := e.event.contentHash crates
        let nextTree ← append crates tree eventHash
        let newRoot := nextTree.root crates
        if newRoot ≠ e.newRoot then
          some (.error (.chainBroken e.index (hexEncode newRoot.1) (hexEncode e.newRoot.1)))
        else
          let payload := payloadBytes header.logId e.index e.prevRoot eventHash e.newRoot
          match verifySig crates header.pubkey payload e.signature e.index with
          | .error failure => some (.error failure)
          | .ok () => verifyEntries crates header (i + 1) nextTree newRoot rest

theorem verifyEntries_eq (crates : Crates) (header : LogHeader) (entries : List LogEntry) (i : Nat)
    (tree : MerkleTree) (expectedPrev : Hash) :
    verifyEntries crates header i tree expectedPrev entries =
      some (AuditLog.verifyEntries crates header i tree expectedPrev entries) := by
  induction entries generalizing i tree expectedPrev with
  | nil => rfl
  | cons e rest inductionHypothesis =>
      simp only [verifyEntries, AuditLog.verifyEntries, append_eq, Option.bind_eq_bind,
        Option.bind_some]
      split
      · rfl
      split
      · rfl
      split
      · rfl
      cases verifySig crates header.pubkey _ e.signature e.index with
      | error failure => rfl
      | ok done => exact inductionHypothesis _ _ _

/-- `AuditLog::verify`. -/
def verify (crates : Crates) (log : AuditLog) : Option (Except Error Unit) :=
  match validateHeader log.header with
  | .error failure => some (.error failure)
  | .ok () => verifyEntries crates log.header 0 .new zeroHash log.entries

/-- `AuditLog::verify` never panics. -/
theorem verify_eq (crates : Crates) (log : AuditLog) :
    verify crates log = some (log.verify crates) := by
  simp only [verify, AuditLog.verify, AuditLog.verifyWithPubkey]
  cases validateHeader log.header with
  | error failure => rfl
  | ok done => exact verifyEntries_eq crates log.header log.entries 0 .new zeroHash

/-- `logs.windows(2)`. -/
def windows {A : Type} : List A → List (List A)
  | first :: second :: rest => [first, second] :: windows (second :: rest)
  | _ => []

/-- The loop of `verify_chain`. -/
def verifyPairs (crates : Crates) : List (List AuditLog) → Option (Except Error Unit)
  | [] => some (.ok ())
  | window :: rest => do
      let prev ← index window 0
      let next ← index window 1
      match ← verify crates next with
      | .error failure => return .error (AuditLog.chainFailure "verify_chain" next failure)
      | .ok () =>
          match AuditLog.checkLink crates prev next with
          | .error failure => return .error failure
          | .ok () => verifyPairs crates rest

/-- `AuditLog::verify_chain`. -/
def verifyChain (crates : Crates) (logs : List AuditLog) : Option (Except Error Unit) :=
  if logs.isEmpty then some (.error (.internal "verify_chain: empty chain"))
  else do
    let first ← index logs 0
    match ← verify crates first with
    | .error failure => return .error (AuditLog.chainFailure "verify_chain[0]" first failure)
    | .ok () =>
        if first.header.prevLogId.isSome || first.header.prevLogFinalRoot.isSome then
          return .error (.internal <|
            s!"verify_chain[0]: log {hexEncode first.header.logId.1} has " ++
            s!"prev_log_id/prev_log_final_root set                  but is the first in " ++
            s!"the chain — caller passed logs out of order")
        else verifyPairs crates (windows logs)

theorem verifyPairs_eq (crates : Crates) (prev : AuditLog) (logs : List AuditLog) :
    verifyPairs crates (windows (prev :: logs)) = some (AuditLog.verifyPairs crates prev logs) := by
  induction logs generalizing prev with
  | nil => rfl
  | cons next logs inductionHypothesis =>
      rw [windows, verifyPairs, AuditLog.verifyPairs]
      simp only [index, List.getElem?_cons_zero, List.getElem?_cons_succ, Option.bind_eq_bind,
        Option.bind_some, verify_eq]
      cases next.verify crates with
      | error failure => rfl
      | ok done =>
          cases AuditLog.checkLink crates prev next with
          | error failure => rfl
          | ok done => exact inductionHypothesis next

/-- `AuditLog::verify_chain` never panics. -/
theorem verifyChain_eq (crates : Crates) (logs : List AuditLog) :
    verifyChain crates logs = some (AuditLog.verifyChain crates logs) := by
  cases logs with
  | nil => rfl
  | cons first rest =>
      simp only [verifyChain, AuditLog.verifyChain, List.isEmpty_cons, index,
        List.getElem?_cons_zero, Option.bind_eq_bind, Option.bind_some, verify_eq, verifyPairs_eq]
      cases first.verify crates with
      | error failure => rfl
      | ok done =>
          by_cases linked :
            (first.header.prevLogId.isSome || first.header.prevLogFinalRoot.isSome) = true
          · simp only [linked, if_true]
            rfl
          · simp only [linked]
            rfl

end Checked

/-! ### Commands -/

/-- `char::is_control`. -/
def isControl (c : Char) : Bool := c.toNat < 0x20 || (0x7F ≤ c.toNat && c.toNat ≤ 0x9F)

/-- `char::escape_default`. -/
def escapeDefault (c : Char) : List Char :=
  if c = '\t' then ['\\', 't']
  else if c = '\r' then ['\\', 'r']
  else if c = '\n' then ['\\', 'n']
  else if c = '\'' ∨ c = '"' ∨ c = '\\' then ['\\', c]
  else if 0x20 ≤ c.toNat ∧ c.toNat ≤ 0x7E then [c]
  else '\\' :: 'u' :: '{' :: Nat.toDigits 16 c.toNat ++ ['}']

/-- `terminal_text`. -/
def terminalText (value : String) : String :=
  String.ofList (value.toList.flatMap fun c =>
    if isControl c || (0x202A ≤ c.toNat && c.toNat ≤ 0x202E) ||
      (0x2066 ≤ c.toNat && c.toNat ≤ 0x2069) then escapeDefault c
    else [c])

/-- The arguments of `qaudit inspect` beside the path. -/
structure InspectArgs where
  limit : Option Nat
  json : Bool

/-- A JSON object of texts. -/
def metadataJson (metadata : OrderedMap String String) : Json :=
  .object (metadata.entries.map fun (k, v) => (k, .string v))

/-- The object that `cmd_inspect` writes for an entry. -/
def inspectJson (e : LogEntry) : Option Json := do
  let signaturePrefix ← sliceTo e.signature.bytes 16
  return .object
    [("index", .number e.index 0),
     ("appended_at", .string e.appendedAt),
     ("actor", .string e.event.actor),
     ("action", .string e.event.action),
     ("resource", .string e.event.resource),
     ("outcome", .string e.event.outcome),
     ("metadata", metadataJson e.event.metadata),
     ("prev_root", .string (hexEncode e.prevRoot.1)),
     ("new_root", .string (hexEncode e.newRoot.1)),
     ("signature_prefix", .string (hexEncode signaturePrefix))]

/-- A number in a field of six columns. -/
def sixColumns (n : Nat) : String :=
  String.ofList (List.replicate (6 - (toString n).length) ' ' ++ (toString n).toList)

/-- The lines that `cmd_inspect` writes for an entry. `shown` formats its time. -/
def inspectText (shown : Timestamp → String) (e : LogEntry) : List String :=
  [s!"[{sixColumns e.index}] {shown e.appendedAt}  {terminalText e.event.actor} :: " ++
    s!"{terminalText e.event.action} -> {terminalText e.event.resource} " ++
    s!"({terminalText e.event.outcome})"] ++
  e.event.metadata.entries.map (fun (k, v) =>
    s!"           meta.{terminalText k} = {terminalText v}") ++
  [s!"           root = {hexEncode e.newRoot.1}"]

/-- What `cmd_inspect` writes: an object a line, or text. -/
inductive Inspection where
  | objects (lines : List Json)
  | text (lines : List String)

/-- `cmd_inspect` on a log that was opened. -/
def cmdInspect (shown : Timestamp → String) (args : InspectArgs) (log : AuditLog) :
    Option Inspection :=
  let n := log.len
  let take := min (args.limit.getD n) n
  if args.json then do
    let lines ← (log.entries.take take).mapM inspectJson
    return .objects lines
  else do
    let heading :=
      [s!"log_id = {hexEncode log.header.logId.1}   suite = {terminalText log.header.suite}   " ++
        s!"entries = {log.len}"] ++
      (if log.header.label = "" then [] else [s!"label  = {terminalText log.header.label}"]) ++ [""]
    let entries := (log.entries.take take).flatMap (inspectText shown)
    if take < n then
      let omitted ← checkedSub n take
      return .text (heading ++ entries ++
        ["", s!"…{omitted} more entries omitted (use --limit to widen)"])
    else return .text (heading ++ entries)

/-- `cmd_info` on a log that was opened from `path`. `shown` formats the time. -/
def cmdInfo (crates : Crates) (shown : Timestamp → String) (path : String) (log : AuditLog) :
    Option (List String) := do
  let fingerprint ← sliceTo log.header.pubkey.bytes 16
  return [s!"log file:      {path}",
    s!"log_id:        {hexEncode log.header.logId.1}",
    s!"suite:         {terminalText log.header.suite}",
    s!"wire_version:  {log.header.wireVersion.toNat}",
    s!"created_at:    {shown log.header.createdAt}",
    "label:         " ++
      (if log.header.label = "" then "<none>" else terminalText log.header.label),
    s!"pubkey:        {hexEncode fingerprint}… ({log.header.pubkey.bytes.length} bytes)",
    s!"entries:       {log.len}",
    s!"current root:  {hexEncode (log.currentRoot crates).1}"]

/-- The paging arguments of the portal's entries endpoint. -/
structure Pagination where
  offset : Option Nat
  limit : Option Nat

/-- The object that `api_entries` returns for an entry. -/
def apiEntry (e : LogEntry) : Json :=
  .object
    [("index", .number e.index 0),
     ("appended_at", .string e.appendedAt),
     ("actor", .string e.event.actor),
     ("action", .string e.event.action),
     ("resource", .string e.event.resource),
     ("outcome", .string e.event.outcome),
     ("metadata", metadataJson e.event.metadata),
     ("prev_root", .string (hexEncode e.prevRoot.1)),
     ("new_root", .string (hexEncode e.newRoot.1)),
     ("signature", .string (hexEncode e.signature.bytes))]

/-- `api_entries`. Its iterator adapters cut off at the end and panic nowhere. -/
def apiEntries (page : Pagination) (log : AuditLog) : Option Json :=
  let offset := page.offset.getD 0
  let limit := min (page.limit.getD 100) 1000
  let entries := ((log.entries.drop offset).take limit).map apiEntry
  some (.object
    [("offset", .number offset 0),
     ("limit", .number limit 0),
     ("total", .number log.len 0),
     ("returned", .number entries.length 0),
     ("entries", .array entries)])

/-! ### Bounds -/

theorem isSome_inspectJson {e : LogEntry} :
    (inspectJson e).isSome = true ↔ 16 ≤ e.signature.bytes.length := by
  rw [← isSome_sliceTo, inspectJson]
  cases sliceTo e.signature.bytes 16 <;> rfl

/-- `cmd_inspect` returns exactly when every entry it shows as JSON has a signature of at
least 16 bytes. The text form shows no signature. -/
theorem isSome_cmdInspect (shown : Timestamp → String) (args : InspectArgs) (log : AuditLog) :
    (cmdInspect shown args log).isSome = true ↔
      (args.json = true → ∀ entry ∈ log.entries.take (args.limit.getD log.len),
        16 ≤ entry.signature.bytes.length) := by
  have shownEntries : log.entries.take (min (args.limit.getD log.len) log.len) =
      log.entries.take (args.limit.getD log.len) := List.take_eq_take_min.symm
  cases json : args.json with
  | true =>
      simp only [cmdInspect, json, if_true, shownEntries, forall_const, ← isSome_inspectJson]
      rw [← isSome_mapM]
      cases (log.entries.take (args.limit.getD log.len)).mapM inspectJson <;> rfl
  | false =>
      have within : min (args.limit.getD log.len) log.len ≤ log.len := Nat.min_le_right _ _
      simp only [cmdInspect, json, Bool.false_eq_true, if_false, false_imp_iff, iff_true]
      split
      · simp [checkedSub, within]
      · rfl

/-- A log that was read has a whole public key. -/
theorem isSome_cmdInfo {crates : Crates} {codec : LogCodec} {input : List UInt8} {log : AuditLog}
    (read : AuditLog.readFrom crates codec input = .ok log) (shown : Timestamp → String)
    (path : String) : (cmdInfo crates shown path log).isSome = true := by
  obtain ⟨header, _, _, _, _, valid, _, rfl⟩ := AuditLog.readFrom_eq_ok read
  have long : 16 ≤ header.pubkey.bytes.length := by
    rw [(validateHeader_eq_ok.mp valid).2]
    decide
  simp [cmdInfo, sliceTo, long]

/-- Nothing that verifies or shows a log that was read from arbitrary bytes panics, except
that `cmd_inspect` with JSON output panics on an entry with a signature of fewer than 16
bytes. -/
theorem inspection_returns_iff (crates : Crates) (codec : LogCodec) (input : List UInt8)
    (log : AuditLog) (read : AuditLog.readFrom crates codec input = .ok log)
    (shown : Timestamp → String) (layout : Xml.Layout) (times : TimeTexts) (now : Timestamp)
    (path : String) (args : InspectArgs) (page : Pagination) :
    (Checked.verify crates log = some (log.verify crates) ∧
        (∀ logs, Checked.verifyChain crates logs = some (AuditLog.verifyChain crates logs)) ∧
        (cmdInspect shown args log).isSome = true ∧
        (cmdInfo crates shown path log).isSome = true ∧
        (apiEntries page log).isSome = true ∧
        (exportXml crates layout times log now).isOk = true ∧
        (exportJsonl times.millis log).isOk = true) ↔
      (args.json = true → ∀ entry ∈ log.entries.take (args.limit.getD log.len),
        16 ≤ entry.signature.bytes.length) := by
  rw [isSome_cmdInspect]
  constructor
  · rintro ⟨-, -, long, -⟩
    exact long
  · intro long
    exact ⟨Checked.verify_eq crates log, Checked.verifyChain_eq crates, long,
      isSome_cmdInfo read shown path, rfl, rfl, rfl⟩

/-- A log of one entry with a given signature, as it is read from its file. -/
def fileLog (signature : List UInt8) : AuditLog :=
  { plainLog with
    entries := [{ index := 0, appendedAt := "2026-05-01T00:00:02Z", event := loginEvent
                  prevRoot := zeroHash, newRoot := zeroHash
                  signature := ⟨signature⟩ }] }.reopened
    plainCrates

theorem fileLog_read (signature : List UInt8) :
    AuditLog.readFrom plainCrates cborCodec ((fileLog signature).saveTo cborCodec) =
      .ok (fileLog signature) := by
  have valid : validateHeader (fileLog signature).header = .ok () :=
    validateHeader_eq_ok.mpr ⟨⟨rfl, rfl⟩, plainSigner_wellFormed⟩
  rw [AuditLog.readFrom_saveTo, valid]
  rfl

/-- A log that does not verify, with a signature of 16 bytes, is shown whole. -/
theorem inspection_returns_unverified :
    (fileLog (List.replicate 16 9)).verify plainCrates ≠ .ok () ∧
      (cmdInspect id ⟨none, true⟩ (fileLog (List.replicate 16 9))).isSome = true := by
  have returns := (inspection_returns_iff plainCrates cborCodec _ _
    (fileLog_read (List.replicate 16 9)) id twoSpaces wholeSeconds
    "2026-05-02T00:00:00Z" "log.qa" ⟨none, true⟩ ⟨none, none⟩).mpr (by decide +kernel)
  exact ⟨by decide +kernel, returns.2.2.1⟩

/-- A file with an empty signature is read, and `qaudit inspect --json` panics on it. -/
theorem inspect_json_panics :
    AuditLog.readFrom plainCrates cborCodec ((fileLog []).saveTo cborCodec) = .ok (fileLog []) ∧
      (cmdInspect id ⟨none, true⟩ (fileLog [])).isSome = false :=
  ⟨fileLog_read [], rfl⟩

end CofreSoberano.Audit
