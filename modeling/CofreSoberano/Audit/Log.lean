import CofreSoberano.Audit.Merkle
import CofreSoberano.Std.Fallible

/-!
# The audit log

`AuditLog` in memory: creation, signed append, whole-log verification and the
binding of a signer. The log keeps its history three times (the entries, the
Merkle frontier and the roots signed into the entries); `Sound` says that they
are the same history.
-/

namespace CofreSoberano.Audit

open CofreSoberano.Std

/-- `WIRE_VERSION`. -/
def wireVersion : UInt32 := 1

/-- `SUITE_ID`. -/
def suiteId : String := "cspq-2026"

/-- A log's random identifier. -/
abbrev LogId := Octets 16

/-- Static metadata at the head of a log. -/
structure LogHeader where
  wireVersion : UInt32
  suite : String
  createdAt : Timestamp
  logId : LogId
  pubkey : PublicKey
  label : String
  prevLogId : Option LogId
  prevLogFinalRoot : Option Hash
deriving DecidableEq

/-- `validate_header`. -/
def validateHeader (header : LogHeader) : Except Error Unit :=
  if header.wireVersion ≠ wireVersion then
    .error (.versionMismatch header.wireVersion wireVersion)
  else if header.suite ≠ suiteId then
    .error (.badHeader s!"unsupported suite: {header.suite}")
  else (PublicKey.fromBytes header.pubkey.bytes).map fun _ => ()

/-- What `validate_header` accepts. -/
theorem validateHeader_eq_ok {header : LogHeader} :
    validateHeader header = .ok () ↔
      (header.wireVersion = wireVersion ∧ header.suite = suiteId) ∧
        header.pubkey.bytes.length = publicKeyLen := by
  simp only [validateHeader, PublicKey.fromBytes]
  by_cases version : header.wireVersion = wireVersion <;>
    by_cases suite : header.suite = suiteId <;>
    by_cases length : header.pubkey.bytes.length = publicKeyLen <;>
    simp [version, suite, length, Except.map]

/-- The payload that is signed for each entry. -/
structure SignedPayload where
  logId : LogId
  index : Nat
  prevRoot : Hash
  eventHash : Hash
  newRoot : Hash
deriving DecidableEq

/-- The CBOR layout of a payload: a map of its five fields in their order. -/
def payloadFormat : WireFormat SignedPayload :=
  (Cbor.struct 5
    (.pair (Cbor.field "log_id" (Cbor.octets 16))
    (.pair (Cbor.field "index" Cbor.unsigned)
    (.pair (Cbor.field "prev_root" (Cbor.octets 32))
    (.pair (Cbor.field "event_hash" (Cbor.octets 32))
      (Cbor.field "new_root" (Cbor.octets 32))))))).convert
    (fun payload =>
      (payload.logId, payload.index, payload.prevRoot, payload.eventHash, payload.newRoot))
    (fun (logId, index, prevRoot, eventHash, newRoot) =>
      some { logId, index, prevRoot, eventHash, newRoot })
    (fun _ => rfl)

/-- `payload_bytes`. -/
def payloadBytes (logId : LogId) (index : Nat) (prevRoot eventHash newRoot : Hash) : List UInt8 :=
  payloadFormat.encode { logId, index, prevRoot, eventHash, newRoot }

/-- A payload determines everything that was signed. -/
theorem payloadBytes_inj {leftId rightId : LogId} {leftIndex rightIndex : Nat}
    {leftPrev leftEvent leftNew rightPrev rightEvent rightNew : Hash}
    (same : payloadBytes leftId leftIndex leftPrev leftEvent leftNew =
      payloadBytes rightId rightIndex rightPrev rightEvent rightNew) :
    leftId = rightId ∧ leftIndex = rightIndex ∧ leftPrev = rightPrev ∧
    leftEvent = rightEvent ∧
      leftNew = rightNew := by
  have payload := payloadFormat.encode_injective same
  rwa [SignedPayload.mk.injEq] at payload

/-- A payload is longer than a hash, since it holds three of them. -/
theorem hash_ne_payload (hash : Hash) (payload : SignedPayload) :
    hash.1 ≠ payloadFormat.encode payload := by
  intro same
  have lengths := congrArg List.length same
  simp only [payloadFormat, WireFormat.convert, Cbor.struct, WireFormat.marked, WireFormat.pair,
    Cbor.field, Cbor.octets, WireFormat.octets, List.length_append, hash.2, payload.prevRoot.2,
    payload.eventHash.2] at lengths
  omega

/-- A single signed log entry. -/
structure LogEntry where
  index : Nat
  appendedAt : Timestamp
  event : AuditEvent
  prevRoot : Hash
  newRoot : Hash
  signature : Signature
deriving DecidableEq

/-- In-memory audit log. A log opened for verification only has no signer. -/
structure AuditLog where
  header : LogHeader
  entries : List LogEntry
  tree : MerkleTree
  signer : Option Signer
deriving DecidableEq

namespace AuditLog

/-- `AuditLog::create_with_signer`, with the random id and the time it draws. -/
def createWithSigner (signer : Signer) (label : String) (logId : LogId) (now : Timestamp) :
    AuditLog where
  header := { wireVersion, suite := suiteId, createdAt := now, logId, pubkey := signer.publicKey
              label, prevLogId := none, prevLogFinalRoot := none }
  entries := []
  tree := .new
  signer := some signer

/-- `AuditLog::current_root`. -/
def currentRoot (crates : Crates) (log : AuditLog) : Hash := log.tree.root crates

/-- `AuditLog::len`. -/
def len (log : AuditLog) : Nat := log.entries.length

/-- `AuditLog::append`: the frontier and the entry are committed only after
signing succeeded. -/
def append (crates : Crates) (log : AuditLog) (event : AuditEvent) (sign : SignCall)
    (now : Timestamp) : AuditLog × Except Error LogEntry :=
  match log.signer with
  | none => (log, .error (.internal "log is read-only; no signer bound"))
  | some _ =>
      let prevRoot := log.tree.root crates
      let eventHash := event.contentHash crates
      let nextTree := log.tree.append crates eventHash
      let newRoot := nextTree.root crates
      let index := log.entries.length
      match sign (payloadBytes log.header.logId index prevRoot eventHash newRoot) with
      | .error failure => (log, .error failure)
      | .ok signature =>
          let entry : LogEntry := { index, appendedAt := now, event, prevRoot, newRoot, signature }
          ({ log with tree := nextTree, entries := log.entries ++ [entry] }, .ok entry)

/-- The loop of `verify_with_pubkey` from position `i` on. -/
def verifyEntries (crates : Crates) (header : LogHeader) :
    Nat → MerkleTree → Hash → List LogEntry → Except Error Unit
  | _, _, _, [] => .ok ()
  | i, tree, expectedPrev, e :: rest =>
      if e.index ≠ i then
        .error (.invalidEntry i s!"declared index {e.index} but position {i}")
      else if e.prevRoot ≠ expectedPrev then
        .error (.chainBroken e.index (hexEncode expectedPrev.1) (hexEncode e.prevRoot.1))
      else
        let eventHash := e.event.contentHash crates
        let nextTree := tree.append crates eventHash
        let newRoot := nextTree.root crates
        if newRoot ≠ e.newRoot then
          .error (.chainBroken e.index (hexEncode newRoot.1) (hexEncode e.newRoot.1))
        else do
          verifySig crates header.pubkey
            (payloadBytes header.logId e.index e.prevRoot eventHash e.newRoot) e.signature e.index
          verifyEntries crates header (i + 1) nextTree newRoot rest

/-- `AuditLog::verify_with_pubkey`. -/
def verifyWithPubkey (crates : Crates) (header : LogHeader) (entries : List LogEntry) :
    Except Error Unit := do
  validateHeader header
  verifyEntries crates header 0 .new zeroHash entries

/-- `AuditLog::verify`. -/
def verify (crates : Crates) (log : AuditLog) : Except Error Unit :=
  verifyWithPubkey crates log.header log.entries

/-- `AuditLog::bind_signer`. -/
def bindSigner (crates : Crates) (log : AuditLog) (signer : Signer) :
    AuditLog × Except Error Unit :=
  if signer.publicKey.bytes ≠ log.header.pubkey.bytes then
    (log, .error (.badKey "signer public key does not match log header pubkey"))
  else match log.verify crates with
  | .error failure => (log, .error failure)
  | .ok () => ({ log with signer := some signer }, .ok ())

end AuditLog

/-- What the verification loop demands of one entry at position `i`, on top of
the tree of the entries before it. -/
structure Links (crates : Crates) (header : LogHeader) (i : Nat) (tree : MerkleTree)
    (entry : LogEntry) : Prop where
  index : entry.index = i
  prevRoot : entry.prevRoot = tree.root crates
  newRoot : entry.newRoot = (tree.append crates (entry.event.contentHash crates)).root crates
  signature : verifySig crates header.pubkey (payloadBytes header.logId entry.index entry.prevRoot
    (entry.event.contentHash crates) entry.newRoot) entry.signature entry.index = .ok ()

/-- The content hashes of entries. -/
def contents (crates : Crates) (entries : List LogEntry) : List Hash :=
  entries.map fun entry => entry.event.contentHash crates

/-- The loop accepts an entry and the rest exactly when the entry links to the
tree so far and the rest is accepted after it. -/
theorem verifyEntries_cons {crates : Crates} {header : LogHeader} {i : Nat} {tree : MerkleTree}
    {entry : LogEntry} {rest : List LogEntry} :
    AuditLog.verifyEntries crates header i tree (tree.root crates) (entry :: rest) = .ok () ↔
      Links crates header i tree entry ∧
        AuditLog.verifyEntries crates header (i + 1)
          (tree.append crates (entry.event.contentHash crates))
          ((tree.append crates (entry.event.contentHash crates)).root crates) rest = .ok () := by
  simp only [AuditLog.verifyEntries]
  constructor
  · intro accepted
    split at accepted
    · cases accepted
    · rename_i index
      split at accepted
      · cases accepted
      · rename_i prevRoot
        split at accepted
        · cases accepted
        · rename_i newRoot
          obtain ⟨_, signature, later⟩ := bind_eq_ok.mp accepted
          exact ⟨⟨not_not.mp index, not_not.mp prevRoot, (not_not.mp newRoot).symm,
            signature⟩, later⟩
  · rintro ⟨links, later⟩
    rw [if_neg (not_not.mpr links.index), if_neg (not_not.mpr links.prevRoot),
      if_neg (not_not.mpr links.newRoot.symm)]
    exact bind_eq_ok.mpr ⟨(), links.signature, later⟩

/-- The loop accepts a list exactly when every entry links to the tree of the
entries before it. -/
theorem verifyEntries_iff {crates : Crates} {header : LogHeader} {entries : List LogEntry}
    {i : Nat} {tree : MerkleTree} :
    AuditLog.verifyEntries crates header i tree (tree.root crates) entries = .ok () ↔
      ∀ before entry after, entries = before ++ entry :: after →
        Links crates header (i + before.length)
          ((contents crates before).foldl (MerkleTree.append crates) tree) entry := by
  induction entries generalizing i tree with
  | nil => simp [AuditLog.verifyEntries]
  | cons head rest inductionHypothesis =>
      rw [verifyEntries_cons, inductionHypothesis]
      constructor
      · rintro ⟨links, later⟩ before entry after split
        cases before with
        | nil =>
            cases split
            exact links
        | cons first others =>
            simp only [List.cons_append, List.cons.injEq] at split
            obtain ⟨rfl, split⟩ := split
            have linked := later others entry after split
            simpa [contents, Nat.add_assoc, Nat.add_comm 1] using linked
      · intro linked
        refine ⟨linked [] head rest rfl, ?_⟩
        intro before entry after split
        have later := linked (head :: before) entry after (by rw [split, List.cons_append])
        simpa [contents, Nat.add_assoc, Nat.add_comm 1] using later

/-- `verifyEntries_iff` for a whole log. -/
theorem verifyEntries_new_iff {crates : Crates} {header : LogHeader} {entries : List LogEntry} :
    AuditLog.verifyEntries crates header 0 .new zeroHash entries = .ok () ↔
      ∀ before entry after, entries = before ++ entry :: after →
        Links crates header before.length (.ofContents crates (contents crates before)) entry := by
  have general := @verifyEntries_iff crates header entries 0 .new
  simpa only [Nat.zero_add, MerkleTree.root_new, MerkleTree.ofContents] using general

/-- An accepted entry links to the entries before its position. -/
theorem links_of_accepted {crates : Crates} {header : LogHeader} {entries : List LogEntry}
    (accepted : AuditLog.verifyEntries crates header 0 .new zeroHash entries = .ok ())
    {i : Nat} {entry : LogEntry} (found : entries[i]? = some entry) :
    Links crates header i (.ofContents crates (contents crates (entries.take i))) entry := by
  obtain ⟨inside, same⟩ := List.getElem?_eq_some_iff.mp found
  have split : entries = entries.take i ++ entry :: entries.drop (i + 1) := by
    rw [← same, ← List.drop_eq_getElem_cons inside, List.take_append_drop]
  have links := verifyEntries_new_iff.mp accepted _ _ _ split
  rwa [List.length_take_of_le (Nat.le_of_lt inside)] at links

/-- The last root of accepted entries is that of the tree of their contents. -/
theorem lastRoot_of_accepted {crates : Crates} {header : LogHeader} {entries : List LogEntry}
    (accepted : AuditLog.verifyEntries crates header 0 .new zeroHash entries = .ok ()) :
    (entries.getLast?.map LogEntry.newRoot).getD zeroHash =
      (MerkleTree.ofContents crates (contents crates entries)).root crates := by
  rcases List.eq_nil_or_concat entries with rfl | ⟨before, last, rfl⟩
  · rfl
  · rw [List.concat_eq_append] at accepted ⊢
    have links := verifyEntries_new_iff.mp accepted before last [] rfl
    have tree : contents crates (before ++ [last]) =
        contents crates before ++ [last.event.contentHash crates] := by
      rw [contents, List.map_append]
      rfl
    rw [tree, MerkleTree.ofContents_concat, List.getLast?_concat, ← links.newRoot]
    rfl

namespace AuditLog

/-- The entries, the frontier and the signed roots of a log are one history, and
a bound signer is the header's. -/
structure Sound (crates : Crates) (log : AuditLog) : Prop where
  header : validateHeader log.header = .ok ()
  linked : verifyEntries crates log.header 0 .new zeroHash log.entries = .ok ()
  tree : log.tree = .ofContents crates (contents crates log.entries)
  bound : ∀ signer, log.signer = some signer → signer.publicKey = log.header.pubkey

/-- The entry that `append` signs and, on success, commits. -/
def nextEntry (crates : Crates) (log : AuditLog) (event : AuditEvent) (now : Timestamp)
    (signature : Signature) : LogEntry where
  index := log.entries.length
  appendedAt := now
  event := event
  prevRoot := log.tree.root crates
  newRoot := (log.tree.append crates (event.contentHash crates)).root crates
  signature := signature

/-- The log after a committed entry. -/
def commit (crates : Crates) (log : AuditLog) (entry : LogEntry) : AuditLog :=
  { log with
    tree := log.tree.append crates (entry.event.contentHash crates)
    entries := log.entries ++ [entry] }

/-- The payload of an entry of a log. -/
def entryPayload (crates : Crates) (logId : LogId) (entry : LogEntry) : List UInt8 :=
  payloadBytes logId entry.index entry.prevRoot (entry.event.contentHash crates) entry.newRoot

/-- An append changes nothing, or commits the next entry with a signature that
the bound signer returned for its payload. -/
theorem append_cases (crates : Crates) (log : AuditLog) (event : AuditEvent) (sign : SignCall)
    (now : Timestamp) :
    (∃ failure, log.append crates event sign now = (log, .error failure)) ∨
      ∃ signer signature, log.signer = some signer ∧
        sign (entryPayload crates log.header.logId (log.nextEntry crates event now signature)) =
          .ok signature ∧
        log.append crates event sign now =
          (log.commit crates (log.nextEntry crates event now signature),
            .ok (log.nextEntry crates event now signature)) := by
  simp only [append]
  split
  · exact .inl ⟨_, rfl⟩
  · rename_i signer bound
    split
    · exact .inl ⟨_, rfl⟩
    · rename_i signature signed
      exact .inr ⟨signer, signature, bound, signed, rfl⟩

/-- Whether a signer is bound and signs the payload of the next entry. -/
def signs (crates : Crates) (log : AuditLog) (event : AuditEvent) (sign : SignCall) : Bool :=
  let eventHash := event.contentHash crates
  log.signer.isSome && (sign (payloadBytes log.header.logId log.entries.length
    (log.tree.root crates) eventHash ((log.tree.append crates eventHash).root crates))).isOk

/-- An append succeeds exactly if its payload is signed. -/
theorem append_isOk (crates : Crates) (log : AuditLog) (event : AuditEvent) (sign : SignCall)
    (now : Timestamp) :
    (log.append crates event sign now).2.isOk = log.signs crates event sign := by
  simp only [append, signs]
  split
  · rename_i unbound
    simp [unbound, Except.isOk, Except.toBool]
  · rename_i signer bound
    split <;> simp [*, Except.isOk, Except.toBool]

theorem sound_createWithSigner (crates : Crates) {signer : Signer} (label : String) (logId : LogId)
    (now : Timestamp) (wellFormed : signer.publicKey.bytes.length = publicKeyLen) :
    (createWithSigner signer label logId now).Sound crates where
  header := by
    simp [createWithSigner, validateHeader, PublicKey.fromBytes, wellFormed, Except.map]
  linked := rfl
  tree := rfl
  bound := by simp [createWithSigner]

/-- The next entry links to a sound log if its signature is accepted. -/
theorem Sound.links {crates : Crates} {log : AuditLog} (sound : log.Sound crates)
    {event : AuditEvent} {now : Timestamp} {signature : Signature}
    (verified : verifySig crates log.header.pubkey
      (entryPayload crates log.header.logId (log.nextEntry crates event now signature))
      signature 0 = .ok ()) :
    Links crates log.header log.entries.length (.ofContents crates (contents crates log.entries))
      (log.nextEntry crates event now signature) where
  index := rfl
  prevRoot := by rw [← sound.tree]; rfl
  newRoot := by rw [← sound.tree]; rfl
  signature := verifySig_index verified

/-- Committing an entry that links keeps a log sound. -/
theorem Sound.commit {crates : Crates} {log : AuditLog} (sound : log.Sound crates)
    {entry : LogEntry} (links : Links crates log.header log.entries.length
      (.ofContents crates (contents crates log.entries)) entry) :
    (log.commit crates entry).Sound crates where
  header := sound.header
  linked := by
    refine verifyEntries_new_iff.mpr ?_
    intro before found after split
    -- The entry looked at is an old one, or the one just committed.
    rcases List.eq_nil_or_concat after with rfl | ⟨middle, last, rfl⟩
    · obtain ⟨rfl, rfl⟩ : log.entries = before ∧ entry = found := by
        simpa [AuditLog.commit] using List.append_inj' split rfl
      exact links
    · have earlier : log.entries = before ++ found :: middle := by
        have shape : log.entries ++ [entry] = (before ++ found :: middle) ++ [last] := by
          simpa [AuditLog.commit] using split
        exact (List.append_inj' shape rfl).1
      exact verifyEntries_new_iff.mp sound.linked before found middle earlier
  tree := by
    simp [AuditLog.commit, contents, sound.tree]
  bound := sound.bound

/-- An append keeps a log sound if its signer keeps the contract. -/
theorem Sound.append {crates : Crates} {log : AuditLog} (sound : log.Sound crates)
    {event : AuditEvent} {sign : SignCall} {now : Timestamp}
    (honours : sign.Honours crates log.header.pubkey) :
    (log.append crates event sign now).1.Sound crates := by
  rcases log.append_cases crates event sign now with
    ⟨failure, failed⟩ | ⟨signer, signature, _, signed, committed⟩
  · rw [failed]
    exact sound
  · rw [committed]
    exact sound.commit (sound.links (honours _ _ signed))

/-- A sound log verifies. -/
theorem Sound.verify {crates : Crates} {log : AuditLog} (sound : log.Sound crates) :
    log.verify crates = .ok () :=
  bind_eq_ok.mpr ⟨(), sound.header, sound.linked⟩

/-- Binding a signer changes nothing, or sets the signer of a log that verified
under its key. -/
theorem bindSigner_cases (crates : Crates) (log : AuditLog) (signer : Signer) :
    (∃ failure, log.bindSigner crates signer = (log, .error failure)) ∨
      signer.publicKey = log.header.pubkey ∧ log.verify crates = .ok () ∧
        log.bindSigner crates signer = ({ log with signer := some signer }, .ok ()) := by
  simp only [AuditLog.bindSigner]
  split
  · exact .inl ⟨_, rfl⟩
  · rename_i sameBytes
    split
    · exact .inl ⟨_, rfl⟩
    · rename_i verified
      exact .inr ⟨PublicKey.ext (not_not.mp sameBytes), verified, rfl⟩

/-- Binding a signer keeps a log sound, whether it succeeds or not. -/
theorem Sound.bindSigner {crates : Crates} {log : AuditLog} (sound : log.Sound crates)
    (signer : Signer) : (log.bindSigner crates signer).1.Sound crates := by
  rcases log.bindSigner_cases crates signer with ⟨_, unchanged⟩ | ⟨sameKey, _, changed⟩
  · rw [unchanged]
    exact sound
  · rw [changed]
    refine ⟨sound.header, sound.linked, sound.tree, ?_⟩
    rintro bound ⟨⟩
    exact sameKey

/-- The entry at a position of a sound log links to the entries before it. -/
theorem Sound.links_getElem? {crates : Crates} {log : AuditLog} (sound : log.Sound crates) {i : Nat}
    {entry : LogEntry} (found : log.entries[i]? = some entry) :
    Links crates log.header i (.ofContents crates (contents crates (log.entries.take i))) entry :=
  links_of_accepted sound.linked found

/-- The root of a sound log is the one its last entry signed. -/
theorem Sound.currentRoot_eq {crates : Crates} {log : AuditLog} (sound : log.Sound crates) :
    log.currentRoot crates = (log.entries.getLast?.map LogEntry.newRoot).getD zeroHash := by
  rw [currentRoot, sound.tree, lastRoot_of_accepted sound.linked]

end AuditLog

/-- A new log of the transparent primitives. -/
def plainLog : AuditLog :=
  .createWithSigner plainSigner "gateway" (.replicate 16 1) "2026-05-01T00:00:00Z"

theorem plainLog_sound : plainLog.Sound plainCrates :=
  AuditLog.sound_createWithSigner plainCrates _ _ _ plainSigner_wellFormed

/-- A log of the transparent primitives that goes on to record some events. -/
def AuditLog.plainRecord (log : AuditLog) (events : List AuditEvent) : AuditLog :=
  events.foldl
    (fun log event => (log.append plainCrates event plainSign "2026-05-01T00:00:02Z").1) log

theorem AuditLog.plainRecord_plainRecord (log : AuditLog) (first second : List AuditEvent) :
    (log.plainRecord first).plainRecord second = log.plainRecord (first ++ second) :=
  (List.foldl_append ..).symm

/-- Recording events keeps a log sound, with the header it had. -/
theorem AuditLog.Sound.plainRecord {log : AuditLog} (sound : log.Sound plainCrates)
    (sameKey : log.header.pubkey = plainSigner.publicKey) (events : List AuditEvent) :
    (log.plainRecord events).Sound plainCrates ∧
    (log.plainRecord events).header = log.header := by
  induction events generalizing log with
  | nil => exact ⟨sound, rfl⟩
  | cons event rest inductionHypothesis =>
      have honours : plainSign.Honours plainCrates log.header.pubkey := by
        rw [sameKey]
        exact plainSign_honours
      have header : (log.append plainCrates event plainSign "2026-05-01T00:00:02Z").1.header =
          log.header := by
        rcases log.append_cases plainCrates event plainSign "2026-05-01T00:00:02Z" with
          ⟨_, failed⟩ | ⟨_, _, _, _, committed⟩
        · rw [failed]
        · rw [committed]
          rfl
      obtain ⟨longer, same⟩ := inductionHypothesis (sound.append honours) (header ▸ sameKey)
      exact ⟨longer, same.trans header⟩

end CofreSoberano.Audit
