import CofreSoberano.Audit.Format

/-!
# Rotation chains

`rotate_to` seals a log with a closing event and opens its successor with a
header and an opening event that refer back to it; `verify_chain` checks such a
sequence of logs. `Linked` is what it demands of two neighbours.
-/

namespace CofreSoberano.Audit

open CofreSoberano.Std

/-- `ROTATION_CLOSE_ACTION`. -/
def rotationCloseAction : String := "audit.rotation_close"

/-- `ROTATION_OPEN_ACTION`. -/
def rotationOpenAction : String := "audit.rotation_open"

/-- The value of a lowercase or uppercase hex digit, or the text of the error. -/
def hexVal (c : UInt8) (index : Nat) : Except String Nat :=
  if 48 ≤ c ∧ c ≤ 57 then .ok (c.toNat - 48)
  else if 97 ≤ c ∧ c ≤ 102 then .ok (c.toNat - 97 + 10)
  else if 65 ≤ c ∧ c ≤ 70 then .ok (c.toNat - 65 + 10)
  else .error s!"Invalid character {(Char.ofNat c.toNat).quote} at position {index}"

/-- The bytes of pairs of digits, the first of which is at `index`. -/
def hexPairs : Nat → List UInt8 → Except String (List UInt8)
  | index, high :: low :: rest => do
      let high ← hexVal high index
      let low ← hexVal low (index + 1)
      let bytes ← hexPairs (index + 2) rest
      return UInt8.ofNat (high * 16 + low) :: bytes
  | _, _ => .ok []

/-- `hex::decode`. -/
def hexDecode (hex : List UInt8) : Except String (List UInt8) :=
  if hex.length % 2 ≠ 0 then .error "Odd number of digits" else hexPairs 0 hex

/-- The id of the new log: the caller's, or the random one if none was given. -/
def chooseLogId (newLogIdHex : String) (random : LogId) : Except Error LogId :=
  if newLogIdHex.isEmpty then .ok random
  else match hexDecode (Cbor.utf8 newLogIdHex) with
  | .error failure => .error (.internal s!"invalid new log id hex: {failure}")
  | .ok bytes =>
      if length : bytes.length = 16 then .ok ⟨bytes, length⟩
      else .error (.internal s!"new log id hex must decode to 16 bytes, got {bytes.length}")

/-- What the surroundings supply to one `rotate_to`: a random id, the times, and
the outcomes of the two signatures. -/
structure RotationDraws where
  logId : LogId
  clock : Clock
  signClose : SignCall
  signOpen : SignCall

namespace AuditLog

/-- The event that seals a log. -/
def closeEvent (log : AuditLog) (newLogId : LogId) (newLabel : String) (now : Timestamp) :
    AuditEvent :=
  let builder : EventBuilder :=
    { action := some rotationCloseAction, actor := some "system:qaudit"
      resource := some s!"log:{hexEncode log.header.logId.1}", outcome := some "ok" }
  ((builder.withMeta "new_log_id" (hexEncode newLogId.1)).withMeta
    "new_log_label" newLabel).build now

/-- The event that opens the successor of a sealed log. -/
def openEvent (crates : Crates) (closed : AuditLog) (newLogId : LogId) (now : Timestamp) :
    AuditEvent :=
  let builder : EventBuilder :=
    { action := some rotationOpenAction, actor := some "system:qaudit"
      resource := some s!"log:{hexEncode newLogId.1}", outcome := some "ok" }
  (((builder.withMeta "prev_log_id" (hexEncode closed.header.logId.1)).withMeta
    "prev_log_final_root" (hexEncode (closed.tree.root crates).1)).withMeta
    "prev_log_label" closed.header.label).build now

/-- The successor of a sealed log, before its opening event. -/
def successor (crates : Crates) (closed : AuditLog) (newSigner : Signer) (newLabel : String)
    (newLogId : LogId) (now : Timestamp) : AuditLog where
  header := { wireVersion, suite := suiteId, createdAt := now, logId := newLogId
              pubkey := newSigner.publicKey, label := newLabel
              prevLogId := some closed.header.logId
              prevLogFinalRoot := some (closed.tree.root crates) }
  entries := []
  tree := .new
  signer := some newSigner

/-- `AuditLog::rotate_to`: the sealed log, which loses its signer, and its
successor. -/
def rotateTo (crates : Crates) (log : AuditLog) (newSigner : Signer) (newLabel newLogIdHex : String)
    (draws : RotationDraws) : Except Error (AuditLog × AuditLog) :=
  if log.signer.isNone then
    .error (.internal "rotate_to: source log is read-only (no signer)")
  else match chooseLogId newLogIdHex draws.logId with
  | .error failure => .error failure
  | .ok newLogId =>
      match log.append crates (log.closeEvent newLogId newLabel (draws.clock 0)) draws.signClose
        (draws.clock 1) with
      | (_, .error failure) => .error failure
      | (closed, .ok _) =>
          match (closed.successor crates newSigner newLabel newLogId (draws.clock 2)).append crates
            (closed.openEvent crates newLogId (draws.clock 3)) draws.signOpen (draws.clock 4) with
          | (_, .error failure) => .error failure
          | (newLog, .ok _) => .ok ({ closed with signer := none }, newLog)

/-- The checks of `verify_chain` on two neighbours, after the second verified. -/
def checkLink (crates : Crates) (prev next : AuditLog) : Except Error Unit :=
  let prevId := hexEncode prev.header.logId.1
  let nextId := hexEncode next.header.logId.1
  match prev.entries.getLast? with
  | none => .error (.internal s!"verify_chain: log {prevId} is empty — cannot have rotated")
  | some last =>
    if last.event.action ≠ rotationCloseAction then
      .error (.internal <|
        s!"verify_chain: log {prevId} final event is {last.event.action.quote}, not " ++
        s!"{rotationCloseAction.quote}")
    else match last.event.metadata.get? "new_log_id" with
    | none =>
        .error (.internal s!"verify_chain: log {prevId} rotation_close lacks new_log_id metadata")
    | some claimed =>
      if claimed ≠ nextId then
        .error (.internal <|
          s!"verify_chain: log {prevId} rotation_close points to new_log_id={claimed}" ++
          s!"                      but actual next log has id {nextId}")
      else match next.header.prevLogId with
      | none => .error (.internal <|
        s!"verify_chain: log {nextId} has no prev_log_id but is not" ++
        s!"                          the first in the chain")
      | some id =>
        if id ≠ prev.header.logId then
          .error (.internal <|
            s!"verify_chain: log {nextId} header.prev_log_id = {hexEncode id.1} but" ++
            s!"                          expected {prevId} (the actual previous log's id)")
        else match next.header.prevLogFinalRoot with
        | none => .error (.internal s!"verify_chain: log {nextId} has no prev_log_final_root")
        | some root =>
          if root ≠ prev.tree.root crates then
            .error (.internal <|
              s!"verify_chain: log {nextId} header.prev_log_final_root = {hexEncode root.1} but" ++
              s!"                          actual previous log's final root is " ++
              s!"{hexEncode (prev.tree.root crates).1}")
          else match next.entries.head? with
          | none => .error (.internal
            s!"verify_chain: log {nextId} has no entries — rotation_open required")
          | some first =>
            if first.event.action ≠ rotationOpenAction then
              .error (.internal <|
                s!"verify_chain: log {nextId} first event is {first.event.action.quote}, not " ++
                s!"{rotationOpenAction.quote}")
            else match first.event.metadata.get? "prev_log_id" with
            | none => .error (.internal
              s!"verify_chain: log {nextId} rotation_open lacks prev_log_id metadata")
            | some metaPrev =>
              if metaPrev ≠ prevId then
                .error (.internal <|
                  s!"verify_chain: log {nextId} rotation_open metadata says " ++
                  s!"prev_log_id={metaPrev}                      but header says {prevId}")
              else .ok ()

/-- A failed verification of one log, as `verify_chain` reports it. -/
def chainFailure (place : String) (log : AuditLog) (failure : Error) : Error :=
  .internal <|
    s!"{place}: log {hexEncode log.header.logId.1} internal verification failed: " ++
    s!"{failure.display}"

/-- The loop of `verify_chain` over adjacent pairs. -/
def verifyPairs (crates : Crates) : AuditLog → List AuditLog → Except Error Unit
  | _, [] => .ok ()
  | prev, next :: rest => do
      (next.verify crates).mapError (chainFailure "verify_chain" next)
      checkLink crates prev next
      verifyPairs crates next rest

/-- `AuditLog::verify_chain`. -/
def verifyChain (crates : Crates) : List AuditLog → Except Error Unit
  | [] => .error (.internal "verify_chain: empty chain")
  | first :: rest => do
      (first.verify crates).mapError (chainFailure "verify_chain[0]" first)
      if first.header.prevLogId.isSome || first.header.prevLogFinalRoot.isSome then
        .error (.internal <|
          s!"verify_chain[0]: log {hexEncode first.header.logId.1} has " ++
          s!"prev_log_id/prev_log_final_root set                  but is the first in " ++
          s!"the chain — caller passed logs out of order")
      else verifyPairs crates first rest

end AuditLog

/-- The rotation links between two neighbours of a chain. -/
structure Linked (crates : Crates) (prev next : AuditLog) : Prop where
  closed : ∃ last, prev.entries.getLast? = some last ∧
    last.event.action = rotationCloseAction ∧
    last.event.metadata.get? "new_log_id" = some (hexEncode next.header.logId.1)
  prevLogId : next.header.prevLogId = some prev.header.logId
  prevRoot : next.header.prevLogFinalRoot = some (prev.tree.root crates)
  opened : ∃ first, next.entries.head? = some first ∧
    first.event.action = rotationOpenAction ∧
    first.event.metadata.get? "prev_log_id" = some (hexEncode prev.header.logId.1)

/-- A log stays linked to its predecessor when entries are added to it. -/
theorem Linked.extend {crates : Crates} {prev log longer : AuditLog}
    (linked : Linked crates prev log)
    (header : longer.header = log.header) (grown : log.entries <+: longer.entries) :
    Linked crates prev longer := by
  obtain ⟨first, isFirst, opened⟩ := linked.opened
  have first' : longer.entries.head? = some first := by
    obtain ⟨more, entries⟩ := grown
    rw [← entries, List.head?_append, isFirst]
    rfl
  exact ⟨header ▸ linked.closed, header ▸ linked.prevLogId, header ▸ linked.prevRoot,
    ⟨first, first', opened⟩⟩

/-- `verify_chain` accepts the links that `Linked` describes. -/
theorem checkLink_of_linked {crates : Crates} {prev next : AuditLog}
    (linked : Linked crates prev next) : AuditLog.checkLink crates prev next = .ok () := by
  obtain ⟨last, isLast, closeAction, newLogId⟩ := linked.closed
  obtain ⟨first, isFirst, openAction, prevId⟩ := linked.opened
  simp only [AuditLog.checkLink, isLast, closeAction, newLogId, linked.prevLogId, linked.prevRoot,
    isFirst, openAction, prevId, ne_eq, not_true_eq_false, if_false]

/-- A sequence of verified logs that starts with a root and is linked throughout
is accepted. -/
theorem verifyChain_of_linked {crates : Crates} {first : AuditLog} {rest : List AuditLog}
    (verified : ∀ log ∈ first :: rest, log.verify crates = .ok ())
    (root : first.header.prevLogId = none ∧ first.header.prevLogFinalRoot = none)
    (linked : (first :: rest).IsChain (Linked crates)) :
    AuditLog.verifyChain crates (first :: rest) = .ok () := by
  have pairs : ∀ {prev : AuditLog} {logs : List AuditLog},
      (∀ log ∈ logs, log.verify crates = .ok ()) → (prev :: logs).IsChain (Linked crates) →
        AuditLog.verifyPairs crates prev logs = .ok () := by
    intro prev logs
    induction logs generalizing prev with
    | nil => exact fun _ _ => rfl
    | cons next others inductionHypothesis =>
        intro verified chain
        rw [List.isChain_cons_cons] at chain
        simp only [AuditLog.verifyPairs, verified next List.mem_cons_self,
          checkLink_of_linked chain.1]
        exact inductionHypothesis
          (fun log member => verified log (List.mem_cons_of_mem _ member)) chain.2
  simp only [AuditLog.verifyChain, verified first List.mem_cons_self, root.1, root.2]
  exact pairs (fun log member => verified log (List.mem_cons_of_mem _ member)) linked

namespace AuditLog

/-- The closing event names the successor. -/
theorem closeEvent_names (log : AuditLog) (newLogId : LogId) (newLabel : String) (now : Timestamp) :
    (log.closeEvent newLogId newLabel now).action = rotationCloseAction ∧
      (log.closeEvent newLogId newLabel now).metadata.get? "new_log_id" =
        some (hexEncode newLogId.1) := by
  refine ⟨rfl, ?_⟩
  simp [closeEvent, EventBuilder.build, EventBuilder.withMeta, OrderedMap.get?_insert]

/-- The opening event names the sealed log. -/
theorem openEvent_names (crates : Crates) (closed : AuditLog) (newLogId : LogId) (now : Timestamp) :
    (closed.openEvent crates newLogId now).action = rotationOpenAction ∧
      (closed.openEvent crates newLogId now).metadata.get? "prev_log_id" =
        some (hexEncode closed.header.logId.1) := by
  refine ⟨rfl, ?_⟩
  simp [openEvent, EventBuilder.build, EventBuilder.withMeta, OrderedMap.get?_insert]

/-- The log that a rotation seals, before it loses its signer. -/
def closing (crates : Crates) (log : AuditLog) (newLogId : LogId) (newLabel : String)
    (draws : RotationDraws) (signature : Signature) : AuditLog :=
  log.commit crates (log.nextEntry crates (log.closeEvent newLogId newLabel (draws.clock 0))
    (draws.clock 1) signature)

/-- The successor that a rotation opens. -/
def opening (crates : Crates) (closed : AuditLog) (newSigner : Signer) (newLabel : String)
    (newLogId : LogId) (draws : RotationDraws) (signature : Signature) : AuditLog :=
  let next := closed.successor crates newSigner newLabel newLogId (draws.clock 2)
  next.commit crates (next.nextEntry crates (closed.openEvent crates newLogId (draws.clock 3))
    (draws.clock 4) signature)

/-- A successful rotation obtained both of its signatures and committed the two
entries they are for. -/
theorem rotateTo_cases {crates : Crates} {log closed next : AuditLog} {newSigner : Signer}
    {newLabel newLogIdHex : String} {draws : RotationDraws}
    (rotated : log.rotateTo crates newSigner newLabel newLogIdHex draws = .ok (closed, next)) :
    ∃ newLogId closeSignature openSignature signer,
      chooseLogId newLogIdHex draws.logId = .ok newLogId ∧ log.signer = some signer ∧
      draws.signClose (entryPayload crates log.header.logId
        (log.nextEntry crates (log.closeEvent newLogId newLabel (draws.clock 0)) (draws.clock 1)
          closeSignature)) = .ok closeSignature ∧
      closed = { log.closing crates newLogId newLabel draws closeSignature with signer := none } ∧
      draws.signOpen (entryPayload crates newLogId
        ((closed.successor crates newSigner newLabel newLogId (draws.clock 2)).nextEntry crates
          (closed.openEvent crates newLogId (draws.clock 3)) (draws.clock 4) openSignature)) =
            .ok openSignature ∧
      next = closed.opening crates newSigner newLabel newLogId draws openSignature := by
  simp only [rotateTo] at rotated
  split at rotated
  · cases rotated
  · split at rotated
    · cases rotated
    · rename_i newLogId chosen
      rcases log.append_cases crates (log.closeEvent newLogId newLabel (draws.clock 0))
          draws.signClose (draws.clock 1) with
        ⟨failure, failed⟩ | ⟨signer, closeSignature, bound, closeSigned, committed⟩
      · rw [failed] at rotated
        cases rotated
      · simp only [committed] at rotated
        rcases AuditLog.append_cases crates ((log.closing crates newLogId newLabel draws
            closeSignature).successor crates newSigner newLabel newLogId (draws.clock 2))
            ((log.closing crates newLogId newLabel draws closeSignature).openEvent crates newLogId
              (draws.clock 3)) draws.signOpen (draws.clock 4) with
          ⟨failure, failed⟩ | ⟨_, openSignature, _, openSigned, opened⟩
        · simp only [closing] at failed
          rw [failed] at rotated
          cases rotated
        · simp only [closing] at opened
          rw [opened] at rotated
          cases rotated
          exact ⟨newLogId, closeSignature, openSignature, signer, chosen, bound, closeSigned, rfl,
            openSigned, rfl⟩

/-- The two logs of a rotation are neighbours of a chain. -/
theorem linked_of_rotateTo {crates : Crates} {log closed next : AuditLog} {newSigner : Signer}
    {newLabel newLogIdHex : String} {draws : RotationDraws}
    (rotated : log.rotateTo crates newSigner newLabel newLogIdHex draws = .ok (closed, next)) :
    Linked crates closed next := by
  obtain ⟨newLogId, closeSignature, openSignature, signer, _, _, _, rfl, _, rfl⟩ :=
    rotateTo_cases rotated
  refine ⟨⟨_, List.getLast?_concat, ?_⟩, rfl, rfl, ⟨_, rfl, ?_⟩⟩
  · exact closeEvent_names log newLogId newLabel (draws.clock 0)
  · exact openEvent_names crates _ newLogId (draws.clock 3)

/-- Under the signers' contract a rotation of a sound log leaves two sound logs. -/
theorem Sound.rotateTo {crates : Crates} {log closed next : AuditLog} {newSigner : Signer}
    {newLabel newLogIdHex : String} {draws : RotationDraws} (sound : log.Sound crates)
    (wellFormed : newSigner.publicKey.bytes.length = publicKeyLen)
    (closeHonours : draws.signClose.Honours crates log.header.pubkey)
    (openHonours : draws.signOpen.Honours crates newSigner.publicKey)
    (rotated : log.rotateTo crates newSigner newLabel newLogIdHex draws = .ok (closed, next)) :
    closed.Sound crates ∧ next.Sound crates := by
  obtain ⟨newLogId, closeSignature, openSignature, signer, _, _, closeSigned,
    rfl, openSigned, rfl⟩ :=
    rotateTo_cases rotated
  have closing : (log.closing crates newLogId newLabel draws closeSignature).Sound crates :=
    sound.commit (sound.links (closeHonours _ _ closeSigned))
  refine ⟨⟨closing.header, closing.linked, closing.tree, by simp⟩, ?_⟩
  have fresh : (AuditLog.successor crates
      { log.closing crates newLogId newLabel draws closeSignature with signer := none }
      newSigner newLabel newLogId (draws.clock 2)).Sound crates := by
    refine ⟨?_, rfl, rfl, ?_⟩
    · simp [successor, validateHeader, PublicKey.fromBytes, wellFormed, Except.map]
    · rintro bound ⟨⟩
      rfl
  exact fresh.commit (fresh.links (openHonours _ _ openSigned))

end AuditLog
end CofreSoberano.Audit
