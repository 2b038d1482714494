import Mathlib.Data.List.Chain
import CofreSoberano.Channel.Accounting

/-!
# Order across rotations

The segments that rotations sealed and the live log, read in order, are the
accepted events in the order of their acceptance, up to those that are pending
or queued. They also form a chain that `verify_chain` accepts, whatever failed
in the rotations.
-/

namespace CofreSoberano.Channel

open CofreSoberano.Std CofreSoberano.Audit

/-- An event that is not one of the two sentinels of a rotation. -/
def isClient (event : AuditEvent) : Bool :=
  event.action ≠ rotationCloseAction ∧ event.action ≠ rotationOpenAction

/-- The events of a log that its clients emitted. -/
def clientEvents (log : AuditLog) : List AuditEvent :=
  (log.entries.map LogEntry.event).filter isClient

/-- The segments sealed so far and the live log, oldest first. -/
def Ledger.logs (ledger : Ledger) : List AuditLog :=
  ledger.sealed.map Segment.log ++ [ledger.live.log]

/-- Clients do not emit sentinels, every append to the live log succeeds, and the
signers keep their contract. -/
def Undisturbed (crates : Crates) (writer : Writer) : WriterMove → Prop
  | .emit event => isClient event = true
  | .append sign _ =>
      (∀ next rest, writer.ledger.pending = next :: rest →
        writer.ledger.live.log.signs crates next.event sign = true) ∧
      ∀ signer, writer.ledger.live.log.signer = some signer →
        sign.Honours crates signer.publicKey
  | .rotate env => env.KeepsContract crates
  | _ => True

/-- The accepted events are those of the logs, then the pending, then the queued
ones. -/
structure Ledger.InOrder (ledger : Ledger) : Prop where
  fifo : ledger.logs.flatMap clientEvents ++ ledger.pending.map Accepted.event ++
    ledger.queue.map Accepted.event = ledger.accepted
  client : ∀ event ∈ ledger.accepted, isClient event = true

/-- The logs form a chain that starts with a root. -/
structure Ledger.Chained (crates : Crates) (ledger : Ledger) : Prop where
  sound : ∀ log ∈ ledger.logs, log.Sound crates
  root : ∀ log ∈ ledger.logs.head?, log.header.prevLogId = none ∧
    log.header.prevLogFinalRoot = none
  linked : ledger.logs.IsChain (Linked crates)

/-- The live log can be replaced by a sound one that extends it. -/
theorem Ledger.Chained.extend {crates : Crates} {ledger after : Ledger}
    (chained : ledger.Chained crates) (sealed : after.sealed = ledger.sealed)
    (header : after.live.log.header = ledger.live.log.header)
    (grown : ledger.live.log.entries <+: after.live.log.entries)
    (sound : after.live.log.Sound crates) : after.Chained crates := by
  obtain ⟨allSound, root, linked⟩ := chained
  simp only [Ledger.logs] at allSound root linked
  refine ⟨?_, ?_, ?_⟩
  · intro log member
    rw [Ledger.logs, sealed] at member
    rcases List.mem_append.mp member with older | last
    · exact allSound log (List.mem_append_left _ older)
    · rw [List.mem_singleton.mp last]
      exact sound
  · intro log first
    rw [Ledger.logs, sealed] at first
    cases segments : ledger.sealed.map Segment.log with
    | nil =>
        rw [segments] at first root
        obtain rfl : after.live.log = log := by simpa using first
        rw [header]
        exact root _ (by simp)
    | cons oldest rest =>
        rw [segments] at first root
        exact root log first
  · rw [Ledger.logs, sealed]
    rw [List.isChain_append] at linked ⊢
    refine ⟨linked.1, List.isChain_singleton _, ?_⟩
    intro prev isLast next isNext
    obtain rfl : after.live.log = next := by simpa using isNext
    exact (linked.2.2 prev isLast _ (by simp)).extend header grown

/-- A chain can be continued by a sound log that is linked to its last. -/
theorem Ledger.Chained.continue {crates : Crates} {ledger after : Ledger}
    (chained : ledger.Chained crates) (logs : after.logs = ledger.logs ++ [after.live.log])
    (linked : Linked crates ledger.live.log after.live.log) (sound : after.live.log.Sound crates) :
    after.Chained crates := by
  refine ⟨?_, ?_, ?_⟩
  · intro log member
    rw [logs] at member
    rcases List.mem_append.mp member with older | last
    · exact chained.sound log older
    · rw [List.mem_singleton.mp last]
      exact sound
  · intro log first
    have same : after.logs.head? = ledger.logs.head? := by
      rw [logs]
      exact List.head?_append_of_ne_nil _ (by simp [Ledger.logs])
    exact chained.root log (same ▸ first)
  · rw [logs, List.isChain_append]
    refine ⟨chained.linked, List.isChain_singleton _, ?_⟩
    intro prev isLast next isNext
    obtain rfl : ledger.live.log = prev := by simpa [Ledger.logs] using isLast
    obtain rfl : after.live.log = next := by simpa using isNext
    exact linked

/-- `verify_chain` accepts the logs. -/
theorem Ledger.Chained.verifyChain {crates : Crates} {ledger : Ledger}
    (chained : ledger.Chained crates) : AuditLog.verifyChain crates ledger.logs = .ok () := by
  obtain ⟨sound, root, linked⟩ := chained
  cases logs : ledger.logs with
  | nil => simp [Ledger.logs] at logs
  | cons first rest =>
      rw [logs] at sound root linked
      exact verifyChain_of_linked (fun log member => (sound log member).verify)
        (root first rfl) linked

/-- Moving events along the way to the live log keeps their order. -/
theorem Ledger.InOrder.moved {ledger after : Ledger} (inOrder : ledger.InOrder)
    (accepted : after.accepted = ledger.accepted)
    (same : after.logs.flatMap clientEvents ++ after.pending.map Accepted.event ++
      after.queue.map Accepted.event = ledger.logs.flatMap clientEvents ++
        ledger.pending.map Accepted.event ++ ledger.queue.map Accepted.event) :
    after.InOrder :=
  ⟨by rw [same, accepted, inOrder.fifo], accepted ▸ inOrder.client⟩

/-- The client events of a log with one more entry. -/
theorem clientEvents_concat {log longer : AuditLog} (entry : LogEntry)
    (entries : longer.entries = log.entries ++ [entry]) :
    clientEvents longer =
      clientEvents log ++ if isClient entry.event then [entry.event] else [] := by
  simp only [clientEvents, entries, List.map_append, List.filter_append,
    List.map_cons, List.map_nil, List.filter_cons, List.filter_nil]

/-- The client events of a log after a client's event was committed. -/
theorem clientEvents_commit (crates : Crates) (log : AuditLog)
    {event : AuditEvent} (now : Timestamp)
    (signature : Signature) (client : isClient event = true) :
    clientEvents (log.commit crates (log.nextEntry crates event now signature)) =
      clientEvents log ++ [event] := by
  rw [clientEvents_concat (log.nextEntry crates event now signature) rfl]
  exact congrArg _ (if_pos client)

section Steps

variable {crates : Crates} {codec : LogCodec} {config : WriterConfig} {writer : Writer}

/-- A committed append keeps the events in order and the logs in a chain. -/
theorem Ledger.InOrder.appended {next : Accepted} {rest : List Accepted} {log : AuditLog}
    {entry : LogEntry} {sign : SignCall} {now : Timestamp} (inOrder : writer.ledger.InOrder)
    (chained : writer.ledger.Chained crates)
    (undisturbed : Undisturbed crates writer (.append sign now))
    (batch : writer.ledger.pending = next :: rest)
    (committed : writer.ledger.live.log.append crates next.event sign now = (log, .ok entry)) :
    (writer.ledger.appended log next rest).InOrder ∧
      (writer.ledger.appended log next rest).Chained crates := by
  have liveSound : writer.ledger.live.log.Sound crates := chained.sound _ (by simp [Ledger.logs])
  rcases writer.ledger.live.log.append_cases crates next.event sign now with
    ⟨failure, failed⟩ | ⟨signer, signature, bound, signed, same⟩
  · rw [failed] at committed
    cases committed
  · rw [same] at committed
    cases committed
    have client : isClient next.event = true := by
      refine inOrder.client _ ?_
      rw [← inOrder.fifo]
      simp [batch]
    refine ⟨inOrder.moved rfl ?_, chained.extend rfl rfl (List.prefix_append _ _) ?_⟩
    · have events := clientEvents_commit crates writer.ledger.live.log now signature client
      simp [Ledger.logs, Ledger.appended, events, batch]
    · have honours := liveSound.bound signer bound ▸ undisturbed.2 signer bound
      exact liveSound.commit (liveSound.links (honours _ _ signed))

/-- A rotation keeps the events in order and the logs in a chain, whether it
succeeds or fails. -/
theorem Ledger.InOrder.rotated {ledger : Ledger} {env : RotationEnv} (inOrder : ledger.InOrder)
    (chained : ledger.Chained crates) (keeps : env.KeepsContract crates) (rotations : Nat)
    (req : RotationRequest) :
    let after := ledger.rotated crates codec config.path req env (performRotation crates codec
      config.hasFactory ledger.live.log rotations config.path req env ledger.disk)
    after.InOrder ∧ after.Chained crates := by
  intro after
  rcases ledger.rotated_cases crates codec config rotations req env with
    ⟨files, kept, _⟩ | ⟨closed, newOpen, files, prepared, switched, _⟩
  · rw [show after = _ from kept]
    exact ⟨⟨inOrder.fifo, inOrder.client⟩,
      ⟨chained.sound, chained.root, chained.linked⟩⟩
  · rw [show after = _ from switched]
    have rotates := prepareRotation_rotates prepared
    obtain ⟨closedSound, openSound⟩ := prepareRotation_sound keeps prepared
    obtain ⟨last, closing, closeAction⟩ := rotates.closing
    obtain ⟨first, opening, openAction⟩ := rotates.opening
    refine ⟨inOrder.moved rfl ?_, ?_⟩
    · have closedEvents : clientEvents closed = clientEvents ledger.live.log := by
        rw [clientEvents_concat last closing, if_neg (by simp [isClient, closeAction]),
          List.append_nil]
      have openEvents : clientEvents newOpen = [] := by
        simp [clientEvents, opening, isClient, openAction]
      simp [Ledger.logs, closedEvents, openEvents]
    · have sealing : Ledger.Chained crates
          { ledger with live := { log := closed, origins := [] } } :=
        chained.extend rfl rotates.header (by rw [closing]; exact List.prefix_append _ _)
          closedSound
      exact sealing.continue (by simp [Ledger.logs]) rotates.linked openSound

/-- Every undisturbed move keeps the events in order and the logs in a chain. -/
theorem Ledger.InOrder.step {move : WriterMove} {after : Ledger} (inOrder : writer.ledger.InOrder)
    (chained : writer.ledger.Chained crates) (undisturbed : Undisturbed crates writer move)
    (moved : LedgerMove crates codec config move writer.ledger after) :
    after.InOrder ∧ after.Chained crates := by
  cases moved with
  | idle => exact ⟨inOrder, chained⟩
  | @accept event =>
      refine ⟨⟨?_, ?_⟩, ⟨chained.sound, chained.root, chained.linked⟩⟩
      · simp only [Ledger.accept, ← inOrder.fifo, List.map_append, List.append_assoc]
        rfl
      · intro found member
        rcases List.mem_append.mp member with old | new
        · exact inOrder.client found old
        · rw [List.mem_singleton.mp new]
          exact undisturbed
  | receive queued =>
      refine ⟨inOrder.moved rfl ?_, ⟨chained.sound, chained.root, chained.linked⟩⟩
      simp [Ledger.logs, Ledger.receive, queued]
  | appended batch committed => exact inOrder.appended chained undisturbed batch committed
  | @abandoned _ next rest _ _ sign now batch failed =>
      have signed := undisturbed.1 next rest batch
      rw [← AuditLog.append_isOk crates _ _ _ now, failed] at signed
      cases signed
  | saved =>
      exact ⟨⟨inOrder.fifo, inOrder.client⟩,
        ⟨chained.sound, chained.root, chained.linked⟩⟩
  | rotated rotations req => exact inOrder.rotated chained undisturbed rotations req

end Steps

/-- Over every undisturbed run of a channel on a new root log, its events are in order and
its logs in a chain. -/
theorem inOrder_of_runs {crates : Crates} {codec : LogCodec} {config : WriterConfig}
    {signer : Signer} {label : String} {logId : LogId} {now : Timestamp} {disk : Disk}
    (wellFormed : signer.publicKey.bytes.length = publicKeyLen) {moves : List WriterMove}
    {writer : Writer}
    (run : (writerMachine crates codec config).Runs (Undisturbed crates)
      (.spawn (.createWithSigner signer label logId now) disk) moves writer) :
    writer.ledger.InOrder ∧ writer.ledger.Chained crates := by
  have sound := AuditLog.sound_createWithSigner crates label logId now wellFormed
  refine ledger_invariant (fun ledger => ledger.InOrder ∧ ledger.Chained crates) ?_ ?_ run
  · refine ⟨⟨rfl, by simp [Writer.spawn]⟩, ⟨?_, ?_, List.isChain_singleton _⟩⟩
    · simpa [Ledger.logs, Writer.spawn] using sound
    · simp [Ledger.logs, Writer.spawn, AuditLog.createWithSigner]
  · intro writer move ledger holds undisturbed moved
    exact holds.1.step holds.2 undisturbed moved

/-- Over every undisturbed run of a channel on a new root log, whatever happens to
its saves and rotations: the client events of the sealed segments, of the live log
and of what is pending and queued are the accepted events in their order, and the
segments with the live log are a chain that `verify_chain` accepts. -/
theorem auditChannel_fifo (crates : Crates) (codec : LogCodec) (config : WriterConfig)
    {signer : Signer} (label : String) (logId : LogId) (now : Timestamp) (disk : Disk)
    (wellFormed : signer.publicKey.bytes.length = publicKeyLen) {moves : List WriterMove}
    {writer : Writer}
    (run : (writerMachine crates codec config).Runs (Undisturbed crates)
      (.spawn (.createWithSigner signer label logId now) disk) moves writer) :
    (writer.ledger.sealed.map Segment.log).flatMap clientEvents ++
        clientEvents writer.ledger.live.log ++ writer.ledger.pending.map Accepted.event ++
        writer.ledger.queue.map Accepted.event = writer.ledger.accepted ∧
      AuditLog.verifyChain crates (writer.ledger.sealed.map Segment.log ++
        [writer.ledger.live.log]) = .ok () := by
  obtain ⟨inOrder, chained⟩ := inOrder_of_runs wellFormed run
  refine ⟨?_, chained.verifyChain⟩
  have fifo := inOrder.fifo
  rw [Ledger.logs, List.flatMap_append, List.flatMap_singleton] at fifo
  exact fifo

/-- Moves of the transparent primitives. -/
inductive PlainMove where
  /-- A move that signs nothing. -/
  | quiet (move : WriterMove)
  | append
  /-- A rotation that gets no signer. -/
  | refuseRotation

/-- The move of that name. -/
def PlainMove.move : PlainMove → WriterMove
  | .quiet move => move
  | .append => .append plainSign "2026-05-01T00:00:02Z"
  | .refuseRotation => .rotate { plainRotation with newSigner := .error "HSM unavailable" }

/-- Clients emit no sentinels, and the signer of the transparent primitives is bound and
signs what is appended. -/
def plainlyUndisturbed (writer : Writer) : PlainMove → Bool
  | .quiet (.emit event) => isClient event
  | .quiet (.append _ _) => false
  | .quiet (.rotate _) => false
  | .quiet _ => true
  | .append =>
      writer.ledger.live.log.signer = some plainSigner &&
        writer.ledger.pending.head?.all fun next =>
          writer.ledger.live.log.signs plainCrates next.event plainSign
  | .refuseRotation => true

theorem undisturbed_of_plainly (writer : Writer) (move : PlainMove)
    (plainly : plainlyUndisturbed writer move = true) :
    Undisturbed plainCrates writer move.move := by
  cases move with
  | quiet move => cases move <;> simp_all [plainlyUndisturbed, Undisturbed, PlainMove.move]
  | append =>
      obtain ⟨bound, signs⟩ := Bool.and_eq_true_iff.mp plainly
      have bound := of_decide_eq_true bound
      refine ⟨fun next rest batch => ?_, fun signer isBound => ?_⟩
      · rw [batch] at signs
        exact signs
      · rw [bound] at isBound
        cases isBound
        exact plainSign_honours
  | refuseRotation =>
      refine ⟨?_, ?_, plainRotation_keeps.closing⟩
      · rintro signer ⟨⟩
      · rintro signer ⟨⟩

/-- The writer after a rotation of the transparent primitives that sealed `closed`. -/
def Writer.switched (writer : Writer) (closed newOpen : AuditLog) : Writer :=
  let result := performRotation plainCrates cborCodec true writer.ledger.live.log
    writer.auditRotations "audit.qa" plainRequest plainRotation writer.ledger.disk
  { writer with
    ledger := { writer.ledger with
      disk := result.disk
      published := writer.ledger.published ++
        Ledger.rotationFiles cborCodec "audit.qa" plainRequest closed newOpen result
      live := { log := newOpen, origins := [none] }
      sealed := writer.ledger.sealed ++
        [{ log := closed, origins := writer.ledger.live.origins ++ [none] }] }
    auditRotations := writer.auditRotations + 1
    entriesSinceRotation := 0
    phase := .selectRotation }

/-- A prepared rotation of the transparent primitives switches to its successor. -/
theorem rotate_switched {writer : Writer} {closed newOpen : AuditLog}
    (prepared : prepareRotation plainCrates cborCodec writer.ledger.live.log plainRequest
      plainRotation = .ok (closed, newOpen))
    (absent : writer.ledger.disk plainRequest.archivePath = none) :
    writer.rotate plainCrates cborCodec (plainConfig 1) plainRequest plainRotation =
      writer.switched closed newOpen := by
  obtain ⟨succeeded, newLog, counted⟩ :=
    performRotation_succeeds writer.auditRotations "audit.qa"
    prepared absent plainRotation_faultless (by decide) ⟨by decide, by decide⟩
    ⟨by decide, by decide⟩
  simp only [Writer.rotate, plainConfig, Ledger.rotated, prepared, succeeded, newLog, counted,
    Except.isOk, Except.toBool, if_true, Writer.switched]

/-- An event whose save fails, an event that a rotation receives before it fails, and a
second rotation. -/
def beforeRotation : List PlainMove :=
  [.quiet (.emit loginEvent), .quiet .pollRotation, .quiet .pollEvent, .quiet .fill, .append,
    .quiet (.save fullDisk), .quiet (.requestRotation plainRequest), .quiet .pollRotation,
    .quiet (.emit logoutEvent), .quiet .drain, .quiet .drain, .append, .quiet (.save fullDisk),
    .refuseRotation, .quiet (.requestRotation plainRequest), .quiet .pollRotation, .quiet .drain]

/-- An event of the new segment that is saved, and the return of the writer. -/
def afterRotation : List PlainMove :=
  [.quiet (.emit loginEvent), .quiet .pollRotation, .quiet .pollEvent, .quiet .fill, .append,
    .quiet (.save (.none ".tmpB")), .quiet .closeSenders, .quiet .pollRotation, .quiet .pollEvent]

/-- The writer after moves of the transparent primitives. -/
def plainRun (writer : Writer) (moves : List PlainMove) : Option Writer :=
  ((writerMachine plainCrates cborCodec (plainConfig 1)).named PlainMove.move).execChecked
    plainlyUndisturbed writer moves

/-- The segments of a rotation of the transparent primitives. -/
def plainSegments (log : AuditLog) : Option (AuditLog × AuditLog) :=
  ({ log with signer := some plainSigner }.rotateTo plainCrates plainSigner plainRequest.newLabel ""
    plainRotation.draws).toOption

theorem plainRun_rotates : (plainRun plainWriter beforeRotation).any (fun writer =>
    writer.phase = .rotating plainRequest ∧ writer.ledger.disk plainRequest.archivePath = none ∧
      writer.ledger.live.log.header.pubkey = plainSigner.publicKey ∧
      (plainSegments writer.ledger.live.log).any (fun segments =>
        (plainRun (writer.switched segments.1 segments.2) afterRotation).any fun after =>
          after.phase = .finished ∧ after.ledger.pending = [] ∧ after.ledger.queue = [] ∧
          after.ledger.sealed.length = 1 ∧
          after.ledger.accepted = [loginEvent, logoutEvent, loginEvent]) = true) = true := by
  decide +kernel

/-- Three events around a rotation that fails and one that succeeds, with saves that fail and
one that succeeds, up to the return of the writer. -/
theorem auditChannel_fifo_rotated :
    ∃ (moves : List WriterMove) (writer : Writer) (closed : AuditLog),
      (writerMachine plainCrates cborCodec (plainConfig 1)).Runs (Undisturbed plainCrates)
        plainWriter moves writer ∧
      writer.phase = .finished ∧ writer.ledger.sealed.map Segment.log = [closed] ∧
      clientEvents closed ++ clientEvents writer.ledger.live.log =
        [loginEvent, logoutEvent, loginEvent] ∧
      AuditLog.verifyChain plainCrates [closed, writer.ledger.live.log] = .ok () := by
  obtain ⟨before, executed, facts⟩ := (Option.any_eq_true _ _).mp plainRun_rotates
  obtain ⟨rotating, absent, sameKey, rotates⟩ := of_decide_eq_true facts
  obtain ⟨⟨closed, newOpen⟩, rotated, later⟩ := (Option.any_eq_true _ _).mp rotates
  obtain ⟨after, goesOn, results⟩ := (Option.any_eq_true _ _).mp later
  obtain ⟨finished, noPending, noQueue, one, accepted⟩ := of_decide_eq_true results
  have run := Machine.Runs.of_execNamed undisturbed_of_plainly executed
  -- The rotation works on a snapshot of the live log, which is sound.
  have sound := (inOrder_of_runs plainSigner_wellFormed run).2.sound before.ledger.live.log
    (by simp [Ledger.logs])
  have prepared : prepareRotation plainCrates cborCodec before.ledger.live.log plainRequest
      plainRotation = .ok (closed, newOpen) :=
    prepareRotation_of_sound sound rfl rfl (congrArg PublicKey.bytes sameKey.symm)
      (eq_ok_of_toOption rotated)
  have moved : writerStep plainCrates cborCodec (plainConfig 1) before (.rotate plainRotation) =
      some (before.switched closed newOpen) := by
    rw [writerStep, rotating, ← rotate_switched prepared absent]
  have undisturbed : Undisturbed plainCrates before (.rotate plainRotation) := plainRotation_keeps
  have whole := (run.snoc undisturbed moved).trans
    (Machine.Runs.of_execNamed undisturbed_of_plainly goesOn)
  obtain ⟨fifo, chain⟩ := auditChannel_fifo plainCrates cborCodec (plainConfig 1) _ _ _ _
    plainSigner_wellFormed whole
  obtain ⟨segment, sealed⟩ := List.length_eq_one_iff.mp one
  rw [sealed, List.map_singleton] at fifo chain
  refine ⟨_, after, segment.log, whole, finished, by rw [sealed, List.map_singleton], ?_, chain⟩
  simpa [noPending, noQueue, accepted] using fifo

end CofreSoberano.Channel
