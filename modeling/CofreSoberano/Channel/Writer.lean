import CofreSoberano.Channel.Rotation
import CofreSoberano.Std.Machine

/-!
# The audit channel

An `AuditChannel` is a bounded queue of events, a queue of rotation requests and
the writer task that owns the log. The task is a machine: each poll of its
`select!`, each received event, each append and each file operation is one move,
so that clients can act between any two of them. What the task holds is kept in
a ledger, which also remembers what became of every accepted event and which log
files were published.
-/

namespace CofreSoberano.Channel

open CofreSoberano.Std CofreSoberano.Audit

/-- An accepted event. Its ticket is the number of events accepted before it. -/
structure Accepted where
  ticket : Nat
  event : AuditEvent
deriving DecidableEq

/-- A log and, for each of its entries, the ticket of the event it was appended
for; sentinels and the entries of a reopened log have none. -/
structure Segment where
  log : AuditLog
  origins : List (Option Nat)
deriving DecidableEq

/-- A log file that came to stand at the current path or at an archive path. It is
stray if it is the archive of a rotation that failed after publishing it. -/
structure Publication where
  log : AuditLog
  stray : Bool
deriving DecidableEq

/-- What the channel and its writer hold, and what happened so far. -/
structure Ledger where
  queue : List Accepted
  pending : List Accepted
  live : Segment
  disk : Disk
  /-- The events for which `try_send` returned `Ok`, in that order. -/
  accepted : List AuditEvent
  /-- The segments that successful rotations sealed, oldest first. -/
  sealed : List Segment
  /-- The events that a failed flush gave up. -/
  dropped : List Accepted
  /-- The increments of `audit_failures` made by `flush`. -/
  flushFailures : Nat
  published : List Publication

/-- Whether a file came to stand at a path in one of the given states. -/
def arrived (passed : List Disk) (path : Path) (bytes : List UInt8) : Bool :=
  passed.any fun disk => disk path = some bytes

namespace Ledger

/-- A successful `try_send`. -/
def accept (ledger : Ledger) (event : AuditEvent) : Ledger :=
  { ledger with
    queue := ledger.queue ++ [⟨ledger.accepted.length, event⟩]
    accepted := ledger.accepted ++ [event] }

/-- Move a received event to the pending batch. -/
def receive (ledger : Ledger) (next : Accepted) (rest : List Accepted) : Ledger :=
  { ledger with queue := rest, pending := ledger.pending ++ [next] }

/-- An append of `flush` that succeeded. -/
def appended (ledger : Ledger) (log : AuditLog) (next : Accepted) (rest : List Accepted) : Ledger :=
  { ledger with
    pending := rest
    live := { log, origins := ledger.live.origins ++ [some next.ticket] } }

/-- An append of `flush` that failed: the drained batch is dropped with it. -/
def abandoned (ledger : Ledger) (log : AuditLog) (batch : List Accepted) : Ledger :=
  { ledger with
    pending := []
    live := { ledger.live with log }
    dropped := ledger.dropped ++ batch
    flushFailures := ledger.flushFailures + 1 }

/-- The save of `flush`. -/
def save (codec : LogCodec) (ledger : Ledger) (path : Path) (faults : SaveFaults) :
    Ledger × Except String Unit :=
  let bytes := ledger.live.log.saveTo codec
  let script := Channel.save bytes path faults
  let passage := script ledger.disk
  ({ ledger with
      disk := script.final ledger.disk
      published := ledger.published ++
        if arrived passage.passed path bytes then [⟨ledger.live.log, false⟩] else []
      flushFailures := match passage.outcome with
        | .ok _ => ledger.flushFailures
        | .error _ => ledger.flushFailures + 1 },
    passage.outcome)

/-- The log files that a rotation published. -/
def rotationFiles (codec : LogCodec) (path : Path) (req : RotationRequest)
    (closed newOpen : AuditLog) (result : RotationResult) : List Publication :=
  (if arrived result.passed req.archivePath (closed.saveTo codec) then
    [⟨closed, !result.outcome.isOk⟩] else []) ++
  (if arrived result.passed path (newOpen.saveTo codec) then [⟨newOpen, false⟩] else [])

/-- A rotation. If it succeeded, the live segment is sealed with its closing entry
and the new one starts with its opening entry. -/
def rotated (crates : Crates) (codec : LogCodec) (ledger : Ledger) (path : Path)
    (req : RotationRequest) (env : RotationEnv) (result : RotationResult) : Ledger :=
  match prepareRotation crates codec ledger.live.log req env with
  | .error _ => { ledger with disk := result.disk, live := { ledger.live with log := result.log } }
  | .ok (closed, newOpen) =>
      let ledger := { ledger with
        disk := result.disk
        published := ledger.published ++ rotationFiles codec path req closed newOpen result }
      match result.outcome with
      | .error _ => { ledger with live := { ledger.live with log := result.log } }
      | .ok _ =>
          { ledger with
            live := { log := result.log, origins := [none] }
            sealed := ledger.sealed ++
            [{ log := closed, origins := ledger.live.origins ++ [none] }] }

end Ledger

/-- What the writer does after a flush. -/
inductive AfterFlush where
  /-- Go on with a rotation. -/
  | rotate (req : RotationRequest)
  /-- Fill the batch, after the timer. -/
  | fill
  /-- Go back to the `select!`, after a full batch. -/
  | select
  /-- Return, after the last sender is gone. -/
  | stop
deriving DecidableEq

/-- Where the writer task is. -/
inductive Phase where
  /-- About to poll `rot_rx.recv()`. -/
  | selectRotation
  /-- About to poll `rx.recv()`. -/
  | selectEvent
  /-- About to poll the timer. -/
  | selectTimer
  /-- In the `try_recv` loop of the rotation branch. -/
  | draining (req : RotationRequest)
  /-- In the append loop of `flush`. -/
  | flushing (after : AfterFlush)
  /-- At the save of `flush`. -/
  | saving (after : AfterFlush)
  /-- At `perform_rotation`. -/
  | rotating (req : RotationRequest)
  /-- In the loop that fills the batch. -/
  | filling
  /-- The task has returned. -/
  | finished
deriving DecidableEq

/-- A channel with its writer. -/
structure Writer where
  ledger : Ledger
  phase : Phase
  /-- Some `AuditHandle` is alive. -/
  sendersOpen : Bool
  /-- The one request that `rot_rx` can hold. -/
  rotationQueue : Option RotationRequest
  /-- Some sender of rotation requests is alive. -/
  rotationsOpen : Bool
  auditEvents : Nat
  auditFailures : Nat
  auditRotations : Nat
  entriesSinceRotation : Nat

/-- The parameters of `spawn_inner`. -/
structure WriterConfig where
  path : Path
  capacity : Nat
  batchSize : Nat
  hasFactory : Bool

/-- The moves of the clients and of the writer. The operations that can fail carry
what they meet. -/
inductive WriterMove where
  | emit (event : AuditEvent)
  /-- The last `AuditHandle` is dropped. -/
  | closeSenders
  | requestRotation (req : RotationRequest)
  /-- The last sender of rotation requests is dropped. -/
  | closeRotations
  | pollRotation
  | pollEvent
  | pollTimer (elapsed : Bool)
  | drain
  | append (sign : SignCall) (now : Timestamp)
  | save (faults : SaveFaults)
  | rotate (env : RotationEnv)
  | fill

namespace Writer

/-- A channel right after `spawn_inner`. -/
def spawn (log : AuditLog) (disk : Disk) : Writer where
  ledger :=
    { queue := [], pending := [], disk, accepted := [], sealed := [], dropped := []
      live := { log, origins := List.replicate log.entries.length none }
      flushFailures := 0, published := [] }
  phase := .selectRotation
  sendersOpen := true
  rotationQueue := none
  rotationsOpen := true
  auditEvents := 0
  auditFailures := 0
  auditRotations := 0
  entriesSinceRotation := 0

/-- `entries_task.store(log.entries().len())`. -/
def storeEntries (writer : Writer) : Writer :=
  { writer with entriesSinceRotation := writer.ledger.live.log.entries.length }

/-- Where the writer goes on after a flush. The rotation branch does not store the
number of entries. -/
def leaveFlush (writer : Writer) : AfterFlush → Writer
  | .rotate req => { writer with phase := .rotating req }
  | .fill => { writer with phase := .filling }.storeEntries
  | .select => { writer with phase := .selectRotation }.storeEntries
  | .stop => { writer with phase := .finished }.storeEntries

/-- Call `flush`, which returns at once on an empty batch. -/
def enterFlush (writer : Writer) (after : AfterFlush) : Writer :=
  if writer.ledger.pending.isEmpty then writer.leaveFlush after
  else { writer with phase := .flushing after }

/-- `AuditHandle::emit`. -/
def emit (config : WriterConfig) (writer : Writer) (event : AuditEvent) : Writer :=
  if writer.phase = .finished ∨ config.capacity ≤ writer.ledger.queue.length then
    { writer with auditFailures := writer.auditFailures + 1 }
  else { writer with ledger := writer.ledger.accept event, auditEvents := writer.auditEvents + 1 }

/-- `request_rotation_silent`: dropped if a request is queued already. -/
def requestRotation (writer : Writer) (req : RotationRequest) : Writer :=
  if writer.phase = .finished ∨ writer.rotationQueue.isSome then writer
  else { writer with rotationQueue := some req }

/-- Poll `rot_rx.recv()`. On a closed channel the branch is taken and goes round. -/
def pollRotation (writer : Writer) : Writer :=
  match writer.rotationQueue with
  | some req => { writer with rotationQueue := none, phase := .draining req }
  | none => if writer.rotationsOpen then { writer with phase := .selectEvent } else writer

/-- Poll `rx.recv()`. -/
def pollEvent (writer : Writer) : Writer :=
  match writer.ledger.queue with
  | next :: rest => { writer with ledger := writer.ledger.receive next rest, phase := .filling }
  | [] =>
      if writer.sendersOpen then { writer with phase := .selectTimer }
      else writer.enterFlush .stop

/-- Poll the timer, which is disabled while nothing is pending. -/
def pollTimer (writer : Writer) (elapsed : Bool) : Writer :=
  if elapsed ∧ !writer.ledger.pending.isEmpty then writer.enterFlush .fill
  else { writer with phase := .selectRotation }

/-- One `try_recv` of the rotation branch. -/
def drain (writer : Writer) (req : RotationRequest) : Writer :=
  match writer.ledger.queue with
  | next :: rest => { writer with ledger := writer.ledger.receive next rest }
  | [] => writer.enterFlush (.rotate req)

/-- One turn of the loop that fills the batch, or what follows it. -/
def fill (config : WriterConfig) (writer : Writer) : Writer :=
  if config.batchSize ≤ writer.ledger.pending.length then writer.enterFlush .select
  else match writer.ledger.queue with
  | next :: rest => { writer with ledger := writer.ledger.receive next rest }
  | [] => { writer with phase := .selectRotation }

/-- One turn of the loop of `flush`. -/
def append (crates : Crates) (writer : Writer) (after : AfterFlush) (sign : SignCall)
    (now : Timestamp) : Option Writer :=
  match writer.ledger.pending with
  | [] => none
  | next :: rest =>
      match writer.ledger.live.log.append crates next.event sign now with
      | (log, .ok _) =>
          some { writer with
            ledger := writer.ledger.appended log next rest
            phase := if rest.isEmpty then .saving after else .flushing after }
      | (log, .error _) =>
          some ({ writer with
            ledger := writer.ledger.abandoned log (next :: rest)
            auditFailures := writer.auditFailures + 1 }.leaveFlush after)

/-- The save of `flush`. -/
def save (codec : LogCodec) (config : WriterConfig) (writer : Writer) (after : AfterFlush)
    (faults : SaveFaults) : Writer :=
  match writer.ledger.save codec config.path faults with
  | (ledger, .ok _) => { writer with ledger }.leaveFlush after
  | (ledger, .error _) =>
      { writer with ledger, auditFailures := writer.auditFailures + 1 }.leaveFlush after

/-- The rotation branch after its flush. -/
def rotate (crates : Crates) (codec : LogCodec) (config : WriterConfig) (writer : Writer)
    (req : RotationRequest) (env : RotationEnv) : Writer :=
  let result := performRotation crates codec config.hasFactory writer.ledger.live.log
    writer.auditRotations config.path req env writer.ledger.disk
  { writer with
    ledger := writer.ledger.rotated crates codec config.path req env result
    auditRotations := result.rotations
    entriesSinceRotation := if result.outcome.isOk then 0 else writer.entriesSinceRotation
    phase := .selectRotation }

end Writer

/-- One move. Clients can move while they hold a sender; each of the writer's own
moves belongs to a phase. -/
def writerStep (crates : Crates) (codec : LogCodec) (config : WriterConfig) (writer : Writer) :
    WriterMove → Option Writer
  | .emit event => if writer.sendersOpen then some (writer.emit config event) else none
  | .closeSenders => if writer.sendersOpen then some { writer with sendersOpen := false } else none
  | .requestRotation req => if writer.rotationsOpen then some (writer.requestRotation req) else none
  | .closeRotations =>
      if writer.rotationsOpen then some { writer with rotationsOpen := false } else none
  | .pollRotation => if writer.phase = .selectRotation then some writer.pollRotation else none
  | .pollEvent => if writer.phase = .selectEvent then some writer.pollEvent else none
  | .pollTimer elapsed =>
      if writer.phase = .selectTimer then some (writer.pollTimer elapsed) else none
  | .drain =>
      match writer.phase with
      | .draining req => some (writer.drain req)
      | _ => none
  | .append sign now =>
      match writer.phase with
      | .flushing after => writer.append crates after sign now
      | _ => none
  | .save faults =>
      match writer.phase with
      | .saving after => some (writer.save codec config after faults)
      | _ => none
  | .rotate env =>
      match writer.phase with
      | .rotating req => some (writer.rotate crates codec config req env)
      | _ => none
  | .fill => if writer.phase = .filling then some (writer.fill config) else none

/-- A channel spawned on any log and any files. -/
def writerMachine (crates : Crates) (codec : LogCodec) (config : WriterConfig) : Machine where
  State := Writer
  Label := WriterMove
  Initial writer := ∃ log disk, writer = .spawn log disk
  step := writerStep crates codec config

/-- What one move does to the ledger. -/
inductive LedgerMove (crates : Crates) (codec : LogCodec) (config : WriterConfig) :
    WriterMove → Ledger → Ledger → Prop where
  | idle {move ledger} : LedgerMove crates codec config move ledger ledger
  | accept {event ledger} : LedgerMove crates codec config (.emit event)
      ledger (ledger.accept event)
  | receive {move ledger next rest} (queued : ledger.queue = next :: rest) :
      LedgerMove crates codec config move ledger (ledger.receive next rest)
  | appended {ledger next rest log entry sign now} (batch : ledger.pending = next :: rest)
      (committed : ledger.live.log.append crates next.event sign now = (log, .ok entry)) :
      LedgerMove crates codec config (.append sign now) ledger (ledger.appended log next rest)
  | abandoned {ledger next rest log failure sign now} (batch : ledger.pending = next :: rest)
      (failed : ledger.live.log.append crates next.event sign now = (log, .error failure)) :
      LedgerMove crates codec config (.append sign now) ledger
        (ledger.abandoned log (next :: rest))
  | saved {ledger faults} : LedgerMove crates codec config (.save faults) ledger
      (ledger.save codec config.path faults).1
  | rotated {ledger env} (rotations : Nat) (req : RotationRequest) :
      LedgerMove crates codec config (.rotate env) ledger (ledger.rotated crates codec config.path
        req env (performRotation crates codec config.hasFactory ledger.live.log rotations
          config.path req env ledger.disk))

/-- A rotation leaves the segments alone, or seals the live one and goes on with
its successor. What it published are the two logs that it prepared. -/
theorem Ledger.rotated_cases (crates : Crates) (codec : LogCodec) (config : WriterConfig)
    (ledger : Ledger) (rotations : Nat) (req : RotationRequest) (env : RotationEnv) :
    let result := performRotation crates codec config.hasFactory ledger.live.log rotations
      config.path req env ledger.disk
    let after := ledger.rotated crates codec config.path req env result
    (∃ files, after =
        { ledger with disk := result.disk, published := ledger.published ++ files } ∧
      (files = [] ∨ ∃ closed newOpen,
        prepareRotation crates codec ledger.live.log req env = .ok (closed, newOpen) ∧
          ∀ file ∈ files, file = ⟨closed, true⟩ ∨ file = ⟨newOpen, false⟩)) ∨
    ∃ closed newOpen files,
      prepareRotation crates codec ledger.live.log req env = .ok (closed, newOpen) ∧
      after = { ledger with
        disk := result.disk, published := ledger.published ++ files
        live := { log := newOpen, origins := [none] }
        sealed := ledger.sealed ++
        [{ log := closed, origins := ledger.live.origins ++ [none] }] } ∧
      ∀ file ∈ files, file = ⟨closed, false⟩ ∨ file = ⟨newOpen, false⟩ := by
  intro result after
  have published : ∀ (closed newOpen : AuditLog),
      ∀ file ∈ rotationFiles codec config.path req closed newOpen result,
        file = ⟨closed, !result.outcome.isOk⟩ ∨ file = ⟨newOpen, false⟩ := by
    intro closed newOpen file member
    simp only [rotationFiles, List.mem_append] at member
    rcases member with archived | replaced
    · split at archived <;> simp_all
    · split at replaced <;> simp_all
  rcases performRotation_log crates codec config.hasFactory ledger.live.log
    rotations config.path req
      env ledger.disk with ⟨failure, failed, sameLog⟩ | ⟨closed, succeeded, prepared⟩
  · left
    cases prepared : prepareRotation crates codec ledger.live.log req env with
    | error _ =>
        refine ⟨[], ?_, .inl rfl⟩
        simp only [after, rotated, prepared, result, sameLog, List.append_nil]
    | ok segments =>
        obtain ⟨closed, newOpen⟩ := segments
        refine ⟨rotationFiles codec config.path req closed newOpen result, ?_, ?_⟩
        · simp only [after, rotated, prepared, result, failed, sameLog]
        · refine .inr ⟨closed, newOpen, rfl, fun file member => ?_⟩
          simpa [result, failed, Except.isOk, Except.toBool] using published
            closed newOpen file member
  · right
    refine ⟨closed, result.log, rotationFiles codec config.path req closed
      result.log result, prepared, ?_, ?_⟩
    · simp only [after, rotated, prepared, result, succeeded]
    · intro file member
      simpa [result, succeeded, Except.isOk, Except.toBool] using
        published closed result.log file member

namespace Writer

@[simp] theorem leaveFlush_ledger (writer : Writer) (after : AfterFlush) :
    (writer.leaveFlush after).ledger = writer.ledger := by
  cases after <;> rfl

@[simp] theorem enterFlush_ledger (writer : Writer) (after : AfterFlush) :
    (writer.enterFlush after).ledger = writer.ledger := by
  rw [enterFlush]
  split
  · exact writer.leaveFlush_ledger after
  · rfl

@[simp] theorem save_ledger (codec : LogCodec) (config : WriterConfig) (writer : Writer)
    (after : AfterFlush) (faults : SaveFaults) :
    (writer.save codec config after faults).ledger =
      (writer.ledger.save codec config.path faults).1 := by
  rw [save]
  split <;> rw [leaveFlush_ledger, ‹writer.ledger.save _ _ _ = _›]

end Writer

section Moves

variable {crates : Crates} {codec : LogCodec} {config : WriterConfig} {writer next : Writer}

/-- A turn of the append loop commits the next event or gives up the batch. -/
theorem Writer.append_ledger {after : AfterFlush} {sign : SignCall} {now : Timestamp}
    (moved : writer.append crates after sign now = some next) :
    LedgerMove crates codec config (.append sign now) writer.ledger next.ledger := by
  simp only [Writer.append] at moved
  split at moved
  · cases moved
  · rename_i first rest batch
    split at moved
    · rename_i log entry committed
      cases moved
      exact .appended batch committed
    · rename_i log failure failed
      cases moved
      rw [Writer.leaveFlush_ledger]
      exact .abandoned batch failed

/-- Every move of the machine does one of these things to the ledger. -/
theorem writerStep_ledger {move : WriterMove}
    (moved : writerStep crates codec config writer move = some next) :
    LedgerMove crates codec config move writer.ledger next.ledger := by
  cases move with
  | emit event =>
      obtain ⟨_, ⟨⟩⟩ := Option.ite_none_right_eq_some.mp moved
      rw [Writer.emit]
      split
      · exact .idle
      · exact .accept
  | closeSenders =>
      obtain ⟨_, ⟨⟩⟩ := Option.ite_none_right_eq_some.mp moved
      exact .idle
  | requestRotation req =>
      obtain ⟨_, ⟨⟩⟩ := Option.ite_none_right_eq_some.mp moved
      rw [Writer.requestRotation]
      split <;> exact .idle
  | closeRotations =>
      obtain ⟨_, ⟨⟩⟩ := Option.ite_none_right_eq_some.mp moved
      exact .idle
  | pollRotation =>
      obtain ⟨_, ⟨⟩⟩ := Option.ite_none_right_eq_some.mp moved
      rw [Writer.pollRotation]
      split
      · exact .idle
      · split <;> exact .idle
  | pollEvent =>
      obtain ⟨_, ⟨⟩⟩ := Option.ite_none_right_eq_some.mp moved
      rw [Writer.pollEvent]
      split
      · rename_i queued
        exact .receive queued
      · split
        · exact .idle
        · rw [Writer.enterFlush_ledger]
          exact .idle
  | pollTimer elapsed =>
      obtain ⟨_, ⟨⟩⟩ := Option.ite_none_right_eq_some.mp moved
      rw [Writer.pollTimer]
      split
      · rw [Writer.enterFlush_ledger]
        exact .idle
      · exact .idle
  | drain =>
      simp only [writerStep] at moved
      split at moved
      · cases moved
        rw [Writer.drain]
        split
        · rename_i queued
          exact .receive queued
        · rw [Writer.enterFlush_ledger]
          exact .idle
      · cases moved
  | append sign now =>
      simp only [writerStep] at moved
      split at moved
      · exact Writer.append_ledger moved
      · cases moved
  | save faults =>
      simp only [writerStep] at moved
      split at moved
      · cases moved
        rw [Writer.save_ledger]
        exact .saved
      · cases moved
  | rotate env =>
      simp only [writerStep] at moved
      split at moved
      · cases moved
        exact .rotated _ _
      · cases moved
  | fill =>
      obtain ⟨_, ⟨⟩⟩ := Option.ite_none_right_eq_some.mp moved
      rw [Writer.fill]
      split
      · rw [Writer.enterFlush_ledger]
        exact .idle
      · split
        · rename_i queued
          exact .receive queued
        · exact .idle

/-- A property of the ledger that every admitted move keeps holds throughout every
admitted run. -/
theorem ledger_invariant {admits : Writer → WriterMove → Prop} {start : Writer}
    {moves : List WriterMove} (holds : Ledger → Prop) (initially : holds start.ledger)
    (preserved : ∀ {writer : Writer} {move : WriterMove} {ledger : Ledger},
      holds writer.ledger →
      admits writer move → LedgerMove crates codec config move writer.ledger ledger →
      holds ledger)
    (run : (writerMachine crates codec config).Runs admits start moves writer) :
    holds writer.ledger := by
  refine run.invariant (fun state => holds (Writer.ledger state)) initially ?_
  intro state label next kept admitted moved
  exact preserved kept admitted (writerStep_ledger moved)

end Moves

end CofreSoberano.Channel
