import CofreSoberano.Transport.Reader

/-!
# Sending records

The two ways of sending: `send_record` and `send_eof`, which await a whole frame,
and the machines of `poll_write`, `poll_flush` and `poll_shutdown`, whose partial
progress outlives a `Pending`. Every call is given the answers that the byte stream
below has for it; when they run out it is pending.
-/

namespace CofreSoberano.Transport

open CofreSoberano.Std

/-- The answer of the byte stream below to one `poll_write`, `poll_flush` or
`poll_shutdown`. A write takes at most what it is offered; the others take nothing. -/
inductive InnerAnswer where
  | pending
  | failed (error : IoError)
  | ready (count : Nat)
deriving DecidableEq

/-- The result of a poll. -/
inductive Polled (V : Type) where
  | pending
  | failed (error : IoError)
  | ready (value : V)
deriving DecidableEq

/-- `io::ErrorKind::WriteZero.into()`. -/
def writeZero : IoError := ⟨.writeZero, "write zero"⟩

/-- `ShutdownStage`. -/
inductive ShutdownStage where
  | sendEofFrame (frame : List UInt8) (written : Nat)
  | flushInner
  | shutdownInner
deriving DecidableEq

/-- `WriteState`. -/
inductive WriteState where
  | idle
  | writing (frame : List UInt8) (written consumed : Nat)
  | closed
  | shuttingDown (stage : ShutdownStage)
deriving DecidableEq

/-- One call of `encrypt`. -/
structure Encryption where
  key : Key
  nonce : Nonce
  plaintext : List UInt8
deriving DecidableEq

/-- The calls of `encrypt` that a seal makes: one, unless there is no nonce left. -/
def DirectionState.encryptions (state : DirectionState) (plaintext : List UInt8) :
    List Encryption :=
  match state.nextNonce with
  | (_, .error _) => []
  | (_, .ok nonce) => [⟨state.key, nonce, plaintext⟩]

/-- The sending half of a stream, with the bytes that the stream below has taken and
an account of the calls of `encrypt`, oldest first. -/
structure Writer where
  send : DirectionState
  state : WriteState
  wire : List UInt8
  encrypted : List Encryption
deriving DecidableEq

/-- A frame: a length prefix and a ciphertext. -/
def frameOf (ciphertext : List UInt8) : List UInt8 :=
  Cbor.bigEndian 4 ciphertext.length ++ ciphertext

/-- How far a `while written < frame.len()` loop came. -/
structure Progress where
  outcome : Polled Unit
  written : Nat
  wire : List UInt8
  answers : List InnerAnswer
deriving DecidableEq

/-- The loop `while written < frame.len()` over `poll_write` of the stream below. -/
def writeLoop (frame : List UInt8) : List InnerAnswer → Nat → List UInt8 → Progress
  | answers, written, wire =>
      if frame.length ≤ written then ⟨.ready (), written, wire, answers⟩
      else match answers with
      | [] => ⟨.pending, written, wire, []⟩
      | .pending :: rest => ⟨.pending, written, wire, rest⟩
      | .failed error :: rest => ⟨.failed error, written, wire, rest⟩
      | .ready offered :: rest =>
          let count := min offered (frame.length - written)
          if count = 0 then ⟨.failed writeZero, written, wire, rest⟩
          else writeLoop frame rest (written + count) (wire ++ (frame.drop written).take count)

/-- `poll_flush` or `poll_shutdown` of the stream below. -/
def pollDone : List InnerAnswer → Polled Unit × List InnerAnswer
  | [] => (.pending, [])
  | .pending :: rest => (.pending, rest)
  | .failed error :: rest => (.failed error, rest)
  | .ready _ :: rest => (.ready (), rest)

/-- What a poll leaves: the writer, the answers not used, and the result. -/
structure WriteReturn (V : Type) where
  writer : Writer
  answers : List InnerAnswer
  result : Polled V
deriving DecidableEq

namespace Writer

/-- The sending half of a stream right after its handshake. -/
def new (send : DirectionState) : Writer := { send, state := .idle, wire := [], encrypted := [] }

/-- `self.send.seal(plaintext)`. -/
def sealRecord (aead : Aead) (writer : Writer) (plaintext : List UInt8) :
    Writer × Except Error (List UInt8) :=
  let (send, outcome) := writer.send.sealRecord aead plaintext
  ({ writer with send, encrypted := writer.encrypted ++
    writer.send.encryptions plaintext }, outcome)

/-- A fatal error closes the writer. -/
def fail {V : Type} (writer : Writer) (answers : List InnerAnswer) (error : IoError) :
    WriteReturn V :=
  ⟨{ writer with state := .closed }, answers, .failed error⟩

/-- The `Writing` arm up to the end of the frame; `done` goes on from there. -/
def driveFrame {V : Type} (writer : Writer) (frame : List UInt8) (written consumed : Nat)
    (answers : List InnerAnswer) (done : Writer → List InnerAnswer → WriteReturn V) :
    WriteReturn V :=
  let progress := writeLoop frame answers written writer.wire
  let writer := { writer with wire := progress.wire }
  match progress.outcome with
  | .pending =>
      ⟨{ writer with state := .writing frame progress.written consumed },
        progress.answers, .pending⟩
  | .failed error => writer.fail progress.answers error
  | .ready () => done { writer with state := .idle } progress.answers

/-- The `Writing` arm of `poll_write_machine`. -/
def writeFrame (writer : Writer) (frame : List UInt8) (written consumed : Nat)
    (answers : List InnerAnswer) : WriteReturn Nat :=
  writer.driveFrame frame written consumed answers fun writer answers =>
    ⟨writer, answers, .ready consumed⟩

/-- `poll_write_machine`. -/
def pollWriteMachine (aead : Aead) (writer : Writer) (buf : List UInt8)
    (answers : List InnerAnswer) : WriteReturn Nat :=
  match writer.state with
  | .closed => ⟨writer, answers, .failed ⟨.notConnected, "CSPQ stream is closed"⟩⟩
  | .shuttingDown _ =>
      ⟨writer, answers, .failed ⟨.notConnected, "CSPQ stream is shutting down"⟩⟩
  | .idle =>
      if buf.isEmpty then ⟨writer, answers, .ready 0⟩
      else
        let take := min buf.length maxPlaintext
        match writer.sealRecord aead (buf.take take) with
        | (writer, .error failure) => writer.fail answers ⟨.other, failure.display⟩
        | (writer, .ok sealed) => writer.writeFrame (frameOf sealed) 0 take answers
  | .writing frame written consumed => writer.writeFrame frame written consumed answers

/-- `poll_flush` of the stream below. -/
def flushInner (writer : Writer) (answers : List InnerAnswer) : WriteReturn Unit :=
  let (result, answers) := pollDone answers
  ⟨writer, answers, result⟩

/-- `poll_flush_machine`. -/
def pollFlushMachine (writer : Writer) (answers : List InnerAnswer) : WriteReturn Unit :=
  match writer.state with
  | .writing frame written consumed => writer.driveFrame frame written consumed answers flushInner
  | _ => writer.flushInner answers

/-- The `ShutdownInner` arm. -/
def stageShutdownInner (writer : Writer) (answers : List InnerAnswer) : WriteReturn Unit :=
  match pollDone answers with
  | (.pending, answers) =>
      ⟨{ writer with state := .shuttingDown .shutdownInner }, answers, .pending⟩
  | (result, answers) => ⟨{ writer with state := .closed }, answers, result⟩

/-- The `FlushInner` arm. -/
def stageFlushInner (writer : Writer) (answers : List InnerAnswer) : WriteReturn Unit :=
  match pollDone answers with
  | (.pending, answers) =>
      ⟨{ writer with state := .shuttingDown .flushInner }, answers, .pending⟩
  | (.failed error, answers) => writer.fail answers error
  | (.ready (), answers) => writer.stageShutdownInner answers

/-- The `SendEofFrame` arm. -/
def stageSendEofFrame (writer : Writer) (frame : List UInt8) (written : Nat)
    (answers : List InnerAnswer) : WriteReturn Unit :=
  let progress := writeLoop frame answers written writer.wire
  let writer := { writer with wire := progress.wire }
  match progress.outcome with
  | .pending =>
      ⟨{ writer with state := .shuttingDown (.sendEofFrame frame progress.written) },
        progress.answers, .pending⟩
  | .failed error => writer.fail progress.answers error
  | .ready () => writer.stageFlushInner progress.answers

/-- The `Idle` arm of `poll_shutdown_machine`: the end-of-stream marker is sealed. -/
def startShutdown (aead : Aead) (writer : Writer) (answers : List InnerAnswer) : WriteReturn Unit :=
  match writer.sealRecord aead [] with
  | (writer, .error failure) => writer.fail answers ⟨.other, failure.display⟩
  | (writer, .ok sealed) => writer.stageSendEofFrame (frameOf sealed) 0 answers

/-- `poll_shutdown_machine`. -/
def pollShutdownMachine (aead : Aead) (writer : Writer) (answers : List InnerAnswer) :
    WriteReturn Unit :=
  match writer.state with
  | .closed =>
      let (result, answers) := pollDone answers
      ⟨writer, answers, result⟩
  | .writing frame written consumed =>
      writer.driveFrame frame written consumed answers (startShutdown aead)
  | .idle => writer.startShutdown aead answers
  | .shuttingDown (.sendEofFrame frame written) => writer.stageSendEofFrame frame written answers
  | .shuttingDown .flushInner => writer.stageFlushInner answers
  | .shuttingDown .shutdownInner => writer.stageShutdownInner answers

end Writer

/-- `write_all`, which awaits through every `Pending`. The outcome is empty while it
awaits. -/
def awaitWriteAll : List InnerAnswer → List UInt8 → List UInt8 →
    Option (Except Error Unit) × List UInt8 × List InnerAnswer
  | answers, [], wire => (some (.ok ()), wire, answers)
  | [], _ :: _, wire => (none, wire, [])
  | .pending :: rest, first :: more, wire => awaitWriteAll rest (first :: more) wire
  | .failed error :: rest, _ :: _, wire => (some (.error (.io error)), wire, rest)
  | .ready offered :: rest, first :: more, wire =>
      let count := min offered (more.length + 1)
      if count = 0 then (some (.error (.io writeZero)), wire, rest)
      else awaitWriteAll rest ((first :: more).drop count) (wire ++ (first :: more).take count)

/-- `flush`, which awaits through every `Pending`. -/
def awaitFlush : List InnerAnswer → Option (Except Error Unit) × List InnerAnswer
  | [] => (none, [])
  | .pending :: rest => awaitFlush rest
  | .failed error :: rest => (some (.error (.io error)), rest)
  | .ready _ :: rest => (some (.ok ()), rest)

/-- `write_frame`. The outcome is empty while it awaits; a future that is dropped
then leaves the part of the frame that was taken. -/
def awaitWriteFrame (buf : List UInt8) (answers : List InnerAnswer) (wire : List UInt8) :
    Option (Except Error Unit) × List UInt8 :=
  if maxFrame < buf.length then (some (.error (.frameTooLarge buf.length maxFrame)), wire)
  else match awaitWriteAll answers (Cbor.bigEndian 4 buf.length) wire with
  | (some (.ok ()), wire, answers) =>
      match awaitWriteAll answers buf wire with
      | (some (.ok ()), wire, answers) => ((awaitFlush answers).1, wire)
      | (outcome, wire, _) => (outcome, wire)
  | (outcome, wire, _) => (outcome, wire)

namespace Writer

/-- Seal a record and write its frame. -/
def sendSealed (aead : Aead) (writer : Writer) (plaintext : List UInt8)
    (answers : List InnerAnswer) : Writer × Option (Except Error Unit) :=
  match writer.sealRecord aead plaintext with
  | (writer, .error failure) => (writer, some (.error failure))
  | (writer, .ok ct) =>
      let (outcome, wire) := awaitWriteFrame ct answers writer.wire
      ({ writer with wire }, outcome)

/-- `send_record`. -/
def sendRecord (aead : Aead) (writer : Writer) (plaintext : List UInt8)
    (answers : List InnerAnswer) : Writer × Option (Except Error Unit) :=
  if maxPlaintext < plaintext.length then
    (writer, some (.error (.frameTooLarge plaintext.length maxPlaintext)))
  else writer.sendSealed aead plaintext answers

/-- `send_eof`. -/
def sendEof (aead : Aead) (writer : Writer) (answers : List InnerAnswer) :
    Writer × Option (Except Error Unit) :=
  writer.sendSealed aead [] answers

/-- Two states of a writer between which nothing was sealed. -/
structure SameSeals (before after : Writer) : Prop where
  send : after.send = before.send
  encrypted : after.encrypted = before.encrypted

/-- Two states of a writer between which at most one record was sealed. -/
def SealStep (aead : Aead) (before after : Writer) : Prop :=
  before.SameSeals after ∨ ∃ plaintext, (before.sealRecord aead plaintext).1.SameSeals after

theorem SameSeals.trans {before middle after : Writer} (first : before.SameSeals middle)
    (second : middle.SameSeals after) : before.SameSeals after :=
  ⟨second.send.trans first.send, second.encrypted.trans first.encrypted⟩

section Seals

variable (aead : Aead) (writer : Writer) (answers : List InnerAnswer)

/-- Driving a frame seals what is sealed after it. -/
theorem driveFrame_keeps {V : Type} {keeps : Writer → Prop} (frame : List UInt8)
    (written consumed : Nat) (done : Writer → List InnerAnswer → WriteReturn V)
    (stays : ∀ after, writer.SameSeals after → keeps after)
    (goesOn : ∀ after answers, writer.SameSeals after → keeps (done after answers).writer) :
    keeps (writer.driveFrame frame written consumed answers done).writer := by
  simp only [driveFrame]
  split
  · exact stays _ ⟨rfl, rfl⟩
  · exact stays _ ⟨rfl, rfl⟩
  · exact goesOn _ _ ⟨rfl, rfl⟩

theorem writeFrame_sameSeals (frame : List UInt8) (written consumed : Nat) :
    writer.SameSeals (writer.writeFrame frame written consumed answers).writer :=
  driveFrame_keeps writer answers frame written consumed _ (fun _ same => same)
    (fun _ _ same => same)

theorem stageShutdownInner_sameSeals :
    writer.SameSeals (writer.stageShutdownInner answers).writer := by
  simp only [stageShutdownInner]
  split
  · exact ⟨rfl, rfl⟩
  · exact ⟨rfl, rfl⟩

theorem stageFlushInner_sameSeals : writer.SameSeals (writer.stageFlushInner answers).writer := by
  simp only [stageFlushInner]
  split
  · exact ⟨rfl, rfl⟩
  · exact ⟨rfl, rfl⟩
  · exact stageShutdownInner_sameSeals _ _

theorem stageSendEofFrame_sameSeals (frame : List UInt8) (written : Nat) :
    writer.SameSeals (writer.stageSendEofFrame frame written answers).writer := by
  simp only [stageSendEofFrame]
  split
  · exact ⟨rfl, rfl⟩
  · exact ⟨rfl, rfl⟩
  · exact ⟨(stageFlushInner_sameSeals _ _).send, (stageFlushInner_sameSeals _ _).encrypted⟩

/-- A shutdown seals the marker only. -/
theorem startShutdown_sealStep :
    SealStep aead writer (writer.startShutdown aead answers).writer := by
  refine .inr ⟨[], ?_⟩
  simp only [startShutdown]
  split
  · rename_i sealed
    rw [sealed]
    exact ⟨rfl, rfl⟩
  · rename_i sealed
    rw [sealed]
    exact stageSendEofFrame_sameSeals _ _ _ _

theorem pollWriteMachine_sealStep (buf : List UInt8) :
    SealStep aead writer (writer.pollWriteMachine aead buf answers).writer := by
  simp only [pollWriteMachine]
  split
  · exact .inl ⟨rfl, rfl⟩
  · exact .inl ⟨rfl, rfl⟩
  · split
    · exact .inl ⟨rfl, rfl⟩
    · refine .inr ⟨buf.take (min buf.length maxPlaintext), ?_⟩
      split
      · rename_i sealed
        rw [sealed]
        exact ⟨rfl, rfl⟩
      · rename_i sealed
        rw [sealed]
        exact writeFrame_sameSeals _ _ _ _ _
  · exact .inl (writeFrame_sameSeals _ _ _ _ _)

theorem pollFlushMachine_sealStep :
    SealStep aead writer (writer.pollFlushMachine answers).writer := by
  simp only [pollFlushMachine]
  split
  · exact driveFrame_keeps writer answers _ _ _ _ (fun _ same => .inl same)
      (fun _ _ same => .inl same)
  · exact .inl ⟨rfl, rfl⟩

theorem pollShutdownMachine_sealStep :
    SealStep aead writer (writer.pollShutdownMachine aead answers).writer := by
  simp only [pollShutdownMachine]
  split
  · exact .inl ⟨rfl, rfl⟩
  · refine driveFrame_keeps writer answers _ _ _ _ (fun _ same => .inl same) ?_
    intro after answers same
    -- The marker is sealed by the writer after its frame, which is the same sealer.
    rcases startShutdown_sealStep aead after answers with unsealed | ⟨plaintext, sealed⟩
    · exact .inl (same.trans unsealed)
    · refine .inr ⟨plaintext, SameSeals.trans ?_ sealed⟩
      exact ⟨by simp [sealRecord, same.send], by simp [sealRecord, same.send, same.encrypted]⟩
  · exact startShutdown_sealStep aead writer answers
  · exact .inl (stageSendEofFrame_sameSeals _ _ _ _)
  · exact .inl (stageFlushInner_sameSeals _ _)
  · exact .inl (stageShutdownInner_sameSeals _ _)

theorem sendSealed_sealStep (plaintext : List UInt8) :
    SealStep aead writer (writer.sendSealed aead plaintext answers).1 := by
  refine .inr ⟨plaintext, ?_⟩
  simp only [sendSealed]
  split
  · rename_i sealed
    rw [sealed]
    exact ⟨rfl, rfl⟩
  · rename_i sealed
    rw [sealed]
    exact ⟨rfl, rfl⟩

theorem sendRecord_sealStep (plaintext : List UInt8) :
    SealStep aead writer (writer.sendRecord aead plaintext answers).1 := by
  simp only [sendRecord]
  split
  · exact .inl ⟨rfl, rfl⟩
  · exact sendSealed_sealStep aead writer answers plaintext

end Seals

end Writer

end CofreSoberano.Transport
