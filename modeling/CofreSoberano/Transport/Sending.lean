import CofreSoberano.Transport.Writer

/-!
# Sending a stream

A caller that writes slices with `write_all`, flushes between them and shuts the
stream down, over a byte stream below that does not fail. Every call needs only so
many answers that accept something; then it returns, and the frames of its records
are on the wire.
-/

namespace CofreSoberano.Transport

open CofreSoberano.Std

/-- Answers without errors, each of which is pending or accepts at least one byte. -/
def Unfailing (answers : List InnerAnswer) : Prop :=
  ∀ answer ∈ answers, answer = .pending ∨ ∃ count, answer = .ready (count + 1)

/-- The number of answers that are not pending. -/
def readies (answers : List InnerAnswer) : Nat := answers.countP (· ≠ .pending)

/-- Await a poll: after a `Pending` it is polled again, as long as there are answers. -/
def awaitPoll {V : Type} (poll : Writer → List InnerAnswer → WriteReturn V) :
    Nat → Writer → List InnerAnswer → WriteReturn V
  | 0, writer, answers => ⟨writer, answers, .pending⟩
  | fuel + 1, writer, answers =>
      match poll writer answers with
      | ⟨writer, rest, .pending⟩ =>
          if rest.isEmpty then ⟨writer, [], .pending⟩ else awaitPoll poll fuel writer rest
      | returned => returned

/-- The future of a poll. A poll that is pending has used up an answer. -/
def runPoll {V : Type} (poll : Writer → List InnerAnswer → WriteReturn V) (writer : Writer)
    (answers : List InnerAnswer) : WriteReturn V :=
  awaitPoll poll (answers.length + 1) writer answers

/-- The loop of `AsyncWriteExt::write_all`. Each turn consumes at least one byte. -/
def writeAllLoop (aead : Aead) : Nat → Writer → List UInt8 →
    List InnerAnswer → WriteReturn Unit
  | _, writer, [], answers => ⟨writer, answers, .ready ()⟩
  | 0, writer, _ :: _, answers => ⟨writer, answers, .pending⟩
  | fuel + 1, writer, first :: more, answers =>
      match runPoll (fun writer => writer.pollWriteMachine aead (first :: more)) writer answers with
      | ⟨writer, answers, .pending⟩ => ⟨writer, answers, .pending⟩
      | ⟨writer, answers, .failed error⟩ => ⟨writer, answers, .failed error⟩
      | ⟨writer, answers, .ready 0⟩ => ⟨writer, answers, .failed writeZero⟩
      | ⟨writer, answers, .ready (count + 1)⟩ =>
          writeAllLoop aead fuel writer ((first :: more).drop (count + 1)) answers

/-- `AsyncWriteExt::write_all`. -/
def writeAll (aead : Aead) (writer : Writer) (buf : List UInt8) (answers : List InnerAnswer) :
    WriteReturn Unit :=
  writeAllLoop aead buf.length writer buf answers

/-- What the caller does before the shutdown. -/
inductive WriteOp where
  | writeAll (buf : List UInt8)
  | flush
deriving DecidableEq

/-- One operation of the caller. -/
def runOp (aead : Aead) (writer : Writer) (answers : List InnerAnswer) :
    WriteOp → WriteReturn Unit
  | .writeAll buf => writeAll aead writer buf answers
  | .flush => runPoll Writer.pollFlushMachine writer answers

/-- Operations one after the other; each is awaited and must succeed. -/
def runOps (aead : Aead) : List WriteOp → Writer → List InnerAnswer → WriteReturn Unit
  | [], writer, answers => ⟨writer, answers, .ready ()⟩
  | op :: ops, writer, answers =>
      match runOp aead writer answers op with
      | ⟨writer, answers, .ready ()⟩ => runOps aead ops writer answers
      | returned => returned

/-- All operations and the shutdown. -/
def sendStream (aead : Aead) (ops : List WriteOp) (writer : Writer) (answers : List InnerAnswer) :
    WriteReturn Unit :=
  match runOps aead ops writer answers with
  | ⟨writer, answers, .ready ()⟩ => runPoll (Writer.pollShutdownMachine aead) writer answers
  | returned => returned

/-- What a poll with at most `needed` answers to go has done: it used up answers and
is closer to its end, or it returned a good value. `held` says what is kept while so
many answers are to go. -/
inductive PollStep {V : Type} (held : Writer → Nat → Prop) (good : Writer → V → Prop)
    (needed : Nat) (answers : List InnerAnswer) : WriteReturn V → Prop where
  | waits {writer : Writer} {rest : List InnerAnswer} {left : Nat} (holds : held writer left)
      (more : 0 < left) (unfailing : Unfailing rest)
      (used : readies answers + left ≤ readies rest + needed)
      (shorter : rest = [] ∨ rest.length < answers.length) :
      PollStep held good needed answers ⟨writer, rest, .pending⟩
  | returns {writer : Writer} {rest : List InnerAnswer} {value : V} (holds : good writer value)
      (unfailing : Unfailing rest) (used : readies answers ≤ readies rest + needed)
      (shorter : rest.length ≤ answers.length) :
      PollStep held good needed answers ⟨writer, rest, .ready value⟩

/-- What an awaited call that needs at most `needed` answers has done: it is pending
only if there were fewer, and otherwise it returned a good value. -/
inductive Completes {V : Type} (good : Writer → V → Prop) (needed : Nat)
    (answers : List InnerAnswer) : WriteReturn V → Prop where
  | waits {writer : Writer} (few : readies answers < needed) :
      Completes good needed answers ⟨writer, [], .pending⟩
  | returns {writer : Writer} {rest : List InnerAnswer} {value : V} (holds : good writer value)
      (unfailing : Unfailing rest) (used : readies answers ≤ readies rest + needed) :
      Completes good needed answers ⟨writer, rest, .ready value⟩

section Rules

variable {V : Type} {held : Writer → Nat → Prop} {good : Writer → V → Prop} {needed : Nat}
  {answers : List InnerAnswer}

/-- A poll that goes on after a part of the answers. -/
theorem PollStep.after {rest : List InnerAnswer} {count : Nat} {returned : WriteReturn V}
    (step : PollStep held good needed rest returned)
    (used : readies answers ≤ readies rest + count) (shorter : rest.length ≤ answers.length) :
    PollStep held good (needed + count) answers returned := by
  cases step with
  | waits holds more unfailing later fewer =>
      refine .waits holds more unfailing (by omega) ?_
      rcases fewer with empty | fewer
      · exact .inl empty
      · exact .inr (by omega)
  | returns holds unfailing later fewer => exact .returns holds unfailing (by omega) (by omega)

/-- A poll may keep and return less than it does. -/
theorem PollStep.mono {weaker : Writer → Nat → Prop} {fair : Writer → V → Prop}
    {returned : WriteReturn V} (keeps : ∀ {writer left}, held writer left → weaker writer left)
    (gives : ∀ {writer value}, good writer value → fair writer value)
    (step : PollStep held good needed answers returned) :
    PollStep weaker fair needed answers returned := by
  cases step with
  | waits holds more unfailing used shorter =>
      exact .waits (keeps holds) more unfailing used shorter
  | returns holds unfailing used shorter => exact .returns (gives holds) unfailing used shorter

/-- Awaiting polls that come closer completes. -/
theorem awaitPoll_completes {poll : Writer → List InnerAnswer → WriteReturn V}
    (step : ∀ {writer needed answers}, held writer needed → Unfailing answers →
      PollStep held good needed answers (poll writer answers))
    {writer : Writer} (holds : held writer needed) (unfailing : Unfailing answers) {fuel : Nat}
    (enough : answers.length < fuel) :
    Completes good needed answers (awaitPoll poll fuel writer answers) := by
  induction fuel generalizing writer needed answers with
  | zero => omega
  | succ fuel inductionHypothesis =>
      have stepped := step holds unfailing
      rw [awaitPoll]
      generalize poll writer answers = returned at stepped
      cases stepped with
      | @waits writer rest left holds more unfailing used shorter =>
          simp only [List.isEmpty_iff]
          by_cases empty : rest = []
          · rw [if_pos empty]
            refine .waits ?_
            simp only [empty, readies, List.countP_nil] at used ⊢
            omega
          · rw [if_neg empty]
            have fewer := shorter.resolve_left empty
            have completed := inductionHypothesis holds unfailing (show rest.length < fuel by omega)
            generalize awaitPoll poll fuel writer rest = returned at completed
            cases completed with
            | waits few => exact .waits (by omega)
            | returns good unfailing later => exact .returns good unfailing (by omega)
      | returns holds unfailing used shorter => exact .returns holds unfailing used

theorem runPoll_completes {poll : Writer → List InnerAnswer → WriteReturn V}
    (step : ∀ {writer needed answers}, held writer needed → Unfailing answers →
      PollStep held good needed answers (poll writer answers))
    {writer : Writer} (holds : held writer needed) (unfailing : Unfailing answers) :
    Completes good needed answers (runPoll poll writer answers) :=
  awaitPoll_completes step holds unfailing (Nat.lt_succ_self _)

end Rules

theorem Unfailing.tail {answer : InnerAnswer} {rest : List InnerAnswer}
    (unfailing : Unfailing (answer :: rest)) : Unfailing rest :=
  fun other member => unfailing other (List.mem_cons_of_mem _ member)

@[simp] theorem readies_pending (rest : List InnerAnswer) :
    readies (.pending :: rest) = readies rest := by
  simp [readies]

@[simp] theorem readies_ready (count : Nat) (rest : List InnerAnswer) :
    readies (.ready count :: rest) = readies rest + 1 := by
  simp [readies]

/-- The loop over a frame writes its next bytes; it stops at the end of the frame, or
where it is pending. -/
theorem writeLoop_cases {frame : List UInt8} {answers : List InnerAnswer} {written : Nat}
    (wire : List UInt8) (unfailing : Unfailing answers) (inside : written ≤ frame.length) :
    ∃ outcome count rest, writeLoop frame answers written wire =
        ⟨outcome, written + count, wire ++ (frame.drop written).take count, rest⟩ ∧
      Unfailing rest ∧ readies answers ≤ readies rest + count ∧
      (outcome = .ready () ∧ written + count = frame.length ∧ rest.length ≤ answers.length ∨
        outcome = .pending ∧ written + count < frame.length ∧
          (rest = [] ∨ rest.length < answers.length)) := by
  induction answers generalizing written wire with
  | nil =>
      rw [writeLoop.eq_def]
      dsimp only
      by_cases whole : frame.length ≤ written
      · rw [if_pos whole]
        exact ⟨_, 0, _, by simp, unfailing, by omega, .inl ⟨rfl, by omega, le_rfl⟩⟩
      · rw [if_neg whole]
        exact ⟨_, 0, _, by simp, unfailing, by omega, .inr ⟨rfl, by omega, .inl rfl⟩⟩
  | cons answer rest inductionHypothesis =>
      rw [writeLoop.eq_def]
      dsimp only
      by_cases whole : frame.length ≤ written
      · rw [if_pos whole]
        exact ⟨_, 0, _, by simp, unfailing, by omega, .inl ⟨rfl, by omega, le_rfl⟩⟩
      · rw [if_neg whole]
        rcases unfailing answer List.mem_cons_self with rfl | ⟨offered, rfl⟩
        · refine ⟨_, 0, rest, by simp, unfailing.tail, by simp,
            .inr ⟨rfl, by omega, .inr ?_⟩⟩
          simp
        · have some : min (offered + 1) (frame.length - written) ≠ 0 := by omega
          simp only [if_neg some]
          have within : written + min (offered + 1) (frame.length - written) ≤
              frame.length := by omega
          generalize min (offered + 1) (frame.length - written) = first at some within
          obtain ⟨outcome, count, left, looped, leftUnfailing, used, ended⟩ :=
            inductionHypothesis (wire ++ (frame.drop written).take first) unfailing.tail within
          refine ⟨outcome, first + count, left, ?_, leftUnfailing, ?_, ?_⟩
          · rw [looped, List.append_assoc, List.take_add, List.drop_drop, Nat.add_assoc]
          · rw [readies_ready]
            omega
          · rcases ended with ⟨done, whole, shorter⟩ | ⟨waiting, inner, shorter⟩
            · exact .inl ⟨done, by omega, by rw [List.length_cons]; omega⟩
            · refine .inr ⟨waiting, by omega, shorter.imp_right fun fewer => ?_⟩
              rw [List.length_cons]
              omega

/-- A flush or a shutdown of the stream below is pending, or takes one answer. -/
theorem pollDone_cases {answers : List InnerAnswer} (unfailing : Unfailing answers) :
    (∃ rest, pollDone answers = (.pending, rest) ∧ Unfailing rest ∧
      readies answers = readies rest ∧
        (rest = [] ∨ rest.length < answers.length)) ∨
      ∃ rest, pollDone answers = (.ready (), rest) ∧ Unfailing rest ∧
        readies answers = readies rest + 1 ∧ rest.length < answers.length := by
  cases answers with
  | nil => exact .inl ⟨[], rfl, unfailing, rfl, .inl rfl⟩
  | cons answer rest =>
      rcases unfailing answer List.mem_cons_self with rfl | ⟨offered, rfl⟩
      · exact .inl ⟨rest, rfl, unfailing.tail, readies_pending rest, .inr (Nat.lt_succ_self _)⟩
      · exact .inr ⟨rest, rfl, unfailing.tail, readies_ready _ rest, Nat.lt_succ_self _⟩

/-- An AEAD that seals every record, adds a tag and opens what it sealed. -/
def Aead.Correct (aead : Aead) : Prop :=
  ∀ key nonce plaintext, plaintext.length ≤ maxPlaintext →
    ∃ ciphertext, aead.encrypt key nonce plaintext = some ciphertext ∧
      ciphertext.length = plaintext.length + tagLen ∧
      aead.decrypt key nonce ciphertext = some plaintext

/-- The ciphertext of the next record of a direction. -/
def DirectionState.ciphertext (aead : Aead) (send : DirectionState) (plaintext : List UInt8) :
    List UInt8 :=
  (aead.encrypt send.key (nonceOf send.dir send.counter) plaintext).getD []

/-- A direction after a number of records. -/
def DirectionState.advance (send : DirectionState) (count : Nat) : DirectionState :=
  { send with counter := send.counter + count }

/-- The frames of records that a direction seals one after the other. -/
def wireOf (aead : Aead) : DirectionState → List (List UInt8) → List UInt8
  | _, [] => []
  | send, record :: records =>
      frameOf (send.ciphertext aead record) ++ wireOf aead (send.advance 1) records

theorem DirectionState.advance_advance (send : DirectionState) (first second : Nat) :
    (send.advance first).advance second = send.advance (first + second) := by
  simp [advance, Nat.add_assoc]

theorem wireOf_append (aead : Aead) (send : DirectionState) (first second : List (List UInt8)) :
    wireOf aead send (first ++ second) =
      wireOf aead send first ++ wireOf aead (send.advance first.length) second := by
  induction first generalizing send with
  | nil => rfl
  | cons record records inductionHypothesis =>
      rw [List.cons_append, wireOf, wireOf, inductionHypothesis, List.append_assoc,
        DirectionState.advance_advance, List.length_cons, Nat.add_comm 1]

section Correct

variable {aead : Aead} (correct : aead.Correct)

include correct

theorem Aead.Correct.ciphertext (send : DirectionState) {plaintext : List UInt8}
    (fits : plaintext.length ≤ maxPlaintext) :
    aead.encrypt send.key (nonceOf send.dir send.counter) plaintext =
        some (send.ciphertext aead plaintext) ∧
      (send.ciphertext aead plaintext).length = plaintext.length + tagLen ∧
      aead.decrypt send.key (nonceOf send.dir send.counter) (send.ciphertext aead plaintext) =
        some plaintext := by
  obtain ⟨text, encrypted, length, decrypted⟩ :=
    correct send.key (nonceOf send.dir send.counter) plaintext fits
  have same : send.ciphertext aead plaintext = text := by
    rw [DirectionState.ciphertext, encrypted]
    rfl
  rw [same]
  exact ⟨encrypted, length, decrypted⟩

theorem Aead.Correct.frame_length (send : DirectionState) {plaintext : List UInt8}
    (fits : plaintext.length ≤ maxPlaintext) :
    (frameOf (send.ciphertext aead plaintext)).length = plaintext.length + 20 := by
  rw [frameOf, List.length_append, Cbor.bigEndian_length,
    (correct.ciphertext send fits).2.1, tagLen]
  omega

/-- Sealing a record that fits succeeds while there are nonces. -/
theorem Aead.Correct.sealRecord {writer : Writer} (nonceLeft : writer.send.counter < counterMax)
    {plaintext : List UInt8} (fits : plaintext.length ≤ maxPlaintext) :
    ∃ encrypted, writer.sealRecord aead plaintext =
      ({ writer with send := writer.send.advance 1, encrypted },
        .ok (writer.send.ciphertext aead plaintext)) := by
  have encrypts := (correct.ciphertext writer.send fits).1
  simp only [Writer.sealRecord, DirectionState.sealRecord, DirectionState.nextNonce,
    if_neg (Nat.ne_of_lt nonceLeft), encrypts]
  exact ⟨_, rfl⟩

end Correct

/-- Between two states of a writer, both between calls, records were sealed and their
frames written. -/
structure Writer.Sent (aead : Aead) (before : Writer) (records : List (List UInt8))
    (after : Writer) : Prop where
  state : after.state = .idle
  send : after.send = before.send.advance records.length
  wire : after.wire = before.wire ++ wireOf aead before.send records

theorem Writer.Sent.trans {aead : Aead} {before middle after : Writer}
    {first second : List (List UInt8)} (earlier : before.Sent aead first middle)
    (later : middle.Sent aead second after) : before.Sent aead (first ++ second) after where
  state := later.state
  send := by
    rw [later.send, earlier.send, DirectionState.advance_advance, List.length_append]
  wire := by
    rw [later.wire, earlier.wire, earlier.send, wireOf_append, List.append_assoc]

/-- A writer in the middle of a frame, with bytes left to write. -/
structure Writer.InFlight (before : Writer) (frame : List UInt8) (consumed : Nat) (writer : Writer)
    (left : Nat) : Prop where
  inside : left ≤ frame.length
  state : writer.state = .writing frame (frame.length - left) consumed
  send : writer.send = before.send.advance 1
  wire : writer.wire = before.wire ++ frame.take (frame.length - left)

/-- The rest of a frame takes one answer for each of its bytes at most. -/
theorem Writer.writeFrame_step {before writer : Writer} {frame : List UInt8} {consumed left : Nat}
    {answers : List InnerAnswer} (inside : left ≤ frame.length)
    (send : writer.send = before.send.advance 1)
    (wire : writer.wire = before.wire ++ frame.take (frame.length - left))
    (unfailing : Unfailing answers) :
    PollStep (before.InFlight frame consumed)
      (fun after value => value = consumed ∧ after.state = .idle ∧
        after.send = before.send.advance 1 ∧ after.wire = before.wire ++ frame) left answers
      (writer.writeFrame frame (frame.length - left) consumed answers) := by
  obtain ⟨outcome, count, rest, looped, restUnfailing, used, ended⟩ :=
    writeLoop_cases writer.wire unfailing (Nat.sub_le frame.length left)
  have taken : writer.wire ++ (frame.drop (frame.length - left)).take count =
      before.wire ++ frame.take (frame.length - left + count) := by
    rw [wire, List.append_assoc, List.take_add]
  simp only [Writer.writeFrame, Writer.driveFrame, looped, taken]
  rcases ended with ⟨rfl, whole, shorter⟩ | ⟨rfl, short, shorter⟩
  · refine .returns ⟨rfl, rfl, send, ?_⟩ restUnfailing (by omega) shorter
    rw [whole, List.take_length]
  · have place : frame.length - left + count = frame.length - (left - count) := by omega
    rw [place]
    exact .waits ⟨by omega, rfl, send, rfl⟩ (by omega) restUnfailing (by omega) shorter

/-- A writer that is about to write a frame, or in the middle of it. -/
def Writer.Underway (before : Writer) (frame : List UInt8) (consumed : Nat) (writer : Writer)
    (left : Nat) : Prop :=
  writer = before ∧ left = frame.length ∨ before.InFlight frame consumed writer left

theorem plaintext_fits {buf : List UInt8} {consumed : Nat}
    (isConsumed : consumed = min buf.length maxPlaintext) :
    (buf.take consumed).length ≤ maxPlaintext := by
  rw [List.length_take]
  omega

section Correct

variable {aead : Aead} (correct : aead.Correct)

include correct

/-- A poll of a slice seals its first record, or goes on with the frame of it. -/
theorem Aead.Correct.pollWrite_step {before writer : Writer}
    {buf : List UInt8} {consumed left : Nat}
    {answers : List InnerAnswer} (isConsumed : consumed = min buf.length maxPlaintext)
    (idle : before.state = .idle) (nonceLeft : before.send.counter < counterMax) (some : buf ≠ [])
    (underway : before.Underway (frameOf (before.send.ciphertext aead (buf.take consumed))) consumed
      writer left) (unfailing : Unfailing answers) :
    PollStep (before.Underway (frameOf (before.send.ciphertext aead (buf.take consumed))) consumed)
      (fun after value => value = consumed ∧ before.Sent aead [buf.take consumed] after)
        left answers
      (writer.pollWriteMachine aead buf answers) := by
  have fits := plaintext_fits isConsumed
  have good : ∀ {after : Writer} {value : Nat}, (value = consumed ∧ after.state = .idle ∧
      after.send = before.send.advance 1 ∧
      after.wire = before.wire ++ frameOf (before.send.ciphertext aead (buf.take consumed))) →
      value = consumed ∧ before.Sent aead [buf.take consumed] after := by
    rintro after value ⟨isValue, state, send, wire⟩
    exact ⟨isValue, state, send, by rw [wire, wireOf, wireOf, List.append_nil]⟩
  rcases underway with ⟨rfl, rfl⟩ | flight
  · obtain ⟨encrypted, sealed⟩ := correct.sealRecord nonceLeft fits
    simp only [Writer.pollWriteMachine, idle, List.isEmpty_iff, if_neg some, ← isConsumed, sealed]
    refine PollStep.mono .inr good ?_
    rw [← Nat.sub_self (frameOf _).length]
    exact Writer.writeFrame_step le_rfl rfl (by simp) unfailing
  · simp only [Writer.pollWriteMachine, flight.state]
    exact PollStep.mono .inr good
      (Writer.writeFrame_step flight.inside flight.send flight.wire unfailing)

/-- A slice whose first record is written. -/
theorem Aead.Correct.pollWrite_completes {before : Writer} {buf : List UInt8} {consumed : Nat}
    {answers : List InnerAnswer} (isConsumed : consumed = min buf.length maxPlaintext)
    (idle : before.state = .idle) (nonceLeft : before.send.counter < counterMax) (some : buf ≠ [])
    (unfailing : Unfailing answers) :
    Completes (fun after value => value = consumed ∧ before.Sent aead [buf.take consumed] after)
      (consumed + 20) answers
      (runPoll (fun writer => writer.pollWriteMachine aead buf) before answers) := by
  have length := correct.frame_length before.send (plaintext_fits isConsumed)
  rw [List.length_take_of_le (by omega)] at length
  refine runPoll_completes (correct.pollWrite_step isConsumed idle nonceLeft some) ?_ unfailing
  exact .inl ⟨rfl, length.symm⟩

end Correct

/-- The number of records in which a slice is written. -/
def recordCount (length : Nat) : Nat := (length + (maxPlaintext - 1)) / maxPlaintext

/-- The records in which a slice is written: none is empty or too long. -/
structure CutInto (buf : List UInt8) (records : List (List UInt8)) : Prop where
  whole : records.flatten = buf
  nonempty : ∀ record ∈ records, record ≠ []
  fits : ∀ record ∈ records, record.length ≤ maxPlaintext

theorem CutInto.append {first second : List UInt8} {records others : List (List UInt8)}
    (left : CutInto first records) (right : CutInto second others) :
    CutInto (first ++ second) (records ++ others) where
  whole := by rw [List.flatten_append, left.whole, right.whole]
  nonempty := by
    intro record member
    rcases List.mem_append.mp member with old | new
    · exact left.nonempty record old
    · exact right.nonempty record new
  fits := by
    intro record member
    rcases List.mem_append.mp member with old | new
    · exact left.fits record old
    · exact right.fits record new

/-- One record more for the first part of a slice. -/
theorem recordCount_succ {length consumed : Nat} (some : 0 < length)
    (isConsumed : consumed = min length maxPlaintext) :
    recordCount length = recordCount (length - consumed) + 1 := by
  simp only [recordCount, maxPlaintext] at isConsumed ⊢
  omega

/-- What a completed write leaves: its slice was sent in records of its own. -/
def Writer.Wrote (aead : Aead) (before : Writer) (buf : List UInt8) (after : Writer) (_ : Unit) :
    Prop :=
  ∃ records, CutInto buf records ∧ records.length = recordCount buf.length ∧
    before.Sent aead records after

/-- An empty slice is written in no record. -/
theorem Writer.wrote_nil (aead : Aead) {before : Writer} (idle : before.state = .idle) :
    before.Wrote aead [] before () :=
  ⟨[], ⟨rfl, by simp, by simp⟩, rfl, idle, rfl, (List.append_nil _).symm⟩

/-- A slice is written if its first record was sent and the rest is written. -/
theorem Writer.Wrote.cons {aead : Aead} {before middle after : Writer} {buf : List UInt8}
    {consumed : Nat} (wrote : middle.Wrote aead (buf.drop consumed) after ())
    (sent : before.Sent aead [buf.take consumed] middle) (nonempty : buf.take consumed ≠ [])
    (fits : (buf.take consumed).length ≤ maxPlaintext)
    (count : recordCount buf.length = recordCount (buf.drop consumed).length + 1) :
    before.Wrote aead buf after () := by
  obtain ⟨records, cut, number, later⟩ := wrote
  have front : CutInto (buf.take consumed) [buf.take consumed] :=
    ⟨by simp, by simpa using nonempty, by simpa using fits⟩
  refine ⟨[buf.take consumed] ++ records, ?_, ?_, sent.trans later⟩
  · have whole := front.append cut
    rwa [List.take_append_drop] at whole
  · rw [List.length_append, number, count, List.length_singleton, Nat.add_comm]

section Correct

variable {aead : Aead} (correct : aead.Correct)

include correct

/-- `write_all` sends its slice. -/
theorem Aead.Correct.writeAllLoop_completes {before : Writer} {buf : List UInt8} {fuel : Nat}
    {answers : List InnerAnswer} (idle : before.state = .idle) (enough : buf.length ≤ fuel)
    (nonces : before.send.counter + recordCount buf.length ≤ counterMax)
    (unfailing : Unfailing answers) :
    Completes (before.Wrote aead buf) (buf.length + 20 * recordCount buf.length) answers
      (writeAllLoop aead fuel before buf answers) := by
  induction fuel generalizing before buf answers with
  | zero =>
      obtain rfl := List.length_eq_zero_iff.mp (Nat.le_zero.mp enough)
      exact .returns (Writer.wrote_nil aead idle) unfailing (by omega)
  | succ fuel inductionHypothesis =>
      cases buf with
      | nil => exact .returns (Writer.wrote_nil aead idle) unfailing (by omega)
      | cons first more =>
          rw [writeAllLoop]
          have some := List.cons_ne_nil first more
          generalize first :: more = buf at *
          have length := List.length_pos_iff.mpr some
          obtain ⟨consumed, isConsumed⟩ : ∃ consumed,
            consumed = min buf.length maxPlaintext :=
            ⟨_, rfl⟩
          have count := recordCount_succ length isConsumed
          have positive : 0 < consumed := by
            rw [isConsumed, maxPlaintext]
            omega
          have polled := correct.pollWrite_completes isConsumed idle (by omega) some unfailing
          generalize runPoll _ before answers = returned at polled
          cases polled with
          | waits few => exact .waits (by omega)
          | @returns middle rest value holds restUnfailing used =>
              obtain ⟨rfl, sent⟩ := holds
              obtain ⟨last, rfl⟩ := Nat.exists_eq_add_one_of_ne_zero (Nat.ne_of_gt positive)
              have counter : middle.send.counter = before.send.counter + 1 := by rw [sent.send]; rfl
              have dropped : (buf.drop (last + 1)).length = buf.length - (last + 1) :=
                List.length_drop
              have completed := inductionHypothesis sent.state
                (show (buf.drop (last + 1)).length ≤ fuel by omega)
                (by rw [dropped]; omega) restUnfailing
              rw [dropped] at completed
              simp only
              generalize writeAllLoop aead fuel middle (buf.drop (last + 1)) rest = returned
                at completed
              cases completed with
              | waits few => exact .waits (by omega)
              | returns wrote unfailing later =>
                  refine .returns (wrote.cons sent ?_ (plaintext_fits isConsumed) ?_) unfailing
                    (by omega)
                  · simpa using some
                  · rw [dropped]
                    exact count

end Correct

/-- A flush between calls takes one answer. -/
theorem flush_completes {before : Writer} {answers : List InnerAnswer} (idle : before.state = .idle)
    (unfailing : Unfailing answers) :
    Completes (fun after _ => after = before) 1 answers
      (runPoll Writer.pollFlushMachine before answers) := by
  have step : ∀ {writer : Writer} {left : Nat} {answers : List InnerAnswer},
      (writer = before ∧ left = 1) → Unfailing answers →
        PollStep (fun writer left => writer = before ∧ left = 1)
        (fun after _ => after = before) left
          answers (writer.pollFlushMachine answers) := by
    rintro writer left answers ⟨rfl, rfl⟩ unfailing
    rcases pollDone_cases unfailing with ⟨rest, polled, fine, used, shorter⟩ |
      ⟨rest, polled, fine, used, shorter⟩
    · simp only [Writer.pollFlushMachine, idle, Writer.flushInner, polled]
      exact .waits ⟨rfl, rfl⟩ Nat.one_pos fine (by omega) shorter
    · simp only [Writer.pollFlushMachine, idle, Writer.flushInner, polled]
      exact .returns rfl fine (by omega) (by omega)
  exact runPoll_completes step ⟨rfl, rfl⟩ unfailing

/-- How far a shutdown has come: the marker is to be sealed, being written, or written
with the stream below to be flushed and shut down. -/
inductive Writer.ShutDown (before : Writer) (frame : List UInt8) : Writer → Nat → Prop where
  | starts : ShutDown before frame before (frame.length + 2)
  | sends {writer : Writer} {left : Nat} (inside : left ≤ frame.length)
      (state : writer.state = .shuttingDown (.sendEofFrame frame (frame.length - left)))
      (wire : writer.wire = before.wire ++ frame.take (frame.length - left)) :
      ShutDown before frame writer (left + 2)
  | flushes {writer : Writer} (state : writer.state = .shuttingDown .flushInner)
      (wire : writer.wire = before.wire ++ frame) : ShutDown before frame writer 2
  | closes {writer : Writer} (state : writer.state = .shuttingDown .shutdownInner)
      (wire : writer.wire = before.wire ++ frame) : ShutDown before frame writer 1

section Shutdown

variable {before writer : Writer} {frame : List UInt8} {answers : List InnerAnswer}

theorem Writer.stageShutdownInner_step (wire : writer.wire = before.wire ++ frame)
    (unfailing : Unfailing answers) :
    PollStep (before.ShutDown frame) (fun after _ => after.wire = before.wire ++ frame) 1 answers
      (writer.stageShutdownInner answers) := by
  rw [stageShutdownInner]
  rcases pollDone_cases unfailing with ⟨rest, polled, fine, used, shorter⟩ |
    ⟨rest, polled, fine, used, shorter⟩
  · rw [polled]
    exact .waits (.closes rfl wire) Nat.one_pos fine (by omega) shorter
  · rw [polled]
    exact .returns wire fine (by omega) (by omega)

theorem Writer.stageFlushInner_step (wire : writer.wire = before.wire ++ frame)
    (unfailing : Unfailing answers) :
    PollStep (before.ShutDown frame) (fun after _ => after.wire = before.wire ++ frame) 2 answers
      (writer.stageFlushInner answers) := by
  rw [stageFlushInner]
  rcases pollDone_cases unfailing with ⟨rest, polled, fine, used, shorter⟩ |
    ⟨rest, polled, fine, used, shorter⟩
  · rw [polled]
    exact .waits (.flushes rfl wire) Nat.two_pos fine (by omega) shorter
  · rw [polled]
    exact (Writer.stageShutdownInner_step wire fine).after used.le shorter.le

theorem Writer.stageSendEofFrame_step {left : Nat} (inside : left ≤ frame.length)
    (wire : writer.wire = before.wire ++ frame.take (frame.length - left))
    (unfailing : Unfailing answers) :
    PollStep (before.ShutDown frame) (fun after _ => after.wire = before.wire ++ frame) (left + 2)
      answers (writer.stageSendEofFrame frame (frame.length - left) answers) := by
  obtain ⟨outcome, count, rest, looped, fine, used, ended⟩ :=
    writeLoop_cases writer.wire unfailing (Nat.sub_le frame.length left)
  have taken : writer.wire ++ (frame.drop (frame.length - left)).take count =
      before.wire ++ frame.take (frame.length - left + count) := by
    rw [wire, List.append_assoc, List.take_add]
  simp only [Writer.stageSendEofFrame, looped, taken]
  rcases ended with ⟨rfl, whole, shorter⟩ | ⟨rfl, short, shorter⟩
  · rw [whole, List.take_length, show left = count by omega, Nat.add_comm]
    exact (Writer.stageFlushInner_step rfl fine).after used shorter
  · have place : frame.length - left + count = frame.length - (left - count) := by omega
    rw [place]
    exact .waits (.sends (by omega) rfl rfl) (by omega) fine (by omega) shorter

/-- A shutdown between calls seals the marker and writes its frame. -/
theorem Aead.Correct.shutdown_completes {aead : Aead} (correct : aead.Correct)
    (idle : before.state = .idle) (nonceLeft : before.send.counter < counterMax)
    (unfailing : Unfailing answers) :
    Completes (fun after _ => after.wire = before.wire ++ wireOf aead before.send [[]]) 22 answers
      (runPoll (Writer.pollShutdownMachine aead) before answers) := by
  have fits : ([] : List UInt8).length ≤ maxPlaintext := Nat.zero_le _
  have length := correct.frame_length before.send fits
  obtain ⟨encrypted, sealed⟩ := correct.sealRecord nonceLeft fits
  rw [wireOf, wireOf, List.append_nil]
  have step : ∀ {writer : Writer} {left : Nat} {answers : List InnerAnswer},
      before.ShutDown (frameOf (before.send.ciphertext aead [])) writer left →
      Unfailing answers →
        PollStep (before.ShutDown (frameOf (before.send.ciphertext aead [])))
          (fun after _ => after.wire = before.wire ++ frameOf (before.send.ciphertext aead [])) left
          answers (writer.pollShutdownMachine aead answers) := by
    intro writer left answers stage unfailing
    cases stage with
    | starts =>
        simp only [Writer.pollShutdownMachine, idle, Writer.startShutdown, sealed]
        rw [← Nat.sub_self (frameOf _).length]
        exact Writer.stageSendEofFrame_step le_rfl (by simp) unfailing
    | sends inside state wire =>
        simp only [Writer.pollShutdownMachine, state]
        exact Writer.stageSendEofFrame_step inside wire unfailing
    | flushes state wire =>
        simp only [Writer.pollShutdownMachine, state]
        exact Writer.stageFlushInner_step wire unfailing
    | closes state wire =>
        simp only [Writer.pollShutdownMachine, state]
        exact Writer.stageShutdownInner_step wire unfailing
  have started := runPoll_completes step .starts unfailing
  rwa [length] at started

end Shutdown

namespace WriteOp

/-- The bytes that an operation sends. -/
def bytes : WriteOp → List UInt8
  | .writeAll buf => buf
  | .flush => []

/-- The records in which it sends them. -/
def records (op : WriteOp) : Nat := recordCount op.bytes.length

/-- A bound on the answers that it needs. -/
def needed : WriteOp → Nat
  | .writeAll buf => buf.length + 20 * recordCount buf.length
  | .flush => 1

end WriteOp

/-- All bytes that a caller sends. -/
def opsBytes (ops : List WriteOp) : List UInt8 := ops.flatMap WriteOp.bytes

/-- The records in which they are sent, without the marker. -/
def opsRecords (ops : List WriteOp) : Nat := (ops.map WriteOp.records).sum

/-- A bound on the answers that all operations and the shutdown need. -/
def opsNeeded (ops : List WriteOp) : Nat := (ops.map WriteOp.needed).sum + 22

section Correct

variable {aead : Aead} (correct : aead.Correct)

include correct

theorem Aead.Correct.runOp_completes {before : Writer} {op : WriteOp} {answers : List InnerAnswer}
    (idle : before.state = .idle) (nonces : before.send.counter + op.records ≤ counterMax)
    (unfailing : Unfailing answers) :
    Completes (fun after _ => ∃ records, CutInto op.bytes records ∧
      records.length = op.records ∧
      before.Sent aead records after) op.needed answers (runOp aead before answers op) := by
  cases op with
  | writeAll buf => exact correct.writeAllLoop_completes idle le_rfl nonces unfailing
  | flush =>
      have flushed := flush_completes idle unfailing
      rw [runOp]
      generalize runPoll Writer.pollFlushMachine before answers = returned at flushed
      cases flushed with
      | waits few => exact .waits few
      | returns same fine used =>
          subst same
          exact .returns (Writer.wrote_nil aead idle) fine used

/-- The operations send their bytes. -/
theorem Aead.Correct.runOps_completes (before : Writer) (ops : List WriteOp)
    {answers : List InnerAnswer} (idle : before.state = .idle)
    (nonces : before.send.counter + opsRecords ops ≤ counterMax) (unfailing : Unfailing answers) :
    Completes (fun after _ => ∃ records, CutInto (opsBytes ops) records ∧
      records.length = opsRecords ops ∧ before.Sent aead records after)
      (ops.map WriteOp.needed).sum answers (runOps aead ops before answers) := by
  induction ops generalizing before answers with
  | nil =>
      exact .returns ⟨[], ⟨rfl, by simp, by simp⟩, rfl, idle, rfl,
        (List.append_nil _).symm⟩ unfailing (by omega)
  | cons op ops inductionHypothesis =>
      simp only [opsRecords, opsBytes, List.map_cons, List.sum_cons, List.flatMap_cons] at *
      have first := correct.runOp_completes idle
        (show before.send.counter + op.records ≤ counterMax by omega) unfailing
      rw [runOps]
      generalize runOp aead before answers op = returned at first
      cases first with
      | waits few => exact .waits (by omega)
      | @returns middle rest _ holds fine used =>
          obtain ⟨records, cut, number, sent⟩ := holds
          have counter : middle.send.counter = before.send.counter + op.records := by
            rw [sent.send, ← number]
            rfl
          have later := inductionHypothesis middle sent.state (show _ ≤ counterMax by omega) fine
          simp only
          generalize runOps aead ops middle rest = returned at later
          cases later with
          | waits few => exact .waits (by omega)
          | returns holds fine laterUsed =>
              obtain ⟨others, otherCut, otherNumber, otherSent⟩ := holds
              refine .returns ⟨records ++ others, cut.append otherCut, ?_,
                sent.trans otherSent⟩ fine (by omega)
              rw [List.length_append, number, otherNumber]

/-- The whole stream is sent and ends with the marker. -/
theorem Aead.Correct.sendStream_completes (before : Writer) (ops : List WriteOp)
    {answers : List InnerAnswer} (idle : before.state = .idle)
    (nonces : before.send.counter + opsRecords ops < counterMax) (unfailing : Unfailing answers) :
    Completes (fun after _ => ∃ records, CutInto (opsBytes ops) records ∧
      records.length = opsRecords ops ∧
      after.wire = before.wire ++ wireOf aead before.send (records ++ [[]]))
      (opsNeeded ops) answers (sendStream aead ops before answers) := by
  have written := correct.runOps_completes before ops idle nonces.le unfailing
  rw [sendStream, opsNeeded]
  generalize runOps aead ops before answers = returned at written
  cases written with
  | waits few => exact .waits (by omega)
  | @returns middle rest _ holds fine used =>
      obtain ⟨records, cut, number, sent⟩ := holds
      have counter : middle.send.counter = before.send.counter + opsRecords ops := by
        rw [sent.send, ← number]
        rfl
      have closed := correct.shutdown_completes sent.state (by omega) fine
      simp only
      generalize runPoll (Writer.pollShutdownMachine aead) middle rest = returned at closed
      cases closed with
      | waits few => exact .waits (by omega)
      | returns wire fine laterUsed =>
          refine .returns ⟨records, cut, number, ?_⟩ fine (by omega)
          rw [wire, sent.wire, sent.send, wireOf_append, List.append_assoc]

end Correct

end CofreSoberano.Transport
