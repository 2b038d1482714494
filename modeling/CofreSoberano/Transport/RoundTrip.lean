import CofreSoberano.Transport.Receiving

/-!
# Round trip of a stream

The peer reads a stream that was sent: whatever chunks the wire bytes arrive in and
whatever buffers they are read into, the bytes that were written are delivered, and
then the end of stream.
-/

namespace CofreSoberano.Transport

open CofreSoberano.Std

section Wire

variable {aead : Aead} (correct : aead.Correct)

/-- A frame that was sent is the next one. -/
theorem nextFrame_frameOf {text : List UInt8} (rest : List UInt8) (some : 0 < text.length)
    (capped : text.length ≤ readBodyHardCap) :
    nextFrame (frameOf text ++ rest) = .whole text rest := by
  have number : text.length < 256 ^ 4 := Nat.lt_of_le_of_lt capped (by decide)
  have cut := nextFrame_header (text ++ rest) (Cbor.bigEndian_length 4 text.length)
  rw [Cbor.ofBigEndian_bigEndian number] at cut
  rw [frameOf, List.append_assoc, cut]
  simp only [if_neg (Nat.ne_of_gt some), if_neg (Nat.not_lt.mpr capped)]
  rw [if_neg (by rw [List.length_append]; omega), List.take_left, List.drop_left]

include correct in
/-- A record that was sealed opens again. -/
theorem openRecord_ciphertext {recv : DirectionState} {record : List UInt8}
    (fits : record.length ≤ maxPlaintext) (nonce : recv.counter ≠ counterMax) :
    recv.openRecord aead (recv.ciphertext aead record) = (recv.advance 1, .ok record) := by
  simp only [DirectionState.openRecord, DirectionState.nextNonce, if_neg nonce,
    (correct.ciphertext _ fits).2.2]
  rfl

include correct in
/-- What is in the frames of records and of the marker after them. -/
theorem decodes_wireOf {recv : DirectionState} {records : List (List UInt8)}
    (nonempty : ∀ record ∈ records, record ≠ [])
    (fits : ∀ record ∈ records, record.length ≤ maxPlaintext)
    (nonces : recv.counter + records.length < counterMax) :
    ∃ last, Decodes aead recv (wireOf aead recv (records ++ [[]])) records .marker last last := by
  have cut : ∀ (recv : DirectionState) (record rest : List UInt8),
      record.length ≤ maxPlaintext → nextFrame (frameOf (recv.ciphertext aead record) ++ rest) =
        .whole (recv.ciphertext aead record) rest := by
    intro recv record rest short
    have length := (correct.ciphertext recv short).2.1
    refine nextFrame_frameOf rest ?_ ?_
    · rw [length, tagLen]
      omega
    · rw [length, readBodyHardCap]
      omega
  induction records generalizing recv with
  | nil =>
      refine ⟨recv.advance 1, .marker (cut recv [] _ (Nat.zero_le _)) ?_⟩
      rw [openFrame, openRecord_ciphertext correct (Nat.zero_le _) (Nat.ne_of_lt nonces)]
  | cons record records inductionHypothesis =>
      have short := fits record List.mem_cons_self
      have counter : recv.counter ≠ counterMax := by
        rw [List.length_cons] at nonces
        omega
      obtain ⟨last, later⟩ := @inductionHypothesis (recv.advance 1)
        (fun other member => nonempty other (List.mem_cons_of_mem _ member))
        (fun other member => fits other (List.mem_cons_of_mem _ member))
        (by
          simp only [DirectionState.advance, List.length_cons] at nonces ⊢
          omega)
      refine ⟨last, .record (cut recv record _ short) ?_ later⟩
      obtain ⟨first, more, rfl⟩ :=
        List.exists_cons_of_ne_nil (nonempty record List.mem_cons_self)
      rw [openFrame, openRecord_ciphertext correct short counter]
      simp only [if_neg (Nat.not_lt.mpr short)]

end Wire

/-- A stream that was sent is read back: sending is still pending only if there were
too few answers; once it is done, whatever the chunks and the buffers, reading is still
going on only if there were too few polls, and otherwise it delivered every byte and
then the end. -/
def RoundTrips (aead : Aead) (send : DirectionState) (ops : List WriteOp)
    (answers : List InnerAnswer) : Prop :=
  let sent := sendStream aead ops (.new send) answers
  (sent.result = .pending ∧ readies answers < opsNeeded ops) ∨
    sent.result = .ready () ∧ ∀ script caps after, Carries script sent.writer.wire after →
      (∀ cap ∈ caps, cap ≠ 0) →
      (caps.length ≤ pendings script + (opsBytes ops).length ∧ ∃ reader delivered,
          readToEnd aead caps (.new script send) [] = .reading reader delivered ∧
            delivered <+: opsBytes ops) ∨
        readToEnd aead caps (.new script send) [] = .ended (opsBytes ops)

/-- Every stream makes the round trip if its records and the marker find nonces. -/
theorem stream_round_trip {aead : Aead} (correct : aead.Correct) (send : DirectionState)
    (ops : List WriteOp) (answers : List InnerAnswer) (unfailing : Unfailing answers)
    (nonces : send.counter + opsRecords ops + 1 ≤ counterMax) :
    RoundTrips aead send ops answers := by
  have sent := correct.sendStream_completes (.new send) ops rfl nonces unfailing
  simp only [RoundTrips]
  generalize sendStream aead ops (.new send) answers = returned at sent
  cases sent with
  | waits few => exact .inl ⟨rfl, few⟩
  | returns holds fine used =>
      obtain ⟨records, cut, number, wire⟩ := holds
      refine .inr ⟨rfl, ?_⟩
      intro script caps after carries room
      rw [wire] at carries
      obtain ⟨last, decodes⟩ := decodes_wireOf correct cut.nonempty cut.fits (number ▸ nonces)
      have follows : (Reader.new script send).Follows aead .marker last (opsBytes ops) := by
        rw [← cut.whole]
        exact .idle rfl ⟨_, after, last, carries, fun unmarked => absurd rfl unmarked, decodes⟩
      rcases readToEnd_follows follows room [] with reading | run
      · exact .inl reading
      · refine .inr ?_
        generalize readToEnd aead caps (.new script send) [] = result at run
        cases run with
        | ended => rfl
        | failed broken => exact absurd rfl broken

theorem tagAead_correct : tagAead.Correct := by
  intro key nonce plaintext _
  refine ⟨_, rfl, by simp [tagLen], ?_⟩
  simp [tagAead]

/-- A direction of the transparent session. -/
def plainSend : DirectionState := .new (.replicate 32 1) dirC2s

/-- Two bytes, a flush and a third byte, over a stream that takes them in pieces. -/
theorem stream_round_trip_hi :
    let ops : List WriteOp := [.writeAll [104, 105], .flush, .writeAll [33]]
    let answers : List InnerAnswer := [.ready 3, .pending, .ready 99, .ready 1, .pending, .ready 7,
      .ready 99, .ready 99, .pending, .ready 1, .ready 1]
    (sendStream tagAead ops (.new plainSend) answers).result = .ready () ∧
      RoundTrips tagAead plainSend ops answers := by
  intro ops answers
  refine ⟨by decide +kernel, ?_⟩
  refine stream_round_trip tagAead_correct plainSend ops answers ?_ (by decide +kernel)
  intro answer member
  simp only [answers, List.mem_cons, List.not_mem_nil, or_false] at member
  rcases member with rfl | rfl | rfl | rfl | rfl | rfl | rfl | rfl | rfl | rfl | rfl <;> simp

/-- Without a nonce for the marker a shutdown fails. -/
theorem shutdown_overflow (aead : Aead) {writer : Writer} (idle : writer.state = .idle)
    (overflow : writer.send.counter = counterMax) (answers : List InnerAnswer) :
    (runPoll (Writer.pollShutdownMachine aead) writer answers).result =
      .failed ⟨.other, Error.nonceOverflow.display⟩ := by
  simp only [runPoll, awaitPoll, Writer.pollShutdownMachine, idle, Writer.startShutdown,
    Writer.sealRecord_overflow overflow, Writer.fail]

/-- One-byte writes. -/
def byteWrites (count : Nat) : List WriteOp := List.replicate count (.writeAll [0])

theorem byteWrites_records (count : Nat) : opsRecords (byteWrites count) = count := by
  have one : (WriteOp.writeAll [0]).records = 1 := by decide
  rw [opsRecords, byteWrites, List.map_replicate, one]
  simp

/-- A stream below that takes every byte by itself. -/
def byteAnswers (count : Nat) : List InnerAnswer := List.replicate count (.ready 1)

theorem byteAnswers_unfailing (count : Nat) : Unfailing (byteAnswers count) :=
  fun _ member => .inr ⟨0, List.eq_of_mem_replicate member⟩

theorem byteAnswers_readies (count : Nat) : readies (byteAnswers count) = count := by
  simp [readies, byteAnswers, List.countP_replicate]

/-- A stream of as many records as there are nonces fails. -/
theorem sendStream_overflow {aead : Aead} (correct : aead.Correct) (send : DirectionState)
    (ops : List WriteOp) {answers : List InnerAnswer} (unfailing : Unfailing answers)
    (exhausted : send.counter + opsRecords ops = counterMax)
    (plenty : opsNeeded ops ≤ readies answers) :
    (sendStream aead ops (.new send) answers).result =
      .failed ⟨.other, Error.nonceOverflow.display⟩ := by
  have written := correct.runOps_completes (.new send) ops rfl exhausted.le unfailing
  rw [sendStream]
  generalize runOps aead ops (.new send) answers = returned at written
  cases written with
  | waits few =>
      rw [opsNeeded] at plenty
      omega
  | @returns middle rest _ holds fine used =>
      obtain ⟨records, cut, number, sent⟩ := holds
      have overflow : middle.send.counter = counterMax := by
        rw [sent.send, ← exhausted, ← number]
        rfl
      exact shutdown_overflow aead sent.state overflow rest

/-- A stream that uses up all nonces does not make the round trip, although the stream
below takes every byte. -/
theorem stream_round_trip_exhausted :
    ¬ RoundTrips tagAead plainSend (byteWrites counterMax)
      (byteAnswers (opsNeeded (byteWrites counterMax))) := by
  have exhausted : plainSend.counter + opsRecords (byteWrites counterMax) = counterMax := by
    rw [byteWrites_records]
    exact Nat.zero_add counterMax
  have failed := sendStream_overflow tagAead_correct plainSend (byteWrites counterMax)
    (byteAnswers_unfailing (opsNeeded (byteWrites counterMax))) exhausted (byteAnswers_readies _).ge
  rintro (⟨pending, _⟩ | ⟨ready, _⟩)
  · rw [failed] at pending
    cases pending
  · rw [failed] at ready
    cases ready

end CofreSoberano.Transport
