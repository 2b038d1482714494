import CofreSoberano.Transport.Nonces

/-!
# Accounting for written bytes

A ledger of the polls on the sending half of a stream: which writes were accepted
with which count, and which are still pending. What was sealed is what was accepted,
and at most the record of a pending write, as long as a caller that has a write
pending goes on with the same bytes and lets the write itself finish its frame.
`poll_write` cannot tell one buffer from another, and `poll_flush` finishes a frame
without anyone being told.
-/

namespace CofreSoberano.Transport

open CofreSoberano.Std

/-- The plaintexts that were sealed, oldest first. -/
def Writer.sealedTexts (aead : Aead) (writer : Writer) : List (List UInt8) :=
  (writer.encrypted.filter fun call =>
    (aead.encrypt call.key call.nonce call.plaintext).isSome).map Encryption.plaintext

/-- The bytes of a buffer that one `poll_write` seals. -/
def recordText (buf : List UInt8) : List UInt8 := buf.take (min buf.length maxPlaintext)

/-- A poll of the sending half, with the answers of the stream below. -/
inductive WriteCall where
  | write (buf : List UInt8) (answers : List InnerAnswer)
  | flush (answers : List InnerAnswer)
  | shutdown (answers : List InnerAnswer)
deriving DecidableEq

/-- A writer and the account of its caller, oldest first: the buffers of the writes that
returned `Ready(Ok(n))` with their counts, of the writes that are pending since, and
of those that ended in an error. -/
structure Ledger where
  writer : Writer
  accepted : List (List UInt8 × Nat)
  waiting : List (List UInt8)
  ended : List (List UInt8)
deriving DecidableEq

namespace Ledger

/-- Enter the result of a write. -/
def record (ledger : Ledger) (buf : List UInt8) (returned : WriteReturn Nat) : Ledger :=
  match returned.result with
  | .pending => { ledger with writer := returned.writer, waiting := ledger.waiting ++ [buf] }
  | .ready count =>
      { ledger with
        writer := returned.writer
        accepted := ledger.accepted ++ [(buf, count)]
        waiting := [] }
  | .failed _ =>
      { ledger with
        writer := returned.writer
        waiting := []
        ended := ledger.ended ++ ledger.waiting ++ [buf] }

/-- One poll. -/
def poll (aead : Aead) (ledger : Ledger) : WriteCall → Ledger
  | .write buf answers => ledger.record buf (ledger.writer.pollWriteMachine aead buf answers)
  | .flush answers => { ledger with writer := (ledger.writer.pollFlushMachine answers).writer }
  | .shutdown answers =>
      { ledger with writer := (ledger.writer.pollShutdownMachine aead answers).writer }

/-- The bytes that the caller was told are accepted. -/
def acceptedBytes (ledger : Ledger) : List UInt8 :=
  ledger.accepted.flatMap fun (buf, count) => buf.take count

/-- No write returned more than it was given, and what was sealed is what was accepted
and at most one record, which is that of a write that has not returned `Ready(Ok(n))`:
it is pending, unless it ended in an error. -/
structure Accounted (aead : Aead) (ledger : Ledger) : Prop where
  counts : ∀ entry ∈ ledger.accepted, entry.2 ≤ entry.1.length
  texts : ∃ rest : List (List UInt8),
    (ledger.writer.sealedTexts aead).flatten = ledger.acceptedBytes ++ rest.flatten ∧
      rest.length ≤ 1 ∧ ∀ text ∈ rest, ∃ buf ∈ ledger.waiting ++ ledger.ended,
      text = recordText buf

/-- A write is made while another is pending only if the frame of that one is still in
flight, and then with the same bytes, unless the frame stays unfinished. -/
def continues (ledger : Ledger) : WriteCall → Bool
  | .write buf answers =>
      match ledger.waiting, ledger.writer.state with
      | first :: _, .writing frame written _ =>
          (recordText first).isPrefixOf buf ||
            (writeLoop frame answers written ledger.writer.wire).outcome ≠ .ready ()
      | _ :: _, .idle => false
      | _, _ => true
  | _ => true

/-- The admission of calls that continue a pending write. -/
def Continues (ledger : Ledger) (call : WriteCall) : Prop := ledger.continues call = true

end Ledger

/-- The polls on a fresh sending half. -/
def writeMachine (aead : Aead) : Machine where
  State := Ledger
  Label := WriteCall
  Initial ledger :=
  ∃ send, ledger = { writer := .new send, accepted := [], waiting := [], ended := [] }
  step ledger call := some (ledger.poll aead call)

namespace Writer

variable {aead : Aead} {writer next : Writer}

theorem SameSeals.sealedTexts {before after : Writer} (same : before.SameSeals after)
    (aead : Aead) : after.sealedTexts aead = before.sealedTexts aead := by
  simp only [Writer.sealedTexts, same.encrypted]

/-- A seal that succeeds adds its plaintext; one that fails adds nothing. -/
theorem sealRecord_sealedTexts {plaintext : List UInt8} {outcome : Except Error (List UInt8)}
    (attempted : writer.sealRecord aead plaintext = (next, outcome)) :
    next.sealedTexts aead = writer.sealedTexts aead ++ if outcome.isOk then [plaintext]
      else [] := by
  have recorded : next.encrypted = writer.encrypted ++ writer.send.encryptions plaintext := by
    have := congrArg (fun returned => returned.1.encrypted) attempted
    simpa [sealRecord] using this.symm
  have answered : outcome = (writer.send.sealRecord aead plaintext).2 := by
    have := congrArg Prod.snd attempted
    simpa [sealRecord] using this.symm
  simp only [sealedTexts, recorded, List.filter_append, List.map_append, List.append_cancel_left_eq,
    answered, DirectionState.sealRecord, DirectionState.encryptions]
  rcases drawn : writer.send.nextNonce with ⟨moved, failure | nonce⟩
  · simp [Except.isOk, Except.toBool]
  · cases sealed : aead.encrypt writer.send.key nonce plaintext with
    | none => simp [sealed, Except.isOk, Except.toBool]
    | some ciphertext => simp [sealed, Except.isOk, Except.toBool]

/-- A flush seals nothing and leaves the machine where it was, or moves on a frame in
flight. -/
theorem pollFlushMachine_moves (writer : Writer) (answers : List InnerAnswer) :
    writer.SameSeals (writer.pollFlushMachine answers).writer ∧
      ((writer.pollFlushMachine answers).writer.state = writer.state ∨
        ∃ frame written consumed, writer.state = .writing frame written consumed ∧
          ((∃ further, (writer.pollFlushMachine answers).writer.state =
              .writing frame further consumed) ∨
            (writer.pollFlushMachine answers).writer.state = .closed ∨
            (writer.pollFlushMachine answers).writer.state = .idle)) := by
  simp only [pollFlushMachine]
  split
  · rename_i frame written consumed inFlight
    simp only [driveFrame]
    split
    · exact ⟨⟨rfl, rfl⟩, .inr ⟨frame, written, consumed, inFlight, .inl ⟨_, rfl⟩⟩⟩
    · exact ⟨⟨rfl, rfl⟩, .inr ⟨frame, written, consumed, inFlight, .inr (.inl rfl)⟩⟩
    · exact ⟨⟨rfl, rfl⟩, .inr ⟨frame, written, consumed, inFlight, .inr (.inr rfl)⟩⟩
  · exact ⟨⟨rfl, rfl⟩, .inl rfl⟩

/-- The writer takes no further writes. -/
def Ending (writer : Writer) : Prop :=
    writer.state = .closed ∨ ∃ stage, writer.state = .shuttingDown stage

theorem stageShutdownInner_ending (answers : List InnerAnswer) :
    (writer.stageShutdownInner answers).writer.Ending := by
  simp only [stageShutdownInner]
  split
  · exact .inr ⟨_, rfl⟩
  · exact .inl rfl

theorem stageFlushInner_ending (answers : List InnerAnswer) :
    (writer.stageFlushInner answers).writer.Ending := by
  simp only [stageFlushInner]
  split
  · exact .inr ⟨_, rfl⟩
  · exact .inl rfl
  · exact stageShutdownInner_ending _

theorem stageSendEofFrame_ending (frame : List UInt8) (written : Nat) (answers : List InnerAnswer) :
    (writer.stageSendEofFrame frame written answers).writer.Ending := by
  simp only [stageSendEofFrame]
  split
  · exact .inr ⟨_, rfl⟩
  · exact .inl rfl
  · exact stageFlushInner_ending _

/-- The end-of-stream marker adds no bytes to what was sealed. -/
theorem startShutdown_ends (aead : Aead) (writer : Writer) (answers : List InnerAnswer) :
    (writer.startShutdown aead answers).writer.Ending ∧
      ((writer.startShutdown aead answers).writer.sealedTexts aead).flatten =
        (writer.sealedTexts aead).flatten := by
  simp only [startShutdown]
  split
  · rename_i failure attempted
    have texts := sealRecord_sealedTexts attempted
    simp only [Except.isOk, Except.toBool, Bool.false_eq_true, if_false, List.append_nil] at texts
    exact ⟨.inl rfl, congrArg List.flatten texts⟩
  · rename_i attempted
    refine ⟨stageSendEofFrame_ending _ _ _, ?_⟩
    rw [(stageSendEofFrame_sameSeals _ _ _ _).sealedTexts aead, sealRecord_sealedTexts attempted]
    simp [Except.isOk, Except.toBool]

/-- A shutdown adds no bytes to what was sealed. It leaves a frame in flight, or no
further writes are taken. -/
theorem pollShutdownMachine_moves (aead : Aead) (writer : Writer) (answers : List InnerAnswer) :
    ((writer.pollShutdownMachine aead answers).writer.sealedTexts aead).flatten =
        (writer.sealedTexts aead).flatten ∧
      ((writer.pollShutdownMachine aead answers).writer.Ending ∨
        ∃ frame written consumed further, writer.state = .writing frame written consumed ∧
          (writer.pollShutdownMachine aead answers).writer.state = .writing frame
            further consumed) := by
  simp only [pollShutdownMachine]
  split
  · rename_i closed
    exact ⟨rfl, .inl (.inl closed)⟩
  · rename_i frame written consumed inFlight
    simp only [driveFrame]
    split
    · exact ⟨rfl, .inr ⟨frame, written, consumed, _, inFlight, rfl⟩⟩
    · exact ⟨rfl, .inl (.inl rfl)⟩
    · obtain ⟨ending, texts⟩ := startShutdown_ends aead
        { writer with wire := (writeLoop frame answers written writer.wire).wire, state := .idle }
        (writeLoop frame answers written writer.wire).answers
      exact ⟨texts, .inl ending⟩
  · obtain ⟨ending, texts⟩ := startShutdown_ends aead writer answers
    exact ⟨texts, .inl ending⟩
  · exact ⟨by rw [(stageSendEofFrame_sameSeals _ _ _ _).sealedTexts aead],
      .inl (stageSendEofFrame_ending _ _ _)⟩
  · exact ⟨by rw [(stageFlushInner_sameSeals _ _).sealedTexts aead],
      .inl (stageFlushInner_ending _)⟩
  · exact ⟨by rw [(stageShutdownInner_sameSeals _ _).sealedTexts aead],
      .inl (stageShutdownInner_ending _)⟩

end Writer

namespace Ledger

variable {aead : Aead} {ledger : Ledger}

/-- Where the ledger stands, and the record that was sealed and not accepted. -/
inductive Phase (ledger : Ledger) : List (List UInt8) → Prop where
  | clear (idle : ledger.writer.state = .idle) (none : ledger.waiting = []) : Phase ledger []
  | held {first : List UInt8} (head : ledger.waiting.head? = some first)
      (state : ledger.writer.state = .idle ∨
        ∃ frame written, ledger.writer.state = .writing frame written (recordText first).length) :
      Phase ledger [recordText first]
  | closing {rest : List (List UInt8)} (ending : ledger.writer.Ending) (single : rest.length ≤ 1)
      (sources : ∀ text ∈ rest, ∃ buf ∈ ledger.waiting ++ ledger.ended,
        text = recordText buf) :
      Phase ledger rest

/-- The invariant of the polls: no count is too large, and the phase accounts for what
was sealed. -/
structure Sound (aead : Aead) (ledger : Ledger) : Prop where
  counts : ∀ entry ∈ ledger.accepted, entry.2 ≤ entry.1.length
  texts : ∃ rest, (ledger.writer.sealedTexts aead).flatten =
    ledger.acceptedBytes ++ rest.flatten ∧ ledger.Phase rest

theorem Sound.accounted (sound : ledger.Sound aead) : ledger.Accounted aead := by
  obtain ⟨counts, rest, texts, phase⟩ := sound
  refine ⟨counts, rest, texts, ?_⟩
  cases phase with
  | clear idle none => simp
  | @held first head state =>
      refine ⟨by simp, ?_⟩
      intro text member
      rw [List.mem_singleton] at member
      exact ⟨first, List.mem_append_left _ (List.mem_of_head? head), member⟩
  | closing ending single sources => exact ⟨single, sources⟩

/-- A ledger whose writer takes no further writes accounts for one record at most. -/
theorem Phase.ends {rest : List (List UInt8)} (phase : ledger.Phase rest) {writer : Writer}
    (ending : writer.Ending) : Phase { ledger with writer } rest := by
  cases phase with
  | clear idle none => exact .closing ending (by simp) (by simp)
  | @held first head state =>
      refine .closing ending (by simp) ?_
      intro text member
      rw [List.mem_singleton] at member
      exact ⟨first, List.mem_append_left _ (List.mem_of_head? head), member⟩
  | closing _ single sources => exact .closing ending single sources

/-- A frame in flight that stays in flight is that of the same write. -/
theorem Phase.drives {rest : List (List UInt8)} (phase : ledger.Phase rest) {writer : Writer}
    {frame : List UInt8} {written consumed further : Nat}
    (before : ledger.writer.state = .writing frame written consumed)
    (after : writer.state = .writing frame further consumed) :
    Phase { ledger with writer } rest := by
  cases phase with
  | clear idle none => simp [idle] at before
  | @held first head state =>
      rcases state with idle | ⟨sealed, progress, inFlight⟩
      · simp [idle] at before
      · rw [inFlight] at before
        cases before
        exact .held head (.inr ⟨_, _, after⟩)
  | closing ending _ _ =>
      rcases ending with closed | ⟨stage, shutting⟩
      · simp [closed] at before
      · simp [shutting] at before

/-- A flush seals nothing. A frame that it finishes stays the one of the pending write. -/
theorem Sound.flush (sound : ledger.Sound aead) (answers : List InnerAnswer) :
    Sound aead (ledger.poll aead (.flush answers)) := by
  obtain ⟨counts, rest, texts, phase⟩ := sound
  obtain ⟨same, moves⟩ := ledger.writer.pollFlushMachine_moves answers
  refine ⟨counts, rest, ?_, ?_⟩
  · change ((ledger.writer.pollFlushMachine answers).writer.sealedTexts aead).flatten = _
    rw [same.sealedTexts aead]
    exact texts
  · simp only [poll]
    rcases moves with stays | ⟨frame, written, consumed, inFlight,
      ⟨further, drives⟩ | closed | idle⟩
    · cases phase with
      | clear idle none => exact .clear (stays.trans idle) none
      | held head state =>
          refine .held head ?_
          rw [← stays] at state
          exact state
      | closing ending single sources =>
          refine .closing ?_ single sources
          simp only [Writer.Ending] at ending ⊢
          rw [stays]
          exact ending
    · exact phase.drives inFlight drives
    · exact phase.ends (.inl closed)
    · cases phase with
      | clear wasIdle none => simp [wasIdle] at inFlight
      | held head state => exact .held head (.inl idle)
      | closing ending _ _ =>
          rcases ending with closed | ⟨stage, shutting⟩
          · simp [closed] at inFlight
          · simp [shutting] at inFlight

/-- A shutdown seals the marker, which has no bytes. -/
theorem Sound.shutdown (sound : ledger.Sound aead) (answers : List InnerAnswer) :
    Sound aead (ledger.poll aead (.shutdown answers)) := by
  obtain ⟨counts, rest, texts, phase⟩ := sound
  obtain ⟨same, moves⟩ := ledger.writer.pollShutdownMachine_moves aead answers
  refine ⟨counts, rest, same.trans texts, ?_⟩
  rcases moves with ending | ⟨frame, written, consumed, further, inFlight, drives⟩
  · exact phase.ends ending
  · exact phase.drives inFlight drives

/-- An accepted write adds the bytes that it counts. -/
theorem acceptedBytes_record (ledger : Ledger) (buf : List UInt8) (writer : Writer)
    (answers : List InnerAnswer) (count : Nat) :
    (ledger.record buf ⟨writer, answers, .ready count⟩).acceptedBytes =
      ledger.acceptedBytes ++ buf.take count := by
  simp [record, acceptedBytes]

/-- A write that ends in an error ends the pending ones with it. -/
theorem Sound.refuses (counts : ∀ entry ∈ ledger.accepted, entry.2 ≤ entry.1.length)
    (rest : List (List UInt8)) {writer : Writer} {answers : List InnerAnswer} {error : IoError}
    {buf : List UInt8} (ending : writer.Ending)
    (texts : (writer.sealedTexts aead).flatten = ledger.acceptedBytes ++ rest.flatten)
    (single : rest.length ≤ 1)
    (sources : ∀ text ∈ rest, ∃ source ∈ ledger.waiting ++ ledger.ended ++ [buf],
      text = recordText source) :
    Sound aead (ledger.record buf ⟨writer, answers, .failed error⟩) := by
  refine ⟨counts, rest, texts, .closing ending single ?_⟩
  intro text member
  obtain ⟨source, listed, same⟩ := sources text member
  refine ⟨source, ?_, same⟩
  simp only [record, List.nil_append, List.mem_append] at listed ⊢
  tauto

/-- Driving the frame of the first pending write, or of a write that has just sealed
it. The write that finishes it has the same bytes. -/
theorem Sound.drives (counts : ∀ entry ∈ ledger.accepted, entry.2 ≤ entry.1.length)
    {writer : Writer} {frame buf first : List UInt8} {written : Nat} {answers : List InnerAnswer}
    (texts : (writer.sealedTexts aead).flatten = ledger.acceptedBytes ++ recordText first)
    (head : (ledger.waiting ++ [buf]).head? = some first)
    (same : (writeLoop frame answers written writer.wire).outcome = .ready () →
      recordText first <+: buf) :
    Sound aead
      (ledger.record buf (writer.writeFrame frame written (recordText first).length answers)) := by
  simp only [Writer.writeFrame, Writer.driveFrame]
  split
  · refine ⟨counts, [recordText first], ?_, .held head (.inr ⟨_, _, rfl⟩)⟩
    rw [List.flatten_singleton]
    exact texts
  · refine Sound.refuses counts [recordText first] (.inl rfl) ?_ (by simp) ?_
    · rw [List.flatten_singleton]
      exact texts
    · intro text member
      rw [List.mem_singleton] at member
      refine ⟨first, ?_, member⟩
      have listed := List.mem_of_head? head
      simp only [List.mem_append] at listed ⊢
      tauto
  · rename_i finished
    obtain ⟨more, whole⟩ := same finished
    refine ⟨?_, [], ?_, .clear rfl rfl⟩
    · intro entry member
      simp only [record, List.mem_append, List.mem_singleton] at member
      rcases member with old | rfl
      · exact counts entry old
      · simp [← whole]
    · rw [acceptedBytes_record, List.flatten_nil, List.append_nil]
      have taken : buf.take (recordText first).length = recordText first := by
        rw [← whole, List.take_left']
        rfl
      rw [taken]
      exact texts

/-- A write of a caller that goes on with a pending write. -/
theorem Sound.write (sound : ledger.Sound aead) {buf : List UInt8} {answers : List InnerAnswer}
    (continues : ledger.Continues (.write buf answers)) :
    Sound aead (ledger.poll aead (.write buf answers)) := by
  obtain ⟨counts, rest, texts, phase⟩ := sound
  simp only [poll, Writer.pollWriteMachine]
  cases phase with
  | closing ending single sources =>
      have refused : ∀ text ∈ rest, ∃ source ∈ ledger.waiting ++ ledger.ended ++ [buf],
          text = recordText source := by
        intro text member
        obtain ⟨source, listed, same⟩ := sources text member
        exact ⟨source, List.mem_append_left _ listed, same⟩
      rcases ending with closed | ⟨stage, shutting⟩
      · simp only [closed]
        exact Sound.refuses counts rest (.inl closed) texts single refused
      · simp only [shutting]
        exact Sound.refuses counts rest (.inr ⟨stage, shutting⟩) texts single refused
  | clear idle none =>
      rw [List.flatten_nil, List.append_nil] at texts
      simp only [idle]
      split
      · refine ⟨?_, [], ?_, .clear idle rfl⟩
        · intro entry member
          simp only [record, List.mem_append, List.mem_singleton] at member
          rcases member with old | rfl
          · exact counts entry old
          · exact Nat.zero_le _
        · rw [acceptedBytes_record, List.take_zero, List.append_nil, List.flatten_nil,
            List.append_nil]
          exact texts
      · split
        · rename_i failure attempted
          have unsealed := Writer.sealRecord_sealedTexts attempted
          simp only [Except.isOk, Except.toBool, Bool.false_eq_true, if_false, List.append_nil]
            at unsealed
          refine Sound.refuses counts [] (.inl rfl) ?_ (by simp) (by simp)
          rw [List.flatten_nil, List.append_nil]
          exact (congrArg List.flatten unsealed).trans texts
        · rename_i sealed attempted
          have added := Writer.sealRecord_sealedTexts attempted
          simp only [Except.isOk, Except.toBool, if_true] at added
          have count : min buf.length maxPlaintext = (recordText buf).length := by
            simp [recordText]
          rw [count]
          refine Sound.drives counts ?_ (by simp [none]) (fun _ => List.take_prefix _ _)
          rw [added, List.flatten_append, texts]
          simp [recordText]
  | @held first head state =>
      obtain ⟨others, pending⟩ := List.head?_eq_some_iff.mp head
      rcases state with idle | ⟨frame, written, inFlight⟩
      · simp [Continues, Ledger.continues, pending, idle] at continues
      · simp only [Continues, Ledger.continues, pending, inFlight, Bool.or_eq_true,
          List.isPrefixOf_iff_prefix, decide_eq_true_eq] at continues
        simp only [inFlight]
        refine Sound.drives counts (by simpa using texts) (by simp [pending]) ?_
        intro finished
        exact continues.resolve_right (fun unfinished => unfinished finished)

/-- In every run of a caller that continues its pending writes, whatever the stream
below answers: no write returns more than it was given, and what was sealed is what
was accepted, in order, and at most one record of a write that was not accepted. -/
theorem writes_accounted (aead : Aead) {ledger : Ledger}
    (reachable : (writeMachine aead).Reachable Continues ledger) : ledger.Accounted aead := by
  refine Sound.accounted (reachable.invariant (Sound aead) ?_ ?_)
  · rintro start ⟨send, rfl⟩
    exact ⟨by simp, [], by simp [Writer.sealedTexts, Writer.new, acceptedBytes], .clear rfl rfl⟩
  · intro state call next sound continues moved
    cases moved
    cases call with
    | write buf answers => exact sound.write continues
    | flush answers => exact sound.flush answers
    | shutdown answers => exact sound.shutdown answers

/-- A sending half on which nothing was written. -/
def fresh : Ledger where
  writer := .new (.new (.replicate 32 1) dirC2s)
  accepted := []
  waiting := []
  ended := []

theorem initial_fresh : (writeMachine tagAead).Initial fresh := ⟨_, rfl⟩

/-- A write that is pending twice, around a flush that is pending too, and then
finishes its frame itself. -/
theorem writes_accounted_retried :
    ∃ ledger : Ledger, ledger.accepted = [([7, 8], 2)] ∧ ledger.Accounted tagAead := by
  have evaluated : ((writeMachine tagAead).execChecked continues fresh
      [.write [7, 8] [.ready 3, .pending], .flush [.ready 4, .pending], .write [7, 8] [.pending],
        .write [7, 8] [.ready 99]]).any
          (fun (ledger : Ledger) => ledger.accepted = [([7, 8], 2)]) = true := by decide +kernel
  obtain ⟨ledger, executed, told⟩ := (Option.any_eq_true _ _).mp evaluated
  refine ⟨ledger, of_decide_eq_true told, ?_⟩
  exact writes_accounted tagAead ⟨fresh, _, initial_fresh, .of_execChecked executed⟩

/-- A caller that gives up a pending write and writes less is told a count larger than
its buffer; one that flushes between the polls of a write has its bytes sealed twice. -/
theorem abandoned_or_flushed_write_unaccounted :
    (∃ ledger, (writeMachine tagAead).Reachable (writeMachine tagAead).Free ledger ∧
      ledger.accepted = [([9], 2)] ∧ ¬ ledger.Accounted tagAead) ∧
    ∃ ledger, (writeMachine tagAead).Reachable (writeMachine tagAead).Free ledger ∧
      ledger.accepted = [([7], 1)] ∧ ledger.writer.sealedTexts tagAead = [[7], [7]] ∧
        ¬ ledger.Accounted tagAead := by
  constructor
  · have evaluated : ((writeMachine tagAead).exec fresh
        [.write [7, 8] [.pending], .write [9] [.ready 99]]).any
          (fun (ledger : Ledger) => ledger.accepted = [([9], 2)]) = true := by decide +kernel
    obtain ⟨ledger, executed, told⟩ := (Option.any_eq_true _ _).mp evaluated
    have accepted := of_decide_eq_true told
    refine ⟨ledger, .of_exec initial_fresh executed, accepted, ?_⟩
    intro accounted
    have fits := accounted.counts ([9], 2) (by simp [accepted])
    simp at fits
  · have evaluated : ((writeMachine tagAead).exec fresh
        [.write [7] [.pending], .flush [.ready 99, .ready 0], .write [7] [.ready 99]]).any
          (fun (ledger : Ledger) => ledger.accepted = [([7], 1)] ∧ ledger.waiting = [] ∧
            ledger.ended = [] ∧ ledger.writer.sealedTexts tagAead = [[7], [7]]) = true := by
      decide +kernel
    obtain ⟨ledger, executed, told⟩ := (Option.any_eq_true _ _).mp evaluated
    obtain ⟨accepted, waiting, ended, texts⟩ := of_decide_eq_true told
    refine ⟨ledger, .of_exec initial_fresh executed, accepted, texts, ?_⟩
    intro accounted
    obtain ⟨rest, same, _, sources⟩ := accounted.texts
    have nothing : rest = [] := by
      rw [List.eq_nil_iff_forall_not_mem]
      intro text member
      obtain ⟨buf, listed, _⟩ := sources text member
      simp [waiting, ended] at listed
    simp [texts, acceptedBytes, accepted, nothing] at same

end Ledger

end CofreSoberano.Transport
