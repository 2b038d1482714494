import CofreSoberano.Channel.Drained

/-!
# When the writer returns

How the writer moves depends on little: its phase, how many events are queued and
pending, and which channels are closed. A `Position` is that much of a writer, and
`Shift` is what a move does to it.

The `select!` polls the rotation channel first. Once the last sender of rotation
requests is gone and no request is queued, that poll is ready with `None` and the loop
goes round: the writer neither returns nor receives another event. It returns if the
last of its handles goes when it will not poll the rotation channel again.
-/

namespace CofreSoberano.Channel

open CofreSoberano.Std CofreSoberano.Audit

/-- What the writer's next moves depend on. -/
structure Position where
  phase : Phase
  pending : Nat
  queue : Nat
  senders : Bool
  rotations : Bool
  requested : Bool

namespace Position

/-- Where a flush leads. -/
def leave (position : Position) : AfterFlush → Position
  | .rotate req => { position with phase := .rotating req }
  | .fill => { position with phase := .filling }
  | .select => { position with phase := .selectRotation }
  | .stop => { position with phase := .finished }

/-- The start of a flush. -/
def enter (position : Position) (after : AfterFlush) : Position :=
  if position.pending = 0 then position.leave after else { position with phase := .flushing after }

/-- The moves of a writer, as far as its position is concerned. -/
inductive Shift (batchSize : Nat) : Position → WriterMove → Position → Prop where
  | emit {here event} (alive : here.senders = true) (running : here.phase ≠ .finished) :
      Shift batchSize here (.emit event) { here with queue := here.queue + 1 }
  | refuse {here event} (alive : here.senders = true) : Shift batchSize here (.emit event) here
  | closeSenders {here} (alive : here.senders = true) :
      Shift batchSize here .closeSenders { here with senders := false }
  | request {here req} (alive : here.rotations = true) :
      Shift batchSize here (.requestRotation req) { here with requested := true }
  | ignore {here req} (alive : here.rotations = true) : Shift batchSize here
      (.requestRotation req) here
  | closeRotations {here} (alive : here.rotations = true) :
      Shift batchSize here .closeRotations { here with rotations := false }
  | startRotation {here} (req : RotationRequest) (phase : here.phase = .selectRotation)
      (queued : here.requested = true) :
      Shift batchSize here .pollRotation { here with requested := false, phase := .draining req }
  | noRotation {here} (phase : here.phase = .selectRotation) (none : here.requested = false)
      (alive : here.rotations = true) :
      Shift batchSize here .pollRotation { here with phase := .selectEvent }
  | spin {here} (phase : here.phase = .selectRotation) (none : here.requested = false)
      (closed : here.rotations = false) : Shift batchSize here .pollRotation here
  | receive {here rest} (phase : here.phase = .selectEvent) (queued : here.queue = rest + 1) :
      Shift batchSize here .pollEvent
        { here with queue := rest, pending := here.pending + 1, phase := .filling }
  | noEvent {here} (phase : here.phase = .selectEvent) (empty : here.queue = 0)
      (alive : here.senders = true) :
      Shift batchSize here .pollEvent { here with phase := .selectTimer }
  | stop {here} (phase : here.phase = .selectEvent) (empty : here.queue = 0)
      (closed : here.senders = false) : Shift batchSize here .pollEvent (here.enter .stop)
  | timer {here elapsed} (phase : here.phase = .selectTimer) (some : 0 < here.pending) :
      Shift batchSize here (.pollTimer elapsed) { here with phase := .flushing .fill }
  | noTimer {here elapsed} (phase : here.phase = .selectTimer) :
      Shift batchSize here (.pollTimer elapsed) { here with phase := .selectRotation }
  | drain {here rest req} (phase : here.phase = .draining req) (queued : here.queue = rest + 1) :
      Shift batchSize here .drain { here with queue := rest, pending := here.pending + 1 }
  | drained {here req} (phase : here.phase = .draining req) (empty : here.queue = 0) :
      Shift batchSize here .drain (here.enter (.rotate req))
  | append {here rest after sign now} (phase : here.phase = .flushing after)
      (batch : here.pending = rest + 2) :
      Shift batchSize here (.append sign now) { here with pending := rest + 1 }
  | appendLast {here after sign now} (phase : here.phase = .flushing after)
      (batch : here.pending = 1) :
      Shift batchSize here (.append sign now) { here with pending := 0, phase := .saving after }
  | abandon {here after sign now} (phase : here.phase = .flushing after) (some : 0 < here.pending) :
      Shift batchSize here (.append sign now) ({ here with pending := 0 }.leave after)
  | save {here after faults} (phase : here.phase = .saving after) :
      Shift batchSize here (.save faults) (here.leave after)
  | rotate {here req env} (phase : here.phase = .rotating req) :
      Shift batchSize here (.rotate env) { here with phase := .selectRotation }
  | full {here} (phase : here.phase = .filling) (full : batchSize ≤ here.pending) :
      Shift batchSize here .fill (here.enter .select)
  | fill {here rest} (phase : here.phase = .filling) (queued : here.queue = rest + 1) :
      Shift batchSize here .fill { here with queue := rest, pending := here.pending + 1 }
  | filled {here} (phase : here.phase = .filling) (empty : here.queue = 0) :
      Shift batchSize here .fill { here with phase := .selectRotation }

end Position

/-- The position of a writer. -/
def Writer.position (writer : Writer) : Position where
  phase := writer.phase
  pending := writer.ledger.pending.length
  queue := writer.ledger.queue.length
  senders := writer.sendersOpen
  rotations := writer.rotationsOpen
  requested := writer.rotationQueue.isSome

section Refinement

variable {crates : Crates} {codec : LogCodec} {config : WriterConfig} {writer next : Writer}

theorem Writer.leaveFlush_position (writer : Writer) (after : AfterFlush) :
    (writer.leaveFlush after).position = writer.position.leave after := by
  cases after <;> rfl

theorem Writer.enterFlush_position (writer : Writer) (after : AfterFlush) :
    (writer.enterFlush after).position = writer.position.enter after := by
  rw [Writer.enterFlush, Position.enter]
  cases batch : writer.ledger.pending with
  | nil =>
      have none : writer.position.pending = 0 := congrArg List.length batch
      rw [if_pos none, if_pos List.isEmpty_nil, Writer.leaveFlush_position]
  | cons first rest =>
      have some : writer.position.pending ≠ 0 := by simp [Writer.position, batch]
      rw [if_neg some, if_neg (show ¬ (first :: rest).isEmpty = true from Bool.false_ne_true)]
      rfl

theorem Writer.receive_position (writer : Writer) (first : Accepted) (rest : List Accepted)
    (phase : Phase) :
    { writer with ledger := writer.ledger.receive first rest, phase }.position =
      { writer.position with
        queue := rest.length, pending := writer.position.pending + 1, phase } := by
  simp [Writer.position, Ledger.receive]

theorem Ledger.rotated_batch (crates : Crates) (codec : LogCodec) (ledger : Ledger) (path : Path)
    (req : RotationRequest) (env : RotationEnv) (result : RotationResult) :
    (ledger.rotated crates codec path req env result).queue = ledger.queue ∧
      (ledger.rotated crates codec path req env result).pending = ledger.pending := by
  rw [Ledger.rotated]
  split
  · exact ⟨rfl, rfl⟩
  · split <;> exact ⟨rfl, rfl⟩

/-- Every move of the machine shifts the position. -/
theorem writerStep_shift {move : WriterMove}
    (moved : writerStep crates codec config writer move = some next) :
    Position.Shift config.batchSize writer.position move next.position := by
  cases move with
  | emit event =>
      obtain ⟨alive, ⟨⟩⟩ := Option.ite_none_right_eq_some.mp moved
      rw [Writer.emit]
      split
      · exact .refuse alive
      · rename_i accepted
        have same : { writer with ledger := writer.ledger.accept event
                                  auditEvents := writer.auditEvents + 1 }.position =
            { writer.position with queue := writer.position.queue + 1 } := by
          simp [Writer.position, Ledger.accept]
        rw [same]
        exact .emit alive (not_or.mp accepted).1
  | closeSenders =>
      obtain ⟨alive, ⟨⟩⟩ := Option.ite_none_right_eq_some.mp moved
      exact .closeSenders alive
  | requestRotation req =>
      obtain ⟨alive, ⟨⟩⟩ := Option.ite_none_right_eq_some.mp moved
      rw [Writer.requestRotation]
      split
      · exact .ignore alive
      · exact .request alive
  | closeRotations =>
      obtain ⟨alive, ⟨⟩⟩ := Option.ite_none_right_eq_some.mp moved
      exact .closeRotations alive
  | pollRotation =>
      obtain ⟨phase, ⟨⟩⟩ := Option.ite_none_right_eq_some.mp moved
      rw [Writer.pollRotation]
      split
      · rename_i req queued
        exact .startRotation req phase (by simp [Writer.position, queued])
      · rename_i none
        have unrequested : writer.position.requested = false := by simp [Writer.position, none]
        split
        · rename_i alive
          exact .noRotation phase unrequested alive
        · rename_i closed
          exact .spin phase unrequested (Bool.not_eq_true _ ▸ closed)
  | pollEvent =>
      obtain ⟨phase, ⟨⟩⟩ := Option.ite_none_right_eq_some.mp moved
      rw [Writer.pollEvent]
      split
      · rename_i first rest queued
        rw [Writer.receive_position]
        exact .receive phase (by simp [Writer.position, queued])
      · rename_i empty
        have none : writer.position.queue = 0 := by simp [Writer.position, empty]
        split
        · rename_i alive
          exact .noEvent phase none alive
        · rename_i closed
          rw [Writer.enterFlush_position]
          exact .stop phase none (Bool.not_eq_true _ ▸ closed)
  | pollTimer elapsed =>
      obtain ⟨phase, ⟨⟩⟩ := Option.ite_none_right_eq_some.mp moved
      rw [Writer.pollTimer]
      split
      · rename_i fired
        have batch : writer.ledger.pending ≠ [] := by simpa using fired.2
        have some : 0 < writer.position.pending := List.length_pos_iff.mpr batch
        rw [Writer.enterFlush_position, Position.enter, if_neg (Nat.ne_of_gt some)]
        exact .timer phase some
      · exact .noTimer phase
  | drain =>
      simp only [writerStep] at moved
      split at moved
      · rename_i req phase
        cases moved
        rw [Writer.drain]
        split
        · rename_i first rest queued
          rw [Writer.receive_position]
          exact .drain phase (by simp [Writer.position, queued])
        · rename_i empty
          rw [Writer.enterFlush_position]
          exact .drained phase (by simp [Writer.position, empty])
      · cases moved
  | append sign now =>
      simp only [writerStep] at moved
      split at moved
      · rename_i after phase
        simp only [Writer.append] at moved
        split at moved
        · cases moved
        · rename_i first rest batch
          split at moved
          · rename_i log entry committed
            cases moved
            have length : writer.position.pending = rest.length + 1 := by
              simp [Writer.position, batch]
            cases rest with
            | nil => exact .appendLast phase length
            | cons second rest =>
                have same : { writer with
                    ledger := writer.ledger.appended log first (second :: rest)
                    phase := if (second :: rest).isEmpty then .saving after
                      else .flushing after }.position =
                    { writer.position with pending := rest.length + 1 } := by
                  simp [Writer.position, Ledger.appended, phase]
                rw [same]
                exact .append phase length
          · cases moved
            rw [Writer.leaveFlush_position]
            exact .abandon phase (by simp [Writer.position, batch])
      · cases moved
  | save faults =>
      simp only [writerStep] at moved
      split at moved
      · rename_i after phase
        cases moved
        have kept : (writer.save codec config after faults).position =
            writer.position.leave after := by
          rw [Writer.save]
          split <;> rename_i ledger _ saved <;> rw [Writer.leaveFlush_position] <;>
            cases congrArg Prod.fst saved <;> rfl
        rw [kept]
        exact .save phase
      · cases moved
  | rotate env =>
      simp only [writerStep] at moved
      split at moved
      · rename_i req phase
        cases moved
        have same : (writer.rotate crates codec config req env).position =
            { writer.position with phase := .selectRotation } := by
          simp only [Writer.rotate, Writer.position, Ledger.rotated_batch]
        rw [same]
        exact .rotate phase
      · cases moved
  | fill =>
      obtain ⟨phase, ⟨⟩⟩ := Option.ite_none_right_eq_some.mp moved
      rw [Writer.fill]
      split
      · rename_i full
        rw [Writer.enterFlush_position]
        exact .full phase full
      · split
        · rename_i first rest queued
          rw [Writer.receive_position]
          exact .fill phase (by simp [Writer.position, queued])
        · rename_i empty
          exact .filled phase (by simp [Writer.position, empty])

end Refinement

namespace Position

variable {batchSize : Nat} {here there : Position} {move : WriterMove}

/-- What every reachable position satisfies: a flush has a batch until its save, and the
last flush comes after the senders are gone and the queue is empty. -/
structure Regular (position : Position) : Prop where
  busy : ∀ after, position.phase = .flushing after → 0 < position.pending
  emptied : ∀ after, position.phase = .saving after → position.pending = 0
  stopped : position.phase.stopping = true → position.senders = false ∧ position.queue = 0
  flushed : position.phase = .finished → position.pending = 0

theorem Regular.leave {after : AfterFlush} (empty : here.pending = 0)
    (stopped : after = .stop → here.senders = false ∧ here.queue = 0) :
    (here.leave after).Regular := by
  cases after with
  | stop => exact ⟨by rintro _ ⟨⟩, by rintro _ ⟨⟩, fun _ => stopped rfl, fun _ => empty⟩
  | _ => constructor <;> simp [Position.leave, Phase.stopping]

theorem Regular.enter {after : AfterFlush}
    (stopped : after = .stop → here.senders = false ∧ here.queue = 0) :
    (here.enter after).Regular := by
  rw [Position.enter]
  split
  · rename_i empty
    exact .leave empty stopped
  · rename_i some
    refine ⟨fun _ _ => Nat.pos_of_ne_zero some, by simp, ?_, by simp⟩
    intro stopping
    cases after with
    | stop => exact stopped rfl
    | _ => cases stopping

/-- The phase of a regular position that is not in its last flush says what comes after. -/
theorem Regular.not_stop {after : AfterFlush} (regular : here.Regular)
    (phase : here.phase = .flushing after ∨ here.phase = .saving after) (last : after = .stop) :
    here.senders = false ∧ here.queue = 0 := by
  subst last
  rcases phase with phase | phase <;> exact regular.stopped (by rw [phase]; rfl)

theorem Regular.shift (regular : here.Regular) (shift : Shift batchSize here move there) :
    there.Regular := by
  cases shift with
  | emit alive running =>
      refine ⟨regular.busy, regular.emptied, ?_, regular.flushed⟩
      intro stopping
      rw [(regular.stopped stopping).1] at alive
      cases alive
  | refuse alive => exact regular
  | closeSenders alive =>
      exact ⟨regular.busy, regular.emptied, fun stopping => ⟨rfl,
        (regular.stopped stopping).2⟩, regular.flushed⟩
  | request alive => exact ⟨regular.busy, regular.emptied, regular.stopped, regular.flushed⟩
  | ignore alive => exact regular
  | closeRotations alive =>
      exact ⟨regular.busy, regular.emptied, regular.stopped, regular.flushed⟩
  | startRotation req phase queued => constructor <;> simp [Phase.stopping]
  | noRotation phase none alive => constructor <;> simp [Phase.stopping]
  | spin phase none closed => exact regular
  | receive phase queued => constructor <;> simp [Phase.stopping]
  | noEvent phase empty alive => constructor <;> simp [Phase.stopping]
  | stop phase empty closed => exact .enter fun _ => ⟨closed, empty⟩
  | timer phase some => exact ⟨fun _ _ => some, by simp, by simp [Phase.stopping], by simp⟩
  | noTimer phase => constructor <;> simp [Phase.stopping]
  | drain phase queued =>
      refine ⟨?_, ?_, ?_, ?_⟩ <;> simp [phase, Phase.stopping]
  | drained phase empty => exact .enter (by simp)
  | append phase batch =>
      refine ⟨fun _ _ => Nat.succ_pos _, ?_, regular.stopped, ?_⟩ <;> simp [phase]
  | appendLast phase batch =>
      refine ⟨by simp, fun _ _ => rfl, ?_, by simp⟩
      intro stopping
      refine regular.stopped ?_
      rw [phase]
      revert stopping
      simp only [Phase.stopping]
      split <;> simp_all
  | abandon phase some => exact .leave rfl fun last => regular.not_stop (.inl phase) last
  | save phase =>
      exact .leave (regular.emptied _ phase) fun last => regular.not_stop (.inr phase) last
  | rotate phase => constructor <;> simp [Phase.stopping]
  | full phase full => exact .enter (by simp)
  | fill phase queued =>
      refine ⟨?_, ?_, ?_, ?_⟩ <;> simp [phase, Phase.stopping]
  | filled phase empty => constructor <;> simp [Phase.stopping]

theorem leave_rotations (here : Position) (after : AfterFlush) :
    (here.leave after).rotations = here.rotations := by
  cases after <;> rfl

theorem enter_rotations (here : Position) (after : AfterFlush) :
    (here.enter after).rotations = here.rotations := by
  rw [Position.enter]
  split
  · exact here.leave_rotations after
  · rfl

/-- Only the drop of its last sender closes the rotation channel. -/
theorem Shift.rotations_kept (shift : Shift batchSize here move there)
    (other : move ≠ .closeRotations) : there.rotations = here.rotations := by
  cases shift with
  | closeRotations => exact absurd rfl other
  | stop | drained | full => exact enter_rotations _ _
  | abandon | save => exact leave_rotations _ _
  | _ => rfl

/-- The writer will not poll the rotation channel again. -/
def Leaving (position : Position) : Prop :=
  position.phase.stopping = true ∨
    position.phase = .selectEvent ∧ position.senders = false ∧ position.queue = 0

instance (position : Position) : Decidable position.Leaving := inferInstanceAs (Decidable (_ ∨ _))

theorem Leaving.closed (regular : here.Regular) (leaving : here.Leaving) :
    here.senders = false ∧ here.queue = 0 := by
  rcases leaving with stopping | ⟨_, closed⟩
  · exact regular.stopped stopping
  · exact closed

theorem Leaving.phases (leaving : here.Leaving) :
    here.phase = .selectEvent ∨ here.phase = .flushing .stop ∨ here.phase = .saving .stop ∨
      here.phase = .finished := by
  rcases leaving with stopping | ⟨phase, _⟩
  · revert stopping
    rw [Phase.stopping.eq_def]
    split <;> simp_all
  · exact .inl phase

/-- The moves that are left to a writer on its way out. -/
def exitRank (position : Position) : Nat :=
  match position.phase with
  | .finished => 0
  | .saving _ => 1
  | .flushing _ => position.pending + 1
  | _ => position.pending + 2

/-- A writer on its way out stays on it, and without clients every move brings it
closer to its return. -/
theorem Leaving.shift (regular : here.Regular) (leaving : here.Leaving)
    (shift : Shift batchSize here move there) :
    there.Leaving ∧ there.rotations ≤ here.rotations ∧
      (here.rotations = false → exitRank there + 1 ≤ exitRank here) := by
  obtain ⟨closed, empty⟩ := leaving.closed regular
  have phases := leaving.phases
  cases shift with
  | emit alive | refuse alive | closeSenders alive | noEvent _ _ alive =>
      rw [closed] at alive
      cases alive
  | request alive =>
      refine ⟨leaving, le_rfl, fun gone => ?_⟩
      rw [gone] at alive
      cases alive
  | ignore alive =>
      refine ⟨leaving, le_rfl, fun gone => ?_⟩
      rw [gone] at alive
      cases alive
  | closeRotations alive =>
      refine ⟨leaving, Bool.false_le _, fun gone => ?_⟩
      rw [gone] at alive
      cases alive
  | startRotation _ phase | noRotation phase | spin phase | timer phase | noTimer phase
  | drain phase | drained phase | rotate phase | full phase | fill phase | filled phase =>
      simp [phase] at phases
  | receive phase queued =>
      rw [empty] at queued
      cases queued
  | stop phase _ _ =>
      rw [Position.enter]
      split
      · exact ⟨.inl rfl, le_rfl, fun _ => by simp [exitRank, Position.leave, phase]⟩
      · exact ⟨.inl rfl, le_rfl, fun _ => by simp [exitRank, phase]⟩
  | append phase batch =>
      obtain rfl : _ = AfterFlush.stop := by simpa [phase] using phases
      exact ⟨.inl (by simp [phase, Phase.stopping]), le_rfl,
        fun _ => by simp [exitRank, phase, batch]⟩
  | appendLast phase batch =>
      obtain rfl : _ = AfterFlush.stop := by simpa [phase] using phases
      exact ⟨.inl rfl, le_rfl, fun _ => by simp [exitRank, phase, batch]⟩
  | abandon phase some =>
      obtain rfl : _ = AfterFlush.stop := by simpa [phase] using phases
      exact ⟨.inl rfl, le_rfl, fun _ => by simp [exitRank, Position.leave, phase]⟩
  | save phase =>
      obtain rfl : _ = AfterFlush.stop := by simpa [phase] using phases
      exact ⟨.inl rfl, le_rfl, fun _ => by simp [exitRank, Position.leave, phase]⟩

/-- Nobody is left, and the writer is not on its way out. -/
structure Stranded (position : Position) : Prop where
  senders : position.senders = false
  rotations : position.rotations = false
  staying : ¬ position.Leaving

theorem Stranded.leave {after : AfterFlush} (senders : here.senders = false)
    (rotations : here.rotations = false) (more : after ≠ .stop) :
    (here.leave after).Stranded := by
  cases after with
  | stop => exact absurd rfl more
  | _ => exact ⟨senders, rotations, by simp [Leaving, Position.leave, Phase.stopping]⟩

theorem Stranded.enter {after : AfterFlush} (senders : here.senders = false)
    (rotations : here.rotations = false) (more : after ≠ .stop) :
    (here.enter after).Stranded := by
  rw [Position.enter]
  split
  · exact .leave senders rotations more
  · refine ⟨senders, rotations, ?_⟩
    cases after with
    | stop => exact absurd rfl more
    | _ => simp [Leaving, Phase.stopping]

theorem Stranded.not_stop {after : AfterFlush} (stranded : here.Stranded)
    (phase : here.phase = .flushing after ∨ here.phase = .saving after) : after ≠ .stop := by
  rintro rfl
  refine stranded.staying (.inl ?_)
  rcases phase with phase | phase <;> rw [phase] <;> rfl

/-- Then it never is. -/
theorem Stranded.shift (stranded : here.Stranded) (shift : Shift batchSize here move there) :
    there.Stranded := by
  obtain ⟨senders, rotations, staying⟩ := stranded
  have idle : ∀ phase : Phase, phase ≠ .selectEvent → phase.stopping = false →
      Stranded { here with phase } :=
    fun phase different running => ⟨senders, rotations, by simp [Leaving, different, running]⟩
  cases shift with
  | emit alive | refuse alive | closeSenders alive | noEvent _ _ alive =>
      rw [senders] at alive
      cases alive
  | request alive | ignore alive | closeRotations alive | noRotation _ _ alive =>
      rw [rotations] at alive
      cases alive
  | startRotation req phase queued =>
      exact ⟨senders, rotations, by simp [Leaving, Phase.stopping]⟩
  | spin phase none closed => exact ⟨senders, rotations, staying⟩
  | receive phase queued => exact ⟨senders, rotations, by simp [Leaving, Phase.stopping]⟩
  | stop phase empty closed => exact absurd (.inr ⟨phase, closed, empty⟩) staying
  | timer phase some => exact idle _ (by simp) rfl
  | noTimer phase => exact idle _ (by simp) rfl
  | drain phase queued => exact ⟨senders, rotations, by simp [Leaving, phase, Phase.stopping]⟩
  | drained phase empty => exact .enter senders rotations (by simp)
  | append phase batch =>
      refine ⟨senders, rotations, ?_⟩
      intro leaving
      refine staying (leaving.imp_right ?_)
      simp [phase]
  | appendLast phase batch =>
      have more := Stranded.not_stop ⟨senders, rotations, staying⟩ (.inl phase)
      refine ⟨senders, rotations, ?_⟩
      intro leaving
      have phases := leaving.phases
      simp [more] at phases
  | abandon phase some =>
      exact .leave senders rotations
        (Stranded.not_stop ⟨senders, rotations, staying⟩ (.inl phase))
  | save phase =>
      exact .leave senders rotations
        (Stranded.not_stop ⟨senders, rotations, staying⟩ (.inr phase))
  | rotate phase => exact idle _ (by simp) rfl
  | full phase full => exact .enter senders rotations (by simp)
  | fill phase queued => exact ⟨senders, rotations, by simp [Leaving, phase, Phase.stopping]⟩
  | filled phase empty => exact idle _ (by simp) rfl

/-- The writer's own moves until it receives an event that is queued. -/
def pollRank (position : Position) : Nat :=
  match position.phase with
  | .finished => 0
  | .selectEvent => 1
  | .draining _ => 1
  | .selectRotation => 2
  | .rotating _ => 3
  | .saving _ => 4
  | .flushing _ => position.pending + 4
  | .filling => if position.pending = 0 then 3 else position.pending + 5
  | .selectTimer => position.pending + 5

theorem pollRank_leave {after : AfterFlush} (empty : here.pending = 0) :
    (here.leave after).pollRank ≤ 3 := by
  cases after <;> simp [pollRank, Position.leave, empty]

end Position

/-- The moves of the writer task. -/
def WriterMove.own : WriterMove → Bool
  | .emit _ | .closeSenders | .requestRotation _ | .closeRotations => false
  | _ => true

namespace Position

variable {batchSize : Nat} {here there : Position} {move : WriterMove}

/-- While an event is queued and rotations can be requested, the writer comes closer to
receiving it with every move of its own that does not receive one. -/
theorem pollRank_shift (regular : here.Regular) (queued : 0 < here.queue)
    (shift : Shift batchSize here move there) (alive : here.rotations = true)
    (unreceived : here.queue ≤ there.queue) :
    there.pollRank + move.own.toNat ≤ here.pollRank := by
  cases shift with
  | emit | refuse | closeSenders | request | ignore | closeRotations => exact le_rfl
  | startRotation req phase _ => simp [pollRank, phase, WriterMove.own]
  | noRotation phase _ _ => simp [pollRank, phase, WriterMove.own]
  | spin phase _ closed =>
      rw [closed] at alive
      cases alive
  | receive _ some | drain _ some | fill _ some =>
      rw [some] at unreceived
      exact absurd unreceived (Nat.not_succ_le_self _)
  | noEvent _ empty | stop _ empty | drained _ empty | filled _ empty =>
      rw [empty] at queued
      cases queued
  | timer phase some => simp [pollRank, phase, WriterMove.own]
  | noTimer phase => simp [pollRank, phase, WriterMove.own]
  | append phase batch => simp [pollRank, phase, batch, WriterMove.own]
  | appendLast phase batch => simp [pollRank, phase, batch, WriterMove.own]
  | abandon phase some =>
      refine Nat.le_trans (Nat.add_le_add_right (pollRank_leave rfl) _) ?_
      simp [pollRank, phase, WriterMove.own]
  | save phase =>
      refine Nat.le_trans (Nat.add_le_add_right (pollRank_leave (regular.emptied _ phase)) _) ?_
      simp [pollRank, phase, WriterMove.own]
  | rotate phase => simp [pollRank, phase, WriterMove.own]
  | full phase full =>
      rw [Position.enter]
      split
      · rename_i empty
        simp [pollRank, Position.leave, phase, empty, WriterMove.own]
      · rename_i some
        simp [pollRank, phase, some, WriterMove.own]

end Position

section Termination

variable {crates : Crates} {codec : LogCodec} {config : WriterConfig} {writer next : Writer}

/-- The last sender of rotation requests is dropped only when the writer will not poll
their channel again. -/
def DropsLate (writer : Writer) (move : WriterMove) : Prop :=
  move = .closeRotations → writer.position.Leaving

/-- A move that receives an event. -/
def Consumes (crates : Crates) (codec : LogCodec) (config : WriterConfig) (writer : Writer)
    (move : WriterMove) : Prop :=
  ∃ next, writerStep crates codec config writer move = some next ∧
    next.ledger.queue.length < writer.ledger.queue.length

/-- However a writer goes on, it can until it has returned, it does so after boundedly
many moves, and nothing is queued or pending then. -/
def Returns (crates : Crates) (codec : LogCodec) (config : WriterConfig) (writer : Writer) : Prop :=
  ∃ bound, ∀ moves next,
    (writerMachine crates codec config).Runs
        (writerMachine crates codec config).Free writer moves next →
      moves.length ≤ bound ∧
      (next.phase = .finished → next.ledger.queue = [] ∧ next.ledger.pending = []) ∧
      (next.phase ≠ .finished → ∃ move after, writerStep crates codec config
        next move = some after)

/-- However a channel goes on without an event being received, the writer can move, but
only boundedly often. -/
def Consuming (crates : Crates) (codec : LogCodec) (config : WriterConfig)
    (writer : Writer) : Prop :=
  ∃ bound, ∀ moves next,
    (writerMachine crates codec config).Runs
      (fun writer move => DropsLate writer move ∧ ¬ Consumes crates codec config writer move)
      writer moves next →
        moves.countP WriterMove.own ≤ bound ∧
        ∃ move after, move.own = true ∧ writerStep crates codec config next move = some after

theorem Writer.regular_spawn (log : AuditLog) (disk : Disk) :
    (Writer.spawn log disk).position.Regular :=
  ⟨by rintro _ ⟨⟩, by rintro _ ⟨⟩, by rintro ⟨⟩, by rintro ⟨⟩⟩

theorem reachable_regular {admits : Writer → WriterMove → Prop}
    (reachable : (writerMachine crates codec config).Reachable admits writer) :
    writer.position.Regular := by
  refine Machine.Reachable.invariant (fun writer : Writer => writer.position.Regular) ?_
    ?_ reachable
  · rintro _ ⟨log, disk, rfl⟩
    exact Writer.regular_spawn log disk
  · intro state move next regular _ moved
    exact regular.shift (writerStep_shift moved)

/-- A writer that has not returned can move. -/
theorem writer_moves (regular : writer.position.Regular) (running : writer.phase ≠ .finished) :
    ∃ move next, move.own = true ∧ writerStep crates codec config writer move = some next := by
  cases phase : writer.phase with
  | selectRotation => exact ⟨.pollRotation, _, rfl, if_pos phase⟩
  | selectEvent => exact ⟨.pollEvent, _, rfl, if_pos phase⟩
  | selectTimer => exact ⟨.pollTimer true, _, rfl, if_pos phase⟩
  | draining req => exact ⟨.drain, writer.drain req, rfl, by simp only [writerStep, phase]⟩
  | flushing after =>
      have batch : 0 < writer.ledger.pending.length := regular.busy after phase
      obtain ⟨first, rest, pending⟩ := List.exists_cons_of_length_pos batch
      refine ⟨.append plainSign "2026-05-01T00:00:02Z", ?_⟩
      simp only [writerStep, phase, Writer.append, pending]
      split <;> exact ⟨_, rfl, rfl⟩
  | saving after =>
      exact ⟨.save (.none "audit.tmp"), writer.save codec config after (.none "audit.tmp"), rfl,
        by simp only [writerStep, phase]⟩
  | rotating req =>
      exact ⟨.rotate plainRotation, writer.rotate crates codec config req plainRotation, rfl,
        by simp only [writerStep, phase]⟩
  | filling => exact ⟨.fill, _, rfl, if_pos phase⟩
  | finished => exact absurd phase running

theorem returns_of_leaving (regular : writer.position.Regular)
    (gone : writer.rotationsOpen = false) (leaving : writer.position.Leaving) :
    Returns crates codec config writer := by
  refine ⟨writer.position.exitRank, fun moves next run => ?_⟩
  have bounded := run.countP_le (fun _ => true) (fun writer : Writer => writer.position.exitRank)
    (fun writer : Writer => writer.position.Regular ∧ writer.position.Leaving ∧
      writer.position.rotations = false)
    ⟨regular, leaving, gone⟩ (by
      rintro state move after ⟨regular, leaving, gone⟩ _ moved
      have shift := writerStep_shift moved
      obtain ⟨stays, fewer, closer⟩ := leaving.shift regular shift
      have closed : after.position.rotations = false := by
        rw [gone] at fewer
        exact Bool.eq_false_of_le_false fewer
      exact ⟨⟨regular.shift shift, stays, closed⟩, closer gone⟩)
  obtain ⟨⟨regularNext, leavingNext, _⟩, length⟩ := bounded
  refine ⟨?_, ?_, ?_⟩
  · rw [List.countP_eq_length.mpr fun _ _ => rfl] at length
    exact Nat.le_trans (Nat.le_add_right _ _) length
  · intro finished
    exact ⟨List.eq_nil_of_length_eq_zero (leavingNext.closed regularNext).2,
      List.eq_nil_of_length_eq_zero (regularNext.flushed finished)⟩
  · intro running
    obtain ⟨move, after, _, moved⟩ := writer_moves regularNext running
    exact ⟨move, after, moved⟩

/-- A stranded writer can go on for ever. -/
theorem stranded_runs (regular : writer.position.Regular) (stranded : writer.position.Stranded)
    (count : Nat) :
    ∃ (moves : List WriterMove) (next : Writer),
      (writerMachine crates codec config).Runs
          (writerMachine crates codec config).Free writer moves next ∧
        moves.length = count ∧ next.position.Regular ∧ next.position.Stranded := by
  induction count with
  | zero => exact ⟨[], writer, .nil, rfl, regular, stranded⟩
  | succ count inductionHypothesis =>
      obtain ⟨moves, next, run, length, regular, stranded⟩ := inductionHypothesis
      have running : next.phase ≠ .finished := by
        intro finished
        refine stranded.staying (.inl ?_)
        rw [show next.position.phase = .finished from finished]
        rfl
      obtain ⟨move, after, _, moved⟩ := writer_moves regular running
      have shift := writerStep_shift moved
      refine ⟨moves ++ [move], after, ?_, ?_, regular.shift shift, stranded.shift shift⟩
      · exact run.snoc trivial moved
      · rw [List.length_append, length, List.length_singleton]

theorem leaving_of_returns (regular : writer.position.Regular)
    (senders : writer.sendersOpen = false)
    (gone : writer.rotationsOpen = false) (returns : Returns crates codec config writer) :
    writer.position.Leaving := by
  by_contra staying
  obtain ⟨bound, bounded⟩ := returns
  obtain ⟨moves, next, run, length, _⟩ :=
    stranded_runs regular ⟨senders, gone, staying⟩ (bound + 1)
  have short : (moves : List WriterMove).length ≤ bound := (bounded moves next run).1
  omega

/-- As long as rotation senders are dropped late, a writer without them is on its way out. -/
theorem reachable_attached
    (reachable : (writerMachine crates codec config).Reachable DropsLate writer) :
    writer.position.rotations = true ∨ writer.position.Leaving := by
  have kept := Machine.Reachable.invariant (fun writer : Writer => writer.position.Regular ∧
    (writer.position.rotations = true ∨ writer.position.Leaving)) ?_ ?_ reachable
  · exact kept.2
  · rintro _ ⟨log, disk, rfl⟩
    exact ⟨Writer.regular_spawn log disk, .inl rfl⟩
  · rintro state move next ⟨regular, attached⟩ late moved
    have shift := writerStep_shift moved
    refine ⟨regular.shift shift, ?_⟩
    rcases attached with alive | leaving
    · by_cases dropped : move = .closeRotations
      · exact .inr ((late dropped).shift regular shift).1
      · exact .inl ((shift.rotations_kept dropped).trans alive)
    · exact .inr (leaving.shift regular shift).1

/-- As long as rotation senders are dropped late, a queued event is received. -/
theorem consuming_of_late
    (reachable : (writerMachine crates codec config).Reachable DropsLate writer)
    (queued : writer.ledger.queue ≠ []) : Consuming crates codec config writer := by
  have regular := reachable_regular reachable
  have some : 0 < writer.position.queue := List.length_pos_iff.mpr queued
  have alive : writer.position.rotations = true := by
    refine (reachable_attached reachable).resolve_right fun leaving => ?_
    rw [(leaving.closed regular).2] at some
    cases some
  refine ⟨writer.position.pollRank, fun moves next run => ?_⟩
  have bounded := run.countP_le WriterMove.own (fun writer : Writer => writer.position.pollRank)
    (fun writer : Writer => writer.position.Regular ∧ 0 < writer.position.queue ∧
      writer.position.rotations = true)
    ⟨regular, some, alive⟩ (by
      rintro state move after ⟨regular, some, alive⟩ ⟨late, unconsumed⟩ moved
      have shift := writerStep_shift moved
      have unreceived : state.position.queue ≤ after.position.queue :=
        Nat.le_of_not_lt fun fewer => unconsumed ⟨after, moved, fewer⟩
      have attached : after.position.rotations = true := by
        by_cases dropped : move = .closeRotations
        · rw [((late dropped).closed regular).2] at some
          cases some
        · exact (shift.rotations_kept dropped).trans alive
      exact ⟨⟨regular.shift shift, Nat.lt_of_lt_of_le some unreceived, attached⟩,
        Position.pollRank_shift regular some shift alive unreceived⟩)
  obtain ⟨⟨regularNext, someNext, _⟩, most⟩ := bounded
  refine ⟨Nat.le_trans (Nat.le_add_right _ _) most, ?_⟩
  refine writer_moves regularNext fun finished => ?_
  have stopping : next.position.phase.stopping = true := by
    rw [show next.position.phase = .finished from finished]
    rfl
  rw [(regularNext.stopped stopping).2] at someNext
  cases someNext

/-- If the last sender of rotation requests is dropped only when the writer will not poll
their channel again, the writer receives what is queued, and it returns once all of its
handles are gone. Without any handle, it returns only if it is on its way out. -/
theorem writer_returns (crates : Crates) (codec : LogCodec) (config : WriterConfig) :
    (∀ writer : Writer, (writerMachine crates codec config).Reachable DropsLate writer →
      (writer.sendersOpen = false → writer.rotationsOpen = false →
        Returns crates codec config writer) ∧
      (writer.ledger.queue ≠ [] → Consuming crates codec config writer)) ∧
    ∀ writer : Writer, (writerMachine crates codec config).Reachable
        (writerMachine crates codec config).Free writer →
      writer.sendersOpen = false → writer.rotationsOpen = false →
        (Returns crates codec config writer ↔ writer.position.Leaving) := by
  constructor
  · intro writer reachable
    refine ⟨fun _ gone => ?_, consuming_of_late reachable⟩
    refine returns_of_leaving (reachable_regular reachable) gone ?_
    exact (reachable_attached reachable).resolve_left (Bool.eq_false_iff.mp gone)
  · intro writer reachable senders gone
    have regular := reachable_regular reachable
    exact ⟨leaving_of_returns regular senders gone, returns_of_leaving regular gone⟩

/-- `DropsLate` as a check. -/
def dropsLate (writer : Writer) : WriterMove → Bool
  | .closeRotations => writer.position.Leaving
  | _ => true

theorem DropsLate.of_check {move : WriterMove} (checked : dropsLate writer move = true) :
    DropsLate writer move := by
  rintro rfl
  exact of_decide_eq_true checked

/-- A channel whose senders go first: its writer is on its way out when the last rotation
sender goes, and returns. Before that, it receives the event that is queued. -/
theorem writer_returns_plain :
    (∃ writer : Writer, writer.ledger.queue ≠ [] ∧
      Consuming plainCrates cborCodec (plainConfig 1) writer) ∧
    ∃ writer : Writer, writer.sendersOpen = false ∧ writer.rotationsOpen = false ∧
      Returns plainCrates cborCodec (plainConfig 1) writer := by
  obtain ⟨late, _⟩ := writer_returns plainCrates cborCodec (plainConfig 1)
  have reached : ∀ (moves : List WriterMove) (test : Writer → Bool),
      ((writerMachine plainCrates cborCodec (plainConfig 1)).execChecked dropsLate
        plainWriter moves).any test = true →
      ∃ writer : Writer,
        (writerMachine plainCrates cborCodec (plainConfig 1)).Reachable DropsLate writer ∧
          test writer = true := by
    intro moves test evaluated
    obtain ⟨writer, executed, facts⟩ := (Option.any_eq_true _ _).mp evaluated
    have run := (Machine.Runs.of_execChecked executed).mono fun _ _ => DropsLate.of_check
    exact ⟨writer, ⟨plainWriter, moves, ⟨plainLog, _, rfl⟩, run⟩, facts⟩
  constructor
  · obtain ⟨writer, reachable, facts⟩ := reached [.emit loginEvent]
      (fun writer => !writer.ledger.queue.isEmpty) (by decide +kernel)
    have queued : writer.ledger.queue ≠ [] := by simpa using facts
    exact ⟨writer, queued, (late writer reachable).2 queued⟩
  · obtain ⟨writer, reachable, facts⟩ := reached
      [.emit loginEvent, .closeSenders, .pollRotation, .pollEvent, .fill,
        .append plainSign "2026-05-01T00:00:02Z", .save (.none "audit.tmp"), .pollRotation,
        .closeRotations]
      (fun writer => !writer.sendersOpen && !writer.rotationsOpen) (by decide +kernel)
    obtain ⟨senders, rotations⟩ : writer.sendersOpen = false ∧
      writer.rotationsOpen = false := by
      simpa using facts
    exact ⟨writer, senders, rotations, (late writer reachable).1 senders rotations⟩

/-- A channel whose handles were all dropped with an event in the queue. -/
def droppedChannel : Writer :=
  { plainWriter.emit (plainConfig 1) loginEvent with sendersOpen := false, rotationsOpen := false }

/-- Whatever happens then, the writer stays where it is. -/
theorem writer_spins :
    (writerMachine plainCrates cborCodec (plainConfig 1)).Reachable
        (writerMachine plainCrates cborCodec (plainConfig 1)).Free droppedChannel ∧
      droppedChannel.sendersOpen = false ∧ droppedChannel.rotationsOpen = false ∧
      droppedChannel.ledger.queue ≠ [] ∧ droppedChannel.phase ≠ .finished ∧
      ∀ moves next, (writerMachine plainCrates cborCodec (plainConfig 1)).Runs
        (writerMachine plainCrates cborCodec (plainConfig 1)).Free droppedChannel moves next →
          next = droppedChannel := by
  refine ⟨?_, rfl, rfl, by decide +kernel, by decide +kernel, ?_⟩
  · have executed : (writerMachine plainCrates cborCodec (plainConfig 1)).exec plainWriter
        [.emit loginEvent, .closeSenders, .closeRotations] = some droppedChannel := rfl
    exact .of_exec ⟨plainLog, _, rfl⟩ executed
  · intro moves next run
    refine run.invariant (fun state => state = droppedChannel) rfl ?_
    rintro _ move after rfl _ moved
    cases move <;> cases moved
    rfl

end Termination

end CofreSoberano.Channel
