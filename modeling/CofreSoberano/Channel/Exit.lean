import CofreSoberano.Channel.Drained

/-!
# The file of a writer that returns

The last flush of a writer saves only if it has events to append. Entries that an
earlier flush appended but could not save stay in memory, and so does the old log
when a rotation fails after it replaced the file. Whether something is unsaved can
be followed along a run: the file is the live log exactly if nothing is.
-/

namespace CofreSoberano.Channel

open CofreSoberano.Std CofreSoberano.Audit

/-- A save gets as far as its rename. -/
def SaveFaults.renames (faults : SaveFaults) : Bool :=
  faults.metadata.isNone && (faults.stage.create.isNone && faults.stage.write.isNone &&
    faults.stage.sync.isNone) && faults.persist.isNone

/-- Whether something is unsaved after a move: an entry was appended, or a rotation
failed after it replaced the file of the log, and no save or rotation went through
since. -/
def unsavedAfter (crates : Crates) (codec : LogCodec) (config : WriterConfig) (writer : Writer)
    (unsaved : Bool) : WriterMove → Bool
  | .append sign _ => unsaved || writer.ledger.pending.head?.any fun next =>
      writer.ledger.live.log.signs crates next.event sign
  | .save faults => unsaved && !faults.renames
  | .rotate env =>
      match writer.phase with
      | .rotating req =>
          let result := performRotation crates codec config.hasFactory writer.ledger.live.log
            writer.auditRotations config.path req env writer.ledger.disk
          !result.outcome.isOk &&
            (unsaved || result.disk config.path != writer.ledger.disk config.path)
      | _ => unsaved
  | _ => unsaved

/-- A writer, and whether something is unsaved. -/
structure Watched where
  writer : Writer
  unsaved : Bool

/-- The writer, watched from its spawn on a log that is in its file. -/
def watchedMachine (crates : Crates) (codec : LogCodec) (config : WriterConfig) : Machine where
  State := Watched
  Label := WriterMove
  Initial watched := ∃ (log : AuditLog) (disk : Disk),
    disk config.path = some (log.saveTo codec) ∧ watched = ⟨.spawn log disk, false⟩
  step watched move := (writerStep crates codec config watched.writer move).map fun next =>
    ⟨next, unsavedAfter crates codec config watched.writer watched.unsaved move⟩

/-- Temporary names are none of the log's paths, and the random id of a rotation is
not that of the live log. -/
def DrawsApart (config : WriterConfig) (watched : Watched) : WriterMove → Prop
  | .save faults => faults.temp ≠ config.path
  | .rotate env => env.draws.logId ≠ watched.writer.ledger.live.log.header.logId ∧
      ∀ req, watched.writer.phase = .rotating req →
        Aside config.path req.archivePath env.archiveTemp ∧
        Aside config.path req.archivePath env.saving.temp
  | _ => True

/-- Staging succeeds exactly if none of its calls fails. -/
theorem stageFile_isOk (temp : Path) (bytes : List UInt8) (faults : StageFaults) (disk : Disk) :
    (stageFile temp bytes faults disk).outcome.isOk =
      (faults.create.isNone && faults.write.isNone && faults.sync.isNone) := by
  obtain ⟨create, write, sync⟩ := faults
  cases create with
  | some _ => rfl
  | none =>
      cases write with
      | some fault =>
          obtain ⟨written, message⟩ := fault
          have appended := appendBytes_outcome temp (bytes.take written) (disk.put temp [])
          simp [stageFile, bind, Crashable.andThen, call, Crashable.ended, Crashable.step,
            Crashable.final, writeStaged, callOrRemove, appended, Except.isOk, Except.toBool]
      | none =>
          have appended := appendBytes_outcome temp bytes (disk.put temp [])
          cases sync <;> simp [stageFile, bind, Crashable.andThen, call, Crashable.ended,
            Crashable.step, Crashable.final, writeStaged, callOrRemove, appended, Except.isOk,
            Except.toBool]

/-- A save replaces the file exactly if it gets as far as its rename. -/
theorem save_final {path : Path} {faults : SaveFaults} (aside : faults.temp ≠ path)
    (bytes : List UInt8) (disk : Disk) :
    (save bytes path faults).final disk path =
      if faults.renames then some bytes else disk path := by
  obtain ⟨other, apart, notTemp⟩ := exists_other_path path faults.temp
  obtain ⟨passed, returns⟩ := stageFile_triple ⟨aside, notTemp⟩ bytes faults.stage disk
    (⟨rfl, rfl⟩ : Disk.Shows path other (disk path) (disk other) disk)
  have staging := stageFile_isOk faults.temp bytes faults.stage disk
  have unchanged : (stageFile faults.temp bytes faults.stage).final disk path = disk path := by
    rcases List.mem_cons.mp
      (Crashable.final_mem (stageFile faults.temp bytes faults.stage) disk) with
      same | later
    · rw [same]
    · exact (passed _ later).1
  rw [save, SaveFaults.renames, ← staging]
  cases metadata : faults.metadata with
  | some message =>
      rw [Crashable.final_andThen_error rfl]
      rfl
  | none =>
      rw [call, Crashable.final_ended_andThen]
      cases staged : (stageFile faults.temp bytes faults.stage disk).outcome with
      | error failure =>
          rw [Crashable.final_andThen_error staged, unchanged]
          rfl
      | ok value =>
          rw [Crashable.final_andThen staged]
          obtain ⟨shows, written⟩ := returns value staged
          cases persist : faults.persist with
          | some message =>
              rw [Crashable.final_andThen_error rfl]
              exact (shows.remove ⟨aside, notTemp⟩).1
          | none =>
              rw [callOrRemove, Crashable.final_ended_andThen, Crashable.final_step_andThen]
              exact (rename_current ⟨aside, notTemp⟩ apart shows written).1

/-- A log in a file that is not the live log: a shorter one, or one with another id. -/
def Outdated (older live : AuditLog) : Prop :=
  older.entries.length < live.entries.length ∨ older.header.logId ≠ live.header.logId

/-- The file of the log holds the live log if nothing is unsaved, and otherwise one
that is outdated. -/
structure Watched.Tracks (codec : LogCodec) (config : WriterConfig) (watched : Watched) : Prop where
  clean : watched.unsaved = false → watched.writer.ledger.disk config.path =
    some (watched.writer.ledger.live.log.saveTo codec)
  stale : watched.unsaved = true → ∃ older, Outdated older watched.writer.ledger.live.log ∧
    watched.writer.ledger.disk config.path = some (older.saveTo codec)

namespace Watched.Tracks

variable {crates : Crates} {codec : LogCodec} {config : WriterConfig} {watched : Watched}
  {next : Writer}

/-- There is always a file. -/
theorem present (tracks : watched.Tracks codec config) :
    (watched.writer.ledger.disk config.path).isSome = true := by
  cases unsaved : watched.unsaved with
  | false => rw [tracks.clean unsaved]; rfl
  | true =>
      obtain ⟨older, _, written⟩ := tracks.stale unsaved
      rw [written]
      rfl

/-- A move that leaves the log and its file alone. -/
theorem frame (tracks : watched.Tracks codec config)
    (live : next.ledger.live.log = watched.writer.ledger.live.log)
    (disk : next.ledger.disk config.path = watched.writer.ledger.disk config.path) :
    Watched.Tracks codec config ⟨next, watched.unsaved⟩ := by
  refine ⟨?_, ?_⟩
  · rw [live, disk]
    exact tracks.clean
  · rw [live, disk]
    exact tracks.stale

/-- An entry that is appended is unsaved. -/
theorem appending {after : AfterFlush} {sign : SignCall} {now : Timestamp}
    (tracks : watched.Tracks codec config)
    (moved : watched.writer.append crates after sign now = some next) :
    Watched.Tracks codec config
      ⟨next, unsavedAfter crates codec config watched.writer watched.unsaved
        (.append sign now)⟩ := by
  simp only [Writer.append] at moved
  split at moved
  · cases moved
  rename_i first rest batch
  have outcome := watched.writer.ledger.live.log.append_isOk crates first.event sign now
  simp only [unsavedAfter, batch, List.head?_cons, Option.any_some]
  rw [← outcome]
  rcases watched.writer.ledger.live.log.append_cases crates first.event sign now with
    ⟨_, failed⟩ | ⟨_, signature, _, _, committed⟩
  · rw [failed] at moved ⊢
    cases moved
    simp only [Except.isOk, Except.toBool, Bool.or_false]
    exact tracks.frame (by rw [Writer.leaveFlush_ledger]; rfl)
      (by rw [Writer.leaveFlush_ledger]; rfl)
  · rw [committed] at moved ⊢
    cases moved
    simp only [Except.isOk, Except.toBool, Bool.or_true]
    refine ⟨by simp, fun _ => ?_⟩
    cases unsaved : watched.unsaved with
    | false =>
        exact ⟨_, .inl (by simp [AuditLog.commit, Ledger.appended]), tracks.clean unsaved⟩
    | true =>
        obtain ⟨older, outdated, written⟩ := tracks.stale unsaved
        refine ⟨older, ?_, written⟩
        rcases outdated with shorter | other
        · exact .inl (by simp [AuditLog.commit, Ledger.appended]; omega)
        · exact .inr other

/-- A save that gets to its rename leaves nothing unsaved; one that does not leaves
everything as it was. -/
theorem saving {after : AfterFlush} {faults : SaveFaults} (tracks : watched.Tracks codec config)
    (aside : faults.temp ≠ config.path) :
    Watched.Tracks codec config ⟨watched.writer.save codec config after faults,
      unsavedAfter crates codec config watched.writer watched.unsaved (.save faults)⟩ := by
  have live : (watched.writer.save codec config after faults).ledger.live.log =
      watched.writer.ledger.live.log := by
    rw [Writer.save_ledger]
    rfl
  have disk : (watched.writer.save codec config after faults).ledger.disk config.path =
      if faults.renames then some (watched.writer.ledger.live.log.saveTo codec)
      else watched.writer.ledger.disk config.path := by
    rw [Writer.save_ledger]
    exact save_final aside _ _
  cases renames : faults.renames with
  | false =>
      rw [renames] at disk
      simp only [unsavedAfter, renames, Bool.not_false, Bool.and_true]
      exact tracks.frame live disk
  | true =>
      rw [renames] at disk
      simp only [unsavedAfter, renames, Bool.not_true, Bool.and_false]
      exact ⟨fun _ => by rw [disk, live]; rfl, by simp⟩

/-- What a rotation that fails leaves at the path of the log: what was there, or the
successor that it prepared. -/
theorem failed_rotation (crates : Crates) (codec : LogCodec) (log : AuditLog) (rotations : Nat)
    {req : RotationRequest} {env : RotationEnv} {disk : Disk}
    (present : (disk config.path).isSome = true)
    (asideStage : Aside config.path req.archivePath env.archiveTemp)
    (asideSave : Aside config.path req.archivePath env.saving.temp) :
    let result :=
      performRotation crates codec config.hasFactory log rotations config.path req env disk
    result.disk config.path = disk config.path ∨ ∃ newOpen : AuditLog,
      newOpen.header.logId = env.draws.logId ∧
        result.disk config.path = some (newOpen.saveTo codec) := by
  intro result
  obtain ⟨_, final, _⟩ := performRotation_cases crates codec config.hasFactory log rotations
    config.path req env disk
  rw [show result.disk = _ from final]
  by_cases apart : req.archivePath = config.path
  · left
    rw [Crashable.final, rotationScript_refuses crates codec config.hasFactory log config.path env
      (apart ▸ present)]
    rfl
  · have triple := rotationScript_triple crates codec config.hasFactory log disk apart asideStage
      asideSave disk rfl
    rcases List.mem_cons.mp (Crashable.final_mem (rotationScript crates codec config.hasFactory log
      config.path req env) disk) with same | later
    · exact .inl (by rw [same])
    · obtain ⟨_, closed, newOpen, prepared, staged⟩ := triple.1 _ later
      cases staged with
      | waiting shows => exact .inl shows.1
      | archived _ shows => exact .inl shows.1
      | switched _ shows =>
          exact .inr ⟨newOpen, (prepareRotation_rotates prepared).logId, shows.1⟩

/-- A rotation. -/
theorem rotating {req : RotationRequest} {env : RotationEnv} (tracks : watched.Tracks codec config)
    (phase : watched.writer.phase = .rotating req)
    (fresh : env.draws.logId ≠ watched.writer.ledger.live.log.header.logId)
    (asideStage : Aside config.path req.archivePath env.archiveTemp)
    (asideSave : Aside config.path req.archivePath env.saving.temp) :
    Watched.Tracks codec config ⟨watched.writer.rotate crates codec config req env,
      unsavedAfter crates codec config watched.writer watched.unsaved (.rotate env)⟩ := by
  obtain ⟨disk, log, _⟩ := watched.writer.rotate_ledger crates codec config req env
  simp only [unsavedAfter, phase]
  rcases performRotation_log crates codec config.hasFactory watched.writer.ledger.live.log
      watched.writer.auditRotations config.path req env watched.writer.ledger.disk with
    ⟨failure, failed, sameLog⟩ | ⟨closed, succeeded, _⟩
  · rw [sameLog] at log
    have files := failed_rotation crates codec watched.writer.ledger.live.log
      watched.writer.auditRotations tracks.present asideStage asideSave
    simp only [failed, Except.isOk, Except.toBool, Bool.not_false, Bool.true_and]
    rcases files with same | ⟨newOpen, drawn, replaced⟩
    · rw [same, bne_self_eq_false, Bool.or_false]
      exact tracks.frame log (by rw [disk, same])
    · -- The file now holds a log with the drawn id, whether that is new or not.
      have outdated : Outdated newOpen watched.writer.ledger.live.log := .inr (drawn ▸ fresh)
      have different : some (newOpen.saveTo codec) ≠
          some (watched.writer.ledger.live.log.saveTo codec) := by
        intro same
        obtain ⟨header, _⟩ := AuditLog.saveTo_inj (Option.some.inj same)
        exact fresh (by rw [← drawn, header])
      have unsaved : (watched.unsaved || (some (newOpen.saveTo codec) !=
          watched.writer.ledger.disk config.path)) = true := by
        cases unsaved : watched.unsaved with
        | true => rfl
        | false =>
            rw [tracks.clean unsaved, Bool.false_or, bne_iff_ne]
            exact different
      rw [replaced, unsaved]
      refine ⟨by simp, fun _ => ⟨newOpen, ?_, by rw [disk, replaced]⟩⟩
      rw [log]
      exact outdated
  · have published := performRotation_published crates codec config.hasFactory
      watched.writer.ledger.live.log watched.writer.auditRotations tracks.present asideStage
      asideSave succeeded
    simp only [succeeded, Except.isOk, Except.toBool, Bool.not_true, Bool.false_and]
    refine ⟨fun _ => ?_, by simp⟩
    rw [disk, log]
    cases published with
    | failed failed =>
        rw [succeeded] at failed
        cases failed
    | succeeded _ _ written => exact written

/-- Every move keeps track of what is unsaved. -/
theorem step {move : WriterMove} {after : Watched} (tracks : watched.Tracks codec config)
    (draws : DrawsApart config watched move)
    (moved : (watchedMachine crates codec config).step watched move = some after) :
    after.Tracks codec config := by
  obtain ⟨next, stepped, rfl⟩ := Option.map_eq_some_iff.mp moved
  have ledger := writerStep_ledger stepped
  cases move with
  | append sign now =>
      simp only [writerStep] at stepped
      split at stepped
      · exact tracks.appending stepped
      · cases stepped
  | save faults =>
      simp only [writerStep] at stepped
      split at stepped
      · cases stepped
        exact tracks.saving draws
      · cases stepped
  | rotate env =>
      simp only [writerStep] at stepped
      split at stepped
      · rename_i req phase
        cases stepped
        obtain ⟨fresh, aside⟩ := draws
        obtain ⟨asideStage, asideSave⟩ := aside req phase
        exact tracks.rotating phase fresh asideStage asideSave
      · cases stepped
  | _ =>
      -- The other moves touch only the queue and the batch.
      have kept : next.ledger.live = watched.writer.ledger.live ∧
          next.ledger.disk = watched.writer.ledger.disk := by
        generalize watched.writer.ledger = before at ledger
        generalize next.ledger = after at ledger
        cases ledger <;> exact ⟨rfl, rfl⟩
      exact tracks.frame (by rw [kept.1]) (by rw [kept.2])

end Watched.Tracks

/-- Whatever fails on the way, the file of a log that was spawned on it holds the
live log at the return of the writer exactly if nothing is unsaved. -/
theorem writer_exit_durable_iff (crates : Crates) (codec : LogCodec) (config : WriterConfig)
    {log : AuditLog} {disk : Disk} {moves : List WriterMove} {watched : Watched}
    (opened : disk config.path = some (log.saveTo codec))
    (run : (watchedMachine crates codec config).Runs (DrawsApart config)
      (⟨.spawn log disk, false⟩ : Watched) moves watched) :
    watched.writer.phase = .finished →
      (watched.writer.ledger.disk config.path =
          some (watched.writer.ledger.live.log.saveTo codec) ↔ watched.unsaved = false) := by
  intro _
  have tracks : watched.Tracks codec config := by
    refine run.invariant (fun watched => Watched.Tracks codec config watched)
      ⟨fun _ => opened, fun stale => by cases stale⟩ ?_
    intro watched move after tracks draws moved
    exact tracks.step draws moved
  constructor
  · intro saved
    by_contra unsaved
    obtain ⟨older, outdated, written⟩ := tracks.stale (Bool.eq_true_of_not_eq_false unsaved)
    rw [saved] at written
    obtain ⟨header, entries⟩ := AuditLog.saveTo_inj (Option.some.inj written)
    rcases outdated with shorter | other
    · rw [entries] at shorter
      exact Nat.lt_irrefl _ shorter
    · exact other (by rw [header])
  · exact tracks.clean

/-- A save succeeds exactly if it gets to its rename and syncs the directory. -/
theorem save_isOk {path : Path} {faults : SaveFaults} (bytes : List UInt8) (disk : Disk) :
    (save bytes path faults disk).outcome.isOk = (faults.renames && faults.syncDir.isNone) := by
  have staging := stageFile_isOk faults.temp bytes faults.stage disk
  rw [SaveFaults.renames, ← staging]
  cases metadata : faults.metadata with
  | some message =>
      simp [save, metadata, bind, Crashable.andThen, call, Crashable.ended, Except.isOk,
      Except.toBool]
  | none =>
      cases staged : (stageFile faults.temp bytes faults.stage disk).outcome with
      | error failure =>
          simp [save, metadata, staged, bind, Crashable.andThen, call, Crashable.ended,
          Crashable.final, Except.isOk, Except.toBool]
      | ok value =>
          cases persist : faults.persist <;> cases sync : faults.syncDir <;>
            simp [save, metadata, staged, persist, sync, bind,
              Crashable.andThen, call, callOrRemove, Crashable.ended, Crashable.step,
              Crashable.final, Except.isOk, Except.toBool]

/-- The save of a flush after a run. -/
theorem save_after {crates : Crates} {codec : LogCodec} {config : WriterConfig}
    {start before : Watched} {moves : List WriterMove} {after : AfterFlush}
    (prior : (watchedMachine crates codec config).Runs (DrawsApart config) start moves before)
    (phase : before.writer.phase = .saving after) (faults : SaveFaults)
    (aside : faults.temp ≠ config.path) :
    (watchedMachine crates codec config).Runs (DrawsApart config) start (moves ++ [.save faults])
      (⟨before.writer.save codec config after faults,
        unsavedAfter crates codec config before.writer before.unsaved
          (.save faults)⟩ : Watched) := by
  refine .snoc prior aside ?_
  simp only [watchedMachine, writerStep, phase, Option.map_some]

/-- One event is received and stays pending until the senders are gone. -/
def lastFlush : List WriterMove :=
  [.emit loginEvent, .pollRotation, .pollEvent, .fill, .closeSenders, .pollRotation, .pollEvent,
    .append plainSign "2026-05-01T00:00:02Z"]

/-- The move touches no file. -/
def offDisk : WriterMove → Bool
  | .save _ => false
  | .rotate _ => false
  | _ => true

/-- The event of the last flush is in the file when the writer returns. -/
theorem writer_exit_durable_iff_flushed :
    ∃ watched : Watched, watched.writer.phase = .finished ∧
      watched.writer.ledger.live.log.entries.length = 1 ∧
      watched.writer.ledger.disk (plainConfig 2).path =
        some (watched.writer.ledger.live.log.saveTo cborCodec) := by
  have evaluated : ((watchedMachine plainCrates cborCodec (plainConfig 2)).execChecked
      (fun _ => offDisk) (⟨.spawn plainLog plainDisk, false⟩ : Watched) lastFlush).any
        (fun watched => watched.writer.phase = .saving .stop ∧
          watched.writer.ledger.live.log.entries.length = 1) = true := by
    decide +kernel
  obtain ⟨before, executed, facts⟩ := (Option.any_eq_true _ _).mp evaluated
  obtain ⟨saving, one⟩ := of_decide_eq_true facts
  have prior : (watchedMachine plainCrates cborCodec (plainConfig 2)).Runs
      (DrawsApart (plainConfig 2)) (⟨.spawn plainLog plainDisk, false⟩ : Watched)
        lastFlush before := by
    refine (Machine.Runs.of_execChecked executed).mono ?_
    intro watched move checked
    cases move with
    | save faults => cases checked
    | rotate env => cases checked
    | _ => trivial
  have run := save_after prior saving (.none "audit.tmp") (by decide)
  have finished : (before.writer.save cborCodec (plainConfig 2) .stop (.none "audit.tmp")).phase =
      .finished := by
    rw [Writer.save]
    split <;> rfl
  refine ⟨_, finished, ?_, (writer_exit_durable_iff plainCrates cborCodec (plainConfig 2) rfl run
    finished).mpr (Bool.and_false _)⟩
  rw [Writer.save_ledger]
  exact one

/-- A save fails, nothing more is pending when the writer returns, and the entry
stays in memory although a save would now succeed. -/
theorem writer_exit_loses_entry :
    ∃ (moves : List WriterMove) (writer : Writer),
      (writerMachine plainCrates cborCodec (plainConfig 1)).Runs
        (writerMachine plainCrates cborCodec (plainConfig 1)).Free
        (.spawn plainLog plainDisk : Writer) moves writer ∧
      writer.phase = .finished ∧
      (writer.ledger.save cborCodec (plainConfig 1).path (.none "audit.tmp")).2.isOk = true ∧
      writer.ledger.live.log.entries.length = 1 ∧
      writer.ledger.disk (plainConfig 1).path = some (plainLog.saveTo cborCodec) ∧
      writer.ledger.disk (plainConfig 1).path ≠
        some (writer.ledger.live.log.saveTo cborCodec) := by
  have evaluated : ((writerMachine plainCrates cborCodec (plainConfig 1)).exec
      (.spawn plainLog plainDisk : Writer)
      [.emit loginEvent, .pollRotation, .pollEvent, .fill,
        .append plainSign "2026-05-01T00:00:02Z", .save fullDisk, .closeSenders, .pollRotation,
        .pollEvent]).any
        (fun writer => writer.phase = .finished ∧ writer.ledger.live.log.entries.length = 1 ∧
          writer.ledger.disk (plainConfig 1).path = some (plainLog.saveTo cborCodec)) = true := by
    decide +kernel
  obtain ⟨writer, executed, facts⟩ := (Option.any_eq_true _ _).mp evaluated
  obtain ⟨finished, one, stale⟩ := of_decide_eq_true facts
  refine ⟨_, writer, .of_exec executed, finished, ?_, one, stale, ?_⟩
  · exact save_isOk (writer.ledger.live.log.saveTo cborCodec) writer.ledger.disk
  · intro saved
    rw [stale] at saved
    obtain ⟨_, entries⟩ := AuditLog.saveTo_inj (Option.some.inj saved)
    rw [← entries] at one
    cases one

end CofreSoberano.Channel
