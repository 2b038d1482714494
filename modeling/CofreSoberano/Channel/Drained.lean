import CofreSoberano.Channel.Fifo

/-!
# A writer that has returned

The writer returns after the last sender is gone and the queue is empty, with a
last flush. If appends and saves succeed, every event that was ever accepted is then
in a segment, the file of the log is the live one, and the sealed segments stand in
their archives. Rotations can fail, but not after they replaced the current file.
-/

namespace CofreSoberano.Channel

open CofreSoberano.Std CofreSoberano.Audit

/-- The append or the save of a move succeeds. A rotation may fail, but then before it
replaced the current file: only the sync of its directory comes after that. Temporary
names are drawn where no file is. -/
def Succeeds (crates : Crates) (codec : LogCodec) (config : WriterConfig) (writer : Writer) :
    WriterMove → Prop
  | .append sign _ => ∀ next rest, writer.ledger.pending = next :: rest →
      writer.ledger.live.log.signs crates next.event sign = true
  | .save faults => writer.ledger.disk faults.temp = none ∧
      (writer.ledger.save codec config.path faults).2.isOk = true
  | .rotate env => env.saving.syncDir = none ∧ writer.ledger.disk env.archiveTemp = none ∧
      writer.ledger.disk env.saving.temp = none ∧
      ∀ req, writer.phase = .rotating req →
        env.archiveTemp ≠ req.archivePath ∧ env.saving.temp ≠ req.archivePath
  | _ => True

/-- Everything that was accepted is in a segment, under its own ticket. The file at the
log's path is the live log, and every sealed segment is the file at another path. -/
structure Writer.Persisted (codec : LogCodec) (config : WriterConfig) (writer : Writer) : Prop where
  logged : ∀ ticket event, writer.ledger.accepted[ticket]? = some event →
    ∃ segment ∈ writer.ledger.live :: writer.ledger.sealed,
      ∃ (index : Nat) (entry : LogEntry), segment.origins[index]? = some (some ticket) ∧
        segment.log.entries[index]? = some entry ∧ entry.event = event
  saved : writer.ledger.disk config.path = some (writer.ledger.live.log.saveTo codec)
  archived : ∀ segment ∈ writer.ledger.sealed, ∃ archive ≠ config.path,
    writer.ledger.disk archive = some (segment.log.saveTo codec)

/-- Between two flushes. -/
def Phase.settled : Phase → Bool
  | .flushing _ => false
  | .saving _ => false
  | _ => true

/-- After the senders are gone. -/
def Phase.stopping : Phase → Bool
  | .flushing .stop => true
  | .saving .stop => true
  | .finished => true
  | _ => false

/-- What the writer keeps while everything succeeds. -/
structure Writer.Kept (codec : LogCodec) (config : WriterConfig) (writer : Writer) : Prop where
  saved : writer.phase.settled = true →
    writer.ledger.disk config.path = some (writer.ledger.live.log.saveTo codec)
  emptied : ∀ after, writer.phase = .saving after → writer.ledger.pending = []
  closed : writer.phase.stopping = true → writer.sendersOpen = false ∧ writer.ledger.queue = []
  flushed : writer.phase = .finished → writer.ledger.pending = []
  undropped : writer.ledger.dropped = []

/-- The triples of the file scripts speak of a second path. Where only one matters,
any that differs from it and from the temporary name will do. -/
theorem exists_other_path (path temp : Path) : ∃ other, other ≠ path ∧ temp ≠ other := by
  have lengths : (path ++ temp ++ ".").length = path.length + temp.length + 1 := by
    rw [String.length_append, String.length_append]
    rfl
  refine ⟨path ++ temp ++ ".", ?_, ?_⟩
  · intro same
    rw [same] at lengths
    omega
  · intro same
    rw [← same] at lengths
    omega

/-- A successful save puts the file at its path. -/
theorem save_written {bytes : List UInt8} {path : Path} {faults : SaveFaults} {disk : Disk}
    (aside : faults.temp ≠ path) (succeeded : (save bytes path faults disk).outcome.isOk = true) :
    (save bytes path faults).final disk path = some bytes := by
  obtain ⟨other, apart, notTemp⟩ := exists_other_path path faults.temp
  have triple : Crashable.Triple (Disk.Shows path other (disk path) (disk other)) _
      (fun _ => Disk.Shows path other (some bytes) _)
      (save bytes path faults) := save_triple faults ⟨aside, notTemp⟩ apart bytes
  cases ended : (save bytes path faults disk).outcome with
  | error failure => simp [ended, Except.isOk, Except.toBool] at succeeded
  | ok value => exact ((triple disk ⟨rfl, rfl⟩).2 value ended).1

/-- A save leaves every other file as it was. -/
theorem save_spares {bytes : List UInt8} {path other : Path} {faults : SaveFaults} {disk : Disk}
    (aside : Aside path other faults.temp) (apart : other ≠ path) :
    (save bytes path faults).final disk other = disk other := by
  have triple : Crashable.Triple (Disk.Shows path other (disk path) (disk other)) _
      (fun _ => Disk.Shows path other (some bytes) _)
      (save bytes path faults) := save_triple faults aside apart bytes
  rcases List.mem_cons.mp (Crashable.final_mem (save bytes path faults) disk) with same | passed
  · rw [same]
  · rcases (triple disk ⟨rfl, rfl⟩).1 _ passed with shows | shows
    · exact shows.2
    · exact shows.2

/-- How a rotation ends if it does not fail after replacing the current file. -/
inductive Rotated (crates : Crates) (codec : LogCodec) (log : AuditLog) (current : Path)
    (req : RotationRequest) (env : RotationEnv) (disk : Disk) (result : RotationResult) : Prop where
  | failed {failure : String} (outcome : result.outcome = .error failure)
      (sameLog : result.log = log) (sameFile : result.disk current = disk current)
  | succeeded {closed : AuditLog} (outcome : result.outcome = .ok ())
      (prepared : prepareRotation crates codec log req env = .ok (closed, result.log))
      (written : result.disk current = some (result.log.saveTo codec))
      (apart : req.archivePath ≠ current)
      (archived : result.disk req.archivePath = some (closed.saveTo codec))

section RotationFiles

variable (crates : Crates) (codec : LogCodec) (hasFactory : Bool) (log : AuditLog) (rotations : Nat)
  {current : Path} {req : RotationRequest} {env : RotationEnv} {disk : Disk}

/-- What a rotation that succeeds leaves on disk. -/
theorem performRotation_published (present : (disk current).isSome = true)
    (asideStage : Aside current req.archivePath env.archiveTemp)
    (asideSave : Aside current req.archivePath env.saving.temp)
    (succeeded : (performRotation crates codec hasFactory log rotations current req env
      disk).outcome = .ok ()) :
    Rotated crates codec log current req env disk
      (performRotation crates codec hasFactory log rotations current req env disk) := by
  obtain ⟨_, final, outcome⟩ :=
    performRotation_cases crates codec hasFactory log rotations current req env disk
  rcases outcome with ⟨_, failed, _⟩ | ⟨_, _, returned, newLog, _⟩
  · rw [failed] at succeeded
    cases succeeded
  · -- The archive path was free, so it is not the path of the log.
    have apart : req.archivePath ≠ current := by
      intro same
      rw [rotationScript_refuses crates codec hasFactory log current env (same ▸ present)]
        at returned
      cases returned
    obtain ⟨_, _, closed, prepared, shows⟩ := (rotationScript_triple crates codec hasFactory log
      disk apart asideStage asideSave disk rfl).2 _ returned
    refine .succeeded succeeded (newLog ▸ prepared) ?_ apart ?_
    · rw [final, newLog]
      exact shows.1
    · rw [final]
      exact shows.2

/-- A rotation of a log that is saved. -/
theorem performRotation_rotated (present : (disk current).isSome = true)
    (synced : env.saving.syncDir = none)
    (asideStage : Aside current req.archivePath env.archiveTemp)
    (asideSave : Aside current req.archivePath env.saving.temp) :
    Rotated crates codec log current req env disk
      (performRotation crates codec hasFactory log rotations current req env disk) := by
  obtain ⟨_, final, outcome⟩ :=
    performRotation_cases crates codec hasFactory log rotations current req env disk
  rcases outcome with ⟨failure, failed, stopped, sameLog, _⟩ | ⟨_, succeeded, _⟩
  · refine .failed failed sameLog ?_
    rw [final]
    cases occupied : (disk req.archivePath).isSome with
    | true =>
        rw [Crashable.final,
          rotationScript_refuses crates codec hasFactory log current env occupied]
        rfl
    | false =>
        have apart : req.archivePath ≠ current := by
          rintro same
          rw [same, present] at occupied
          cases occupied
        exact rotationScript_stops crates codec hasFactory log synced apart asideStage asideSave
          disk rfl failure stopped
  · exact performRotation_published crates codec hasFactory log rotations present asideStage
      asideSave succeeded

/-- A rotation leaves every other file as it was. -/
theorem performRotation_spares {other : Path} (stands : (disk other).isSome = true)
    (notCurrent : other ≠ current) (asideStage : Aside other req.archivePath env.archiveTemp)
    (asideSave : Aside current other env.saving.temp) :
    (performRotation crates codec hasFactory log rotations current req env disk).disk other =
      disk other := by
  rw [(performRotation_cases crates codec hasFactory log rotations current req env disk).2.1]
  by_cases same : other = req.archivePath
  · rw [Crashable.final, rotationScript_refuses crates codec hasFactory log current
      env (same ▸ stands)]
    rfl
  · have spares := rotationScript_spares crates codec hasFactory log notCurrent same asideStage
      asideSave.2 asideSave.1 disk rfl
    rcases List.mem_cons.mp (Crashable.final_mem (rotationScript crates codec hasFactory log current
      req env) disk) with unchanged | passed
    · rw [unchanged]
    · exact spares.1 _ passed

end RotationFiles

/-- The log and the files after a rotation are what it made of them. -/
theorem Writer.rotate_ledger (crates : Crates) (codec : LogCodec) (config : WriterConfig)
    (writer : Writer) (req : RotationRequest) (env : RotationEnv) :
    let result := performRotation crates codec config.hasFactory writer.ledger.live.log
      writer.auditRotations config.path req env writer.ledger.disk
    (writer.rotate crates codec config req env).ledger.disk = result.disk ∧
      (writer.rotate crates codec config req env).ledger.live.log = result.log ∧
      (writer.rotate crates codec config req env).ledger.dropped = writer.ledger.dropped := by
  simp only [Writer.rotate, Ledger.rotated]
  split
  · exact ⟨rfl, rfl, rfl⟩
  · split <;> exact ⟨rfl, rfl, rfl⟩

/-- The current file stands, and every sealed segment is the file at another path. -/
structure Writer.OnDisk (codec : LogCodec) (config : WriterConfig) (writer : Writer) : Prop where
  present : (writer.ledger.disk config.path).isSome = true
  archived : ∀ segment ∈ writer.ledger.sealed, ∃ archive ≠ config.path,
    writer.ledger.disk archive = some (segment.log.saveTo codec)

/-- A name where no file is is not the name of a file. -/
theorem Disk.ne_of_free {disk : Disk} {free taken : Path} (absent : disk free = none)
    (stands : (disk taken).isSome = true) : free ≠ taken := by
  rintro rfl
  rw [absent] at stands
  cases stands

namespace Writer.OnDisk

variable {crates : Crates} {codec : LogCodec} {config : WriterConfig} {writer next : Writer}

/-- A move that leaves every file but the current one as it was, with an archive for what
it seals. -/
theorem move (onDisk : writer.OnDisk codec config)
    (present : (next.ledger.disk config.path).isSome = true)
    (spares : ∀ other ≠ config.path, (writer.ledger.disk other).isSome = true →
      next.ledger.disk other = writer.ledger.disk other)
    (fresh : ∀ segment ∈ next.ledger.sealed, segment ∈ writer.ledger.sealed ∨
      ∃ archive ≠ config.path, next.ledger.disk archive = some (segment.log.saveTo codec)) :
    next.OnDisk codec config := by
  refine ⟨present, fun segment member => ?_⟩
  rcases fresh segment member with old | new
  · obtain ⟨archive, apart, written⟩ := onDisk.archived segment old
    refine ⟨archive, apart, ?_⟩
    rw [spares archive apart (by rw [written]; rfl), written]
  · exact new

/-- The save of a flush. -/
theorem saving {after : AfterFlush} {faults : SaveFaults} (onDisk : writer.OnDisk codec config)
    (succeeds : Succeeds crates codec config writer (.save faults)) :
    (writer.save codec config after faults).OnDisk codec config := by
  obtain ⟨free, succeeded⟩ := succeeds
  have aside := Disk.ne_of_free free onDisk.present
  refine onDisk.move ?_ ?_ fun segment member => .inl ?_
  · rw [Writer.save_ledger]
    exact Option.isSome_of_eq_some (save_written aside succeeded)
  · intro other apart stands
    rw [Writer.save_ledger]
    exact save_spares ⟨aside, Disk.ne_of_free free stands⟩ apart
  · rw [Writer.save_ledger] at member
    exact member

/-- A rotation. -/
theorem rotating {req : RotationRequest} {env : RotationEnv} (onDisk : writer.OnDisk codec config)
    (phase : writer.phase = .rotating req)
    (succeeds : Succeeds crates codec config writer (.rotate env)) :
    (writer.rotate crates codec config req env).OnDisk codec config := by
  obtain ⟨synced, freeStage, freeSave, notArchive⟩ := succeeds
  obtain ⟨asideStage, asideSave⟩ := notArchive req phase
  have notCurrent := Disk.ne_of_free freeSave onDisk.present
  have rotated := performRotation_rotated crates codec config.hasFactory writer.ledger.live.log
    writer.auditRotations onDisk.present synced
    ⟨Disk.ne_of_free freeStage onDisk.present, asideStage⟩ ⟨notCurrent, asideSave⟩
  obtain ⟨disk, _⟩ := writer.rotate_ledger crates codec config req env
  refine onDisk.move ?_ ?_ ?_
  · rw [disk]
    cases rotated with
    | failed _ _ sameFile =>
        rw [sameFile]
        exact onDisk.present
    | succeeded _ _ written => exact Option.isSome_of_eq_some written
  · intro other apart stands
    rw [disk]
    exact performRotation_spares crates codec config.hasFactory writer.ledger.live.log
      writer.auditRotations stands apart ⟨Disk.ne_of_free freeStage stands, asideStage⟩
      ⟨notCurrent, Disk.ne_of_free freeSave stands⟩
  · intro segment member
    rw [disk]
    cases rotated with
    | failed outcome _ _ =>
        left
        simp only [Writer.rotate, Ledger.rotated, outcome] at member
        split at member <;> exact member
    | succeeded outcome prepared _ apart archived =>
        simp only [Writer.rotate, Ledger.rotated, prepared, outcome, List.mem_append,
          List.mem_singleton] at member
        rcases member with old | rfl
        · exact .inl old
        · exact .inr ⟨req.archivePath, apart, archived⟩

/-- The step lemma. -/
theorem step {move : WriterMove} (onDisk : writer.OnDisk codec config)
    (succeeds : Succeeds crates codec config writer move)
    (moved : writerStep crates codec config writer move = some next) :
    next.OnDisk codec config := by
  have unmoved : next.ledger.disk = writer.ledger.disk →
      next.ledger.sealed = writer.ledger.sealed → next.OnDisk codec config := by
    intro disk segments
    refine onDisk.move (disk ▸ onDisk.present) (fun other _ _ => by rw [disk]) ?_
    exact fun segment member => .inl (segments ▸ member)
  cases move with
  | save faults =>
      simp only [writerStep] at moved
      split at moved
      · cases moved
        exact onDisk.saving succeeds
      · cases moved
  | rotate env =>
      simp only [writerStep] at moved
      split at moved
      · rename_i req phase
        cases moved
        exact onDisk.rotating phase succeeds
      · cases moved
  | _ =>
      have ledger := writerStep_ledger moved
      generalize writer.ledger = before, next.ledger = after at ledger unmoved
      cases ledger <;> exact unmoved rfl rfl

end Writer.OnDisk

namespace Writer.Kept

variable {crates : Crates} {codec : LogCodec} {config : WriterConfig} {writer next : Writer}

/-- Where the writer goes after a flush that left the log saved. -/
theorem leave (after : AfterFlush)
    (saved : writer.ledger.disk config.path = some (writer.ledger.live.log.saveTo codec))
    (emptied : writer.ledger.pending = []) (undropped : writer.ledger.dropped = [])
    (closed : after = .stop → writer.sendersOpen = false ∧ writer.ledger.queue = []) :
    (writer.leaveFlush after).Kept codec config := by
  cases after with
  | rotate req =>
      exact ⟨fun _ => saved, by simp [leaveFlush], by simp [leaveFlush, Phase.stopping],
      by simp [leaveFlush], undropped⟩
  | fill => exact ⟨fun _ => saved, by simp [leaveFlush, storeEntries],
      by simp [leaveFlush, storeEntries, Phase.stopping], by simp [leaveFlush, storeEntries],
      undropped⟩
  | select => exact ⟨fun _ => saved, by simp [leaveFlush, storeEntries],
      by simp [leaveFlush, storeEntries, Phase.stopping], by simp [leaveFlush, storeEntries],
      undropped⟩
  | stop =>
      exact ⟨fun _ => saved, fun _ _ => emptied, fun _ => closed rfl,
        fun _ => emptied, undropped⟩

/-- A state inside a flush. -/
theorem inside (after : AfterFlush)
    (phase : writer.phase = .flushing after ∨
      writer.phase = .saving after ∧ writer.ledger.pending = [])
    (closed : after = .stop → writer.sendersOpen = false ∧ writer.ledger.queue = [])
    (undropped : writer.ledger.dropped = []) : writer.Kept codec config := by
  have stopping : writer.phase.stopping = true → after = .stop := by
    rcases phase with flushing | ⟨saving, _⟩
    · rw [flushing]
      cases after <;> simp [Phase.stopping]
    · rw [saving]
      cases after <;> simp [Phase.stopping]
  rcases phase with flushing | ⟨saving, emptied⟩
  · exact ⟨by simp [flushing, Phase.settled], by simp [flushing],
      fun stops => closed (stopping stops), by simp [flushing], undropped⟩
  · exact ⟨by simp [saving, Phase.settled], fun _ _ => emptied,
      fun stops => closed (stopping stops), by simp [saving], undropped⟩

/-- A flush that begins between two flushes. -/
theorem enter (kept : writer.Kept codec config) (settled : writer.phase.settled = true)
    (after : AfterFlush)
    (closed : after = .stop → writer.sendersOpen = false ∧ writer.ledger.queue = []) :
    (writer.enterFlush after).Kept codec config := by
  rw [enterFlush]
  split
  · rename_i empty
    exact leave after (kept.saved settled) (by simpa using empty) kept.undropped closed
  · exact inside after (.inl rfl) closed kept.undropped

/-- A move between two flushes that leaves the log and its file alone. -/
theorem wander (kept : writer.Kept codec config) (settled : writer.phase.settled = true)
    (live : next.ledger.live = writer.ledger.live) (disk : next.ledger.disk = writer.ledger.disk)
    (dropped : next.ledger.dropped = writer.ledger.dropped)
    (goesOn : next.phase.settled = true ∧ next.phase.stopping = false) :
    next.Kept codec config where
  saved := by
    intro _
    rw [live, disk]
    exact kept.saved settled
  emptied := by
    intro after saving
    rw [saving] at goesOn
    cases goesOn.1
  closed := by
    intro stopping
    rw [goesOn.2] at stopping
    cases stopping
  flushed := by
    intro finished
    rw [finished] at goesOn
    cases goesOn.2
  undropped := dropped.trans kept.undropped

/-- A move of a client. -/
theorem client (kept : writer.Kept codec config) (phase : next.phase = writer.phase)
    (live : next.ledger.live = writer.ledger.live) (disk : next.ledger.disk = writer.ledger.disk)
    (pending : next.ledger.pending = writer.ledger.pending)
    (dropped : next.ledger.dropped = writer.ledger.dropped)
    (closed : writer.phase.stopping = true → writer.sendersOpen = false →
      next.sendersOpen = false ∧ next.ledger.queue = writer.ledger.queue) :
    next.Kept codec config where
  saved := by
    rw [phase, live, disk]
    exact kept.saved
  emptied := by
    rw [phase, pending]
    exact kept.emptied
  closed := by
    rw [phase]
    intro stopping
    obtain ⟨gone, empty⟩ := kept.closed stopping
    obtain ⟨stays, same⟩ := closed stopping gone
    exact ⟨stays, same.trans empty⟩
  flushed := by
    rw [phase, pending]
    exact kept.flushed
  undropped := dropped.trans kept.undropped

/-- One turn of the append loop that commits its event. -/
theorem appending {after : AfterFlush} {sign : SignCall} {now : Timestamp}
    (kept : writer.Kept codec config) (flushing : writer.phase = .flushing after)
    (succeeds : Succeeds crates codec config writer (.append sign now))
    (moved : writer.append crates after sign now = some next) : next.Kept codec config := by
  simp only [Writer.append] at moved
  split at moved
  · cases moved
  · rename_i first rest batch
    have signed := succeeds first rest batch
    rw [← AuditLog.append_isOk crates _ _ _ now] at signed
    split at moved
    · cases moved
      have closed : after = .stop → writer.sendersOpen = false ∧ writer.ledger.queue = [] := by
        rintro rfl
        exact kept.closed (by rw [flushing]; rfl)
      refine inside after ?_ closed kept.undropped
      by_cases last : rest.isEmpty
      · exact .inr ⟨if_pos last, List.isEmpty_iff.mp last⟩
      · exact .inl (if_neg last)
    · rename_i failed
      rw [failed] at signed
      cases signed

/-- The save of a flush. -/
theorem saving {after : AfterFlush} {faults : SaveFaults} (kept : writer.Kept codec config)
    (onDisk : writer.OnDisk codec config) (phase : writer.phase = .saving after)
    (succeeds : Succeeds crates codec config writer (.save faults)) :
    (writer.save codec config after faults).Kept codec config := by
  obtain ⟨free, succeeded⟩ := succeeds
  have written := save_written (Disk.ne_of_free free onDisk.present)
    (show (Channel.save (writer.ledger.live.log.saveTo codec)
    config.path faults writer.ledger.disk).outcome.isOk = true from succeeded)
  have emptied := kept.emptied after phase
  have closed : after = .stop → writer.sendersOpen = false ∧ writer.ledger.queue = [] := by
    rintro rfl
    exact kept.closed (by rw [phase]; rfl)
  rw [Writer.save]
  split
  · rename_i ledger value outcome
    have same : ledger = (writer.ledger.save codec config.path faults).1 := by rw [outcome]
    subst same
    exact leave after written emptied kept.undropped closed
  · rename_i ledger failure outcome
    rw [outcome] at succeeded
    cases succeeded

/-- A rotation that does not fail after replacing the file of the log. -/
theorem rotating {req : RotationRequest} {env : RotationEnv} (kept : writer.Kept codec config)
    (phase : writer.phase = .rotating req)
    (rotated : Rotated crates codec writer.ledger.live.log config.path req env writer.ledger.disk
      (performRotation crates codec config.hasFactory writer.ledger.live.log writer.auditRotations
        config.path req env writer.ledger.disk)) :
    (writer.rotate crates codec config req env).Kept codec config := by
  obtain ⟨disk, log, dropped⟩ := writer.rotate_ledger crates codec config req env
  refine ⟨fun _ => ?_, by rintro _ ⟨⟩, by rintro ⟨⟩, by rintro ⟨⟩,
    dropped.trans kept.undropped⟩
  rw [disk, log]
  cases rotated with
  | failed _ sameLog sameFile =>
      rw [sameLog, sameFile]
      exact kept.saved (by rw [phase]; rfl)
  | succeeded _ _ written => exact written

/-- The step lemma: what the writer keeps as long as its moves succeed. -/
theorem step {move : WriterMove} (kept : writer.Kept codec config)
    (onDisk : writer.OnDisk codec config) (succeeds : Succeeds crates codec config writer move)
    (moved : writerStep crates codec config writer move = some next) : next.Kept codec config := by
  cases move with
  | emit event =>
      obtain ⟨sender, ⟨⟩⟩ := Option.ite_none_right_eq_some.mp moved
      rw [Writer.emit]
      split
      · exact kept.client rfl rfl rfl rfl rfl fun _ gone => ⟨gone, rfl⟩
      · refine kept.client rfl rfl rfl rfl rfl fun _ gone => ?_
        rw [sender] at gone
        cases gone
  | closeSenders =>
      obtain ⟨_, ⟨⟩⟩ := Option.ite_none_right_eq_some.mp moved
      exact kept.client rfl rfl rfl rfl rfl fun _ _ => ⟨rfl, rfl⟩
  | requestRotation req =>
      obtain ⟨_, ⟨⟩⟩ := Option.ite_none_right_eq_some.mp moved
      rw [Writer.requestRotation]
      split
      · exact kept
      · exact kept.client rfl rfl rfl rfl rfl fun _ gone => ⟨gone, rfl⟩
  | closeRotations =>
      obtain ⟨_, ⟨⟩⟩ := Option.ite_none_right_eq_some.mp moved
      exact kept.client rfl rfl rfl rfl rfl fun _ gone => ⟨gone, rfl⟩
  | pollRotation =>
      obtain ⟨phase, ⟨⟩⟩ := Option.ite_none_right_eq_some.mp moved
      have settled : writer.phase.settled = true := by rw [phase]; rfl
      rw [Writer.pollRotation]
      split
      · exact kept.wander settled rfl rfl rfl ⟨rfl, rfl⟩
      · split
        · exact kept.wander settled rfl rfl rfl ⟨rfl, rfl⟩
        · exact kept
  | pollEvent =>
      obtain ⟨phase, ⟨⟩⟩ := Option.ite_none_right_eq_some.mp moved
      have settled : writer.phase.settled = true := by rw [phase]; rfl
      rw [Writer.pollEvent]
      split
      · exact kept.wander settled rfl rfl rfl ⟨rfl, rfl⟩
      · rename_i empty
        split
        · exact kept.wander settled rfl rfl rfl ⟨rfl, rfl⟩
        · rename_i gone
          exact kept.enter settled .stop fun _ => ⟨by simpa using gone, empty⟩
  | pollTimer elapsed =>
      obtain ⟨phase, ⟨⟩⟩ := Option.ite_none_right_eq_some.mp moved
      have settled : writer.phase.settled = true := by rw [phase]; rfl
      rw [Writer.pollTimer]
      split
      · exact kept.enter settled .fill (by simp)
      · exact kept.wander settled rfl rfl rfl ⟨rfl, rfl⟩
  | drain =>
      simp only [writerStep] at moved
      split at moved
      · rename_i req phase
        cases moved
        have settled : writer.phase.settled = true := by rw [phase]; rfl
        rw [Writer.drain]
        split
        · exact kept.wander settled rfl rfl rfl (by rw [phase]; exact ⟨rfl, rfl⟩)
        · exact kept.enter settled (.rotate req) (by simp)
      · cases moved
  | append sign now =>
      simp only [writerStep] at moved
      split at moved
      · rename_i after flushing
        exact kept.appending flushing succeeds moved
      · cases moved
  | save faults =>
      simp only [writerStep] at moved
      split at moved
      · rename_i after phase
        cases moved
        exact kept.saving onDisk phase succeeds
      · cases moved
  | rotate env =>
      simp only [writerStep] at moved
      split at moved
      · rename_i req phase
        cases moved
        obtain ⟨synced, freeStage, freeSave, notArchive⟩ := succeeds
        obtain ⟨asideStage, asideSave⟩ := notArchive req phase
        exact kept.rotating phase (performRotation_rotated crates codec config.hasFactory
          writer.ledger.live.log writer.auditRotations onDisk.present synced
          ⟨Disk.ne_of_free freeStage onDisk.present, asideStage⟩
          ⟨Disk.ne_of_free freeSave onDisk.present, asideSave⟩)
      · cases moved
  | fill =>
      obtain ⟨phase, ⟨⟩⟩ := Option.ite_none_right_eq_some.mp moved
      have settled : writer.phase.settled = true := by rw [phase]; rfl
      rw [Writer.fill]
      split
      · exact kept.enter settled .select (by simp)
      · split
        · exact kept.wander settled rfl rfl rfl (by rw [phase]; exact ⟨rfl, rfl⟩)
        · exact kept.wander settled rfl rfl rfl ⟨rfl, rfl⟩

end Writer.Kept

/-- A channel that has just been spawned on a saved log. -/
theorem Writer.kept_spawn (codec : LogCodec) (config : WriterConfig) {log : AuditLog} {disk : Disk}
    (opened : disk config.path = some (log.saveTo codec)) :
    (Writer.spawn log disk).Kept codec config :=
  ⟨fun _ => opened, by rintro _ ⟨⟩, by rintro ⟨⟩, by rintro ⟨⟩, rfl⟩

/-- In every run on a saved log whose appends and saves succeed, a writer that has returned
has persisted everything that was accepted. -/
theorem Writer.persisted_of_finished {crates : Crates} {codec : LogCodec} {config : WriterConfig}
    {log : AuditLog} {disk : Disk} {moves : List WriterMove} {writer : Writer}
    (opened : disk config.path = some (log.saveTo codec))
    (run : (writerMachine crates codec config).Runs (Succeeds crates codec config)
      (.spawn log disk) moves writer)
    (finished : writer.phase = .finished) : writer.Persisted codec config := by
  obtain ⟨onDisk, kept⟩ : writer.OnDisk codec config ∧ writer.Kept codec config := by
    refine run.invariant (fun writer => Writer.OnDisk codec config writer ∧
      Writer.Kept codec config writer) ⟨?_, Writer.kept_spawn codec config opened⟩ ?_
    · exact ⟨Option.isSome_of_eq_some opened, by rintro _ ⟨⟩⟩
    · rintro writer move next ⟨onDisk, kept⟩ succeeds moved
      exact ⟨onDisk.step succeeds moved, kept.step onDisk succeeds moved⟩
  have accounted : writer.ledger.Accounted := by
    refine ledger_invariant Ledger.Accounted (accounted_spawn log disk) ?_ run
    intro writer move ledger accounted succeeds moved
    refine accounted.step ?_ moved
    cases move with
    | append sign now =>
        simp only [failsLast]
        split
        · rfl
        · rename_i next rest batch
          rw [succeeds next rest batch]
          rfl
    | _ => rfl
  refine ⟨?_, kept.saved (by rw [finished]; rfl), onDisk.archived⟩
  intro ticket event found
  have placed : ticket ∈ writer.ledger.places := by
    rw [accounted.places.mem_iff, List.mem_range]
    exact (List.getElem?_eq_some_iff.mp found).1
  simp only [Ledger.places, (kept.closed (by rw [finished]; rfl)).2, kept.flushed finished,
    kept.undropped, List.map_nil, List.nil_append, List.append_nil, List.mem_append,
    List.mem_flatMap] at placed
  have segment : ∃ segment ∈ writer.ledger.live :: writer.ledger.sealed,
      ticket ∈ segment.tickets := by
    rcases placed with live | ⟨segment, older, inside⟩
    · exact ⟨_, List.mem_cons_self, live⟩
    · exact ⟨segment, List.mem_cons_of_mem _ older, inside⟩
  obtain ⟨segment, member, inside⟩ := segment
  refine ⟨segment, member, ?_⟩
  simp only [Segment.tickets, List.mem_filterMap, id_eq, exists_eq_right] at inside
  obtain ⟨index, bound, origin⟩ := List.getElem_of_mem inside
  obtain ⟨lengths, matched⟩ := List.forall₂_iff_get.mp (accounted.logged segment member)
  have entry := matched index bound (lengths ▸ bound) ticket (by simpa using origin)
  refine ⟨index, segment.log.entries.get ⟨index, lengths ▸ bound⟩, ?_, by simp, ?_⟩
  · rw [List.getElem?_eq_some_iff]
    exact ⟨bound, origin⟩
  · rw [found] at entry
    exact (Option.some.inj entry).symm

/-- Only the file of the log stands. -/
def Writer.Lone (config : WriterConfig) (writer : Writer) : Prop :=
  ∀ other ≠ config.path, writer.ledger.disk other = none

/-- A save that succeeds leaves no other file behind. -/
theorem Writer.Lone.saving {codec : LogCodec} {config : WriterConfig} {writer : Writer}
    {after : AfterFlush} {faults : SaveFaults} (lone : writer.Lone config)
    (aside : faults.temp ≠ config.path)
    (succeeded : (writer.ledger.save codec config.path faults).2.isOk = true) :
    (writer.save codec config after faults).Lone config := by
  intro other apart
  rw [Writer.save_ledger]
  by_cases temp : other = faults.temp
  · obtain ⟨archive, archiveApart, notTemp⟩ := exists_other_path config.path faults.temp
    have clears : Crashable.Triple (Disk.Shows config.path archive (writer.ledger.disk config.path)
        (writer.ledger.disk archive)) _ _ (Channel.save (writer.ledger.live.log.saveTo codec)
          config.path faults) := save_clears faults ⟨aside, notTemp⟩ _
    rw [temp]
    exact (clears writer.ledger.disk ⟨rfl, rfl⟩).2 () (eq_ok_of_isOk succeeded)
  · rw [← lone other apart]
    exact save_spares ⟨aside, fun same => temp same.symm⟩ apart

/-- A rotation that gets no signer leaves the files alone. -/
theorem performRotation_refused {crates : Crates} {codec : LogCodec} {hasFactory : Bool}
    {log : AuditLog} {rotations : Nat} {current : Path} {req : RotationRequest} {env : RotationEnv}
    {disk : Disk} {failure : String}
    (refused : prepareRotation crates codec log req env = .error failure) :
    (performRotation crates codec hasFactory log rotations current req env disk).disk = disk := by
  rw [(performRotation_cases crates codec hasFactory log rotations current req env disk).2.1]
  simp only [rotationScript, refused, bind, Crashable.andThen, Crashable.query, Crashable.ended,
    Crashable.final]
  split <;> rfl

/-- What a move of the transparent primitives needs to succeed: its save succeeds, and the
rotation is the one asked for. -/
def plainlySucceeds (writer : Writer) : PlainMove → Bool
  | .quiet (.save faults) => faults.temp ≠ (plainConfig 1).path &&
      (writer.ledger.save cborCodec (plainConfig 1).path faults).2.isOk
  | .refuseRotation => writer.phase = .rotating plainRequest
  | _ => true

/-- The transparent channel on its saved log. -/
def plainDisk : Disk := Disk.put (fun _ => none) (plainConfig 1).path (plainLog.saveTo cborCodec)

/-- An event that is saved, a rotation that fails, and a second one. -/
def drainedByRotation : List PlainMove :=
  [.quiet (.emit loginEvent), .quiet .pollRotation, .quiet .pollEvent, .quiet .fill, .append,
    .quiet (.save (.none ".tmpC")), .quiet (.requestRotation plainRequest), .quiet .pollRotation,
    .quiet .drain, .refuseRotation, .quiet (.requestRotation plainRequest), .quiet .pollRotation,
    .quiet .drain]

/-- Moves that need nothing to succeed. -/
def idles (_ : Writer) : WriterMove → Bool
  | .append _ _ => false
  | .save _ => false
  | .rotate _ => false
  | _ => true

/-- The return of a writer that has nothing to flush. -/
def plainReturn (writer : Writer) : Option Writer :=
  (writerMachine plainCrates cborCodec (plainConfig 1)).execChecked idles writer
    [.closeSenders, .pollRotation, .pollEvent]

/-- The writer when it is about to rotate. -/
def plainDrain : Option Writer :=
  ((writerMachine plainCrates cborCodec (plainConfig 1)).named PlainMove.move).execChecked
    (fun writer move => plainlyUndisturbed writer move && plainlySucceeds writer move)
    (.spawn plainLog plainDisk) drainedByRotation

theorem plainDrain_rotates : plainDrain.any (fun writer => writer.phase = .rotating plainRequest ∧
      writer.ledger.live.log.header.pubkey = plainSigner.publicKey ∧
      (plainSegments writer.ledger.live.log).any (fun segments =>
        (plainReturn (writer.switched segments.1 segments.2)).any fun after =>
          after.phase = .finished ∧ after.ledger.accepted = [loginEvent] ∧
            after.ledger.sealed.length = 1) = true) = true := by
  decide +kernel

/-- The moves of the transparent primitives that succeed while only the file of the log stands. -/
def PlainlyDrains (writer : Writer) (move : WriterMove) : Prop :=
  ∃ name : PlainMove, name.move = move ∧
    (plainlyUndisturbed writer name && plainlySucceeds writer name) = true

theorem PlainlyDrains.undisturbed {writer : Writer} {move : WriterMove}
    (plainly : PlainlyDrains writer move) : Undisturbed plainCrates writer move := by
  obtain ⟨name, rfl, checked⟩ := plainly
  exact undisturbed_of_plainly writer name (Bool.and_eq_true_iff.mp checked).1

theorem PlainlyDrains.succeeds {writer : Writer} {move : WriterMove}
    (lone : writer.Lone (plainConfig 1)) (plainly : PlainlyDrains writer move) :
    Succeeds plainCrates cborCodec (plainConfig 1) writer move := by
  obtain ⟨name, rfl, checked⟩ := plainly
  obtain ⟨undisturbed, succeeds⟩ := Bool.and_eq_true_iff.mp checked
  cases name with
  | quiet move =>
      cases move with
      | save faults =>
          obtain ⟨aside, succeeded⟩ := Bool.and_eq_true_iff.mp succeeds
          exact ⟨lone _ (of_decide_eq_true aside), succeeded⟩
      | append sign now => cases undisturbed
      | rotate env => cases undisturbed
      | _ => trivial
  | append => exact (undisturbed_of_plainly writer .append undisturbed).1
  | refuseRotation =>
      refine ⟨rfl, lone _ (by decide), lone _ (by decide), fun req rotating => ?_⟩
      rw [of_decide_eq_true succeeds] at rotating
      cases rotating
      exact ⟨by decide, by decide⟩

/-- They keep it that way. -/
theorem PlainlyDrains.lone {writer next : Writer} {move : WriterMove}
    (lone : writer.Lone (plainConfig 1)) (plainly : PlainlyDrains writer move)
    (moved : writerStep plainCrates cborCodec (plainConfig 1) writer move = some next) :
    next.Lone (plainConfig 1) := by
  obtain ⟨name, rfl, checked⟩ := plainly
  obtain ⟨undisturbed, succeeds⟩ := Bool.and_eq_true_iff.mp checked
  have unmoved : next.ledger.disk = writer.ledger.disk → next.Lone (plainConfig 1) := by
    intro same other apart
    rw [same]
    exact lone other apart
  cases name with
  | quiet move =>
      cases move with
      | save faults =>
          simp only [PlainMove.move, writerStep] at moved
          split at moved
          · cases moved
            obtain ⟨aside, succeeded⟩ := Bool.and_eq_true_iff.mp succeeds
            exact lone.saving (of_decide_eq_true aside) succeeded
          · cases moved
      | append sign now => cases undisturbed
      | rotate env => cases undisturbed
      | _ =>
          have ledger := writerStep_ledger moved
          generalize writer.ledger = before, next.ledger = after at ledger unmoved
          cases ledger <;> exact unmoved rfl
  | append =>
      have ledger := writerStep_ledger moved
      generalize writer.ledger = before, next.ledger = after at ledger unmoved
      cases ledger <;> exact unmoved rfl
  | refuseRotation =>
      simp only [PlainMove.move, writerStep, of_decide_eq_true succeeds] at moved
      cases moved
      refine unmoved ?_
      rw [(writer.rotate_ledger _ _ _ _ _).1]
      exact performRotation_refused rfl

/-- The channel on its saved log drains an event into an archive. -/
theorem plainDrain_runs : ∃ (moves : List WriterMove) (writer : Writer),
    (writerMachine plainCrates cborCodec (plainConfig 1)).Runs
      (Succeeds plainCrates cborCodec (plainConfig 1)) (.spawn plainLog plainDisk) moves writer ∧
    writer.phase = .finished ∧ writer.ledger.accepted = [loginEvent] ∧
      writer.ledger.sealed.length = 1 := by
  obtain ⟨before, executed, facts⟩ := (Option.any_eq_true _ _).mp plainDrain_rotates
  obtain ⟨rotating, sameKey, rotates⟩ := of_decide_eq_true facts
  obtain ⟨⟨closed, newOpen⟩, rotated, later⟩ := (Option.any_eq_true _ _).mp rotates
  obtain ⟨after, goesOn, results⟩ := (Option.any_eq_true _ _).mp later
  have drains : ∀ (writer : Writer) (name : PlainMove),
      (plainlyUndisturbed writer name && plainlySucceeds writer name) = true →
        PlainlyDrains writer name.move := fun _ name checked => ⟨name, rfl, checked⟩
  have run := Machine.Runs.of_execNamed drains executed
  have alone : (Writer.spawn plainLog plainDisk).Lone (plainConfig 1) := by
    intro other apart
    simp [Writer.spawn, plainDisk, Disk.put, apart]
  have lone := run.invariant (Writer.Lone (plainConfig 1)) alone PlainlyDrains.lone
  have sound := (inOrder_of_runs plainSigner_wellFormed
    (run.mono fun _ _ => PlainlyDrains.undisturbed)).2.sound before.ledger.live.log
      (by simp [Ledger.logs])
  have prepared : prepareRotation plainCrates cborCodec before.ledger.live.log plainRequest
      plainRotation = .ok (closed, newOpen) :=
    prepareRotation_of_sound sound rfl rfl (congrArg PublicKey.bytes sameKey.symm)
      (eq_ok_of_toOption rotated)
  have moved : writerStep plainCrates cborCodec (plainConfig 1) before (.rotate plainRotation) =
      some (before.switched closed newOpen) := by
    rw [writerStep, rotating, ← rotate_switched prepared (lone _ (by decide))]
  have succeeds : Succeeds plainCrates cborCodec (plainConfig 1) before
      (.rotate plainRotation) := by
    refine ⟨rfl, lone _ (by decide), lone _ (by decide), fun req asked => ?_⟩
    rw [rotating] at asked
    cases asked
    exact ⟨by decide, by decide⟩
  have idle : ∀ (writer : Writer) (move : WriterMove), idles writer move = true →
      Succeeds plainCrates cborCodec (plainConfig 1) writer move := by
    intro writer move checked
    cases move with
    | append sign now => cases checked
    | save faults => cases checked
    | rotate env => cases checked
    | _ => trivial
  have writes := (run.strengthen _ alone PlainlyDrains.lone).mono
    fun _ _ plainly => plainly.2.succeeds plainly.1
  exact ⟨_, after, (writes.snoc succeeds moved).trans
    ((Machine.Runs.of_execChecked goesOn).mono idle), of_decide_eq_true results⟩

end CofreSoberano.Channel
