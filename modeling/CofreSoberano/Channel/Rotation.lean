import CofreSoberano.Channel.FileSystem

/-!
# Rotating a live log

`perform_rotation` prepares both segments on a snapshot of the live log,
publishes the sealed one, replaces the current file by the new one, and only
then replaces the log in memory. The crash triple of its file script says what
stands at the two paths wherever it is cut off.
-/

namespace CofreSoberano.Channel

open CofreSoberano.Std CofreSoberano.Audit

/-- A rotation request; the reply channel plays no part. -/
structure RotationRequest where
  archivePath : Path
  newLabel : String
deriving DecidableEq

/-- What one rotation meets: the signers its factory makes, the draws and
signatures of `rotate_to`, a file that another process creates at the archive
path after the first look, and the faults of every file operation. -/
structure RotationEnv where
  newSigner : Except String Signer
  snapshotSigner : Except String Signer
  draws : RotationDraws
  appears : Option (List UInt8)
  archiveTemp : Path
  stage : StageFaults
  publish : Option String
  syncArchiveDir : Option String
  saving : SaveFaults

/-- The sealed log and its successor, prepared on a snapshot of the live log. -/
def prepareRotation (crates : Crates) (codec : LogCodec) (log : AuditLog) (req : RotationRequest)
    (env : RotationEnv) : Except String (AuditLog × AuditLog) := do
  let newSigner ← env.newSigner.mapError fun failure => s!"signer factory failed: {failure}"
  let snapshot := log.saveTo codec
  let candidate ← (AuditLog.readFrom crates codec snapshot).mapError fun failure =>
    s!"read rotation snapshot: {failure.display}"
  let snapshotSigner ← env.snapshotSigner.mapError fun failure => s!"snapshot signer: {failure}"
  let (candidate, bound) := candidate.bindSigner crates snapshotSigner
  bound.mapError fun failure => s!"bind snapshot signer: {failure.display}"
  (candidate.rotateTo crates newSigner req.newLabel "" env.draws).mapError fun failure =>
    s!"rotate_to: {failure.display}"

/-- A file that another process creates at a path where none was. -/
def Disk.interfere (disk : Disk) (path : Path) (appears : Option (List UInt8)) : Disk :=
  match appears with
  | none => disk
  | some bytes => if (disk path).isSome then disk else disk.put path bytes

/-- A file can only appear where none was. -/
theorem Disk.Shows.interfere {current archive : Path} {atCurrent : Option (List UInt8)}
    {disk : Disk}
    (shows : Disk.Shows current archive atCurrent none disk) (apart : archive ≠ current)
    (appears : Option (List UInt8)) :
    Disk.Shows current archive atCurrent appears (disk.interfere archive appears) := by
  obtain ⟨sameCurrent, absent⟩ := shows
  cases appears with
  | none => exact ⟨sameCurrent, absent⟩
  | some bytes =>
      simp only [Disk.interfere, absent, Option.isSome_none, Bool.false_eq_true, if_false]
      exact ⟨by rw [Disk.put, if_neg (Ne.symm apart), sameCurrent], by simp [Disk.put]⟩

/-- Publish the sealed log without clobbering, then replace the current file. -/
def publishSegments (codec : LogCodec) (current : Path) (req : RotationRequest) (env : RotationEnv)
    (closed newOpen : AuditLog) : FileScript Unit := do
  Crashable.step (·.interfere req.archivePath env.appears)
  stageFile env.archiveTemp (closed.saveTo codec) (env.stage.describe
    (fun failure => s!"stage archive {req.archivePath}: {failure}")
    (fun failure => s!"write archive {req.archivePath}: {failure}")
    (fun failure => s!"sync archive: {failure}"))
  persistNoclobber env.archiveTemp req.archivePath env.publish
    fun failure => s!"publish archive {req.archivePath}: {failure}"
  call (env.syncArchiveDir.map fun failure => s!"sync archive directory: {failure}")
  save (newOpen.saveTo codec) current
    (env.saving.describe fun failure => s!"save new log to {current}: {failure}")

/-- The fallible part of `perform_rotation`, returning the log to commit. -/
def rotationScript (crates : Crates) (codec : LogCodec) (hasFactory : Bool) (log : AuditLog)
    (current : Path) (req : RotationRequest) (env : RotationEnv) : FileScript AuditLog := do
  Crashable.query fun disk =>
    if (disk req.archivePath).isSome then
      .error s!"archive_path {req.archivePath} already exists; refusing to overwrite"
    else if hasFactory then .ok ()
    else .error "channel was spawned without a SignerFactory; rotation unsupported"
  let (closed, newOpen) ← Crashable.ended (prepareRotation crates codec log req env)
  publishSegments codec current req env closed newOpen
  return newOpen

/-- A rotation as the writer sees it. -/
structure RotationResult where
  passed : List Disk
  disk : Disk
  log : AuditLog
  rotations : Nat
  outcome : Except String Unit

/-- `perform_rotation`: the live log and the metric change only after everything
is on disk. -/
def performRotation (crates : Crates) (codec : LogCodec) (hasFactory : Bool) (log : AuditLog)
    (rotations : Nat) (current : Path) (req : RotationRequest) (env : RotationEnv) (disk : Disk) :
    RotationResult :=
  let script := rotationScript crates codec hasFactory log current req env
  let passage := script disk
  match passage.outcome with
  | .error failure =>
      { passed := passage.passed, disk := script.final disk, log, rotations
        outcome := .error failure }
  | .ok newOpen =>
      { passed := passage.passed, disk := script.final disk, log := newOpen
        rotations := rotations + 1, outcome := .ok () }

/-- The signers that a rotation uses keep the contract of their trait. -/
structure RotationEnv.KeepsContract (crates : Crates) (env : RotationEnv) : Prop where
  wellFormed : ∀ signer, env.newSigner = .ok signer →
    signer.publicKey.bytes.length = publicKeyLen
  opening : ∀ signer, env.newSigner = .ok signer →
    env.draws.signOpen.Honours crates signer.publicKey
  closing : ∀ signer, env.snapshotSigner = .ok signer →
    env.draws.signClose.Honours crates signer.publicKey

/-- What a rotation was prepared from: a snapshot of the live log that is sound,
because binding its signer verified it, and that `rotate_to` was applied to. -/
theorem prepareRotation_cases {crates : Crates} {codec : LogCodec} {log closed newOpen : AuditLog}
    {req : RotationRequest} {env : RotationEnv}
    (prepared : prepareRotation crates codec log req env = .ok (closed, newOpen)) :
    ∃ (candidate : AuditLog) (newSigner snapshotSigner : Signer),
      env.newSigner = .ok newSigner ∧ env.snapshotSigner = .ok snapshotSigner ∧
      candidate.header = log.header ∧ candidate.entries = log.entries ∧
      candidate.Sound crates ∧ snapshotSigner.publicKey = log.header.pubkey ∧
      candidate.rotateTo crates newSigner req.newLabel "" env.draws = .ok (closed, newOpen) := by
  obtain ⟨newSigner, made, prepared⟩ := bind_eq_ok.mp prepared
  obtain ⟨snapshot, read, prepared⟩ := bind_eq_ok.mp prepared
  obtain ⟨snapshotSigner, alsoMade, prepared⟩ := bind_eq_ok.mp prepared
  rw [mapError_eq_ok] at made read alsoMade
  rw [AuditLog.readFrom_saveTo] at read
  cases valid : validateHeader log.header with
  | error failure => simp [valid, Except.map] at read
  | ok value =>
      simp only [valid, Except.map, Except.ok.injEq] at read
      subst read
      rcases AuditLog.bindSigner_cases crates (log.reopened crates) snapshotSigner with
        ⟨failure, failed⟩ | ⟨sameKey, verified, changed⟩
      · simp only [failed] at prepared
        cases prepared
      · simp only [changed] at prepared
        obtain ⟨_, _, rotated⟩ := bind_eq_ok.mp prepared
        rw [mapError_eq_ok] at rotated
        obtain ⟨_, header, linked⟩ := bind_eq_ok.mp verified
        refine ⟨{ log.reopened crates with signer := some snapshotSigner }, newSigner,
          snapshotSigner, made, alsoMade, rfl, rfl, ?_, sameKey, rotated⟩
        refine ⟨header, linked, rfl, ?_⟩
        rintro signer ⟨⟩
        exact sameKey

/-- The segments of a prepared rotation: the live log with its closing entry, and a
successor with a drawn id that holds its opening entry. -/
structure Rotates (crates : Crates) (log closed newOpen : AuditLog) (env : RotationEnv) : Prop where
  header : closed.header = log.header
  closing : ∃ last, closed.entries = log.entries ++ [last] ∧
    last.event.action = rotationCloseAction
  opening : ∃ first, newOpen.entries = [first] ∧ first.event.action = rotationOpenAction
  logId : newOpen.header.logId = env.draws.logId
  linked : Linked crates closed newOpen

theorem prepareRotation_rotates {crates : Crates} {codec : LogCodec} {log closed newOpen : AuditLog}
    {req : RotationRequest} {env : RotationEnv}
    (prepared : prepareRotation crates codec log req env = .ok (closed, newOpen)) :
    Rotates crates log closed newOpen env := by
  obtain ⟨candidate, _, _, _, _, sameHeader, sameEntries, _, _, rotated⟩ :=
    prepareRotation_cases prepared
  have linked := AuditLog.linked_of_rotateTo rotated
  obtain ⟨newLogId, _, _, _, chosen, _, _, rfl, _, rfl⟩ := AuditLog.rotateTo_cases rotated
  have drawn : env.draws.logId = newLogId := by
    simpa [chooseLogId] using chosen
  refine ⟨sameHeader, ⟨_, congrArg (· ++ [_]) sameEntries, ?_⟩,
    ⟨_, rfl, ?_⟩, drawn.symm, linked⟩
  · rfl
  · rfl

/-- Under the signers' contract both segments of a prepared rotation are sound. -/
theorem prepareRotation_sound {crates : Crates} {codec : LogCodec} {log closed newOpen : AuditLog}
    {req : RotationRequest} {env : RotationEnv} (keeps : env.KeepsContract crates)
    (prepared : prepareRotation crates codec log req env = .ok (closed, newOpen)) :
    closed.Sound crates ∧ newOpen.Sound crates := by
  obtain ⟨candidate, newSigner, snapshotSigner, made, alsoMade, sameHeader, _, sound, sameKey,
    rotated⟩ := prepareRotation_cases prepared
  have closeHonours : env.draws.signClose.Honours crates candidate.header.pubkey := by
    rw [sameHeader, ← sameKey]
    exact keeps.closing snapshotSigner alsoMade
  exact sound.rotateTo (keeps.wellFormed newSigner made) closeHonours
    (keeps.opening newSigner made) rotated

/-- How far the files of a rotation have come. -/
inductive Staged (current archive : Path) (appears : Option (List UInt8))
    (atCurrent : Option (List UInt8)) (closed newOpen : List UInt8) (disk : Disk) : Prop where
  /-- Only another process has put a file at the archive path. -/
  | waiting (shows : Disk.Shows current archive atCurrent appears disk)
  /-- The sealed log is published. -/
  | archived (free : appears = none)
      (shows : Disk.Shows current archive atCurrent (some closed) disk)
  /-- The current file is replaced too. -/
  | switched (free : appears = none)
      (shows : Disk.Shows current archive (some newOpen) (some closed) disk)

/-- Publishing goes through the stages in their order. -/
theorem publishSegments_triple (codec : LogCodec) {current : Path} {req : RotationRequest}
    {env : RotationEnv} {atCurrent : Option (List UInt8)} (closed newOpen : AuditLog)
    (apart : req.archivePath ≠ current)
    (asideStage : Aside current req.archivePath env.archiveTemp)
    (asideSave : Aside current req.archivePath env.saving.temp) :
    Crashable.Triple (Disk.Shows current req.archivePath atCurrent none)
      (Staged current req.archivePath env.appears atCurrent (closed.saveTo codec)
        (newOpen.saveTo codec))
      (fun _ disk => env.appears = none ∧ Disk.Shows current req.archivePath
        (some (newOpen.saveTo codec)) (some (closed.saveTo codec)) disk)
      (publishSegments codec current req env closed newOpen) := by
  rw [publishSegments]
  refine .andThen (fun _ => Disk.Shows current req.archivePath atCurrent env.appears) (.step ?_)
    fun _ => ?_
  · intro disk shows
    have appeared := shows.interfere apart env.appears
    exact ⟨.waiting appeared, appeared⟩
  refine .andThen _ ((stageFile_triple asideStage _ _).weaken fun _ => .waiting) fun _ => ?_
  refine .andThen _ ((persistNoclobber_triple asideStage apart _ _ _).weaken ?_) fun _ => ?_
  · rintro disk (shows | ⟨free, shows⟩)
    · exact .waiting shows
    · exact .archived free shows
  refine .andThen _ (call_triple _) fun _ => .assuming fun free => ?_
  refine ((save_triple (env.saving.describe _) asideSave apart (newOpen.saveTo codec)).weaken
    ?_).returning fun _ _ shows => And.intro free shows
  rintro disk (shows | shows)
  · exact .archived free shows
  · exact .switched free shows

/-- Before anything is published a rotation has only looked at the files. -/
theorem rotationScript_looks {req : RotationRequest} {disk : Disk} (hasFactory : Bool)
    (crash : Disk → Prop) (other : Path) :
    Crashable.Triple (· = disk) crash
      (fun _ now => disk req.archivePath = none ∧
        Disk.Shows other req.archivePath (disk other) none now)
      (Crashable.query fun now =>
        if (now req.archivePath).isSome then
          .error s!"archive_path {req.archivePath} already exists; refusing to overwrite"
        else if hasFactory then .ok ()
        else .error "channel was spawned without a SignerFactory; rotation unsupported" :
        FileScript Unit) := by
  refine .query ?_
  rintro now value rfl looked
  split at looked
  · cases looked
  · rename_i absent
    have absent : now req.archivePath = none := by simpa using absent
    exact ⟨absent, rfl, absent⟩

/-- What a rotation leaves behind wherever it stops: the files as they were, or
the stages of a prepared rotation to a path where nothing was. -/
theorem rotationScript_triple (crates : Crates) (codec : LogCodec) (hasFactory : Bool)
    (log : AuditLog) {current : Path} {req : RotationRequest} {env : RotationEnv} (disk : Disk)
    (apart : req.archivePath ≠ current)
    (asideStage : Aside current req.archivePath env.archiveTemp)
    (asideSave : Aside current req.archivePath env.saving.temp) :
    Crashable.Triple (· = disk)
      (fun now => disk req.archivePath = none ∧ ∃ closed newOpen,
        prepareRotation crates codec log req env = .ok (closed, newOpen) ∧
        Staged current req.archivePath env.appears (disk current) (closed.saveTo codec)
          (newOpen.saveTo codec) now)
      (fun newOpen now => disk req.archivePath = none ∧ env.appears = none ∧ ∃ closed,
        prepareRotation crates codec log req env = .ok (closed, newOpen) ∧
        Disk.Shows current req.archivePath (some (newOpen.saveTo codec))
          (some (closed.saveTo codec)) now)
      (rotationScript crates codec hasFactory log current req env) := by
  rw [rotationScript]
  refine .andThen _ (rotationScript_looks hasFactory _ current) fun _ => ?_
  refine .assuming fun absent => ?_
  refine .andThen (fun segments now => prepareRotation crates codec log req env = .ok segments ∧
    Disk.Shows current req.archivePath (disk current) none now)
    (.ended fun _ _ shows prepared => ⟨prepared, shows⟩) ?_
  rintro ⟨closed, newOpen⟩
  refine .assuming fun prepared => ?_
  refine .andThen _ ((publishSegments_triple codec closed newOpen apart asideStage
    asideSave).weaken fun _ staged => ⟨absent, closed, newOpen, prepared, staged⟩) fun _ => ?_
  refine .ended ?_
  rintro _ _ ⟨free, shows⟩ ⟨⟩
  exact ⟨absent, free, closed, prepared, shows⟩

/-- The outcome, log, metric and files of a rotation in terms of its script. -/
theorem performRotation_cases (crates : Crates) (codec : LogCodec) (hasFactory : Bool)
    (log : AuditLog) (rotations : Nat) (current : Path) (req : RotationRequest) (env : RotationEnv)
    (disk : Disk) :
    let script := rotationScript crates codec hasFactory log current req env
    let result := performRotation crates codec hasFactory log rotations current req env disk
    result.passed = (script disk).passed ∧ result.disk = script.final disk ∧
      ((∃ failure, result.outcome = .error failure ∧ (script disk).outcome = .error failure ∧
          result.log = log ∧ result.rotations = rotations) ∨
        ∃ newOpen, result.outcome = .ok () ∧ (script disk).outcome = .ok newOpen ∧
          result.log = newOpen ∧ result.rotations = rotations + 1) := by
  simp only [performRotation]
  split
  · rename_i failure failed
    exact ⟨rfl, rfl, .inl ⟨failure, rfl, failed, rfl, rfl⟩⟩
  · rename_i newOpen returned
    exact ⟨rfl, rfl, .inr ⟨newOpen, rfl, returned, rfl, rfl⟩⟩

/-- A rotation that returns an error keeps the log; one that succeeds switches to
the successor that it prepared. -/
theorem performRotation_log (crates : Crates) (codec : LogCodec) (hasFactory : Bool)
    (log : AuditLog) (rotations : Nat) (current : Path) (req : RotationRequest) (env : RotationEnv)
    (disk : Disk) :
    let result := performRotation crates codec hasFactory log rotations current req env disk
    (∃ failure, result.outcome = .error failure ∧ result.log = log) ∨
      ∃ closed, result.outcome = .ok () ∧
        prepareRotation crates codec log req env = .ok (closed, result.log) := by
  have triple : Crashable.Triple (fun _ => True) (fun _ => True)
      (fun newOpen _ => ∃ closed, prepareRotation crates codec log req env =
        .ok (closed, newOpen))
      (rotationScript crates codec hasFactory log current req env) := by
    rw [rotationScript]
    refine .andThen (fun _ _ => True) (.query fun _ _ _ _ => trivial) fun _ => ?_
    refine .andThen (fun segments _ => prepareRotation crates codec log req env =
      .ok segments ∧ True) (.ended fun _ _ _ prepared => ⟨prepared, trivial⟩) ?_
    rintro ⟨closed, newOpen⟩
    refine .assuming fun prepared => .andThen (fun _ _ => True) ?_ fun _ => .ended ?_
    · exact fun _ _ => ⟨fun _ _ => trivial, fun _ _ => trivial⟩
    · rintro _ _ _ ⟨⟩
      exact ⟨closed, prepared⟩
  rcases (performRotation_cases crates codec hasFactory log rotations current req env disk).2.2 with
    ⟨failure, failed, _, sameLog, _⟩ | ⟨newOpen, succeeded, returned, newLog, _⟩
  · exact .inl ⟨failure, failed, sameLog⟩
  · obtain ⟨closed, prepared⟩ := (triple disk trivial).2 newOpen returned
    exact .inr ⟨closed, succeeded, newLog ▸ prepared⟩

/-- If the directory of the current file is synced, publishing fails only before that file is
replaced. -/
theorem publishSegments_stops (codec : LogCodec) {current : Path} {req : RotationRequest}
    {env : RotationEnv} {atCurrent : Option (List UInt8)} (closed newOpen : AuditLog)
    (synced : env.saving.syncDir = none) (apart : req.archivePath ≠ current)
    (asideStage : Aside current req.archivePath env.archiveTemp)
    (asideSave : Aside current req.archivePath env.saving.temp) :
    Crashable.Stops (Disk.Shows current req.archivePath atCurrent none)
      (fun disk => disk current = atCurrent)
      (publishSegments codec current req env closed newOpen) := by
  have appearing : Crashable.Triple (Disk.Shows current req.archivePath atCurrent none)
      (fun disk => disk current = atCurrent)
      (fun _ => Disk.Shows current req.archivePath atCurrent env.appears)
      (Crashable.step (·.interfere req.archivePath env.appears) : FileScript Unit) :=
    .step fun disk shows =>
      ⟨(shows.interfere apart env.appears).1, shows.interfere apart env.appears⟩
  have staging := @stageFile_triple _ _ _ atCurrent env.appears asideStage (closed.saveTo codec)
    (env.stage.describe (fun failure => s!"stage archive {req.archivePath}: {failure}")
      (fun failure => s!"write archive {req.archivePath}: {failure}")
      (fun failure => s!"sync archive: {failure}"))
  have publishing := @persistNoclobber_triple _ _ _ atCurrent env.appears asideStage apart
    (closed.saveTo codec) env.publish
    fun failure => s!"publish archive {req.archivePath}: {failure}"
  have syncing := @call_triple
    (fun disk => env.appears = none ∧
      Disk.Shows current req.archivePath atCurrent (some (closed.saveTo codec)) disk)
    (fun disk => disk current = atCurrent)
    (env.syncArchiveDir.map fun failure => s!"sync archive directory: {failure}")
  rw [publishSegments]
  refine .andThen _ (appearing.stops (fun _ shows => shows.1) fun _ same => same) appearing
    fun _ => ?_
  refine .andThen _ (staging.stops (fun _ shows => shows.1) fun _ shows => shows.1) staging
    fun _ => ?_
  refine .andThen _ (publishing.stops (fun _ staged => staged.1.1) ?_) publishing fun _ => ?_
  · rintro disk (shows | ⟨_, shows⟩)
    · exact shows.1
    · exact shows.1
  refine .andThen _ (syncing.stops (fun _ shows => shows.2.1) fun _ same => same) syncing
    fun _ => ?_
  intro disk shows failure failed
  have describedSync : (env.saving.describe fun failure =>
      s!"save new log to {current}: {failure}").syncDir = none := by
    rw [SaveFaults.describe, synced, Option.map_none]
  exact (save_stops _ describedSync asideSave _ disk shows.2 failure failed).1

/-- Publishing leaves every other file as it was. -/
theorem publishSegments_spares (codec : LogCodec) {current other : Path} {req : RotationRequest}
    {env : RotationEnv} {content : Option (List UInt8)} (closed newOpen : AuditLog)
    (notCurrent : other ≠ current) (notArchive : other ≠ req.archivePath)
    (asideStage : Aside other req.archivePath env.archiveTemp) (notTemp : env.saving.temp ≠ other)
    (notSave : env.saving.temp ≠ current) :
    Crashable.Triple (Disk.Shows other req.archivePath content none)
      (fun disk => disk other = content) (fun _ disk => disk other = content)
      (publishSegments codec current req env closed newOpen) := by
  rw [publishSegments]
  refine .andThen (fun _ => Disk.Shows other req.archivePath content env.appears)
    (.step fun disk shows => ?_) fun _ => ?_
  · exact ⟨(shows.interfere (Ne.symm notArchive) env.appears).1,
      shows.interfere (Ne.symm notArchive) env.appears⟩
  refine .andThen _ ((stageFile_triple asideStage _ _).weaken fun _ shows => shows.1) fun _ => ?_
  refine .andThen (fun _ disk => disk other = content)
    (((persistNoclobber_triple asideStage (Ne.symm notArchive) _ _ _).weaken ?_).returning
      fun _ _ published => published.2.1) fun _ => ?_
  · rintro disk (shows | ⟨_, shows⟩)
    · exact shows.1
    · exact shows.1
  refine .andThen _ (call_triple _) fun _ => ?_
  intro disk same
  have saving := save_triple (env.saving.describe fun failure =>
    s!"save new log to {current}: {failure}") ⟨notSave, notTemp⟩ notCurrent
      (newOpen.saveTo codec)
    disk ⟨rfl, same⟩
  refine ⟨fun now member => ?_, fun value ended => (saving.2 value ended).2⟩
  rcases saving.1 now member with shows | shows
  · exact shows.2
  · exact shows.2

/-- A rotation to a path where a file is does nothing. -/
theorem rotationScript_refuses (crates : Crates) (codec : LogCodec) (hasFactory : Bool)
    (log : AuditLog) (current : Path) {req : RotationRequest} (env : RotationEnv) {disk : Disk}
    (occupied : (disk req.archivePath).isSome = true) :
    rotationScript crates codec hasFactory log current req env disk =
      ⟨[], .error
        s!"archive_path {req.archivePath} already exists; refusing to overwrite"⟩ := by
  simp only [rotationScript, bind, Crashable.andThen, Crashable.query, occupied, if_true]

section Preparation

variable (crates : Crates) (codec : LogCodec) (hasFactory : Bool) (log : AuditLog)
  {current other : Path} {req : RotationRequest} {env : RotationEnv} {disk : Disk}

/-- If the directory of the current file is synced, a rotation fails only before that file is
replaced. -/
theorem rotationScript_stops (synced : env.saving.syncDir = none)
    (apart : req.archivePath ≠ current)
    (asideStage : Aside current req.archivePath env.archiveTemp)
    (asideSave : Aside current req.archivePath env.saving.temp) :
    Crashable.Stops (· = disk) (fun now => now current = disk current)
      (rotationScript crates codec hasFactory log current req env) := by
  have looking := @rotationScript_looks req disk hasFactory (fun now => now current = disk current)
    current
  rw [rotationScript]
  refine .andThen _ (looking.stops (by rintro _ rfl; rfl) fun _ same => same) looking fun _ => ?_
  have preparing : Crashable.Triple
      (fun now => disk req.archivePath = none ∧
        Disk.Shows current req.archivePath (disk current) none now)
      (fun now => now current = disk current)
      (fun _ now => Disk.Shows current req.archivePath (disk current) none now)
      (Crashable.ended (prepareRotation crates codec log req env) : FileScript _) :=
    .ended fun _ _ shows _ => shows.2
  refine .andThen _ (preparing.stops (fun _ shows => shows.2.1) fun _ same => same) preparing ?_
  rintro ⟨closed, newOpen⟩
  have publishing := @publishSegments_triple codec current req env (disk current) closed newOpen
    apart asideStage asideSave
  refine .andThen _ (publishSegments_stops codec closed newOpen synced apart asideStage asideSave)
    publishing fun _ => ?_
  rintro now _ failure ⟨⟩

/-- A rotation leaves every other file as it was. -/
theorem rotationScript_spares (notCurrent : other ≠ current)
    (notArchive : other ≠ req.archivePath)
    (asideStage : Aside other req.archivePath env.archiveTemp) (notTemp : env.saving.temp ≠ other)
    (notSave : env.saving.temp ≠ current) :
    Crashable.Triple (· = disk) (fun now => now other = disk other)
      (fun _ now => now other = disk other)
      (rotationScript crates codec hasFactory log current req env) := by
  rw [rotationScript]
  refine .andThen _ (rotationScript_looks hasFactory _ other) fun _ => ?_
  refine .andThen (fun _ now => Disk.Shows other req.archivePath (disk other) none now)
    (.ended fun _ _ shows _ => shows.2) ?_
  rintro ⟨closed, newOpen⟩
  refine .andThen _ (publishSegments_spares codec closed newOpen notCurrent notArchive asideStage
    notTemp notSave) fun _ => ?_
  exact .ended fun _ _ same _ => same

end Preparation

/-- What a rotation prepares on a sound log with its own key is what `rotate_to` makes of
it. -/
theorem prepareRotation_of_sound {crates : Crates} {codec : LogCodec} {log : AuditLog}
    {req : RotationRequest} {env : RotationEnv} {newSigner snapshotSigner : Signer}
    (sound : log.Sound crates) (made : env.newSigner = .ok newSigner)
    (alsoMade : env.snapshotSigner = .ok snapshotSigner)
    (sameKey : snapshotSigner.publicKey.bytes = log.header.pubkey.bytes)
    {segments : AuditLog × AuditLog}
    (rotated : { log with signer := some snapshotSigner }.rotateTo crates newSigner req.newLabel ""
      env.draws = .ok segments) :
    prepareRotation crates codec log req env = .ok segments := by
  obtain ⟨candidate, read, isCandidate, again⟩ := sound.readFrom codec
  have bound : candidate.bindSigner crates snapshotSigner =
      ({ log with signer := some snapshotSigner }, .ok ()) := by
    have same : ¬ snapshotSigner.publicKey.bytes ≠ candidate.header.pubkey.bytes := by
      rw [isCandidate]
      exact not_not.mpr sameKey
    rw [AuditLog.bindSigner, if_neg same, again.verify, isCandidate]
  simp only [prepareRotation, made, alsoMade, read, Except.mapError, bind,
    Except.bind, bound, rotated]

/-- No file operation of a rotation fails, and no other process is in its way. -/
structure RotationEnv.Faultless (env : RotationEnv) (temp : Path) : Prop where
  appears : env.appears = none
  stage : env.stage = .none
  publish : env.publish = none
  syncArchiveDir : env.syncArchiveDir = none
  saving : env.saving = .none temp

/-- Publishing without faults returns. -/
theorem publishSegments_returns (codec : LogCodec) {current temp : Path} {req : RotationRequest}
    {env : RotationEnv} {atCurrent : Option (List UInt8)} (closed newOpen : AuditLog)
    (faultless : env.Faultless temp) (apart : req.archivePath ≠ current)
    (asideStage : Aside current req.archivePath env.archiveTemp)
    (asideSave : Aside current req.archivePath temp) :
    Crashable.Returns (Disk.Shows current req.archivePath atCurrent none)
      (fun _ _ => True) (publishSegments codec current req env closed newOpen) := by
  obtain ⟨appears, stage, publish, syncArchiveDir, saving⟩ := faultless
  simp only [publishSegments, appears, stage, publish, syncArchiveDir, saving]
  refine .andThen (fun _ => Disk.Shows current req.archivePath atCurrent none)
    (fun disk shows => ⟨(), rfl, shows⟩) fun _ => ?_
  refine .andThen _ (stageFile_returns asideStage (closed.saveTo codec)) fun _ => ?_
  refine .andThen _ (persistNoclobber_returns asideStage apart _ _) fun _ => ?_
  refine .andThen (fun _ => Disk.Shows current req.archivePath atCurrent
    (some (closed.saveTo codec))) (fun disk shows => ⟨(), rfl, shows⟩) fun _ => ?_
  intro disk shows
  obtain ⟨value, ended, _⟩ := save_returns asideSave apart (newOpen.saveTo codec) disk shows
  exact ⟨value, ended, trivial⟩

/-- A prepared rotation without faults succeeds if nothing stands at the archive path. -/
theorem performRotation_succeeds {crates : Crates} {codec : LogCodec}
    {log closed newOpen : AuditLog}
    (rotations : Nat) (current : Path) {temp : Path} {req : RotationRequest} {env : RotationEnv}
    {disk : Disk} (prepared : prepareRotation crates codec log req env = .ok (closed, newOpen))
    (absent : disk req.archivePath = none) (faultless : env.Faultless temp)
    (apart : req.archivePath ≠ current)
    (asideStage : Aside current req.archivePath env.archiveTemp)
    (asideSave : Aside current req.archivePath temp) :
    let result := performRotation crates codec true log rotations current req env disk
    result.outcome = .ok () ∧ result.log = newOpen ∧ result.rotations = rotations + 1 := by
  have returns : Crashable.Returns (Disk.Shows current req.archivePath (disk current) none)
      (fun value _ => value = newOpen)
      (rotationScript crates codec true log current req env) := by
    have later : Crashable.Returns (Disk.Shows current req.archivePath (disk current) none)
        (fun value _ => value = newOpen)
        (publishSegments codec current req env closed newOpen >>= fun _ => pure newOpen) :=
      .andThen _ (publishSegments_returns codec closed newOpen faultless apart asideStage asideSave)
        fun _ _ _ => ⟨newOpen, rfl, rfl⟩
    rw [rotationScript]
    refine .andThen (fun _ => Disk.Shows current req.archivePath (disk current) none) ?_ fun _ => ?_
    · intro now shows
      exact ⟨(), by simp [Crashable.query, shows.2], shows⟩
    refine .andThen (fun segments now => segments = (closed, newOpen) ∧
      Disk.Shows current req.archivePath (disk current) none now)
      (fun now shows => ⟨_, prepared, rfl, shows⟩) ?_
    rintro segments now ⟨rfl, shows⟩
    exact later now shows
  obtain ⟨value, returned, rfl⟩ := returns disk ⟨rfl, absent⟩
  rcases (performRotation_cases crates codec true log rotations current req env disk).2.2 with
    ⟨_, _, failed, _⟩ | ⟨newOpen, succeeded, same, newLog, counted⟩
  · rw [failed] at returned
    cases returned
  · rw [same] at returned
    cases returned
    exact ⟨succeeded, newLog, counted⟩

/-- An entry of the log in the file at a path. -/
def Disk.Holds (crates : Crates) (codec : LogCodec) (disk : Disk) (path : Path) (entry : LogEntry) :
    Prop :=
  ∃ bytes log, disk path = some bytes ∧ AuditLog.readFrom crates codec bytes = .ok log ∧
    entry ∈ log.entries

/-- A file that holds a whole log, which is read back and verifies. -/
def Disk.Complete (crates : Crates) (codec : LogCodec) (disk : Disk) (path : Path) : Prop :=
  ∃ (segment opened : AuditLog), disk path = some (segment.saveTo codec) ∧
    AuditLog.readFrom crates codec (segment.saveTo codec) = .ok opened ∧
    opened.entries = segment.entries ∧ opened.verify crates = .ok ()

/-- A file written from a sound log is complete and holds its entries. -/
theorem Disk.complete_of_sound {crates : Crates} {codec : LogCodec} {disk : Disk} {path : Path}
    {segment : AuditLog} (sound : segment.Sound crates)
    (written : disk path = some (segment.saveTo codec)) :
    disk.Complete crates codec path ∧ ∀ entry ∈ segment.entries,
    disk.Holds crates codec path entry := by
  obtain ⟨opened, read, same, openedSound⟩ := sound.readFrom codec
  have entries : opened.entries = segment.entries := by rw [same]
  refine ⟨⟨segment, opened, written, read, entries, openedSound.verify⟩, ?_⟩
  intro entry member
  exact ⟨_, opened, written, read, entries ▸ member⟩

/-- A file saved from an earlier or the present state of the live log. -/
def SavedFrom (codec : LogCodec) (log : AuditLog) (bytes : List UInt8) : Prop :=
  ∃ earlier : AuditLog, earlier.header = log.header ∧ earlier.entries <+: log.entries ∧
    bytes = earlier.saveTo codec

/-- A file saved from an earlier state holds only entries of the live log. -/
theorem SavedFrom.holds {crates : Crates} {codec : LogCodec} {log : AuditLog} {disk : Disk}
    {path : Path} (saved : ∀ bytes, disk path = some bytes → SavedFrom codec log bytes)
    {entry : LogEntry} (holds : disk.Holds crates codec path entry) : entry ∈ log.entries := by
  obtain ⟨bytes, opened, written, read, member⟩ := holds
  obtain ⟨earlier, _, before, rfl⟩ := saved bytes written
  rw [AuditLog.readFrom_saveTo] at read
  cases valid : validateHeader earlier.header with
  | error failure => simp [valid, Except.map] at read
  | ok value =>
      simp only [valid, Except.map, Except.ok.injEq] at read
      subst read
      exact before.subset member

/-- What holds of the files at every point of a rotation. -/
structure CrashSafe (crates : Crates) (codec : LogCodec) (current archive : Path)
    (appears : Option (List UInt8)) (before now : Disk) : Prop where
  /-- No entry of the current file is lost. -/
  entries : ∀ entry, before.Holds crates codec current entry →
    now.Holds crates codec current entry ∨ now.Holds crates codec archive entry
  /-- A file published at the current path is complete. -/
  replaced : now current = before current ∨ now.Complete crates codec current
  /-- So is one published at the archive path, which only another process can
  otherwise have changed. -/
  archived : now archive = before archive ∨ now archive = appears ∨
    now.Complete crates codec archive
  /-- A file at the archive path from before the call stays. -/
  existing : (before archive).isSome → now archive = before archive
  /-- So does one that appears there during the call. -/
  appearing : appears.isSome → now archive = before archive ∨ now archive = appears

/-- Every stage of a prepared rotation is safe. -/
theorem Staged.crashSafe {crates : Crates} {codec : LogCodec} {log closed newOpen : AuditLog}
    {current archive : Path} {appears : Option (List UInt8)} {before now : Disk}
    (saved : ∀ bytes, before current = some bytes → SavedFrom codec log bytes)
    (absent : before archive = none) (closedSound : closed.Sound crates)
    (openSound : newOpen.Sound crates) (inArchive : log.entries <+: closed.entries)
    (staged : Staged current archive appears (before current) (closed.saveTo codec)
      (newOpen.saveTo codec) now) :
    CrashSafe crates codec current archive appears before now := by
  have unoccupied : (before archive).isSome → now archive = before archive := by simp [absent]
  have archived : now archive = some (closed.saveTo codec) → now.Complete crates codec archive ∧
      ∀ entry, before.Holds crates codec current entry →
        now.Holds crates codec archive entry := by
    intro written
    obtain ⟨complete, holds⟩ := Disk.complete_of_sound closedSound written
    exact ⟨complete, fun entry held => holds entry
      (inArchive.subset (SavedFrom.holds saved held))⟩
  cases staged with
  | waiting shows =>
      refine ⟨?_, .inl shows.1, .inr (.inl shows.2), unoccupied, fun _ => .inr shows.2⟩
      rintro entry ⟨bytes, log, written, read, member⟩
      exact .inl ⟨bytes, log, shows.1.trans written, read, member⟩
  | archived free shows =>
      obtain ⟨complete, holds⟩ := archived shows.2
      exact ⟨fun entry held => .inr (holds entry held), .inl shows.1, .inr (.inr complete),
        unoccupied, by simp [free]⟩
  | switched free shows =>
      obtain ⟨complete, holds⟩ := archived shows.2
      exact ⟨fun entry held => .inr (holds entry held),
        .inr (Disk.complete_of_sound openSound shows.1).1, .inr (.inr complete), unoccupied,
        by simp [free]⟩

/-- Nothing is lost where nothing was changed. -/
theorem CrashSafe.refl (crates : Crates) (codec : LogCodec) (current archive : Path)
    (appears : Option (List UInt8)) (disk : Disk) :
    CrashSafe crates codec current archive appears disk disk :=
  ⟨fun _ => .inl, .inl rfl, .inl rfl, fun _ => rfl, fun _ => .inl rfl⟩

/-- An error of a rotation leaves the live log and the metric alone, and its files
are safe at every point where it can stop. -/
theorem performRotation_atomic (crates : Crates) (codec : LogCodec) (hasFactory : Bool)
    (log : AuditLog) (rotations : Nat) (current : Path) (req : RotationRequest) (env : RotationEnv)
    (disk : Disk) (apart : req.archivePath ≠ current)
    (asideStage : Aside current req.archivePath env.archiveTemp)
    (asideSave : Aside current req.archivePath env.saving.temp)
    (keeps : env.KeepsContract crates)
    (saved : ∀ bytes, disk current = some bytes → SavedFrom codec log bytes) :
    let result := performRotation crates codec hasFactory log rotations current req env disk
    (∀ failure, result.outcome = .error failure → result.log = log ∧
      result.rotations = rotations) ∧ result.disk ∈ disk :: result.passed ∧
      ∀ now ∈ disk :: result.passed,
        CrashSafe crates codec current req.archivePath env.appears disk now := by
  intro result
  obtain ⟨passed, final, ended⟩ := performRotation_cases crates codec hasFactory log rotations
    current req env disk
  refine ⟨?_, ?_, ?_⟩
  · intro failure failed
    rcases ended with ⟨_, _, _, sameLog, sameMetric⟩ | ⟨_, succeeded, _⟩
    · exact ⟨sameLog, sameMetric⟩
    · rw [show result.outcome = .ok () from succeeded] at failed
      cases failed
  · rw [show result.disk = _ from final, show result.passed = _ from passed]
    exact Crashable.final_mem _ disk
  · intro now member
    rcases List.mem_cons.mp member with rfl | later
    · exact .refl crates codec current req.archivePath env.appears now
    · rw [show result.passed = _ from passed] at later
      obtain ⟨absent, closed, newOpen, prepared, staged⟩ := (rotationScript_triple crates codec
        hasFactory log disk apart asideStage asideSave disk rfl).1 now later
      obtain ⟨closedSound, openSound⟩ := prepareRotation_sound keeps prepared
      obtain ⟨last, entries, _⟩ := (prepareRotation_rotates prepared).closing
      exact staged.crashSafe saved absent closedSound openSound (entries ▸ List.prefix_append _ _)

/-- A request of the transparent primitives. -/
def plainRequest : RotationRequest := { archivePath := "audit-1.qa", newLabel := "gateway-1" }

/-- A rotation of the transparent primitives in which nothing fails. -/
def plainRotation : RotationEnv where
  newSigner := .ok plainSigner
  snapshotSigner := .ok plainSigner
  draws := { logId := .replicate 16 2, clock := fun _ => "2026-05-01T00:00:09Z"
             signClose := plainSign, signOpen := plainSign }
  appears := none
  archiveTemp := ".tmpA"
  stage := .none
  publish := none
  syncArchiveDir := none
  saving := .none ".tmpB"

theorem plainRotation_faultless : plainRotation.Faultless ".tmpB" := ⟨rfl, rfl, rfl, rfl, rfl⟩

theorem plainRotation_keeps : plainRotation.KeepsContract plainCrates := by
  refine ⟨?_, ?_, ?_⟩
  · rintro signer ⟨⟩
    exact plainSigner_wellFormed
  · rintro signer ⟨⟩
    exact plainSign_honours
  · rintro signer ⟨⟩
    exact plainSign_honours

/-- A log with one entry, saved at the current path, whose rotation cannot sync the
directory of the archive. -/
theorem performRotation_atomic_unsynced :
    let log := (plainLog.append plainCrates loginEvent plainSign "2026-05-01T00:00:02Z").1
    let env := { plainRotation with syncArchiveDir := some "Input/output error" }
    let disk : Disk := fun path => if path = "audit.qa" then some (log.saveTo cborCodec) else none
    let result := performRotation plainCrates cborCodec true log 0 "audit.qa" plainRequest env disk
    ∀ now ∈ disk :: result.passed,
      CrashSafe plainCrates cborCodec "audit.qa" "audit-1.qa" none disk now := by
  intro log env disk result
  have keeps : env.KeepsContract plainCrates :=
    ⟨plainRotation_keeps.1, plainRotation_keeps.2, plainRotation_keeps.3⟩
  have saved : ∀ bytes, disk "audit.qa" = some bytes → SavedFrom cborCodec log bytes := by
    rintro bytes ⟨⟩
    exact ⟨log, rfl, List.prefix_refl _, rfl⟩
  exact (performRotation_atomic plainCrates cborCodec true log 0 "audit.qa" plainRequest env disk
    (by decide) ⟨by decide, by decide⟩ ⟨by decide, by decide⟩ keeps saved).2.2

end CofreSoberano.Channel
