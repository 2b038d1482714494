import Mathlib.Logic.Function.Basic
import CofreSoberano.Channel.Accounting

/-!
# Published log files

A rotation that fails after publishing its archive leaves it in place for
recovery and goes on with the live log, whose next entry then has the index of
the archive's closing entry. Apart from the closing entries of such stray
archives, all files with one log id are stages of one history.
-/

namespace CofreSoberano.Channel

open CofreSoberano.Std CofreSoberano.Audit

/-- The id of a published log. -/
def Publication.logId (file : Publication) : LogId := file.log.header.logId

/-- The entries of a published log, without the closing entry of a stray archive. -/
def Publication.settled (file : Publication) : List LogEntry :=
  if file.stray then file.log.entries.dropLast else file.log.entries

/-- The random id of a rotation is not in use. -/
def drawsFresh (writer : Writer) : WriterMove → Bool
  | .rotate env => env.draws.logId ≠ writer.ledger.live.log.header.logId ∧
      ∀ file ∈ writer.ledger.published, file.logId ≠ env.draws.logId
  | _ => true

/-- Every published file is a stage of the history of its id, and the live log is
the history of its own. -/
structure Ledger.Follows (ledger : Ledger) (history : LogId → List LogEntry) : Prop where
  live : history ledger.live.log.header.logId = ledger.live.log.entries
  published : ∀ file ∈ ledger.published, file.settled <+: history file.logId
  stray : ∀ file ∈ ledger.published, file.stray = true → ∃ last,
    file.log.entries = file.settled ++ [last] ∧ last.event.action = rotationCloseAction

namespace Ledger.Follows

variable {crates : Crates} {codec : LogCodec} {config : WriterConfig} {ledger : Ledger}
  {history : LogId → List LogEntry}

/-- The history of the live log can grow with it. -/
theorem extend (follows : ledger.Follows history) (after : Ledger)
    (header : after.live.log.header = ledger.live.log.header)
    (grown : ledger.live.log.entries <+: after.live.log.entries)
    (published : after.published = ledger.published) :
    after.Follows (Function.update history ledger.live.log.header.logId
      after.live.log.entries) := by
  refine ⟨?_, ?_, published ▸ follows.stray⟩
  · rw [header, Function.update_self]
  · intro file member
    have before := follows.published file (published ▸ member)
    by_cases same : file.logId = ledger.live.log.header.logId
    · rw [same, Function.update_self]
      rw [same, follows.live] at before
      exact before.trans grown
    · rwa [Function.update_of_ne same]

/-- A history can be given to an id that is not in use. -/
theorem fresh (follows : ledger.Follows history) {logId : LogId} (entries : List LogEntry)
    (notLive : logId ≠ ledger.live.log.header.logId)
    (notPublished : ∀ file ∈ ledger.published, file.logId ≠ logId) :
    ledger.Follows (Function.update history logId entries) := by
  refine ⟨?_, ?_, follows.stray⟩
  · rw [Function.update_of_ne (Ne.symm notLive), follows.live]
  · intro file member
    rw [Function.update_of_ne (notPublished file member)]
    exact follows.published file member

/-- Files that are stages of their histories can be published. -/
theorem publish (follows : ledger.Follows history) (files : List Publication) (disk : Disk)
    (staged : ∀ file ∈ files, file.settled <+: history file.logId)
    (closed : ∀ file ∈ files, file.stray = true → ∃ last,
      file.log.entries = file.settled ++ [last] ∧ last.event.action = rotationCloseAction) :
    Follows { ledger with disk, published := ledger.published ++ files } history := by
  refine ⟨follows.live, ?_, ?_⟩
  · intro file member
    rcases List.mem_append.mp member with old | new
    · exact follows.published file old
    · exact staged file new
  · intro file member
    rcases List.mem_append.mp member with old | new
    · exact follows.stray file old
    · exact closed file new

/-- A save publishes the live log as it is. -/
theorem saved (follows : ledger.Follows history) (path : Path) (faults : SaveFaults) :
    (ledger.save codec path faults).1.Follows history := by
  refine ⟨follows.live, ?_, ?_⟩
  · intro file member
    rcases List.mem_append.mp member with old | new
    · exact follows.published file old
    · split at new
      · rw [List.mem_singleton.mp new]
        exact follows.live ▸ List.prefix_refl _
      · cases new
  · intro file member stray
    rcases List.mem_append.mp member with old | new
    · exact follows.stray file old stray
    · split at new
      · rw [List.mem_singleton.mp new] at stray
        cases stray
      · cases new

/-- A rotation to an unused id follows some history, whether it succeeds or
fails. -/
theorem rotated (follows : ledger.Follows history) {env : RotationEnv}
    (notLive : env.draws.logId ≠ ledger.live.log.header.logId)
    (notPublished : ∀ file ∈ ledger.published, file.logId ≠ env.draws.logId) (rotations : Nat)
    (req : RotationRequest) :
    ∃ later, (ledger.rotated crates codec config.path req env
      (performRotation crates codec config.hasFactory ledger.live.log rotations config.path req env
        ledger.disk)).Follows later := by
  have ends := ledger.rotated_cases crates codec config rotations req env
  rcases ends with ⟨files, kept, rfl | ⟨closed, newOpen, prepared, published⟩⟩ |
    ⟨closed, newOpen, files, prepared, switched, published⟩
  · rw [kept]
    exact ⟨history, follows.publish _ _ (by simp) (by simp)⟩
  · -- The sealed log is stray: without its closing entry it is the live log.
    rw [kept]
    have rotates := prepareRotation_rotates prepared
    obtain ⟨last, closing, closeAction⟩ := rotates.closing
    have settled : Publication.settled ⟨closed, true⟩ = ledger.live.log.entries := by
      simp [Publication.settled, closing]
    have closedId : closed.header.logId ≠ env.draws.logId := by
      rw [rotates.header]
      exact Ne.symm notLive
    refine ⟨_, (follows.fresh newOpen.entries notLive notPublished).publish _ _ ?_ ?_⟩
    · intro file member
      rcases published file member with rfl | rfl
      · have kept := Function.update_of_ne closedId newOpen.entries history
        rw [rotates.header, follows.live] at kept
        simp only [settled, Publication.logId, rotates.header, kept, List.prefix_refl]
      · rw [Publication.logId, rotates.logId, Function.update_self]
        exact List.prefix_refl _
    · intro file member stray
      rcases published file member with rfl | rfl
      · exact ⟨last, by rw [settled, closing], closeAction⟩
      · cases stray
  · -- The sealed log ends the history of its id, and the new one starts its own.
    rw [switched]
    have rotates := prepareRotation_rotates prepared
    obtain ⟨last, closing, _⟩ := rotates.closing
    have sealing := follows.extend { ledger with live := { log := closed, origins := [] } }
      rotates.header (by rw [closing]; exact List.prefix_append _ _) rfl
    have started := sealing.fresh newOpen.entries (rotates.header ▸ notLive) notPublished
    have listed := started.publish files (performRotation crates codec config.hasFactory
      ledger.live.log rotations config.path req env ledger.disk).disk ?_ ?_
    · refine ⟨_, ?_, listed.published, listed.stray⟩
      rw [rotates.logId, Function.update_self]
    · intro file member
      rcases published file member with rfl | rfl
      · exact ⟨[], (List.append_nil _).trans started.live.symm⟩
      · rw [Publication.logId, rotates.logId, Function.update_self]
        exact List.prefix_refl _
    · intro file member stray
      rcases published file member with rfl | rfl <;> cases stray

/-- Every move under which ids are fresh follows some history. -/
theorem step {writer : Writer} {move : WriterMove} {after : Ledger}
    (follows : writer.ledger.Follows history) (fresh : drawsFresh writer move = true)
    (moved : LedgerMove crates codec config move writer.ledger after) :
    ∃ later, after.Follows later := by
  cases moved with
  | idle => exact ⟨history, follows⟩
  | accept => exact ⟨history, follows.live, follows.published, follows.stray⟩
  | receive => exact ⟨history, follows.live, follows.published, follows.stray⟩
  | @appended _ next rest log entry sign now batch committed =>
      rcases writer.ledger.live.log.append_cases crates next.event sign now with
        ⟨_, failed⟩ | ⟨_, signature, _, _, same⟩
      · rw [failed] at committed
        cases committed
      · rw [same] at committed
        cases committed
        exact ⟨_, follows.extend _ rfl (List.prefix_append _ _) rfl⟩
  | @abandoned _ next rest log failure sign now batch failed =>
      rcases writer.ledger.live.log.append_cases crates next.event sign now with
        ⟨_, unchanged⟩ | ⟨_, _, _, _, same⟩
      · rw [unchanged] at failed
        cases failed
        exact ⟨history, follows.live, follows.published, follows.stray⟩
      · rw [same] at failed
        cases failed
  | saved => exact ⟨history, follows.saved _ _⟩
  | rotated rotations req =>
      obtain ⟨notLive, notPublished⟩ := of_decide_eq_true fresh
      exact follows.rotated notLive notPublished rotations req

end Ledger.Follows

/-- Over every run of a channel whose rotations draw fresh ids, whatever fails: any
two published files with one log id are stages of one history, except for the
closing entries of the archives of rotations that failed after publishing them. -/
theorem auditChannel_publications_comparable (crates : Crates) (codec : LogCodec)
    (config : WriterConfig) {writer : Writer}
    (reachable : (writerMachine crates codec config).Reachable
      (fun writer move => drawsFresh writer move = true) writer) :
    (∀ file ∈ writer.ledger.published, file.stray = true → ∃ last,
        file.log.entries = file.settled ++ [last] ∧ last.event.action = rotationCloseAction) ∧
      ∀ left ∈ writer.ledger.published, ∀ right ∈ writer.ledger.published,
        left.logId = right.logId →
          left.settled <+: right.settled ∨ right.settled <+: left.settled := by
  obtain ⟨start, moves, ⟨log, disk, rfl⟩, run⟩ := reachable
  have kept : ∃ history, writer.ledger.Follows history := by
    refine ledger_invariant (fun ledger => ∃ history, ledger.Follows history) ?_ ?_ run
    · exact ⟨fun _ => log.entries, rfl, by simp [Writer.spawn], by simp [Writer.spawn]⟩
    · rintro writer move ledger ⟨history, follows⟩ fresh moved
      exact follows.step fresh moved
  obtain ⟨history, follows⟩ := kept
  refine ⟨follows.stray, ?_⟩
  intro left leftMember right rightMember sameId
  exact List.prefix_or_prefix_of_prefix (follows.published left leftMember)
    (sameId ▸ follows.published right rightMember)

/-- A rotation of the transparent primitives that cannot sync the directory of the
archive. -/
def unsyncedRotation : RotationEnv :=
  { plainRotation with syncArchiveDir := some "Input/output error" }

/-- It is prepared without a failure. -/
theorem unsyncedRotation_prepared : ∃ closed newOpen,
    prepareRotation plainCrates cborCodec plainLog plainRequest unsyncedRotation =
      .ok (closed, newOpen) := by
  have prepared : (prepareRotation plainCrates cborCodec plainLog plainRequest
      unsyncedRotation).isOk = true := by
    simp only [prepareRotation, AuditLog.readFrom_saveTo]
    decide +kernel
  cases ended : prepareRotation plainCrates cborCodec plainLog plainRequest unsyncedRotation with
  | error failure => simp [ended, Except.isOk, Except.toBool] at prepared
  | ok segments => exact ⟨segments.1, segments.2, rfl⟩

/-- It publishes the archive. -/
theorem unsyncedRotation_passes (closed newOpen : AuditLog)
    (prepared : prepareRotation plainCrates cborCodec plainLog plainRequest unsyncedRotation =
      .ok (closed, newOpen)) :
    Crashable.Passes (Disk.Shows "audit.qa" "audit-1.qa" none none)
      (fun disk => disk "audit-1.qa" = some (closed.saveTo cborCodec))
      (rotationScript plainCrates cborCodec true plainLog "audit.qa" plainRequest
        unsyncedRotation) := by
  have aside : Aside "audit.qa" "audit-1.qa" ".tmpA" := ⟨by decide, by decide⟩
  rw [rotationScript]
  refine .later (fun _ => Disk.Shows "audit.qa" "audit-1.qa" none none) ?_ fun _ => ?_
  · intro disk shows
    exact ⟨(), by simp [Crashable.query, plainRequest, shows.2], shows⟩
  refine .later (fun segments disk => segments = (closed, newOpen) ∧
    Disk.Shows "audit.qa" "audit-1.qa" none none disk) ?_ ?_
  · intro disk shows
    exact ⟨_, prepared, rfl, shows⟩
  rintro segments disk ⟨rfl, shows⟩
  refine Crashable.Passes.first ?_ disk shows
  rw [publishSegments]
  refine .later (fun _ => Disk.Shows "audit.qa" "audit-1.qa" none none)
    (fun disk shows => ⟨(), rfl, shows⟩) fun _ => ?_
  refine .later _ (stageFile_returns aside (closed.saveTo cborCodec)) fun _ => ?_
  exact .first (persistNoclobber_passes aside (by decide) _ _)

/-- And it returns an error. -/
theorem unsyncedRotation_fails (disk : Disk) :
    (performRotation plainCrates cborCodec true plainLog 0 "audit.qa" plainRequest
      unsyncedRotation disk).outcome.isOk = false := by
  have triple : Crashable.Triple (fun _ => True) (fun _ => True) (fun _ _ => False)
      (rotationScript plainCrates cborCodec true plainLog "audit.qa" plainRequest
        unsyncedRotation) := by
    have free : ∀ {V : Type} (script : FileScript V),
        Crashable.Triple (fun _ => True) (fun _ => True) (fun _ _ => True) script :=
      fun _ _ _ => ⟨fun _ _ => trivial, fun _ _ => trivial⟩
    rw [rotationScript]
    refine .andThen _ (free _) fun _ => .andThen _ (free _) fun segments => ?_
    refine .andThen (fun _ _ => False) ?_ fun _ _ => False.elim
    rw [publishSegments]
    refine .andThen _ (free _) fun _ => .andThen _ (free _) fun _ => .andThen _ (free _) fun _ => ?_
    refine .andThen (fun _ _ => False) (.ended ?_) fun _ _ => False.elim
    rintro _ _ _ ⟨⟩
  rcases (performRotation_cases plainCrates cborCodec true plainLog 0 "audit.qa" plainRequest
      unsyncedRotation disk).2.2 with ⟨failure, failed, _⟩ | ⟨newOpen, _, returned, _⟩
  · rw [failed]
    rfl
  · exact ((triple disk trivial).2 newOpen returned).elim

/-- A rotation that fails after publishing its archive leaves a stray file and
otherwise the channel as it was. -/
theorem Writer.rotate_stray {crates : Crates} {codec : LogCodec} (config : WriterConfig)
    (writer : Writer) {req : RotationRequest} {env : RotationEnv} {closed newOpen : AuditLog}
    (prepared : prepareRotation crates codec writer.ledger.live.log req env = .ok (closed, newOpen))
    (failed : (performRotation crates codec config.hasFactory writer.ledger.live.log
      writer.auditRotations config.path req env writer.ledger.disk).outcome.isOk = false)
    (published : arrived (performRotation crates codec config.hasFactory writer.ledger.live.log
      writer.auditRotations config.path req env writer.ledger.disk).passed req.archivePath
        (closed.saveTo codec) = true) :
    ∃ disk files, writer.rotate crates codec config req env =
      { writer with
        ledger := { writer.ledger with
          disk, published := writer.ledger.published ++ ⟨closed, true⟩ :: files }
        phase := .selectRotation } := by
  obtain ⟨failure, outcome, _, sameLog, sameMetric⟩ | ⟨_, outcome, _⟩ :=
    (performRotation_cases crates codec config.hasFactory writer.ledger.live.log
      writer.auditRotations config.path req env writer.ledger.disk).2.2
  · simp only [Writer.rotate, Ledger.rotated, prepared, outcome, sameLog, sameMetric,
      Ledger.rotationFiles, published, if_true, List.singleton_append]
    exact ⟨_, _, rfl⟩
  · rw [outcome] at failed
    cases failed

/-- The channel after that rotation: its log is the same, and a sealed copy of it is
published. -/
theorem exec_unsyncedRotation : ∃ (disk : Disk) (closed newOpen : AuditLog)
    (files : List Publication),
    Rotates plainCrates plainLog closed newOpen unsyncedRotation ∧
    (writerMachine plainCrates cborCodec (plainConfig 1)).execChecked drawsFresh plainWriter
      [.requestRotation plainRequest, .pollRotation, .drain, .rotate unsyncedRotation] =
        some { plainWriter with ledger :=
          { plainWriter.ledger with disk, published := ⟨closed, true⟩ :: files } } := by
  obtain ⟨closed, newOpen, prepared⟩ := unsyncedRotation_prepared
  have published : arrived (performRotation plainCrates cborCodec true plainLog 0 "audit.qa"
      plainRequest unsyncedRotation fun _ => none).passed "audit-1.qa" (closed.saveTo cborCodec) =
        true := by
    obtain ⟨state, member, reached⟩ := unsyncedRotation_passes closed newOpen prepared
      (fun _ => none) ⟨rfl, rfl⟩
    rw [arrived, List.any_eq_true]
    refine ⟨state, ?_, decide_eq_true reached⟩
    rw [(performRotation_cases plainCrates cborCodec true plainLog 0 "audit.qa" plainRequest
      unsyncedRotation fun _ => none).1]
    exact member
  obtain ⟨disk, files, rotated⟩ := Writer.rotate_stray (plainConfig 1)
    { plainWriter with phase := .rotating plainRequest } prepared
      (unsyncedRotation_fails _) published
  refine ⟨disk, closed, newOpen, files, prepareRotation_rotates prepared, ?_⟩
  exact congrArg some rotated

/-- A waiting writer with nothing queued that takes, appends and saves one event. -/
theorem execChecked_single {crates : Crates} (codec : LogCodec) (config : WriterConfig)
    (writer : Writer) {event : AuditEvent} {sign : SignCall} {now : Timestamp} {log : AuditLog}
    {entry : LogEntry} (waiting : writer.phase = .selectRotation)
    (noRequest : writer.rotationQueue = none) (rotationsOpen : writer.rotationsOpen = true)
    (sendersOpen : writer.sendersOpen = true) (noneQueued : writer.ledger.queue = [])
    (nonePending : writer.ledger.pending = []) (capacity : 0 < config.capacity)
    (batchSize : config.batchSize = 1)
    (committed : writer.ledger.live.log.append crates event sign now = (log, .ok entry))
    (faults : SaveFaults) :
    ∃ saving : Writer, saving.ledger.live.log = log ∧
      saving.ledger.published = writer.ledger.published ∧
      (writerMachine crates codec config).execChecked drawsFresh writer
        [.emit event, .pollRotation, .pollEvent, .fill, .append sign now, .save faults] =
          some (saving.save codec config .select faults) := by
  have room : ¬ config.capacity = 0 := Nat.pos_iff_ne_zero.mp capacity
  refine ⟨{ writer with
    ledger := ((writer.ledger.accept event).receive ⟨writer.ledger.accepted.length, event⟩
      []).appended log ⟨writer.ledger.accepted.length, event⟩ []
    phase := .saving .select, auditEvents := writer.auditEvents + 1 }, rfl, rfl, ?_⟩
  simp [Machine.execChecked, writerMachine, writerStep, drawsFresh, waiting, noRequest,
    rotationsOpen, sendersOpen, noneQueued, nonePending, batchSize, committed, room, Writer.emit,
    Writer.pollRotation, Writer.pollEvent, Writer.fill, Writer.enterFlush, Writer.append,
    Ledger.accept, Ledger.receive, Ledger.appended]

/-- A save publishes the live log once its file has arrived. -/
theorem Ledger.save_published {codec : LogCodec} {ledger : Ledger}
    {path : Path} {faults : SaveFaults}
    (arrives : arrived (Channel.save (ledger.live.log.saveTo codec) path faults ledger.disk).passed
      path (ledger.live.log.saveTo codec) = true) :
    (ledger.save codec path faults).1.published = ledger.published ++
    [⟨ledger.live.log, false⟩] := by
  simp only [Ledger.save, arrives, if_true]

/-- A login that is appended to the new log. -/
theorem plainLog_append : ∃ (log : AuditLog) (entry : LogEntry),
    plainLog.append plainCrates loginEvent plainSign "2026-05-01T00:00:02Z" = (log, .ok entry) ∧
      log.header = plainLog.header ∧ log.entries = [entry] ∧ entry.event = loginEvent := by
  have signs : plainLog.signs plainCrates loginEvent plainSign = true := by decide +kernel
  rw [← AuditLog.append_isOk plainCrates plainLog loginEvent plainSign
    "2026-05-01T00:00:02Z"] at signs
  rcases plainLog.append_cases plainCrates loginEvent plainSign "2026-05-01T00:00:02Z" with
    ⟨failure, failed⟩ | ⟨_, signature, _, _, committed⟩
  · rw [failed] at signs
    cases signs
  · exact ⟨_, _, committed, rfl, rfl, rfl⟩

/-- A run in which a rotation fails after publishing its archive and the live log
goes on: two files of one log differ in their first entry. -/
theorem reachable_stray : ∃ (writer : Writer) (closed log : AuditLog) (last entry : LogEntry),
    (writerMachine plainCrates cborCodec (plainConfig 1)).Reachable
      (fun writer move => drawsFresh writer move = true) writer ∧
    ⟨closed, true⟩ ∈ writer.ledger.published ∧
    ⟨log, false⟩ ∈ writer.ledger.published ∧
    closed.header.logId = log.header.logId ∧ closed.entries = [last] ∧ log.entries = [entry] ∧
    last ≠ entry := by
  obtain ⟨disk, closed, newOpen, files, rotates, rotated⟩ := exec_unsyncedRotation
  obtain ⟨log, entry, committed, header, entries, event⟩ := plainLog_append
  obtain ⟨saving, sameLog, sameFiles, saved⟩ := execChecked_single cborCodec
    (plainConfig 1) { plainWriter with ledger :=
      { plainWriter.ledger with disk, published := ⟨closed, true⟩ :: files } }
    rfl rfl rfl rfl rfl rfl (by decide) rfl committed (.none ".tmpB")
  obtain ⟨last, closing, closeAction⟩ := rotates.closing
  have arrives : arrived (save (saving.ledger.live.log.saveTo cborCodec) "audit.qa" (.none ".tmpB")
      saving.ledger.disk).passed "audit.qa" (saving.ledger.live.log.saveTo cborCodec) = true := by
    have aside : Aside "audit.qa" "audit-1.qa" ".tmpB" := ⟨by decide, by decide⟩
    obtain ⟨state, member, reached⟩ :=
      save_passes aside (by decide) _ saving.ledger.disk ⟨rfl, rfl⟩
    rw [arrived, List.any_eq_true]
    exact ⟨state, member, decide_eq_true reached⟩
  have listed : (saving.ledger.save cborCodec (plainConfig 1).path (.none ".tmpB")).1.published =
      saving.ledger.published ++ [⟨saving.ledger.live.log, false⟩] :=
    Ledger.save_published arrives
  refine ⟨_, closed, log, last, entry, ⟨plainWriter, _, ⟨_, _, rfl⟩,
    (Machine.Runs.of_execChecked rotated).trans (.of_execChecked saved)⟩, ?_,
    ?_, ?_, closing, entries, ?_⟩
  · rw [Writer.save_ledger, listed, sameFiles]
    exact List.mem_append_left _ List.mem_cons_self
  · rw [Writer.save_ledger, listed, sameLog]
    exact List.mem_append_right _ (List.mem_singleton_self _)
  · rw [rotates.header, header]
  · rintro rfl
    rw [event] at closeAction
    exact absurd closeAction (by decide)

/-- The first entries of two published files of one log differ. -/
theorem auditChannel_publishes_divergent_files :
    ¬ ∀ writer : Writer, (writerMachine plainCrates cborCodec (plainConfig 1)).Reachable
      (fun writer move => drawsFresh writer move = true) writer →
        ∀ left ∈ writer.ledger.published, ∀ right ∈ writer.ledger.published,
          left.logId = right.logId →
            left.log.entries <+: right.log.entries ∨ right.log.entries <+: left.log.entries := by
  intro comparable
  obtain ⟨writer, closed, log, last, entry, reachable, stray, saved, sameId, closing, entries,
    different⟩ := reachable_stray
  rcases comparable writer reachable _ stray _ saved sameId with before | after
  · rw [closing, entries, List.singleton_prefix_cons_iff] at before
    exact different before
  · rw [closing, entries, List.singleton_prefix_cons_iff] at after
    exact different after.symm

/-- A run with a stray archive of a log that went on. -/
theorem auditChannel_publications_comparable_stray :
    ∃ (writer : Writer) (closed log : AuditLog),
      ⟨closed, true⟩ ∈ writer.ledger.published ∧
      ⟨log, false⟩ ∈ writer.ledger.published ∧ closed.header.logId = log.header.logId ∧
      (closed.entries.dropLast <+: log.entries ∨ log.entries <+: closed.entries.dropLast) := by
  obtain ⟨writer, closed, log, _, _, reachable, stray, saved, sameId, _⟩ := reachable_stray
  exact ⟨writer, closed, log, stray, saved, sameId,
    (auditChannel_publications_comparable plainCrates
    cborCodec (plainConfig 1) reachable).2 _ stray _ saved sameId⟩

end CofreSoberano.Channel
