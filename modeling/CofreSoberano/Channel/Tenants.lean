import CofreSoberano.Channel.OwnFiles
import CofreSoberano.Channel.Writer

/-!
# Writers that share a file system

Each tenant has a log, a writer and a path. A save or a rotation is an errand: its
file operations are taken one at a time, and the clients of the tenant and all other
tenants can move in between. A tenant whose files are its own stays safe.
-/

namespace CofreSoberano.Channel

open CofreSoberano.Std CofreSoberano.Audit

/-- A move of the writer machine that works on files. Here it is an errand. -/
def WriterMove.touchesFiles : WriterMove → Bool
  | .save _ => true
  | .rotate _ => true
  | _ => false

/-- A save or a rotation that is under way. -/
inductive Errand where
  | saving (after : AfterFlush) (thread : FileThread Unit)
  | rotating (req : RotationRequest) (env : RotationEnv) (thread : FileThread AuditLog)

/-- A tenant's audit channel. The files are shared, so the ones in its ledger play no
part. -/
structure Tenant where
  config : WriterConfig
  writer : Writer
  errand : Option Errand
  /-- The entries of the log that was opened at startup. -/
  opened : List LogEntry
  /-- The archives that the writer published. -/
  archives : List Path
  /-- The entries that stood in the file at startup or were saved to it since, by a
  save or a rotation that reported no error. -/
  saved : List LogEntry

/-- The rest of a flush after its save. -/
def Writer.saveReturned (writer : Writer) (after : AfterFlush) : Except String Unit → Writer
  | .ok _ => writer.leaveFlush after
  | .error _ =>
      { writer with
        ledger := { writer.ledger with flushFailures := writer.ledger.flushFailures + 1 }
        auditFailures := writer.auditFailures + 1 }.leaveFlush after

/-- The rest of the rotation branch after the file operations of `perform_rotation`. -/
def Writer.rotationReturned (crates : Crates) (codec : LogCodec) (writer : Writer)
    (req : RotationRequest) (env : RotationEnv) : Except String AuditLog → Writer
  | .error _ => { writer with phase := .selectRotation }
  | .ok newOpen =>
      { writer with
        ledger := { writer.ledger with
          live := { log := newOpen, origins := [none] }
          sealed := match prepareRotation crates codec writer.ledger.live.log req env with
            | .error _ => writer.ledger.sealed
            | .ok (closed, _) => writer.ledger.sealed ++
                [{ log := closed, origins := writer.ledger.live.origins ++ [none] }] }
        auditRotations := writer.auditRotations + 1
        entriesSinceRotation := 0
        phase := .selectRotation }

/-- The entries of the log that a rotation returned. -/
def returnedEntries : Except String AuditLog → List LogEntry
  | .ok newOpen => newOpen.entries
  | .error _ => []

/-- The moves of one tenant. -/
inductive TenantMove where
  /-- A client or the writer moves without touching files. -/
  | write (move : WriterMove)
  | startSave (faults : SaveFaults)
  | startRotation (env : RotationEnv)
  /-- The next file operation. -/
  | act
  /-- The save or the rotation returns. -/
  | finish

/-- One move of a tenant, on the files that it shares. -/
def tenantStep (crates : Crates) (codec : LogCodec) (tenant : Tenant) (disk : Disk) :
    TenantMove → Option (Tenant × Disk)
  | .write move =>
      if move.touchesFiles then none
      else (writerStep crates codec tenant.config tenant.writer move).map fun writer =>
        ({ tenant with writer }, disk)
  | .startSave faults =>
      match tenant.writer.phase, tenant.errand with
      | .saving after, none =>
          let thread := FileThread.save (tenant.writer.ledger.live.log.saveTo codec)
            tenant.config.path faults
          some ({ tenant with errand := some (.saving after thread) }, disk)
      | _, _ => none
  | .startRotation env =>
      match tenant.writer.phase, tenant.errand with
      | .rotating req, none =>
          let thread := FileThread.rotation crates codec tenant.config.hasFactory
            tenant.writer.ledger.live.log tenant.config.path req env
          some ({ tenant with errand := some (.rotating req env thread) }, disk)
      | _, _ => none
  | .act =>
      match tenant.errand with
      | some (.saving after thread) => (thread.advance disk).map fun (rest, changed, published) =>
          ({ tenant with
              errand := some (.saving after rest),
              archives := tenant.archives ++ published }, changed)
      | some (.rotating req env thread) =>
          (thread.advance disk).map fun (rest, changed, published) =>
            ({ tenant with
                errand := some (.rotating req env rest)
                archives := tenant.archives ++ published }, changed)
      | none => none
  | .finish =>
      match tenant.errand with
      | some (.saving after (.ended outcome)) =>
          some ({ tenant with
            errand := none
            writer := tenant.writer.saveReturned after outcome
            saved := tenant.saved ++
              if outcome.isOk then tenant.writer.ledger.live.log.entries else [] }, disk)
      | some (.rotating req env (.ended outcome)) =>
          some ({ tenant with
            errand := none
            writer := tenant.writer.rotationReturned crates codec req env outcome
            saved := tenant.saved ++ returnedEntries outcome }, disk)
      | _ => none

theorem Writer.saveReturned_ledger (writer : Writer) (after : AfterFlush)
    (outcome : Except String Unit) : ∃ flushFailures,
      (writer.saveReturned after outcome).ledger = { writer.ledger with flushFailures } := by
  cases outcome <;> exact ⟨_, Writer.leaveFlush_ledger _ after⟩

/-- An undisturbed save does what the save of the writer machine does; only the
record of what was published is kept elsewhere. -/
theorem Writer.save_undisturbed (codec : LogCodec) (config : WriterConfig) (writer : Writer)
    (after : AfterFlush) {faults : SaveFaults} (free : writer.ledger.disk faults.temp = none) :
    ∃ disk outcome published,
      (FileThread.save (writer.ledger.live.log.saveTo codec) config.path faults).alone
        writer.ledger.disk = some (disk, outcome) ∧
      writer.save codec config after faults = Writer.saveReturned
        { writer with ledger := { writer.ledger with disk, published } } after outcome := by
  refine ⟨_, _, (writer.ledger.save codec config.path faults).1.published,
    save_mirrors free _ _, ?_⟩
  rw [Writer.save, Ledger.save]
  cases (Channel.save (writer.ledger.live.log.saveTo codec) config.path faults
    writer.ledger.disk).outcome <;> rfl

/-- So does an undisturbed rotation. -/
theorem Writer.rotate_undisturbed (crates : Crates) (codec : LogCodec) (config : WriterConfig)
    (writer : Writer) {req : RotationRequest} {env : RotationEnv} (quiet : env.appears = none)
    (freeStage : writer.ledger.disk env.archiveTemp = none)
    (freeSave : writer.ledger.disk env.saving.temp = none)
    (aside : Aside env.saving.temp req.archivePath env.archiveTemp)
    (apart : req.archivePath ≠ env.saving.temp) :
    ∃ disk outcome published,
      (FileThread.rotation crates codec config.hasFactory writer.ledger.live.log config.path req
        env).alone writer.ledger.disk = some (disk, outcome) ∧
      writer.rotate crates codec config req env = Writer.rotationReturned crates codec
        { writer with ledger := { writer.ledger with disk, published } } req env outcome := by
  refine ⟨_, _,
    (writer.ledger.rotated crates codec config.path req env (performRotation crates codec
    config.hasFactory writer.ledger.live.log writer.auditRotations config.path req env
      writer.ledger.disk)).published, rotation_mirrors crates codec config.hasFactory
    writer.ledger.live.log config.path quiet freeStage freeSave aside apart, ?_⟩
  obtain ⟨_, final, ended⟩ := performRotation_cases crates codec config.hasFactory
    writer.ledger.live.log writer.auditRotations config.path req env writer.ledger.disk
  have logs := performRotation_log crates codec config.hasFactory writer.ledger.live.log
    writer.auditRotations config.path req env writer.ledger.disk
  rw [Writer.rotate, ← final]
  generalize performRotation crates codec config.hasFactory writer.ledger.live.log
    writer.auditRotations config.path req env writer.ledger.disk = result at ended logs
  rcases ended with ⟨failure, failed, alsoFailed, sameLog, sameMetric⟩ |
    ⟨newOpen, succeeded, returned, newLog, newMetric⟩
  · rw [alsoFailed, sameMetric]
    cases prepared : prepareRotation crates codec writer.ledger.live.log req env <;>
      simp [Ledger.rotated, prepared, failed, sameLog, Writer.rotationReturned, Except.isOk,
        Except.toBool]
  · obtain ⟨closed, _, prepared⟩ : ∃ closed, result.outcome = .ok () ∧
        prepareRotation crates codec writer.ledger.live.log req env = .ok (closed, result.log) := by
      rcases logs with ⟨_, failed, _⟩ | switched
      · rw [succeeded] at failed
        cases failed
      · exact switched
    rw [returned, newMetric]
    simp [Ledger.rotated, prepared, succeeded, ← newLog, Writer.rotationReturned, Except.isOk,
      Except.toBool]

/-- The entries that belong to a channel: those it found at startup, those of events
that it accepted, and the sentinels of rotations. -/
def BelongsTo (opened : List LogEntry) (accepted : List AuditEvent) (entry : LogEntry) : Prop :=
  entry ∈ opened ∨ entry.event ∈ accepted ∨
    entry.event.action = rotationCloseAction ∨ entry.event.action = rotationOpenAction

/-- The entries that belong to a tenant. -/
abbrev Tenant.Own (tenant : Tenant) : LogEntry → Prop :=
  BelongsTo tenant.opened tenant.writer.ledger.accepted

/-- What holds of the files of a tenant. -/
abbrev Tenant.Files (crates : Crates) (codec : LogCodec) (tenant : Tenant) :
    List Path → Set Path → Disk → Prop :=
  Channel.Files crates codec tenant.config.path tenant.Own tenant.saved
    tenant.writer.ledger.live.log.entries

/-- What the errand of a tenant keeps, and what it leaves behind. -/
def Tenant.Busy (crates : Crates) (codec : LogCodec) (tenant : Tenant) (owned : Set Path)
    (disk : Disk) : Prop :=
  match tenant.errand with
  | none => True
  | some (.saving after thread) => tenant.writer.phase = .saving after ∧
      thread.Keeps (tenant.Files crates codec)
        (fun outcome archives owned (disk : Disk) => tenant.Files crates codec
          archives owned disk ∧
          (outcome.isOk = true → ∀ entry ∈ tenant.writer.ledger.live.log.entries,
            disk.Holds crates codec tenant.config.path entry)) tenant.archives owned disk
  | some (.rotating req env thread) => tenant.writer.phase = .rotating req ∧
      thread.Keeps (tenant.Files crates codec)
        (Thread.Ends (fun newOpen archives owned disk => (∃ closed,
            prepareRotation crates codec tenant.writer.ledger.live.log req env =
              .ok (closed, newOpen)) ∧
              Channel.Files.Switched crates codec tenant.config.path tenant.Own
                tenant.saved newOpen archives owned disk)
          (tenant.Files crates codec)) tenant.archives owned disk

/-- A tenant with files of its own. -/
structure Tenant.Safe (crates : Crates) (codec : LogCodec) (tenant : Tenant) (owned : Set Path)
    (disk : Disk) : Prop where
  files : tenant.Files crates codec tenant.archives owned disk
  valid : validateHeader tenant.writer.ledger.live.log.header = .ok ()
  owns : ∀ entry ∈ tenant.writer.ledger.live.log.entries, tenant.Own entry
  waiting : ∀ next ∈ tenant.writer.ledger.queue ++ tenant.writer.ledger.pending,
    next.event ∈ tenant.writer.ledger.accepted
  busy : tenant.Busy crates codec owned disk

/-- A rotation draws a signer with a well-formed key. -/
def WellFormedSigner : TenantMove → Prop
  | .startRotation env => ∀ signer, env.newSigner = .ok signer →
      signer.publicKey.bytes.length = publicKeyLen
  | _ => True

section Ledger

variable {crates : Crates} {codec : LogCodec} {config : WriterConfig} {move : WriterMove}
  {ledger after : Ledger}

/-- What a move that touches no files does to the entries: it appends at most entries
of accepted events. -/
structure Ledger.Grows (ledger after : Ledger) : Prop where
  accepted : ∀ event ∈ ledger.accepted, event ∈ after.accepted
  waiting : ∀ next ∈ after.queue ++ after.pending, next.event ∈ after.accepted
  header : after.live.log.header = ledger.live.log.header
  kept : ∀ entry ∈ ledger.live.log.entries, entry ∈ after.live.log.entries
  added : ∀ entry ∈ after.live.log.entries, entry ∈ ledger.live.log.entries ∨
    entry.event ∈ after.accepted

theorem LedgerMove.grows (moved : LedgerMove crates codec config move ledger after)
    (plain : move.touchesFiles = false)
    (waiting : ∀ next ∈ ledger.queue ++ ledger.pending, next.event ∈ ledger.accepted) :
    ledger.Grows after := by
  cases moved with
  | idle => exact ⟨fun _ member => member, waiting, rfl, fun _ member => member, fun _ => .inl⟩
  | accept =>
      refine ⟨fun _ => List.mem_append_left _, ?_, rfl, fun _ member => member, fun _ => .inl⟩
      intro next member
      simp only [Ledger.accept, List.append_assoc, List.mem_append,
        List.mem_singleton] at member ⊢
      rcases member with queued | rfl | pending
      · exact .inl (waiting next (List.mem_append_left _ queued))
      · exact .inr rfl
      · exact .inl (waiting next (List.mem_append_right _ pending))
  | receive queued =>
      refine ⟨fun _ member => member, ?_, rfl, fun _ member => member, fun _ => .inl⟩
      intro next member
      refine waiting next ?_
      rw [queued]
      simp only [Ledger.receive, List.mem_append, List.mem_cons, List.not_mem_nil,
        or_false] at member ⊢
      tauto
  | @appended _ next rest log entry sign now batch committed =>
      have isNext : next.event ∈ ledger.accepted := waiting next (by simp [batch])
      rcases ledger.live.log.append_cases crates next.event sign now with ⟨_, failed⟩ |
        ⟨_, _, _, _, done⟩
      · rw [failed] at committed
        cases committed
      · rw [done] at committed
        cases committed
        refine ⟨fun _ member => member, ?_, rfl, ?_, ?_⟩
        · intro other member
          refine waiting other ?_
          rw [batch]
          simp only [Ledger.appended, List.mem_append, List.mem_cons] at member ⊢
          tauto
        · intro other member
          exact List.mem_append_left _ member
        · intro other member
          rcases List.mem_append.mp member with old | new
          · exact .inl old
          · rw [List.mem_singleton.mp new]
            exact .inr isNext
  | @abandoned _ next rest log failure sign now batch failed =>
      rcases ledger.live.log.append_cases crates next.event sign now with ⟨_, same⟩ |
        ⟨_, _, _, _, done⟩
      · rw [same] at failed
        cases failed
        refine ⟨fun _ member => member, ?_, rfl, fun _ member => member, fun _ => .inl⟩
        intro other member
        refine waiting other ?_
        simp only [Ledger.abandoned, List.append_nil] at member
        exact List.mem_append_left _ member
      · rw [done] at failed
        cases failed
  | saved => cases plain
  | rotated => cases plain

end Ledger

/-- While the writer waits for a save or a rotation, only its clients can move. -/
theorem writerStep_waiting {crates : Crates} {codec : LogCodec} {config : WriterConfig}
    {writer next : Writer} {move : WriterMove}
    (moved : writerStep crates codec config writer move = some next)
    (plain : move.touchesFiles = false)
    (waits : (∃ after, writer.phase = .saving after) ∨ ∃ req, writer.phase = .rotating req) :
    next.phase = writer.phase ∧ next.ledger.live = writer.ledger.live := by
  cases move with
  | emit event =>
      obtain ⟨_, ⟨⟩⟩ := Option.ite_none_right_eq_some.mp moved
      rw [Writer.emit]
      split <;> exact ⟨rfl, rfl⟩
  | closeSenders =>
      obtain ⟨_, ⟨⟩⟩ := Option.ite_none_right_eq_some.mp moved
      exact ⟨rfl, rfl⟩
  | requestRotation req =>
      obtain ⟨_, ⟨⟩⟩ := Option.ite_none_right_eq_some.mp moved
      rw [Writer.requestRotation]
      split <;> exact ⟨rfl, rfl⟩
  | closeRotations =>
      obtain ⟨_, ⟨⟩⟩ := Option.ite_none_right_eq_some.mp moved
      exact ⟨rfl, rfl⟩
  | save faults => cases plain
  | rotate env => cases plain
  | _ =>
      -- Every other move belongs to another phase.
      rcases waits with ⟨after, phase⟩ | ⟨req, phase⟩ <;> simp [writerStep, phase] at moved

namespace Tenant

variable {crates : Crates} {codec : LogCodec} {tenant next : Tenant} {owned claimed : Set Path}
  {disk changed : Disk}

/-- What others do to other files does not matter. -/
theorem Safe.stable (safe : tenant.Safe crates codec owned disk)
    (agree : Agree owned disk changed) : tenant.Safe crates codec owned changed := by
  refine ⟨safe.files.stable agree, safe.valid, safe.owns, safe.waiting, ?_⟩
  have busy := safe.busy
  simp only [Busy] at busy ⊢
  split at busy
  · trivial
  · refine ⟨busy.1, busy.2.stable agree ?_⟩
    rintro outcome ⟨files, holds⟩
    refine ⟨files.stable agree, fun ok entry member => ?_⟩
    exact (holds ok entry member).congr (agree _ files.current)
  · refine ⟨busy.1, busy.2.stable agree ?_⟩
    intro outcome ends
    cases outcome with
    | error _ => exact Files.stable ends agree
    | ok newOpen =>
        obtain ⟨prepared, switched⟩ := ends
        refine ⟨prepared, switched.files.stable agree, switched.valid, switched.owns, ?_⟩
        intro entry member
        exact (switched.holds entry member).congr (agree _ switched.files.current)

/-- A client or the writer moves without touching files. -/
theorem Safe.write {move : WriterMove} {writer : Writer}
    (safe : tenant.Safe crates codec owned disk)
    (plain : move.touchesFiles = false)
    (moved : writerStep crates codec tenant.config tenant.writer move = some writer) :
    Safe crates codec { tenant with writer } owned disk := by
  have grows := (writerStep_ledger moved).grows plain safe.waiting
  have owns : ∀ entry, tenant.Own entry → ({ tenant with writer } : Tenant).Own entry := by
    rintro entry (opened | accepted | sentinel)
    · exact .inl opened
    · exact .inr (.inl (grows.accepted _ accepted))
    · exact .inr (.inr sentinel)
  have waits : tenant.errand ≠ none →
      (∃ after, tenant.writer.phase = .saving after) ∨
      ∃ req, tenant.writer.phase = .rotating req := by
    intro busy
    have held := safe.busy
    simp only [Busy] at held
    split at held
    · exact absurd ‹_› busy
    · exact .inl ⟨_, held.1⟩
    · exact .inr ⟨_, held.1⟩
  refine ⟨safe.files.mono owns grows.kept, ?_, ?_, grows.waiting, ?_⟩
  · rw [grows.header]
    exact safe.valid
  · intro entry member
    rcases grows.added entry member with old | new
    · exact owns entry (safe.owns entry old)
    · exact .inr (.inl new)
  · have busy := safe.busy
    simp only [Busy] at busy ⊢
    split at busy
    · trivial
    · rename_i after thread onErrand
      obtain ⟨phase, live⟩ := writerStep_waiting moved plain (waits (by simp [onErrand]))
      refine ⟨phase.trans busy.1, busy.2.mono ?_ ?_⟩
      · intro archives owned disk files
        exact files.mono owns (by simp [live])
      · rintro outcome archives owned disk ⟨files, holds⟩
        refine ⟨files.mono owns (by simp [live]), ?_⟩
        rw [live]
        exact holds
    · rename_i req env thread onErrand
      obtain ⟨phase, live⟩ := writerStep_waiting moved plain (waits (by simp [onErrand]))
      refine ⟨phase.trans busy.1, busy.2.mono ?_ ?_⟩
      · intro archives owned disk files
        exact files.mono owns (by simp [live])
      · intro outcome archives owned disk ends
        cases outcome with
        | error _ => exact Files.mono ends owns (by simp [live])
        | ok newOpen =>
            obtain ⟨prepared, switched⟩ := ends
            refine ⟨?_, switched.files.mono owns fun _ member => member, switched.valid,
              fun entry member => owns entry (switched.owns entry member), switched.holds⟩
            rw [live]
            exact prepared

/-- A save that returned. What it wrote counts as saved if it reported no error. -/
theorem Safe.saveReturned {after : AfterFlush} {outcome : Except String Unit}
    (safe : tenant.Safe crates codec owned disk)
    (files : tenant.Files crates codec tenant.archives owned disk)
    (holds : outcome.isOk = true → ∀ entry ∈ tenant.writer.ledger.live.log.entries,
      disk.Holds crates codec tenant.config.path entry) :
    Safe crates codec { tenant with
      errand := none
      writer := tenant.writer.saveReturned after outcome
      saved := tenant.saved ++
        if outcome.isOk then tenant.writer.ledger.live.log.entries else [] } owned disk := by
  obtain ⟨_, ledger⟩ := tenant.writer.saveReturned_ledger after outcome
  refine ⟨?_, ?_, ?_, ?_, trivial⟩
  · simp only [Tenant.Files, Own, ledger]
    cases isOk : outcome.isOk with
    | false =>
        rw [if_neg (by decide), List.append_nil]
        exact files
    | true =>
        rw [if_pos rfl]
        exact files.save (holds isOk)
  · simp only [ledger]
    exact safe.valid
  · simp only [Own, ledger]
    exact safe.owns
  · simp only [ledger]
    exact safe.waiting

/-- A rotation that returned. -/
theorem Safe.rotationReturned {req : RotationRequest} {env : RotationEnv}
    {outcome : Except String AuditLog} (safe : tenant.Safe crates codec owned disk)
    (ends : Thread.Ends (fun newOpen archives owned disk => (∃ closed,
        prepareRotation crates codec tenant.writer.ledger.live.log req env =
          .ok (closed, newOpen)) ∧
          Channel.Files.Switched crates codec tenant.config.path tenant.Own
            tenant.saved newOpen archives owned disk)
      (tenant.Files crates codec) outcome tenant.archives owned disk) :
    Safe crates codec { tenant with
      errand := none
      writer := tenant.writer.rotationReturned crates codec req env outcome
      saved := tenant.saved ++ returnedEntries outcome } owned disk := by
  cases outcome with
  | error _ =>
      simp only [returnedEntries, List.append_nil]
      exact ⟨ends, safe.valid, safe.owns, safe.waiting, trivial⟩
  | ok newOpen =>
      obtain ⟨_, switched⟩ := ends
      exact ⟨switched.files.save switched.holds, switched.valid, switched.owns,
        safe.waiting, trivial⟩

/-- Every move of a tenant is local to its files and keeps it safe. -/
theorem Safe.step {move : TenantMove} (safe : tenant.Safe crates codec owned disk)
    (present : ∀ file ∈ owned, (disk file).isSome) (wellFormed : WellFormedSigner move)
    (moved : tenantStep crates codec tenant disk move = some (next, changed)) :
    ∃ claimed, Local owned claimed disk changed ∧ next.Safe crates codec claimed changed := by
  have sentinels : ∀ entry : LogEntry, entry.event.action = rotationCloseAction ∨
      entry.event.action = rotationOpenAction → tenant.Own entry := fun _ => .inr ∘ .inr
  have standing : Channel.Files.Standing crates codec tenant.config.path tenant.Own tenant.saved
      tenant.writer.ledger.live.log.entries tenant.archives owned disk := ⟨safe.files, present⟩
  cases move with
  | write move =>
      obtain ⟨plain, moved⟩ := Option.ite_none_left_eq_some.mp moved
      obtain ⟨writer, stepped, same⟩ := Option.map_eq_some_iff.mp moved
      cases same
      exact ⟨owned, .refl present, safe.write (by simpa using plain) stepped⟩
  | startSave faults =>
      simp only [tenantStep] at moved
      split at moved
      · rename_i after phase idle
        cases moved
        exact ⟨owned, .refl present, safe.files, safe.valid, safe.owns, safe.waiting, phase,
          standing.flush_keeps safe.valid safe.owns faults⟩
      · cases moved
  | startRotation env =>
      simp only [tenantStep] at moved
      split at moved
      · rename_i req phase idle
        cases moved
        exact ⟨owned, .refl present, safe.files, safe.valid, safe.owns, safe.waiting, phase,
          standing.rotation_keeps safe.valid safe.owns sentinels wellFormed
            tenant.config.hasFactory⟩
      · cases moved
  | act =>
      have busy := safe.busy
      simp only [tenantStep] at moved
      simp only [Busy] at busy
      split at moved
      · rename_i after thread onErrand
        simp only [onErrand] at busy
        obtain ⟨⟨rest, after, published⟩, advanced, same⟩ := Option.map_eq_some_iff.mp moved
        cases same
        obtain ⟨claimed, isLocal, files, keeps⟩ := busy.2.advance advanced
        exact ⟨claimed, isLocal, files, safe.valid, safe.owns, safe.waiting, busy.1, keeps⟩
      · rename_i req env thread onErrand
        simp only [onErrand] at busy
        obtain ⟨⟨rest, after, published⟩, advanced, same⟩ := Option.map_eq_some_iff.mp moved
        cases same
        obtain ⟨claimed, isLocal, files, keeps⟩ := busy.2.advance advanced
        exact ⟨claimed, isLocal, files, safe.valid, safe.owns, safe.waiting, busy.1, keeps⟩
      · cases moved
  | finish =>
      have busy := safe.busy
      simp only [tenantStep] at moved
      simp only [Busy] at busy
      split at moved
      · rename_i after outcome onErrand
        simp only [onErrand] at busy
        cases moved
        obtain ⟨_, files, holds⟩ := busy
        exact ⟨owned, .refl present, safe.saveReturned files holds⟩
      · rename_i req env outcome onErrand
        simp only [onErrand] at busy
        cases moved
        exact ⟨owned, .refl present, safe.rotationReturned busy.2⟩
      · cases moved

end Tenant

end CofreSoberano.Channel
