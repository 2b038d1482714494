import CofreSoberano.Channel.Publication
import CofreSoberano.Gateway.Daemon

/-!
# The entry counter of a segment

The writer keeps `entries_since_rotation` for the monitor, which compares it with
`max_entries`. The counter is stored after every flush except the one that precedes a
rotation, starts at zero and is set to zero by a successful rotation. So it is right until
the log starts with entries: a reopened log, a rotation that succeeded and left its opening
entry, or a rotation that failed after its flush appended events.
-/

namespace CofreSoberano.Gateway

open CofreSoberano.Std CofreSoberano.Audit CofreSoberano.Channel

/-- A crossed threshold: what was measured, and the bound of the policy. -/
inductive Trigger where
  | maxEntries (cur max : Nat)
  | maxAgeSecs (cur max : Nat)
  | maxBytes (cur max : Nat)
deriving DecidableEq

/-- The reason in the log line. -/
def Trigger.reason : Trigger → String
  | .maxEntries cur max => s!"max_entries reached ({cur} >= {max})"
  | .maxAgeSecs cur max => s!"max_age_secs reached ({cur}s >= {max}s)"
  | .maxBytes cur max => s!"max_bytes reached ({cur} >= {max})"

/-- `check_thresholds`, with what it reads: the counter of the segment, the age of the
segment, and the size of the log file if there is one. -/
def checkThresholds (policy : RotationPolicy) (entries age : Nat) (size : Option Nat) :
    Option Trigger :=
  match policy.maxEntries.filter (·.toNat ≤ entries) with
  | some max => some (.maxEntries entries max.toNat)
  | none =>
      match policy.maxAgeSecs.filter (·.toNat ≤ age) with
      | some max => some (.maxAgeSecs age max.toNat)
      | none => do
          let size ← size
          let max ← policy.maxBytes.filter (·.toNat ≤ size)
          return .maxBytes size max.toNat

/-- The entry trigger fires exactly when the counter reaches the bound. -/
theorem checkThresholds_maxEntries {policy : RotationPolicy} {max : UInt64}
    (bound : policy.maxEntries = some max) (entries age : Nat) (size : Option Nat) :
    (∃ cur limit, checkThresholds policy entries age size = some (.maxEntries cur limit)) ↔
      max.toNat ≤ entries := by
  by_cases reached : max.toNat ≤ entries
  · simp only [reached, iff_true]
    refine ⟨entries, max.toNat, ?_⟩
    rw [checkThresholds, bound, Option.filter_some, if_pos (by simpa using reached)]
  · simp only [reached, iff_false, not_exists]
    intro cur limit fired
    rw [checkThresholds, bound, Option.filter_some, if_neg (by simpa using reached)] at fired
    cases older : policy.maxAgeSecs.filter (·.toNat ≤ age) with
    | some max => simp [older] at fired
    | none =>
        rw [older] at fired
        obtain ⟨size, -, fired⟩ := Option.bind_eq_some_iff.mp fired
        obtain ⟨max, -, fired⟩ := Option.bind_eq_some_iff.mp fired
        cases fired

/-! ### What a move does to the counter -/

/-- The writer is in a flush after which it stores the number of entries. -/
def storing : Channel.Phase → Bool
  | .flushing (.rotate _) | .saving (.rotate _) => false
  | .flushing _ | .saving _ => true
  | _ => false

/-- The writer is between the flush of the rotation branch and the end of that branch. -/
def inRotation : Channel.Phase → Bool
  | .flushing (.rotate _) | .saving (.rotate _) | .rotating _ => true
  | _ => false

/-- The counter and what it counts. -/
structure Gauge where
  phase : Channel.Phase
  counter : Nat
  entries : Nat

def gauge (writer : Writer) : Gauge where
  phase := writer.phase
  counter := writer.entriesSinceRotation
  entries := writer.ledger.live.log.entries.length

section Moves

variable (crates : Crates) (codec : LogCodec) (config : WriterConfig)

/-- The result of a rotation from this state. -/
def rotationResult (writer : Writer) (req : RotationRequest) (env : RotationEnv) : RotationResult :=
  performRotation crates codec config.hasFactory writer.ledger.live.log writer.auditRotations
    config.path req env writer.ledger.disk

/-- The move is none after which the counter is wrong at the next `select!`: an append in
the flush that precedes a rotation that succeeds, or a rotation that succeeds. -/
def counted (writer : Writer) : WriterMove → Bool
  | .append sign _ =>
      match writer.phase, writer.ledger.pending with
      | .flushing (.rotate _), next :: _ => !writer.ledger.live.log.signs crates next.event sign
      | _, _ => true
  | .rotate env =>
      match writer.phase with
      | .rotating req => !(rotationResult crates codec config writer req env).outcome.isOk
      | _ => true
  | _ => true

/-- What a move does to the counter and to the segment. -/
inductive GaugeMove (writer : Writer) : WriterMove → Gauge → Prop where
  | kept {move phase} (harmless : counted crates codec config writer move = true)
      (stores : storing writer.phase = true → storing phase = true)
      (rotates : inRotation writer.phase = true → inRotation phase = true) :
      GaugeMove writer move { gauge writer with phase }
  | stored {move phase} (harmless : counted crates codec config writer move = true)
      (outside : inRotation writer.phase = false) :
      GaugeMove writer move ⟨phase, (gauge writer).entries, (gauge writer).entries⟩
  | appended {sign now after phase next rest} (flushing : writer.phase = .flushing after)
      (batch : writer.ledger.pending = next :: rest)
      (signed : writer.ledger.live.log.signs crates next.event sign = true)
      (onward : phase = .flushing after ∨ phase = .saving after) :
      GaugeMove writer (.append sign now)
        ⟨phase, (gauge writer).counter, (gauge writer).entries + 1⟩
  | rotated {env req} (rotating : writer.phase = .rotating req)
      (succeeded : (rotationResult crates codec config writer req env).outcome.isOk = true) :
      GaugeMove writer (.rotate env) ⟨.selectRotation, 0, 1⟩
  | unrotated {env req} (rotating : writer.phase = .rotating req)
      (failed : (rotationResult crates codec config writer req env).outcome.isOk = false) :
      GaugeMove writer (.rotate env) { gauge writer with phase := .selectRotation }

end Moves

section Steps

variable {crates : Crates} {codec : LogCodec} {config : WriterConfig} {writer : Writer}
  {move : WriterMove}

/-- Leaving a flush stores the number of entries, except in the rotation branch. -/
theorem leaveFlush_gauge {other : Writer} {after : AfterFlush}
    (harmless : counted crates codec config writer move = true)
    (sameCounter : other.entriesSinceRotation = (gauge writer).counter)
    (sameEntries : other.ledger.live.log.entries.length = (gauge writer).entries)
    (rotation : ∀ req, after = .rotate req → storing writer.phase = false)
    (otherwise : (∀ req, after ≠ .rotate req) → inRotation writer.phase = false) :
    GaugeMove crates codec config writer move (gauge (other.leaveFlush after)) := by
  cases after with
  | rotate req =>
      have notStoring := rotation req rfl
      have same : gauge (other.leaveFlush (.rotate req)) =
          { gauge writer with phase := .rotating req } := by
        simp only [gauge, Writer.leaveFlush, sameCounter, sameEntries]
      rw [same]
      exact .kept harmless (by simp [notStoring]) fun _ => rfl
  | fill =>
      have same : gauge (other.leaveFlush .fill) =
          ⟨.filling, (gauge writer).entries, (gauge writer).entries⟩ := by
        simp only [gauge, Writer.leaveFlush, Writer.storeEntries, sameEntries]
      rw [same]
      exact .stored harmless (otherwise fun _ => (by simp))
  | select =>
      have same : gauge (other.leaveFlush .select) =
          ⟨.selectRotation, (gauge writer).entries, (gauge writer).entries⟩ := by
        simp only [gauge, Writer.leaveFlush, Writer.storeEntries, sameEntries]
      rw [same]
      exact .stored harmless (otherwise fun _ => (by simp))
  | stop =>
      have same : gauge (other.leaveFlush .stop) =
          ⟨.finished, (gauge writer).entries, (gauge writer).entries⟩ := by
        simp only [gauge, Writer.leaveFlush, Writer.storeEntries, sameEntries]
      rw [same]
      exact .stored harmless (otherwise fun _ => (by simp))

/-- Entering a flush from outside one. -/
theorem enterFlush_gauge (after : AfterFlush)
    (harmless : counted crates codec config writer move = true)
    (settled : storing writer.phase = false) (outside : inRotation writer.phase = false) :
    GaugeMove crates codec config writer move (gauge (writer.enterFlush after)) := by
  rw [Writer.enterFlush]
  split
  · exact leaveFlush_gauge harmless rfl rfl (fun _ _ => settled) fun _ => outside
  · exact .kept harmless (by simp [settled]) (by simp [outside])

/-- A turn of the append loop. -/
theorem append_gauge {next : Writer} {after : AfterFlush} {sign : SignCall} {now : Timestamp}
    (flushing : writer.phase = .flushing after)
    (moved : writer.append crates after sign now = some next) :
    GaugeMove crates codec config writer (.append sign now) (gauge next) := by
  simp only [Writer.append] at moved
  split at moved
  · cases moved
  · rename_i first rest batch
    split at moved
    · rename_i log entry committed
      cases moved
      have signed := writer.ledger.live.log.append_isOk crates first.event sign now
      rw [committed] at signed
      have grown : log.entries.length = writer.ledger.live.log.entries.length + 1 := by
        rcases writer.ledger.live.log.append_cases crates first.event sign now with
          ⟨failure, failed⟩ | ⟨signer, signature, _, _, appended⟩
        · rw [failed] at committed
          cases committed
        · rw [appended] at committed
          cases committed
          simp [AuditLog.commit]
      have same : gauge { writer with
            ledger := writer.ledger.appended log first rest
            phase := if rest.isEmpty then .saving after else .flushing after } =
          ⟨if rest.isEmpty then .saving after else .flushing after, (gauge writer).counter,
            (gauge writer).entries + 1⟩ := by
        simp only [gauge, Ledger.appended, grown]
      rw [same]
      refine .appended flushing batch signed.symm ?_
      split
      · exact .inr rfl
      · exact .inl rfl
    · rename_i log failure failed
      cases moved
      have sameLog : log = writer.ledger.live.log := by
        rcases writer.ledger.live.log.append_cases crates first.event sign now with
          ⟨_, unchanged⟩ | ⟨_, _, _, _, appended⟩
        · rw [unchanged] at failed
          cases failed
          rfl
        · rw [appended] at failed
          cases failed
      have unsigned : writer.ledger.live.log.signs crates first.event sign = false := by
        rw [← AuditLog.append_isOk crates _ _ _ now, failed]
        rfl
      refine leaveFlush_gauge ?_ rfl ?_ ?_ ?_
      · cases after <;> simp [counted, flushing, batch, unsigned]
      · simp [gauge, Ledger.abandoned, sameLog]
      · rintro req rfl
        simp [flushing, storing]
      · intro otherwise
        cases after <;> simp_all [inRotation]

/-- The save of a flush leaves the log alone. -/
theorem save_gauge {after : AfterFlush} {faults : SaveFaults}
    (saving : writer.phase = .saving after) : GaugeMove crates codec config writer (.save faults)
    (gauge (writer.save codec config after faults)) := by
  have rotation : ∀ req, after = .rotate req → storing writer.phase = false := by
    rintro req rfl
    simp [saving, storing]
  have otherwise : (∀ req, after ≠ .rotate req) → inRotation writer.phase = false := by
    intro otherwise
    cases after <;> simp_all [inRotation]
  simp only [Writer.save]
  split
  all_goals
    rename_i ledger _ saved
    have sameLog : ledger.live = writer.ledger.live :=
      congrArg (fun saving => saving.1.live) saved.symm
    exact leaveFlush_gauge rfl rfl (by rw [sameLog]; rfl) rotation otherwise

/-- A rotation leaves the segment and the counter alone, or starts a segment of one entry
with the counter at zero. -/
theorem rotate_gauge {req : RotationRequest} {env : RotationEnv}
    (rotating : writer.phase = .rotating req) :
    GaugeMove crates codec config writer (.rotate env)
      (gauge (writer.rotate crates codec config req env)) := by
  rcases performRotation_log crates codec config.hasFactory writer.ledger.live.log
      writer.auditRotations config.path req env writer.ledger.disk with
    ⟨failure, failed, sameLog⟩ | ⟨closed, succeeded, prepared⟩
  · have unrotated : (rotationResult crates codec config writer req env).outcome.isOk = false := by
      rw [rotationResult, failed]
      rfl
    have same : gauge (writer.rotate crates codec config req env) =
        { gauge writer with phase := .selectRotation } := by
      simp only [gauge, Writer.rotate, Ledger.rotated]
      rw [failed]
      cases prepareRotation crates codec writer.ledger.live.log req env <;>
        simp [sameLog, Except.isOk, Except.toBool]
    rw [same]
    exact .unrotated rotating unrotated
  · have rotated : (rotationResult crates codec config writer req env).outcome.isOk = true := by
      rw [rotationResult, succeeded]
      rfl
    obtain ⟨first, opening, _⟩ := (prepareRotation_rotates prepared).opening
    have same : gauge (writer.rotate crates codec config req env) =
        ⟨.selectRotation, 0, 1⟩ := by
      simp only [gauge, Writer.rotate, Ledger.rotated]
      rw [prepared, succeeded]
      simp [opening, Except.isOk, Except.toBool]
    rw [same]
    exact .rotated rotating rotated

/-- What every move of the machine does to the counter. -/
theorem writerStep_gauge {next : Writer}
    (moved : writerStep crates codec config writer move = some next) :
    GaugeMove crates codec config writer move (gauge next) := by
  cases move with
  | emit event =>
      obtain ⟨_, ⟨⟩⟩ := Option.ite_none_right_eq_some.mp moved
      rw [Writer.emit]
      split <;> exact .kept rfl id id
  | closeSenders =>
      obtain ⟨_, ⟨⟩⟩ := Option.ite_none_right_eq_some.mp moved
      exact .kept rfl id id
  | requestRotation req =>
      obtain ⟨_, ⟨⟩⟩ := Option.ite_none_right_eq_some.mp moved
      rw [Writer.requestRotation]
      split <;> exact .kept rfl id id
  | closeRotations =>
      obtain ⟨_, ⟨⟩⟩ := Option.ite_none_right_eq_some.mp moved
      exact .kept rfl id id
  | pollRotation =>
      obtain ⟨selecting, ⟨⟩⟩ := Option.ite_none_right_eq_some.mp moved
      rw [Writer.pollRotation]
      split
      · exact .kept rfl (by simp [selecting, storing]) (by simp [selecting, inRotation])
      · split
        · exact .kept rfl (by simp [selecting, storing]) (by simp [selecting, inRotation])
        · exact .kept rfl id id
  | pollEvent =>
      obtain ⟨selecting, ⟨⟩⟩ := Option.ite_none_right_eq_some.mp moved
      rw [Writer.pollEvent]
      split
      · exact .kept rfl (by simp [selecting, storing]) (by simp [selecting, inRotation])
      · split
        · exact .kept rfl (by simp [selecting, storing]) (by simp [selecting, inRotation])
        · exact enterFlush_gauge .stop rfl (by simp [selecting, storing])
            (by simp [selecting, inRotation])
  | pollTimer elapsed =>
      obtain ⟨selecting, ⟨⟩⟩ := Option.ite_none_right_eq_some.mp moved
      rw [Writer.pollTimer]
      split
      · exact enterFlush_gauge .fill rfl (by simp [selecting, storing])
          (by simp [selecting, inRotation])
      · exact .kept rfl (by simp [selecting, storing]) (by simp [selecting, inRotation])
  | drain =>
      simp only [writerStep] at moved
      split at moved
      · rename_i req draining
        cases moved
        rw [Writer.drain]
        split
        · exact .kept rfl id id
        · exact enterFlush_gauge (.rotate req) rfl (by simp [draining, storing])
            (by simp [draining, inRotation])
      · cases moved
  | append sign now =>
      simp only [writerStep] at moved
      split at moved
      · rename_i after flushing
        exact append_gauge flushing moved
      · cases moved
  | save faults =>
      simp only [writerStep] at moved
      split at moved
      · rename_i after saving
        cases moved
        exact save_gauge saving
      · cases moved
  | rotate env =>
      simp only [writerStep] at moved
      split at moved
      · rename_i req rotating
        cases moved
        exact rotate_gauge rotating
      · cases moved
  | fill =>
      obtain ⟨filling, ⟨⟩⟩ := Option.ite_none_right_eq_some.mp moved
      rw [Writer.fill]
      split
      · exact enterFlush_gauge .select rfl (by simp [filling, storing])
          (by simp [filling, inRotation])
      · split
        · exact .kept rfl id id
        · exact .kept rfl (by simp [filling, storing]) (by simp [filling, inRotation])

end Steps

/-! ### The counter over a run -/

/-- The counter is right outside of the flushes that store it. -/
def Gauge.Tracks (gauge : Gauge) : Prop :=
  storing gauge.phase = false → gauge.counter = gauge.entries

/-- The counter is wrong at the `select!`, or will be when the rotation branch ends. -/
def Gauge.Missed (gauge : Gauge) : Prop :=
  inRotation gauge.phase = true ∧ gauge.counter < gauge.entries ∨
    gauge.phase = .selectRotation ∧ gauge.counter ≠ gauge.entries

section Runs

variable {crates : Crates} {codec : LogCodec} {config : WriterConfig} {writer next : Writer}
  {move : WriterMove}

/-- A harmless move keeps the counter right. -/
theorem Gauge.Tracks.step (tracks : (gauge writer).Tracks)
    (harmless : counted crates codec config writer move = true)
    (moved : writerStep crates codec config writer move = some next) : (gauge next).Tracks := by
  have moved := writerStep_gauge moved
  generalize gauge next = after at moved
  intro settled
  cases moved with
  | kept _ stores _ =>
      refine tracks ?_
      cases stored : storing writer.phase with
      | false => exact stored
      | true => exact absurd (stores stored) (by simp [settled])
  | stored => rfl
  | @appended sign now branch phase first rest flushing batch signed onward =>
      cases branch with
      | rotate req => simp [counted, flushing, batch, signed] at harmless
      | _ => rcases onward with rfl | rfl <;> cases settled
  | rotated rotating succeeded => simp [counted, rotating, succeeded] at harmless
  | unrotated rotating _ => exact tracks (by simp [gauge, rotating, storing])

/-- Any other move leaves it behind. -/
theorem Gauge.Tracks.missed (tracks : (gauge writer).Tracks)
    (harmful : counted crates codec config writer move = false)
    (moved : writerStep crates codec config writer move = some next) : (gauge next).Missed := by
  have moved := writerStep_gauge moved
  generalize gauge next = after at moved
  cases moved with
  | kept harmless | stored harmless => simp [harmless] at harmful
  | @appended sign now branch phase first rest flushing batch signed onward =>
      cases branch with
      | rotate req =>
          have exact : (gauge writer).counter = (gauge writer).entries :=
            tracks (by simp [gauge, flushing, storing])
          refine .inl ⟨?_, by simp only [exact]; omega⟩
          rcases onward with rfl | rfl <;> rfl
      | _ => simp [counted, flushing] at harmful
  | rotated => exact .inr ⟨rfl, by simp⟩
  | unrotated rotating failed => simp [counted, rotating, failed] at harmful

/-- What was missed shows at the end of the rotation branch. -/
theorem Gauge.Missed.step (behind : inRotation writer.phase = true)
    (fewer : (gauge writer).counter < (gauge writer).entries)
    (moved : writerStep crates codec config writer move = some next) : (gauge next).Missed := by
  have moved := writerStep_gauge moved
  generalize gauge next = after at moved
  cases moved with
  | kept _ _ rotates => exact .inl ⟨rotates behind, fewer⟩
  | stored _ outside => simp [outside] at behind
  | @appended sign now branch phase first rest flushing batch signed onward =>
      rw [flushing] at behind
      refine .inl ⟨?_, Nat.lt_succ_of_lt fewer⟩
      rcases onward with rfl | rfl
      · exact behind
      · cases branch <;> first | rfl | cases behind
  | rotated => exact .inr ⟨rfl, by simp⟩
  | unrotated => exact .inr ⟨rfl, Nat.ne_of_lt fewer⟩

/-- Along a run in which the counter is right at every earlier `select!`, it tracks the
segment, or an entry was missed and is still so. -/
theorem counted_or_missed {start : Writer} {moves : List WriterMove}
    (tracksStart : (gauge start).Tracks)
    (run : (writerMachine crates codec config).Runs (writerMachine crates codec config).Free
      start moves writer)
    (accurate : ∀ (passed later : List WriterMove) (state : Writer), moves = passed ++ later →
      (writerMachine crates codec config).Runs (writerMachine crates codec config).Free
        start passed state →
      state.phase = .selectRotation → (gauge state).counter = (gauge state).entries) :
    (writerMachine crates codec config).Runs
        (fun writer move => counted crates codec config writer move = true) start moves writer ∧
        (gauge writer).Tracks ∨
      (gauge writer).Missed := by
  let machine := writerMachine crates codec config
  let harmless (writer : Writer) (move : WriterMove) :=
    counted crates codec config writer move = true
  let Accurate (moves : List WriterMove) := ∀ (passed later : List WriterMove) (state : Writer),
    moves = passed ++ later → machine.Runs machine.Free start passed state →
      state.phase = .selectRotation → (gauge state).counter = (gauge state).entries
  refine (run.labelled_invariant (fun (moves : List WriterMove) (state : Writer) =>
    machine.Runs machine.Free start moves state ∧ (Accurate moves →
      machine.Runs harmless start moves state ∧ (gauge state).Tracks ∨ (gauge state).Missed))
    ?initially ?step).2 accurate
  case initially => exact ⟨.nil, fun _ => .inl ⟨.nil, tracksStart⟩⟩
  rintro (passed : List WriterMove) (state : Writer) (move : WriterMove) (next : Writer)
    ⟨prior, inductionHypothesis⟩ _ moved
  refine ⟨prior.snoc trivial moved, fun accurate => ?_⟩
  have accurateBefore : Accurate passed := fun earlier later mid split =>
    accurate earlier (later ++ [move]) mid (split ▸ List.append_assoc earlier later [move])
  rcases inductionHypothesis accurateBefore with
    ⟨harmlessRun, tracks⟩ | ⟨behind, fewer⟩ | ⟨atSelect, wrong⟩
  · cases counts : counted crates codec config state move with
    | true => exact .inl ⟨harmlessRun.snoc counts moved, tracks.step counts moved⟩
    | false => exact .inr (tracks.missed counts moved)
  · exact .inr (Gauge.Missed.step behind fewer moved)
  · exact absurd (accurateBefore passed [] state passed.append_nil.symm prior atSelect) wrong

end Runs

/-- The counter equals the number of entries, and the entry trigger of every policy fires
exactly when the log has as many entries as the policy allows. -/
def SegmentCounted (writer : Writer) : Prop :=
  writer.entriesSinceRotation = writer.ledger.live.log.entries.length ∧
    ∀ (policy : RotationPolicy) (max : UInt64) (age : Nat) (size : Option Nat),
      policy.maxEntries = some max →
        ((∃ cur limit, checkThresholds policy writer.entriesSinceRotation age size =
          some (.maxEntries cur limit)) ↔ max.toNat ≤ writer.ledger.live.log.entries.length)

theorem segmentCounted_of_counter {writer : Writer}
    (counts : writer.entriesSinceRotation = writer.ledger.live.log.entries.length) :
    SegmentCounted writer := by
  refine ⟨counts, fun policy max age size bound => ?_⟩
  rw [checkThresholds_maxEntries bound, counts]

/-- The counter is right whenever the writer is at its `select!` if and only if the channel
was spawned on a log without entries, no rotation succeeded, and no append succeeded in a
flush that preceded a rotation. -/
theorem segment_counter_accurate_iff (crates : Crates) (codec : LogCodec) (config : WriterConfig)
    (log : AuditLog) (disk : Channel.Disk) {moves : List WriterMove} {writer : Writer}
    (run : (writerMachine crates codec config).Runs (writerMachine crates codec config).Free
      (.spawn log disk : Writer) moves writer)
    (selecting : writer.phase = .selectRotation) :
    (∀ (passed later : List WriterMove) (state : Writer), moves = passed ++ later →
      (writerMachine crates codec config).Runs (writerMachine crates codec config).Free
        (.spawn log disk : Writer) passed state →
      state.phase = .selectRotation → SegmentCounted state) ↔
    log.entries = [] ∧ (writerMachine crates codec config).Runs
      (fun writer move => counted crates codec config writer move = true)
      (.spawn log disk : Writer) moves writer := by
  have tracksSpawn (empty : log.entries = []) : (gauge (.spawn log disk)).Tracks := by
    intro _
    simp [gauge, Writer.spawn, empty]
  constructor
  · intro accurate
    have empty : log.entries = [] := by
      have first := (accurate [] moves _ rfl .nil rfl).1
      exact List.length_eq_zero_iff.mp first.symm
    refine ⟨empty, ?_⟩
    rcases counted_or_missed (tracksSpawn empty) run
        (fun passed later state split passing atSelect =>
          (accurate passed later state split passing atSelect).1) with
      ⟨harmlessRun, _⟩ | ⟨behind, _⟩ | ⟨_, wrong⟩
    · exact harmlessRun
    · simp [gauge, selecting, inRotation] at behind
    · exact absurd (accurate moves [] writer (by simp) run selecting).1 wrong
  · rintro ⟨empty, harmlessRun⟩ passed later state rfl passing atSelect
    obtain ⟨middle, before, _⟩ := harmlessRun.split
    have tracks : (gauge middle).Tracks :=
      before.invariant (fun (state : Writer) => (gauge state).Tracks) (tracksSpawn empty)
        fun tracks harmless moved => tracks.step harmless moved
    have same : middle = state := Option.some.inj (before.exec.symm.trans passing.exec)
    subst same
    exact segmentCounted_of_counter (tracks (by simp [gauge, atSelect, storing]))

/-- One event on a new log, appended and saved. -/
theorem segment_counter_accurate_single :
    ∃ (moves : List WriterMove) (writer : Writer),
      writer.phase = .selectRotation ∧ writer.ledger.live.log.entries.length = 1 ∧
      ∀ (passed later : List WriterMove) (state : Writer), moves = passed ++ later →
        (writerMachine plainCrates cborCodec (plainConfig 1)).Runs
          (writerMachine plainCrates cborCodec (plainConfig 1)).Free plainWriter passed state →
        state.phase = .selectRotation → SegmentCounted state := by
  obtain ⟨log, entry, committed, _, entries, _⟩ := plainLog_append
  let saving : Writer := { plainWriter with
    ledger := ((plainWriter.ledger.accept loginEvent).receive ⟨0, loginEvent⟩ []).appended log
      ⟨0, loginEvent⟩ []
    phase := .saving .select, auditEvents := 1 }
  have executed : (writerMachine plainCrates cborCodec (plainConfig 1)).execChecked
      (counted plainCrates cborCodec (plainConfig 1)) plainWriter
      [.emit loginEvent, .pollRotation, .pollEvent, .fill,
        .append plainSign "2026-05-01T00:00:02Z", .save (.none "audit.tmp")] =
        some (saving.save cborCodec (plainConfig 1) .select (.none "audit.tmp")) := by
    simp [saving, Machine.execChecked, writerMachine, writerStep, counted, plainWriter, plainConfig,
      Writer.spawn, committed, Writer.emit, Writer.pollRotation, Writer.pollEvent, Writer.fill,
      Writer.enterFlush, Writer.append, Ledger.accept, Ledger.receive, Ledger.appended]
  have selecting : (saving.save cborCodec (plainConfig 1) .select (.none "audit.tmp")).phase =
      .selectRotation := by
    rw [Writer.save]
    split <;> rfl
  have harmless := Machine.Runs.of_execChecked executed
  refine ⟨_, _, selecting, ?_, (segment_counter_accurate_iff plainCrates cborCodec (plainConfig 1)
    plainLog _ (harmless.mono fun _ _ _ => trivial) selecting).mpr ⟨rfl, harmless⟩⟩
  rw [Writer.save_ledger]
  exact congrArg List.length entries

/-- The new log, with an entry. -/
def usedLog : AuditLog :=
  (plainLog.append plainCrates loginEvent plainSign "2026-05-01T00:00:02Z").1

/-- A channel on a log with an entry is back at its `select!` with an event pending, and its
counter is zero: a policy of one entry does not fire. -/
theorem segment_counter_ignores_reopened :
    ¬ ∀ (log : AuditLog) (disk : Channel.Disk) (moves : List WriterMove) (writer : Writer),
      (writerMachine plainCrates cborCodec (plainConfig 2)).Runs
        (writerMachine plainCrates cborCodec (plainConfig 2)).Free
        (.spawn log disk : Writer) moves writer →
      writer.phase = .selectRotation → SegmentCounted writer := by
  intro accurate
  have evaluated : ((writerMachine plainCrates cborCodec (plainConfig 2)).exec
      (.spawn usedLog fun _ => none : Writer)
      [.emit loginEvent, .pollRotation, .pollEvent, .fill]).any (fun (writer : Writer) =>
        writer.phase = .selectRotation ∧ writer.entriesSinceRotation = 0 ∧
          writer.ledger.live.log.entries.length = 1) = true := by
    decide +kernel
  obtain ⟨writer, executed, facts⟩ := (Option.any_eq_true _ _).mp evaluated
  obtain ⟨selecting, zero, one⟩ := of_decide_eq_true facts
  have counts := (accurate usedLog _ _ writer (.of_exec executed) selecting).1
  omega

end CofreSoberano.Gateway
