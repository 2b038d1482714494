import CofreSoberano.Audit.Event
import CofreSoberano.Std.Machine
import CofreSoberano.Transport.Record

/-!
# One proxied session

`run_session` spawns a pump for each direction and joins them. A pump adds what it
forwarded to the tenant's byte counters as it goes, and returns its own total when it
ends. The session is a machine: what the streams yield, when a pump ends and in which
order the two are joined is in the labels. A pump whose end is an error, a panic or an
abort returns no total.
-/

namespace CofreSoberano.Gateway.Proxy

open CofreSoberano.Std CofreSoberano.Audit CofreSoberano.Transport

/-- Which leg of the gateway pair a session runs on. -/
inductive Direction where
  | appToPeer
  | peerToBackend
deriving DecidableEq, Repr

/-- The `Debug` text of a direction. -/
def Direction.debug : Direction → String
  | .appToPeer => "AppToPeer"
  | .peerToBackend => "PeerToBackend"

inductive Bucket where
  | c2s
  | s2c
deriving DecidableEq, Repr

/-- The counters of a tenant that a session touches. They are atomics, which wrap. -/
structure SessionMetrics where
  sessionsOpened : UInt64
  sessionsActive : UInt64
  sessionsClosed : UInt64
  bytesC2s : UInt64
  bytesS2c : UInt64
deriving DecidableEq, Repr

namespace SessionMetrics

/-- The byte counter of a bucket. -/
def bytes (metrics : SessionMetrics) : Bucket → UInt64
  | .c2s => metrics.bytesC2s
  | .s2c => metrics.bytesS2c

/-- `bump`. -/
def bump (metrics : SessionMetrics) (n : Nat) : Bucket → SessionMetrics
  | .c2s => { metrics with bytesC2s := metrics.bytesC2s + UInt64.ofNat n }
  | .s2c => { metrics with bytesS2c := metrics.bytesS2c + UInt64.ofNat n }

end SessionMetrics

/-- `u64::saturating_add`. -/
def saturatingAdd (left right : UInt64) : UInt64 :=
  UInt64.ofNat (min (left.toNat + right.toNat) (2 ^ 64 - 1))

/-- What the join handle of a pump yields. -/
inductive PumpEnd where
  | ok (total : UInt64)
  | failed (message : String)
  | panicked (message : String)
  | cancelled
deriving DecidableEq, Repr

/-- Where a pump awaits. -/
inductive PumpPhase where
  /-- At `local_r.read` or `cspq_r.recv_record`. -/
  | obtaining
  /-- At `cspq_w.send_record` or `local_w.write_all`, with so many bytes. -/
  | forwarding (n : Nat)
  /-- At `cspq_w.send_eof` or `local_w.shutdown`. -/
  | closing
  | done (outcome : PumpEnd)
deriving DecidableEq, Repr

/-- A pump task. `moved` is what it added to the byte counters. -/
structure Pump where
  phase : PumpPhase
  total : UInt64
  moved : Nat
  abortRequested : Bool
deriving DecidableEq, Repr

/-- What happens to a pump: an operation that it awaits completes, it panics, or an
abort that was requested takes effect. -/
inductive PumpMove where
  | obtain (outcome : Except String Nat)
  | forward (outcome : Except String Unit)
  | close (outcome : Except String Unit)
  | panic (message : String)
  | cancel

namespace Pump

/-- A pump that was just spawned. -/
def spawn : Pump where
  phase := .obtaining
  total := 0
  moved := 0
  abortRequested := false

/-- End with an outcome. -/
def finish (pump : Pump) (outcome : PumpEnd) : Pump := { pump with phase := .done outcome }

/-- A chunk was forwarded. -/
def count (pump : Pump) (n : Nat) : Pump :=
  { pump with
    phase := .obtaining
    total := saturatingAdd pump.total (UInt64.ofNat n)
    moved := pump.moved + n }

/-- The loop that both pumps run, with the bytes that the move adds to the counters. -/
def step (closeMatters : Bool) (pump : Pump) (move : PumpMove) : Option (Pump × Nat) :=
  match pump.phase, move with
  | .done _, _ => none
  | .obtaining, .obtain (.error message) => some (pump.finish (.failed message), 0)
  | .obtaining, .obtain (.ok n) =>
      if n = 0 then some ({ pump with phase := .closing }, 0)
      else if n ≤ maxPlaintext then some ({ pump with phase := .forwarding n }, 0)
      else none
  | .forwarding _, .forward (.error message) => some (pump.finish (.failed message), 0)
  | .forwarding n, .forward (.ok _) => some (pump.count n, n)
  | .closing, .close (.error message) =>
      if closeMatters then some (pump.finish (.failed message), 0)
      else some (pump.finish (.ok pump.total), 0)
  | .closing, .close (.ok _) => some (pump.finish (.ok pump.total), 0)
  | _, .panic message => some (pump.finish (.panicked message), 0)
  | _, .cancel => if pump.abortRequested then some (pump.finish .cancelled, 0) else none
  | _, _ => none

end Pump

/-- `pump_local_to_cspq`: an error of `send_eof` is an error of the pump. -/
def pumpLocalToCspq : Pump → PumpMove → Option (Pump × Nat) := Pump.step true

/-- `pump_cspq_to_local`: an error of `shutdown` is ignored. -/
def pumpCspqToLocal : Pump → PumpMove → Option (Pump × Nat) := Pump.step false

/-- What `run_session` is called with. -/
structure SessionInfo where
  direction : Direction
  tenantName : String
  peerIdHex : String
deriving DecidableEq, Repr

namespace SessionInfo

/-- The bucket of the pump from the local stream. -/
def upBucket (info : SessionInfo) : Bucket :=
  match info.direction with
  | .appToPeer => .c2s
  | .peerToBackend => .s2c

/-- The bucket of the pump to the local stream. -/
def downBucket (info : SessionInfo) : Bucket :=
  match info.direction with
  | .appToPeer => .s2c
  | .peerToBackend => .c2s

end SessionInfo

/-- A session: the two tasks, and the variables of `run_session`. -/
structure Session where
  metrics : SessionMetrics
  up : Pump
  down : Pump
  bytesUp : UInt64
  bytesDown : UInt64
  shutdownReason : Option String
  upDone : Bool
  downDone : Bool
  /-- The result and the `session.close` event, once the session is over. -/
  closure : Option ((UInt64 × UInt64) × AuditEvent)
deriving DecidableEq

inductive SessionMove where
  | up (move : PumpMove)
  | down (move : PumpMove)
  | joinUp
  | joinDown
  | close (now : Timestamp) (durationMs : String)

namespace Session

/-- The start of `run_session`; the handshake histogram and the `session.open` event are
left out. -/
def start (metrics : SessionMetrics) : Session where
  metrics := { metrics with
    sessionsOpened := metrics.sessionsOpened + 1, sessionsActive := metrics.sessionsActive + 1 }
  up := .spawn
  down := .spawn
  bytesUp := 0
  bytesDown := 0
  shutdownReason := none
  upDone := false
  downDone := false
  closure := none

/-- What a branch of the `select!` makes of the total and of the shutdown reason. -/
def joined (label : String) (bytes : UInt64) (reason : Option String) : PumpEnd →
    UInt64 × Option String
  | .ok n => (n, reason)
  | .failed message => (bytes, some (reason.getD s!"{label}: {message}"))
  | .panicked message => (bytes, some (reason.getD s!"{label} panic: {message}"))
  | .cancelled => (bytes, some (reason.getD s!"{label} cancelled"))

/-- The branch of the `select!` for `local_to_cspq`. -/
def joinUp (session : Session) (outcome : PumpEnd) : Session :=
  let (bytesUp, shutdownReason) :=
    joined "local→cspq" session.bytesUp session.shutdownReason outcome
  let abort := shutdownReason.isSome && !session.downDone
  { session with
    bytesUp, shutdownReason, upDone := true
    down := { session.down with abortRequested := session.down.abortRequested || abort } }

/-- The branch of the `select!` for `cspq_to_local`. -/
def joinDown (session : Session) (outcome : PumpEnd) : Session :=
  let (bytesDown, shutdownReason) :=
    joined "cspq→local" session.bytesDown session.shutdownReason outcome
  let abort := shutdownReason.isSome && !session.upDone
  { session with
    bytesDown, shutdownReason, downDone := true
    up := { session.up with abortRequested := session.up.abortRequested || abort } }

/-- The `session.close` event. -/
def closeEvent (info : SessionInfo) (session : Session) (now : Timestamp) (durationMs : String) :
    AuditEvent :=
  let builder : EventBuilder :=
    { actor := some "svc:qgateway", action := some "session.close"
      resource := some s!"cspq://{info.peerIdHex}" }
  let builder := builder.withMeta "tenant" info.tenantName
  let builder := builder.withMeta "direction" info.direction.debug
  let builder := builder.withMeta "bytes_up" (toString session.bytesUp)
  let builder := builder.withMeta "bytes_down" (toString session.bytesDown)
  let builder := builder.withMeta "duration_ms" durationMs
  let builder := builder.withMeta "shutdown_reason" (session.shutdownReason.getD "clean")
  builder.build now

/-- What follows the loop. -/
def close (info : SessionInfo) (session : Session) (now : Timestamp) (durationMs : String) :
    Session :=
  { session with
    metrics := { session.metrics with
      sessionsActive := session.metrics.sessionsActive - 1
      sessionsClosed := session.metrics.sessionsClosed + 1 }
    closure := some ((session.bytesUp, session.bytesDown), session.closeEvent info now durationMs) }

end Session

/-- One move of a session. -/
def sessionStep (info : SessionInfo) (session : Session) : SessionMove → Option Session
  | .up move => do
      let (up, n) ← pumpLocalToCspq session.up move
      return { session with up, metrics := session.metrics.bump n info.upBucket }
  | .down move => do
      let (down, n) ← pumpCspqToLocal session.down move
      return { session with down, metrics := session.metrics.bump n info.downBucket }
  | .joinUp =>
      match session.up.phase with
      | .done outcome => if session.upDone then none else some (session.joinUp outcome)
      | _ => none
  | .joinDown =>
      match session.down.phase with
      | .done outcome => if session.downDone then none else some (session.joinDown outcome)
      | _ => none
  | .close now durationMs =>
      if session.upDone ∧ session.downDone ∧ session.closure = none then
        some (session.close info now durationMs)
      else none

/-- The sessions of a tenant. -/
def sessionMachine (info : SessionInfo) : Machine where
  State := Session
  Label := SessionMove
  Initial := fun session => ∃ metrics, session = .start metrics
  step := sessionStep info

/-- The pump ended with the end of its stream, or before it had forwarded anything. -/
def Pump.Accounted (pump : Pump) : Prop :=
  pump.moved = 0 ∨ (∃ total, pump.phase = .done (.ok total)) ∧ pump.moved < 2 ^ 64

/-- The total that `run_session` takes from the end of a pump. -/
def PumpEnd.reported : PumpEnd → UInt64
  | .ok total => total
  | _ => 0

section Counters

theorem saturatingAdd_toNat (left right : UInt64) :
    (saturatingAdd left right).toNat = min (left.toNat + right.toNat) (2 ^ 64 - 1) := by
  rw [saturatingAdd, UInt64.toNat_ofNat_of_lt']
  show _ < 18446744073709551616
  omega

theorem bytes_bump (metrics : SessionMetrics) (n : Nat) (bucket : Bucket) :
    (metrics.bump n bucket).bytes bucket = metrics.bytes bucket + UInt64.ofNat n := by
  cases bucket <;> rfl

theorem bytes_bump_other (metrics : SessionMetrics) (n : Nat) {bucket other : Bucket}
    (apart : other ≠ bucket) : (metrics.bump n bucket).bytes other = metrics.bytes other := by
  cases bucket <;> cases other <;> first | rfl | exact absurd rfl apart

@[simp] theorem sessionsActive_bump (metrics : SessionMetrics) (n : Nat) (bucket : Bucket) :
    (metrics.bump n bucket).sessionsActive = metrics.sessionsActive := by
  cases bucket <;> rfl

theorem SessionInfo.buckets_differ (info : SessionInfo) : info.upBucket ≠ info.downBucket := by
  rw [upBucket, downBucket]
  cases info.direction <;> decide

end Counters

namespace Pump

variable {closeMatters : Bool} {pump next : Pump} {move : PumpMove} {n : Nat}

/-- The total of a pump is what it added to the counters, as far as it fits. -/
structure Counts (pump : Pump) : Prop where
  total : pump.total.toNat = min pump.moved (2 ^ 64 - 1)
  chunk : ∀ n, pump.phase = .forwarding n → n ≤ maxPlaintext
  reported : ∀ total, pump.phase = .done (.ok total) → total = pump.total

theorem Counts.spawn : Pump.spawn.Counts := ⟨rfl, by rintro _ ⟨⟩, by rintro _ ⟨⟩⟩

theorem Counts.count (counts : pump.Counts) (phase : pump.phase = .forwarding n) :
    (pump.count n).Counts := by
  refine ⟨?_, by rintro _ ⟨⟩, by rintro _ ⟨⟩⟩
  have total := counts.total
  have small := counts.chunk n phase
  have size : (UInt64.ofNat n).toNat = n := by
    refine UInt64.toNat_ofNat_of_lt' (Nat.lt_of_le_of_lt small ?_)
    decide
  simp only [Pump.count, saturatingAdd_toNat, size]
  omega

/-- What a move does to a pump: it ends, or it gets to its next operation, or it counts
the chunk that it forwarded. -/
inductive Advances (pump : Pump) : Pump → Nat → Prop where
  | ended (outcome : PumpEnd) (own : ∀ total, outcome = .ok total → total = pump.total) :
      Advances pump (pump.finish outcome) 0
  | eof : Advances pump { pump with phase := .closing } 0
  | obtained (n : Nat) (fits : n ≤ maxPlaintext) : Advances pump
      { pump with phase := .forwarding n } 0
  | forwarded (n : Nat) (phase : pump.phase = .forwarding n) : Advances pump (pump.count n) n

theorem step_advances (stepped : pump.step closeMatters move = some (next, n)) :
    (∀ outcome, pump.phase ≠ .done outcome) ∧ Advances pump next n := by
  have running : ∀ outcome, pump.phase ≠ .done outcome := by
    intro outcome phase
    simp [step, phase] at stepped
  refine ⟨running, ?_⟩
  cases move with
  | obtain outcome =>
      cases phase : pump.phase with
      | obtaining =>
          cases outcome with
          | error message =>
              simp only [step, phase, Option.some_inj, Prod.mk.injEq] at stepped
              obtain ⟨rfl, rfl⟩ := stepped
              exact .ended _ (by simp)
          | ok size =>
              simp only [step, phase] at stepped
              split at stepped
              · cases stepped
                exact .eof
              · obtain ⟨fits, ⟨⟩⟩ := Option.ite_none_right_eq_some.mp stepped
                exact .obtained size fits
      | _ => simp [step, phase] at stepped
  | forward outcome =>
      cases phase : pump.phase with
      | forwarding size =>
          cases outcome with
          | error message =>
              simp only [step, phase, Option.some_inj, Prod.mk.injEq] at stepped
              obtain ⟨rfl, rfl⟩ := stepped
              exact .ended _ (by simp)
          | ok _ =>
              simp only [step, phase, Option.some_inj, Prod.mk.injEq] at stepped
              obtain ⟨rfl, rfl⟩ := stepped
              exact .forwarded size phase
      | _ => simp [step, phase] at stepped
  | close outcome =>
      cases phase : pump.phase with
      | closing =>
          cases outcome with
          | error message =>
              simp only [step, phase] at stepped
              split at stepped
              · cases stepped
                exact .ended _ (by simp)
              · cases stepped
                exact .ended _ fun total same => (PumpEnd.ok.inj same).symm
          | ok _ =>
              simp only [step, phase, Option.some_inj, Prod.mk.injEq] at stepped
              obtain ⟨rfl, rfl⟩ := stepped
              exact .ended _ fun total same => (PumpEnd.ok.inj same).symm
      | _ => simp [step, phase] at stepped
  | panic message =>
      cases phase : pump.phase with
      | done outcome => exact absurd phase (running outcome)
      | _ =>
          simp only [step, phase, Option.some_inj, Prod.mk.injEq] at stepped
          obtain ⟨rfl, rfl⟩ := stepped
          exact .ended _ (by simp)
  | cancel =>
      cases phase : pump.phase with
      | done outcome => exact absurd phase (running outcome)
      | _ =>
          simp only [step, phase] at stepped
          obtain ⟨_, ⟨⟩⟩ := Option.ite_none_right_eq_some.mp stepped
          exact .ended _ (by simp)

/-- A move adds to the counters what it adds to the account. -/
theorem Counts.advance (counts : pump.Counts) (advances : Advances pump next n) :
    next.Counts ∧ next.moved = pump.moved + n := by
  cases advances with
  | ended outcome own =>
      refine ⟨⟨counts.total, by rintro _ ⟨⟩, ?_⟩, rfl⟩
      rintro total ⟨⟩
      exact own total rfl
  | eof => exact ⟨⟨counts.total, by rintro _ ⟨⟩, by rintro _ ⟨⟩⟩, rfl⟩
  | obtained size fits =>
      refine ⟨⟨counts.total, ?_, by rintro _ ⟨⟩⟩, rfl⟩
      rintro chunk ⟨⟩
      exact fits
  | forwarded n phase => exact ⟨counts.count phase, rfl⟩

/-- The total that a joined pump reports is what it moved exactly if it is accounted for. -/
theorem Counts.reported_iff {outcome : PumpEnd} (counts : pump.Counts)
    (phase : pump.phase = .done outcome) :
    outcome.reported.toNat = pump.moved ↔ pump.Accounted := by
  have total := counts.total
  cases outcome with
  | ok reported =>
      rw [Accounted, PumpEnd.reported, counts.reported reported phase]
      constructor
      · intro same
        exact .inr ⟨⟨reported, phase⟩, by omega⟩
      · rintro (none | ⟨_, fits⟩) <;> omega
  | failed message | panicked message | cancelled =>
      show 0 = pump.moved ↔ _
      simp [Accounted, phase, eq_comm]

end Pump

namespace Session

variable {info : SessionInfo} {metrics : SessionMetrics} {session next : Session}

/-- The books of a session that started with the given counters. -/
structure Books (info : SessionInfo) (metrics : SessionMetrics) (session : Session) : Prop where
  up : session.up.Counts
  down : session.down.Counts
  upBytes : session.metrics.bytes info.upBucket =
    metrics.bytes info.upBucket + UInt64.ofNat session.up.moved
  downBytes : session.metrics.bytes info.downBucket =
    metrics.bytes info.downBucket + UInt64.ofNat session.down.moved
  active : session.metrics.sessionsActive =
    if session.closure.isSome then metrics.sessionsActive else metrics.sessionsActive + 1
  joinedUp : session.upDone = true → ∃ outcome, session.up.phase = .done outcome ∧
    session.bytesUp = outcome.reported
  unjoinedUp : session.upDone = false → session.bytesUp = 0
  joinedDown : session.downDone = true → ∃ outcome, session.down.phase = .done outcome ∧
    session.bytesDown = outcome.reported
  unjoinedDown : session.downDone = false → session.bytesDown = 0
  closed : ∀ result event, session.closure = some (result, event) →
    session.upDone = true ∧ session.downDone = true ∧
    result = (session.bytesUp, session.bytesDown) ∧
      event.metadata.get? "bytes_up" = some (toString session.bytesUp) ∧
      event.metadata.get? "bytes_down" = some (toString session.bytesDown)

theorem Books.start (info : SessionInfo) (metrics : SessionMetrics) :
    Books info metrics (.start metrics) where
  up := .spawn
  down := .spawn
  upBytes := by
    cases upBucket : info.upBucket <;> simp [Session.start, Pump.spawn, SessionMetrics.bytes]
  downBytes := by
    cases downBucket : info.downBucket <;> simp [Session.start, Pump.spawn, SessionMetrics.bytes]
  active := rfl
  joinedUp := by rintro ⟨⟩
  unjoinedUp := fun _ => rfl
  joinedDown := by rintro ⟨⟩
  unjoinedDown := fun _ => rfl
  closed := by rintro _ _ ⟨⟩

/-- A move of the pump from the local stream. -/
theorem Books.moveUp {up : Pump} {n : Nat} (books : Books info metrics session)
    (running : ∀ outcome, session.up.phase ≠ .done outcome)
    (advances : session.up.Advances up n) :
    Books info metrics { session with up, metrics := session.metrics.bump n info.upBucket } := by
  obtain ⟨counts, moved⟩ := books.up.advance advances
  refine { books with up := counts, upBytes := ?_, downBytes := ?_, active := ?_, joinedUp := ?_ }
  · rw [bytes_bump, books.upBytes, moved, UInt64.ofNat_add, UInt64.add_assoc]
  · rw [bytes_bump_other _ _ (Ne.symm info.buckets_differ)]
    exact books.downBytes
  · rw [sessionsActive_bump]
    exact books.active
  · intro done
    obtain ⟨outcome, phase, _⟩ := books.joinedUp done
    exact absurd phase (running outcome)

/-- A move of the pump to the local stream. -/
theorem Books.moveDown {down : Pump} {n : Nat} (books : Books info metrics session)
    (running : ∀ outcome, session.down.phase ≠ .done outcome)
    (advances : session.down.Advances down n) :
    Books info metrics { session with
      down
      metrics := session.metrics.bump n info.downBucket } := by
  obtain ⟨counts, moved⟩ := books.down.advance advances
  refine { books with
    down := counts
    upBytes := ?_
    downBytes := ?_
    active := ?_
    joinedDown := ?_ }
  · rw [bytes_bump_other _ _ info.buckets_differ]
    exact books.upBytes
  · rw [bytes_bump, books.downBytes, moved, UInt64.ofNat_add, UInt64.add_assoc]
  · rw [sessionsActive_bump]
    exact books.active
  · intro done
    obtain ⟨outcome, phase, _⟩ := books.joinedDown done
    exact absurd phase (running outcome)

theorem joined_bytes (label : String) (reason : Option String) (outcome : PumpEnd) :
    (joined label 0 reason outcome).1 = outcome.reported := by
  cases outcome <;> rfl

theorem Counts.abort {pump : Pump} (counts : pump.Counts) (abortRequested : Bool) :
    Pump.Counts { pump with abortRequested } :=
  ⟨counts.total, counts.chunk, counts.reported⟩

theorem Books.joinUp {outcome : PumpEnd} (books : Books info metrics session)
    (phase : session.up.phase = .done outcome) (unjoined : session.upDone = false) :
    Books info metrics (session.joinUp outcome) := by
  have zero := books.unjoinedUp unjoined
  have closure : session.closure = none := by
    refine Option.eq_none_iff_forall_ne_some.mpr ?_
    rintro ⟨result, event⟩ closure
    rw [(books.closed result event closure).1] at unjoined
    cases unjoined
  refine ⟨books.up, Counts.abort books.down _, books.upBytes, books.downBytes,
    books.active, ?_, by rintro ⟨⟩, books.joinedDown, books.unjoinedDown, ?_⟩
  · intro _
    refine ⟨outcome, phase, ?_⟩
    simp only [Session.joinUp, zero, joined_bytes]
  · intro result event closed
    rw [show (session.joinUp outcome).closure = session.closure from rfl, closure] at closed
    cases closed

theorem Books.joinDown {outcome : PumpEnd} (books : Books info metrics session)
    (phase : session.down.phase = .done outcome) (unjoined : session.downDone = false) :
    Books info metrics (session.joinDown outcome) := by
  have zero := books.unjoinedDown unjoined
  have closure : session.closure = none := by
    refine Option.eq_none_iff_forall_ne_some.mpr ?_
    rintro ⟨result, event⟩ closure
    rw [(books.closed result event closure).2.1] at unjoined
    cases unjoined
  refine ⟨Counts.abort books.up _, books.down, books.upBytes, books.downBytes, books.active,
    books.joinedUp, books.unjoinedUp, ?_, by rintro ⟨⟩, ?_⟩
  · intro _
    refine ⟨outcome, phase, ?_⟩
    simp only [Session.joinDown, zero, joined_bytes]
  · intro result event closed
    rw [show (session.joinDown outcome).closure = session.closure from rfl, closure] at closed
    cases closed

theorem Books.close {now : Timestamp} {durationMs : String} (books : Books info metrics session)
    (upDone : session.upDone = true) (downDone : session.downDone = true)
    (closure : session.closure = none) :
    Books info metrics (session.close info now durationMs) := by
  have active := books.active
  rw [closure] at active
  have bytes : ∀ bucket, (session.close info now durationMs).metrics.bytes bucket =
      session.metrics.bytes bucket := by
    intro bucket
    cases bucket <;> rfl
  refine { books with upBytes := ?_, downBytes := ?_, active := ?_, closed := ?_ }
  · exact (bytes _).trans books.upBytes
  · exact (bytes _).trans books.downBytes
  · simp only [Session.close, active]
    simp
  · rintro result event ⟨⟩
    refine ⟨upDone, downDone, rfl, ?_, ?_⟩ <;>
      simp [closeEvent, EventBuilder.build, EventBuilder.withMeta, OrderedMap.get?_insert] <;> rfl

/-- Every move of a session keeps its books. -/
theorem Books.step {move : SessionMove} (books : Books info metrics session)
    (moved : sessionStep info session move = some next) : Books info metrics next := by
  cases move with
  | up move =>
      obtain ⟨⟨up, n⟩, stepped, ⟨⟩⟩ := Option.bind_eq_some_iff.mp moved
      obtain ⟨running, advances⟩ := Pump.step_advances stepped
      exact books.moveUp running advances
  | down move =>
      obtain ⟨⟨down, n⟩, stepped, ⟨⟩⟩ := Option.bind_eq_some_iff.mp moved
      obtain ⟨running, advances⟩ := Pump.step_advances stepped
      exact books.moveDown running advances
  | joinUp =>
      simp only [sessionStep] at moved
      split at moved
      · rename_i outcome phase
        obtain ⟨unjoined, ⟨⟩⟩ := Option.ite_none_left_eq_some.mp moved
        exact books.joinUp phase (Bool.eq_false_iff.mpr unjoined)
      · cases moved
  | joinDown =>
      simp only [sessionStep] at moved
      split at moved
      · rename_i outcome phase
        obtain ⟨unjoined, ⟨⟩⟩ := Option.ite_none_left_eq_some.mp moved
        exact books.joinDown phase (Bool.eq_false_iff.mpr unjoined)
      · cases moved
  | close now durationMs =>
      obtain ⟨⟨upDone, downDone, closure⟩, ⟨⟩⟩ := Option.ite_none_right_eq_some.mp moved
      exact books.close upDone downDone closure

theorem books_of_run {moves : List SessionMove}
    (run : (sessionMachine info).Runs (sessionMachine info).Free (.start metrics) moves session) :
    Books info metrics session := by
  refine run.invariant (fun session : Session => Books info metrics session)
    (.start info metrics) ?_
  intro state move next books _ moved
  exact books.step moved

/-- However the pumps of a session ended: it gives its place among the active sessions
back, and what it returns and records are the bytes that its pumps added to the counters
exactly if each of them ended with its stream or had forwarded nothing. -/
theorem session_bytes_accounted_iff {moves : List SessionMove} {bytesUp bytesDown : UInt64}
    {event : AuditEvent}
    (run : (sessionMachine info).Runs (sessionMachine info).Free (.start metrics) moves session)
    (closure : session.closure = some ((bytesUp, bytesDown), event)) :
    session.metrics.sessionsActive = metrics.sessionsActive ∧
    event.metadata.get? "bytes_up" = some (toString bytesUp) ∧
    event.metadata.get? "bytes_down" = some (toString bytesDown) ∧
    session.metrics.bytes info.upBucket = metrics.bytes info.upBucket + UInt64.ofNat
      session.up.moved ∧
    session.metrics.bytes info.downBucket =
      metrics.bytes info.downBucket + UInt64.ofNat session.down.moved ∧
    (bytesUp.toNat = session.up.moved ∧ bytesDown.toNat = session.down.moved ↔
      session.up.Accounted ∧ session.down.Accounted) := by
  have books := books_of_run run
  obtain ⟨upDone, downDone, same, recordedUp, recordedDown⟩ := books.closed _ _ closure
  cases same
  obtain ⟨upEnd, upPhase, reportedUp⟩ := books.joinedUp upDone
  obtain ⟨downEnd, downPhase, reportedDown⟩ := books.joinedDown downDone
  have active := books.active
  rw [closure] at active
  refine ⟨active, recordedUp, recordedDown, books.upBytes, books.downBytes, ?_⟩
  rw [reportedUp, reportedDown]
  exact and_congr (books.up.reported_iff upPhase) (books.down.reported_iff downPhase)

/-- A serve-tcp session. -/
def plainSession : SessionInfo :=
  { direction := .appToPeer, tenantName := "a", peerIdHex := "00112233445566778899aabbccddeeff" }

/-- Counters that start at zero. -/
def zeroMetrics : SessionMetrics :=
  { sessionsOpened := 0, sessionsActive := 0, sessionsClosed := 0, bytesC2s := 0, bytesS2c := 0 }

/-- Five bytes go up, two come down, and both streams end. -/
def cleanMoves : List SessionMove :=
  [.up (.obtain (.ok 5)), .up (.forward (.ok ())), .down (.obtain (.ok 2)),
    .down (.forward (.ok ())), .up (.obtain (.ok 0)), .up (.close (.ok ())), .joinUp,
    .down (.obtain (.ok 0)), .down (.close (.ok ())), .joinDown, .close "2026-05-01T00:00:09Z" "12"]

/-- Five bytes go up and two come down; then the local stream fails, and the other pump
is aborted. -/
def failedMoves : List SessionMove :=
  [.up (.obtain (.ok 5)), .up (.forward (.ok ())), .down (.obtain (.ok 2)),
    .down (.forward (.ok ())), .up (.obtain (.error "connection reset")), .joinUp,
    .down .cancel, .joinDown, .close "2026-05-01T00:00:09Z" "12"]

/-- The clean session returns what its pumps moved. -/
theorem session_bytes_accounted_clean :
    ∃ (session : Session) (event : AuditEvent),
      (sessionMachine plainSession).Runs (sessionMachine plainSession).Free (.start zeroMetrics)
        cleanMoves session ∧ session.closure = some ((5, 2), event) ∧
      (5 : UInt64).toNat = session.up.moved ∧ (2 : UInt64).toNat = session.down.moved := by
  have evaluated : ((sessionMachine plainSession).exec (.start zeroMetrics) cleanMoves).any
      (fun session => session.closure.map Prod.fst = some (5, 2) ∧
        session.up.phase = .done (.ok 5) ∧ session.up.moved = 5 ∧
        session.down.phase = .done (.ok 2) ∧ session.down.moved = 2) = true := by decide +kernel
  obtain ⟨session, executed, facts⟩ := (Option.any_eq_true _ _).mp evaluated
  obtain ⟨returned, upPhase, upMoved, downPhase, downMoved⟩ := of_decide_eq_true facts
  obtain ⟨⟨_, event⟩, closure, rfl⟩ := Option.map_eq_some_iff.mp returned
  have run := Machine.Runs.of_exec executed
  obtain ⟨_, _, _, _, _, agrees⟩ := session_bytes_accounted_iff run closure
  refine ⟨session, event, run, closure, agrees.mpr ⟨.inr ⟨⟨5, upPhase⟩, ?_⟩,
    .inr ⟨⟨2, downPhase⟩, ?_⟩⟩⟩
  · rw [upMoved]
    decide
  · rw [downMoved]
    decide

/-- The failed session returns and records no bytes, while the counters have them. -/
theorem failed_session_reports_no_bytes :
    ∃ (session : Session) (event : AuditEvent),
      (sessionMachine plainSession).Runs (sessionMachine plainSession).Free (.start zeroMetrics)
        failedMoves session ∧ session.closure = some ((0, 0), event) ∧
      session.metrics.bytesC2s = 5 ∧ session.metrics.bytesS2c = 2 := by
  have evaluated : ((sessionMachine plainSession).exec (.start zeroMetrics) failedMoves).any
      (fun session => session.closure.map Prod.fst = some (0, 0) ∧
        session.metrics.bytesC2s = 5 ∧ session.metrics.bytesS2c = 2) = true := by decide +kernel
  obtain ⟨session, executed, facts⟩ := (Option.any_eq_true _ _).mp evaluated
  obtain ⟨returned, c2s, s2c⟩ := of_decide_eq_true facts
  obtain ⟨⟨_, event⟩, closure, rfl⟩ := Option.map_eq_some_iff.mp returned
  exact ⟨session, event, .of_exec executed, closure, c2s, s2c⟩

end Session

end CofreSoberano.Gateway.Proxy
