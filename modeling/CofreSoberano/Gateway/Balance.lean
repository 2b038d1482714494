import CofreSoberano.Gateway.Quota

/-!
# The books of a tenant

Every counter of a tenant against its connections. A connection has put into each counter
what its stage says, so a counter is a tally over all connections there ever were, modulo
2^64. From the tallies follow the balances that hold at every moment, the updates of
`run_session` in progress included. The counters are relaxed atomics: their updates are taken
as interleaved, and the books are those of the state between two of them, not of what another
thread loads.
-/

namespace CofreSoberano.Gateway.Serving

open CofreSoberano.Std

/-- How many of the updates of `run_session` a connection has made. -/
def Stage.booked : Stage → Nat
  | .activating => 1
  | .counting => 2
  | .summing => 3
  | .bucketing => 4
  | .proxying => 5
  | .deactivating => 6
  | .closing => 7
  | .leaving .served | .ended .served => 8
  | _ => 0

/-- The handler returned for this reason. -/
def Stage.endsWith (outcome : TaskEnd) : Stage → Bool
  | .leaving other | .ended other => other = outcome
  | _ => false

/-- What a connection has put into a counter. -/
def Connection.credit (connection : Connection) : Counter → Nat
  | .sessionsOpened => (decide (1 ≤ connection.stage.booked)).toNat
  | .sessionsActive =>
      (decide (2 ≤ connection.stage.booked ∧ connection.stage.booked ≤ 6)).toNat
  | .handshakeCount => (decide (3 ≤ connection.stage.booked)).toNat
  | .handshakeSumUs =>
      if 4 ≤ connection.stage.booked then (asMicros connection.elapsed).toNat else 0
  | .handshakeBuckets index =>
      (decide (5 ≤ connection.stage.booked ∧
        handshakeBucket (asMicros connection.elapsed) = index)).toNat
  | .sessionsClosed => (decide (8 ≤ connection.stage.booked)).toNat
  | .sessionsFailed => (connection.stage.endsWith .handshakeFailed).toNat
  | .admissionRejectedQuota => (connection.stage.endsWith (.rejected .quota)).toNat
  | .admissionRejectedRate => (connection.stage.endsWith (.rejected .rate)).toNat
  | _ => 0

/-- Every counter holds what the connections put into it. -/
def Tenant.Booked (tenant : Tenant) : Prop :=
  ∀ counter, tenant.metrics counter =
    UInt64.ofNat (tally (fun connection => connection.credit counter) tenant.connections)

/-- A connection that made no update owes nothing. -/
theorem Connection.credit_unbooked {connection : Connection} (counter : Counter)
    (booked : connection.stage.booked = 0)
    (ends : ∀ outcome, connection.stage.endsWith outcome = false) :
    connection.credit counter = 0 := by
  cases counter <;> simp [credit, booked, ends]

section Updates

variable {metrics : Metrics} {counter other : Counter} {n : UInt64}

theorem fetchAdd_apply : metrics.fetchAdd counter n other =
    metrics other + if other = counter then n else 0 := by
  rw [Metrics.fetchAdd]
  split <;> simp

end Updates

/-- The updates between two stages of a connection. -/
def Posts (tenant next : Tenant) (before after : Connection) : Prop :=
  ∀ counter, next.metrics counter + UInt64.ofNat (before.credit counter) =
    tenant.metrics counter + UInt64.ofNat (after.credit counter)

section Advance

variable {service : Service} {tenant next : Tenant} {connection after : Connection} {now : Instant}
  {succeeds : Bool}

/-- A step that changes neither a counter nor what the connection put into any. -/
theorem Posts.idle (same : next.metrics = tenant.metrics)
    (credit : ∀ counter, after.credit counter = connection.credit counter) :
    Posts tenant next connection after := by
  intro counter
  rw [same, credit]

theorem Service.after_unbooked (service : Service) :
    (service.afterStart.booked = 0 ∧ ∀ outcome, service.afterStart.endsWith outcome = false) ∧
      (service.afterCheck.booked = 0 ∧
        ∀ outcome, service.afterCheck.endsWith outcome = false) ∧
      (service.afterDial.booked = 0 ∧ ∀ outcome, service.afterDial.endsWith outcome = false) ∧
      service.afterShake.booked = 0 ∧
      ∀ outcome, service.afterShake.endsWith outcome = false := by
  obtain ⟨kind, tls⟩ := service
  cases kind <;> cases tls <;>
    exact ⟨⟨rfl, fun _ => rfl⟩, ⟨rfl, fun _ => rfl⟩,
      ⟨rfl, fun _ => rfl⟩, rfl, fun _ => rfl⟩

/-- An addition to one counter, which the connection is credited with. -/
theorem Posts.count {counter : Counter} {n : UInt64}
    (credit : ∀ other, after.credit other =
      connection.credit other + if other = counter then n.toNat else 0) :
    Posts tenant (tenant.count counter n) connection after := by
  intro other
  have counted : (tenant.count counter n).metrics other =
      tenant.metrics other + if other = counter then n else 0 := fetchAdd_apply
  rw [credit, counted, UInt64.ofNat_add]
  split
  · rw [UInt64.ofNat_toNat, UInt64.add_assoc, UInt64.add_comm n]
  · simp

/-- Two stages without an update. -/
theorem Posts.unbooked (same : next.metrics = tenant.metrics)
    (before : connection.stage.booked = 0 ∧
      ∀ outcome, connection.stage.endsWith outcome = false)
    (later : ∀ counter, after.credit counter = 0) : Posts tenant next connection after :=
  .idle same fun counter => by rw [later, connection.credit_unbooked counter before.1 before.2]

/-- Every step of a connection posts what it adds to the counters. -/
theorem advance_posts
    (advanced : advance service tenant connection now succeeds = some (next, after)) :
    Posts tenant next connection after := by
  obtain ⟨start, check, dial, shake⟩ := service.after_unbooked
  cases stage : connection.stage with
  | starting =>
      simp only [advance, stage] at advanced
      cases advanced
      refine .unbooked rfl (by rw [stage]; exact ⟨rfl, fun _ => rfl⟩) fun counter => ?_
      exact Connection.credit_unbooked counter start.1 start.2
  | terminating =>
      simp only [advance, stage] at advanced
      cases advanced
      refine .idle rfl fun counter => ?_
      cases succeeds <;> cases counter <;>
        simp [Connection.credit, Connection.goTo, stage, Stage.booked, Stage.endsWith]
  | loading =>
      simp only [advance, stage] at advanced
      cases advanced
      refine .unbooked rfl (by rw [stage]; exact ⟨rfl, fun _ => rfl⟩) fun counter => ?_
      exact Connection.credit_unbooked counter rfl fun _ => rfl
  | rating id =>
      simp only [advance, stage, rate] at advanced
      obtain ⟨installed, _, advanced⟩ := Option.bind_eq_some_iff.mp advanced
      obtain ⟨⟨controller, admitted⟩, _, ⟨⟩⟩ := Option.bind_eq_some_iff.mp advanced
      refine .unbooked rfl (by rw [stage]; exact ⟨rfl, fun _ => rfl⟩) fun counter => ?_
      cases admitted <;> exact Connection.credit_unbooked counter rfl fun _ => rfl
  | acquiring id =>
      simp only [advance, stage, acquire] at advanced
      obtain ⟨installed, _, advanced⟩ := Option.bind_eq_some_iff.mp advanced
      split at advanced
      · cases advanced
        refine .unbooked rfl (by rw [stage]; exact ⟨rfl, fun _ => rfl⟩) fun counter => ?_
        exact Connection.credit_unbooked counter rfl fun _ => rfl
      · cases advanced
        refine .unbooked rfl (by rw [stage]; exact ⟨rfl, fun _ => rfl⟩) fun counter => ?_
        exact Connection.credit_unbooked counter check.1 check.2
  | dialing =>
      simp only [advance, stage] at advanced
      cases advanced
      refine .unbooked rfl (by rw [stage]; exact ⟨rfl, fun _ => rfl⟩) fun counter => ?_
      cases succeeds
      · cases counter <;> rfl
      · exact Connection.credit_unbooked counter dial.1 dial.2
  | shaking =>
      simp only [advance, stage] at advanced
      split at advanced
      · cases advanced
        refine .unbooked rfl (by rw [stage]; exact ⟨rfl, fun _ => rfl⟩) fun counter => ?_
        exact Connection.credit_unbooked counter shake.1 shake.2
      · cases advanced
        refine .unbooked rfl (by rw [stage]; exact ⟨rfl, fun _ => rfl⟩) fun counter => ?_
        exact Connection.credit_unbooked counter rfl fun _ => rfl
  | wrapping =>
      simp only [advance, stage] at advanced
      cases advanced
      refine .unbooked rfl (by rw [stage]; exact ⟨rfl, fun _ => rfl⟩) fun counter => ?_
      cases succeeds <;> cases counter <;> rfl
  | rejecting reason =>
      simp only [advance, stage] at advanced
      cases advanced
      refine .count fun counter => ?_
      cases reason <;> cases counter <;>
        simp [Connection.credit, Connection.goTo, stage, Stage.booked,
          Stage.endsWith, RejectReason.counter]
  | bucketing =>
      simp only [advance, stage] at advanced
      cases advanced
      refine .count fun counter => ?_
      cases counter with
      | handshakeBuckets index =>
          by_cases own : handshakeBucket (asMicros connection.elapsed) = index
          · simp [Connection.credit, Connection.goTo, stage, Stage.booked, own]
          · simp [Connection.credit, Connection.goTo, stage, Stage.booked, own, Ne.symm own]
      | _ => simp [Connection.credit, Connection.goTo, stage, Stage.booked, Stage.endsWith]
  | proxying =>
      simp only [advance, stage] at advanced
      cases advanced
      refine .idle rfl fun counter => ?_
      cases counter <;>
        simp [Connection.credit, Connection.goTo, stage, Stage.booked, Stage.endsWith]
  | deactivating =>
      simp only [advance, stage] at advanced
      cases advanced
      intro counter
      cases counter <;>
        simp [Connection.credit, Connection.goTo, stage, Stage.booked,
          Stage.endsWith, Metrics.fetchSub]
  | leaving outcome =>
      simp only [advance, stage, leave] at advanced
      have same : next.metrics = tenant.metrics ∧ after.stage = .ended outcome ∧
          after.elapsed = connection.elapsed := by
        split at advanced
        · cases advanced
          exact ⟨rfl, rfl, rfl⟩
        · obtain ⟨installed, _, ⟨⟩⟩ := Option.bind_eq_some_iff.mp advanced
          exact ⟨rfl, rfl, rfl⟩
      refine .idle same.1 fun counter => ?_
      cases outcome <;> cases counter <;>
        simp [Connection.credit, stage, same.2, Stage.booked, Stage.endsWith]
  | ended outcome => simp [advance, stage] at advanced
  | failing | opening | activating | counting | summing | closing =>
      simp only [advance, stage] at advanced
      cases advanced
      refine .count fun counter => ?_
      cases counter <;> simp [Connection.credit, Connection.goTo, stage,
        Stage.booked, Stage.endsWith]

end Advance

section Runs

variable {service : Service} {settings : AdmissionSettings} {tenant next : Tenant}

/-- A new connection has put nothing into any counter. -/
theorem Service.connection_credit (service : Service) (peer : IpAddr) (counter : Counter) :
    (service.connection peer).credit counter = 0 := by
  refine Connection.credit_unbooked counter ?_ ?_ <;>
    cases kind : service.kind <;> simp [Service.connection, Service.arrival, kind,
      Stage.booked, Stage.endsWith]

/-- One move keeps the books. -/
theorem step_booked {move : Move} (booked : tenant.Booked)
    (moved : step service tenant move = some next) : next.Booked := by
  intro counter
  cases move with
  | accept peer =>
      simp only [step, Option.ite_none_left_eq_some] at moved
      obtain ⟨_, ⟨⟩⟩ := moved
      rw [booked counter, tally_append, tally_cons, service.connection_credit]
      rfl
  | swap settings =>
      cases moved
      exact booked counter
  | run index now succeeds =>
      simp only [step, Option.ite_none_right_eq_some] at moved
      obtain ⟨_, moved⟩ := moved
      obtain ⟨connection, found, moved⟩ := Option.bind_eq_some_iff.mp moved
      obtain ⟨⟨reached, after⟩, advanced, ⟨⟩⟩ := Option.bind_eq_some_iff.mp moved
      have posted := advance_posts advanced counter
      have moved := congrArg UInt64.ofNat
        (tally_set (fun connection => connection.credit counter) found after)
      rw [UInt64.ofNat_add, UInt64.ofNat_add, ← booked counter, ← posted] at moved
      exact ((UInt64.add_left_inj _).mp moved).symm

theorem reachable_booked
    (reachable : (machine service settings).Reachable (machine service settings).Free tenant) :
    tenant.Booked := by
  refine Machine.Reachable.invariant (fun tenant : Tenant => tenant.Booked) ?_ ?_ reachable
  · rintro _ rfl counter
    rfl
  · intro tenant move next booked _ moved
    exact step_booked booked moved

/-- The connections at some stages. -/
def Tenant.standing (tenant : Tenant) (stages : Stage → Bool) : Nat :=
  tenant.connections.countP fun connection => stages connection.stage

/-- A connection that no counter records: it is still on its way, or the SNI dispatch, the
dial or the TLS handshake ended it. -/
def Stage.unrecorded (stage : Stage) : Bool :=
  stage.booked = 0 && !stage.endsWith .handshakeFailed && !stage.endsWith (.rejected .quota) &&
    !stage.endsWith (.rejected .rate)

/-- The counters of a list hold what the connections put into any of them. -/
theorem Tenant.Booked.total (books : tenant.Booked) (counters : List Counter) :
    bucketTotal (counters.map tenant.metrics) = UInt64.ofNat (tally
      (fun connection => tally (fun counter => connection.credit counter) counters)
      tenant.connections) := by
  rw [← tally_swap fun counter connection => Connection.credit connection counter]
  induction counters with
  | nil => rfl
  | cons counter counters inductionHypothesis =>
      rw [List.map_cons, bucketTotal, inductionHypothesis, books counter, ← UInt64.ofNat_add]
      rfl

theorem handshakeBucket_lt (us : UInt64) : handshakeBucket us < handshakeBucketsUs.length + 1 :=
  Nat.lt_succ_of_le List.findIdx_le_length

/-- Of the buckets, a connection that was observed is in one. -/
theorem Connection.credit_buckets (connection : Connection) :
    tally (fun counter => connection.credit counter)
      ((List.range (handshakeBucketsUs.length + 1)).map .handshakeBuckets) =
        (decide (5 ≤ connection.stage.booked)).toNat := by
  rw [tally_map]
  by_cases observed : 5 ≤ connection.stage.booked
  · simp only [credit, observed, true_and]
    rw [tally_range_indicator, decide_eq_true (handshakeBucket_lt _)]
    rfl
  · simp only [credit, observed, false_and, tally_const]
    rfl

/-- The buckets of a registry, read at once. -/
theorem Tenant.Booked.snapshot (books : tenant.Booked) :
    bucketTotal tenant.metrics.handshakeBucketsSnapshot = UInt64.ofNat (tally
      (fun connection => (decide (5 ≤ connection.stage.booked)).toNat) tenant.connections) := by
  have buckets := books.total ((List.range (handshakeBucketsUs.length + 1)).map .handshakeBuckets)
  simp only [Connection.credit_buckets] at buckets
  rw [List.map_map] at buckets
  exact buckets

/-- What one connection put into the counters, at every stage of it. -/
theorem Connection.credit_balance (connection : Connection) :
    (connection.credit .sessionsClosed + connection.credit .sessionsActive +
        (connection.stage = .activating || connection.stage = .closing : Bool).toNat =
      connection.credit .sessionsOpened) ∧
    (connection.credit .handshakeCount +
        (connection.stage = .activating || connection.stage = .counting : Bool).toNat =
      connection.credit .sessionsOpened) ∧
    ((decide (5 ≤ connection.stage.booked)).toNat +
        (connection.stage = .summing || connection.stage = .bucketing : Bool).toNat =
      connection.credit .handshakeCount) ∧
    (connection.credit .sessionsOpened + connection.credit .sessionsFailed +
        connection.credit .admissionRejectedQuota + connection.credit .admissionRejectedRate +
        connection.stage.unrecorded.toNat = 1) := by
  obtain ⟨peer, stage, started, elapsed, admitted, permit⟩ := connection
  cases stage with
  | leaving outcome | ended outcome =>
      cases outcome with
      | rejected reason => cases reason <;> exact ⟨rfl, rfl, rfl, rfl⟩
      | _ => exact ⟨rfl, rfl, rfl, rfl⟩
  | _ => exact ⟨rfl, rfl, rfl, rfl⟩

/-- The books balance at every moment. The gauge is the number of sessions, and never wraps
below zero; sessions opened are those closed, those active, and those between two updates;
every session is observed once, by the count, the sum and one bucket; and a connection is
counted as opened, failed or rejected, or as nothing at all. -/
theorem metrics_balance
    (reachable : (machine service settings).Reachable (machine service settings).Free tenant) :
    tenant.metrics .sessionsActive =
        UInt64.ofNat (tenant.standing fun stage => 2 ≤ stage.booked && stage.booked ≤ 6) ∧
      tenant.metrics .sessionsOpened = tenant.metrics .sessionsClosed + tenant.metrics
        .sessionsActive +
        UInt64.ofNat (tenant.standing fun stage => stage = .activating || stage = .closing) ∧
      tenant.metrics .sessionsOpened = tenant.metrics .handshakeCount +
        UInt64.ofNat (tenant.standing fun stage => stage = .activating || stage = .counting) ∧
      tenant.metrics .handshakeCount = bucketTotal tenant.metrics.handshakeBucketsSnapshot +
        UInt64.ofNat (tenant.standing fun stage => stage = .summing || stage = .bucketing) ∧
      UInt64.ofNat tenant.connections.length = tenant.metrics .sessionsOpened +
        tenant.metrics .sessionsFailed + tenant.metrics .admissionRejectedQuota +
        tenant.metrics .admissionRejectedRate + UInt64.ofNat
          (tenant.standing Stage.unrecorded) := by
  have books := reachable_booked reachable
  have each := Connection.credit_balance
  have counted : ∀ stages : Stage → Bool, tenant.standing stages =
      tally (fun connection => (stages connection.stage).toNat) tenant.connections :=
    fun stages => countP_eq_tally _ _
  refine ⟨?_, ?_, ?_, ?_, ?_⟩
  · rw [books, counted]
    simp only [Connection.credit, Bool.decide_and]
  · rw [books, books, books, counted, ← UInt64.ofNat_add, ← UInt64.ofNat_add, tally_add,
      tally_add]
    simp only [(each _).1]
  · rw [books, books, counted, ← UInt64.ofNat_add, tally_add]
    simp only [(each _).2.1]
  · rw [books, books.snapshot, counted, ← UInt64.ofNat_add, tally_add]
    simp only [(each _).2.2.1]
  · rw [books, books, books, books, counted, ← UInt64.ofNat_add, ← UInt64.ofNat_add,
      ← UInt64.ofNat_add, ← UInt64.ofNat_add, tally_add, tally_add, tally_add, tally_add]
    simp only [(each _).2.2.2, tally_const, Nat.mul_one]

/-- A serve-tcp tenant with a quota of one: its first session runs, and the quota turned the
second connection away. -/
def underway : List Move :=
  .accept (.v4 1) :: List.replicate 11 (.run 0 earliest true) ++
    .accept (.v4 2) :: List.replicate 4 (.run 1 earliest true)

theorem metrics_balance_underway :
    ∃ tenant : Tenant, tenant.metrics .sessionsActive = 1 ∧
      tenant.metrics .sessionsOpened = tenant.metrics .sessionsClosed + 1 ∧
      tenant.metrics .admissionRejectedQuota = 1 := by
  have reachable := @Machine.Reachable.of_exec
    (machine { kind := .serveTcp, tls := false } { maxConcurrent := some 1, rateLimit := none })
    _ _ underway rfl rfl
  obtain ⟨active, opened, _⟩ := metrics_balance reachable
  exact ⟨_, active.trans rfl, opened.trans rfl, rfl⟩

end Runs

end CofreSoberano.Gateway.Serving
