import CofreSoberano.Std.Machine

/-!
# Accept loops and the shutdown broadcast

The three accept loops of the gateway wait in a biased `select!` on a freshly
created `shutdown.notified()` and on `listener.accept()`. The machine below
splits one iteration at the points between which another thread can call
`notify_waiters`: the loop head (no `Notified` exists), the poll of the
`Notified`, the poll of the listener, the parked task, and the handler body
that runs after a connection was accepted.

`Notify` keeps only what the loops observe of it: a `Notified` future completes
exactly when a broadcast was made after its creation.
-/

namespace CofreSoberano.Gateway

open CofreSoberano.Std

/-- The broadcasts made so far on a `tokio::sync::Notify`. -/
structure Notify where
  broadcasts : Nat
deriving DecidableEq, Repr

/-- A `Notified` future, identified by the broadcasts made before its creation. -/
structure Notified where
  createdAt : Nat
deriving DecidableEq, Repr

/-- `Notify::notify_waiters`. -/
def Notify.notifyWaiters (notify : Notify) : Notify := ⟨notify.broadcasts + 1⟩

/-- `Notify::notified`. -/
def Notify.notified (notify : Notify) : Notified := ⟨notify.broadcasts⟩

/-- A `Notified` is ready once a broadcast was made after its creation. -/
def Notified.isReady (future : Notified) (notify : Notify) : Bool :=
  decide (future.createdAt < notify.broadcasts)

/-- A `Notified` has not observed the broadcasts made before it existed. -/
@[simp] theorem Notify.notified_isReady (notify : Notify) :
    notify.notified.isReady notify = false := by
  simp [Notified.isReady, Notify.notified]

/-- The three accept loops of `gateway.rs`. -/
inductive LoopKind where
  | serveTcp
  | servePq
  | sniGroup
deriving DecidableEq, Repr

/-- An SNI group admits a connection in its session task, after the TLS
handshake; the other two loops check before spawning anything. -/
def LoopKind.checksAdmission : LoopKind → Bool
  | .serveTcp => true
  | .servePq => true
  | .sniGroup => false

/-- Why an admission controller turned a connection away. -/
inductive RejectReason where
  | quota
  | rate
deriving DecidableEq, Repr

/-- The decision of `AdmissionController::check`. -/
inductive Admit where
  | ok
  | reject (reason : RejectReason)
deriving DecidableEq, Repr

/-- What `listener.accept()` yields: a connection of a peer, or an error. -/
inductive Accepted where
  | connection (who : Nat)
  | failed
deriving DecidableEq, Repr

/-- Where one iteration of an accept loop stands. -/
inductive Phase where
  /-- Top of `loop`, before `shutdown.notified()` is evaluated. -/
  | head
  /-- The biased `select!` is about to poll the shutdown branch. -/
  | pollShutdown (shutdown : Notified)
  /-- The shutdown branch was pending; the listener is polled next. -/
  | pollAccept (shutdown : Notified)
  /-- Both branches were pending; the task sleeps until one of them wakes it. -/
  | parked (shutdown : Notified)
  /-- The accept branch was taken: its `Notified` is dropped, its body runs. -/
  | handling (accepted : Accepted)
  /-- The shutdown branch returned `Ok(())`. -/
  | returned
deriving DecidableEq, Repr

/-- The two rejection counters of the tenant's metrics. -/
structure RejectMetrics where
  admissionRejectedQuota : Nat
  admissionRejectedRate : Nat
deriving DecidableEq, Repr

/-- `record_admission_reject`. -/
def recordAdmissionReject (metrics : RejectMetrics) : RejectReason → RejectMetrics
  | .quota => { metrics with admissionRejectedQuota := metrics.admissionRejectedQuota + 1 }
  | .rate => { metrics with admissionRejectedRate := metrics.admissionRejectedRate + 1 }

/-- An accept loop with its listener's backlog and the shared `Notify`. -/
structure LoopState where
  phase : Phase
  notify : Notify
  backlog : List Accepted
  spawned : List Nat
  metrics : RejectMetrics
deriving DecidableEq, Repr

/-- Moves of the environment and of the loop itself. -/
inductive LoopLabel where
  /-- Another task calls `shutdown.notify_waiters()`. -/
  | broadcast
  /-- The kernel queues a connection, or the listener an error. -/
  | arrive (accepted : Accepted)
  /-- The loop takes its next step; `verdict` is what its admission controller
  answers if this step asks it. -/
  | advance (verdict : Admit)
deriving DecidableEq, Repr

/-- The handler body of the accept branch; every path leads back to `loop`. -/
def handle (kind : LoopKind) (state : LoopState) (verdict : Admit) : Accepted → LoopState
  | .failed => { state with phase := .head }
  | .connection who =>
      match kind.checksAdmission, verdict with
      | true, .reject reason =>
          { state with phase := .head, metrics := recordAdmissionReject state.metrics reason }
      | _, _ => { state with phase := .head, spawned := state.spawned ++ [who] }

/-- The loop's own next step. A parked loop has one only after a wake-up. -/
def advance (kind : LoopKind) (state : LoopState) (verdict : Admit) : Option LoopState :=
  match state.phase with
  | .head => some { state with phase := .pollShutdown state.notify.notified }
  | .pollShutdown shutdown =>
      if shutdown.isReady state.notify then some { state with phase := .returned }
      else some { state with phase := .pollAccept shutdown }
  | .pollAccept shutdown =>
      match state.backlog with
      | [] => some { state with phase := .parked shutdown }
      | accepted :: rest => some { state with phase := .handling accepted, backlog := rest }
  | .parked shutdown =>
      if shutdown.isReady state.notify || !state.backlog.isEmpty then
        some { state with phase := .pollShutdown shutdown }
      else none
  | .handling accepted => some (handle kind state verdict accepted)
  | .returned => none

/-- One move of the loop or of its environment. -/
def loopStep (kind : LoopKind) (state : LoopState) : LoopLabel → Option LoopState
  | .broadcast => some { state with notify := state.notify.notifyWaiters }
  | .arrive accepted => some { state with backlog := state.backlog ++ [accepted] }
  | .advance verdict => advance kind state verdict

/-- The loop has just been entered and no broadcast was made yet. -/
def entered : LoopState where
  phase := .head
  notify := ⟨0⟩
  backlog := []
  spawned := []
  metrics := ⟨0, 0⟩

/-- An accept loop from the moment it is entered. -/
def acceptLoop (kind : LoopKind) : Machine where
  State := LoopState
  Label := LoopLabel
  Initial state := state = entered
  step := loopStep kind

/-- `run_serve_tcp_tenant`, after binding its listener. -/
def runServeTcpTenant : Machine := acceptLoop .serveTcp

/-- `run_serve_pq_tenant`, after binding its listener. -/
def runServePqTenant : Machine := acceptLoop .servePq

/-- `run_sni_group`, after binding its listener. -/
def runSniGroup : Machine := acceptLoop .sniGroup

/-- The loop sleeps on a `Notified` that has observed no broadcast. -/
def LoopState.BlockedOn (state : LoopState) (shutdown : Notified) : Prop :=
  state.phase = .parked shutdown ∧ shutdown.isReady state.notify = false

/-- A broadcast was made, and the loop is blocked on a `Notified` created after
it: nothing but a second broadcast will ever stop this loop. -/
def LoopState.LostShutdown (state : LoopState) : Prop :=
  ∃ shutdown, state.BlockedOn shutdown ∧ 0 < shutdown.createdAt

/-- The moves at which no broadcast is dropped: a broadcast finds a live
`Notified`, and the accept branch is not taken by a poll during which one came
in after the shutdown branch had been polled. -/
def LoopState.hears (state : LoopState) : LoopLabel → Bool
  | .broadcast =>
      match state.phase with
      | .head | .handling _ => false
      | _ => true
  | .arrive _ => true
  | .advance _ =>
      match state.phase with
      | .pollAccept shutdown => !(shutdown.isReady state.notify && !state.backlog.isEmpty)
      | _ => true

/-- While every broadcast is heard, a live `Notified` is the one that was
created before all of them, and where none is live no broadcast was made. -/
def LoopState.Attentive (state : LoopState) : Prop :=
  match state.phase with
  | .head | .handling _ => state.notify.broadcasts = 0
  | .pollShutdown shutdown | .pollAccept shutdown | .parked shutdown => shutdown.createdAt = 0
  | .returned => True

theorem LoopState.Attentive.not_lostShutdown {state : LoopState} (attentive : state.Attentive) :
    ¬ state.LostShutdown := by
  rintro ⟨shutdown, ⟨parked, _⟩, late⟩
  simp only [LoopState.Attentive, parked] at attentive
  omega

/-- Handling a connection touches neither the `Notify` nor the backlog and
returns to the loop head. -/
theorem handle_spec (kind : LoopKind) (state : LoopState) (verdict : Admit) (accepted : Accepted) :
    (handle kind state verdict accepted).phase = .head ∧
      (handle kind state verdict accepted).notify = state.notify ∧
      (handle kind state verdict accepted).backlog = state.backlog := by
  cases accepted with
  | failed => exact ⟨rfl, rfl, rfl⟩
  | connection who =>
      cases checks : kind.checksAdmission <;> cases verdict <;> simp [handle, checks]

/-- The loop's own step keeps `Attentive` when it does not abandon a `Notified`
that already observed a broadcast. -/
theorem LoopState.Attentive.advance {kind : LoopKind} {state next : LoopState} {verdict : Admit}
    (attentive : state.Attentive) (heard : state.hears (.advance verdict) = true)
    (moved : advance kind state verdict = some next) : next.Attentive := by
  cases phase : state.phase with
  | head =>
      simp only [LoopState.Attentive, phase] at attentive
      simp only [Gateway.advance, phase, Option.some.injEq] at moved
      subst moved
      simpa [LoopState.Attentive, Notify.notified] using attentive
  | pollShutdown shutdown =>
      simp only [LoopState.Attentive, phase] at attentive
      simp only [Gateway.advance, phase] at moved
      split at moved <;> cases moved
      · trivial
      · exact attentive
  | pollAccept shutdown =>
      simp only [LoopState.Attentive, phase] at attentive
      simp only [Gateway.advance, phase] at moved
      cases backlog : state.backlog with
      | nil =>
          simp only [backlog, Option.some.injEq] at moved
          subst moved
          exact attentive
      | cons accepted rest =>
          -- The accept branch wins this poll, so no broadcast may have been made
          -- since the `Notified` it drops was created.
          simp only [backlog, Option.some.injEq] at moved
          subst moved
          have quiet : shutdown.isReady state.notify = false := by
            simpa [LoopState.hears, phase, backlog] using heard
          simp only [Notified.isReady, decide_eq_false_iff_not] at quiet
          simp only [LoopState.Attentive]
          omega
  | parked shutdown =>
      simp only [LoopState.Attentive, phase] at attentive
      simp only [Gateway.advance, phase] at moved
      split at moved <;> cases moved
      exact attentive
  | handling accepted =>
      simp only [LoopState.Attentive, phase] at attentive
      simp only [Gateway.advance, phase, Option.some.injEq] at moved
      subst moved
      obtain ⟨head, notify, _⟩ := handle_spec kind state verdict accepted
      simpa [LoopState.Attentive, head, notify] using attentive
  | returned => simp [Gateway.advance, phase] at moved

/-- Every heard move keeps `Attentive`. -/
theorem LoopState.Attentive.step {kind : LoopKind} {state next : LoopState} {label : LoopLabel}
    (attentive : state.Attentive) (heard : state.hears label = true)
    (moved : loopStep kind state label = some next) : next.Attentive := by
  cases label with
  | broadcast =>
      cases moved
      cases phase : state.phase <;>
        simp_all [LoopState.Attentive, LoopState.hears]
  | arrive accepted =>
      cases moved
      exact attentive
  | advance verdict => exact attentive.advance heard moved

/-- Without further broadcasts an accept loop works off its backlog and parks on
a `Notified` that no broadcast made so far will complete. -/
theorem exec_parks (kind : LoopKind) (state : LoopState) (head : state.phase = .head) :
    ∃ labels parked, (acceptLoop kind).exec state labels = some parked ∧
      parked.phase = .parked state.notify.notified ∧ parked.notify = state.notify := by
  obtain ⟨phase, notify, backlog, spawned, metrics⟩ := state
  cases head
  induction backlog generalizing spawned metrics with
  | nil =>
      refine ⟨[.advance .ok, .advance .ok, .advance .ok],
        ⟨.parked notify.notified, notify, [], spawned, metrics⟩, ?_, rfl, rfl⟩
      simp [Machine.exec, acceptLoop, loopStep, advance]
  | cons accepted rest inductionHypothesis =>
      obtain ⟨labels, parked, executed, phase, notified⟩ :
          ∃ labels parked, (acceptLoop kind).exec (handle kind
            ⟨.handling accepted, notify, rest, spawned, metrics⟩ .ok accepted)
              labels = some parked ∧
              parked.phase = .parked notify.notified ∧ parked.notify = notify := by
        cases accepted with
        | failed => exact inductionHypothesis spawned metrics
        | connection who =>
            cases checks : kind.checksAdmission <;>
              simpa [handle, checks] using inductionHypothesis (spawned ++ [who]) metrics
      refine ⟨.advance .ok :: .advance .ok :: .advance .ok :: .advance .ok :: labels,
        parked, ?_, phase, notified⟩
      simpa [Machine.exec, acceptLoop, loopStep, advance] using executed

/-- Every move that is not heard can be continued to a lost shutdown, so `hears`
leaves out no harmless move. -/
theorem lostShutdown_of_not_hears {kind : LoopKind} {state next : LoopState} {label : LoopLabel}
    (unheard : state.hears label = false) (moved : loopStep kind state label = some next) :
    ∃ labels lost, (acceptLoop kind).exec next labels = some lost ∧ lost.LostShutdown := by
  -- Whatever the unheard move was, the loop comes back to its head after a broadcast.
  have rejoins : ∃ labels head, (acceptLoop kind).exec next labels = some head ∧
      head.phase = .head ∧ 0 < head.notify.broadcasts := by
    cases label with
    | arrive accepted => simp [LoopState.hears] at unheard
    | broadcast =>
        cases moved
        cases phase : state.phase with
        | head => exact ⟨[], _, rfl, rfl, Nat.succ_pos _⟩
        | handling accepted =>
            obtain ⟨head, notify, _⟩ := handle_spec kind
              { state with notify := state.notify.notifyWaiters } .ok accepted
            refine ⟨[.advance .ok], _, ?_, head, ?_⟩
            · simp [Machine.exec, acceptLoop, loopStep, advance, phase]
            · rw [notify]
              exact Nat.succ_pos _
        | _ => simp [LoopState.hears, phase] at unheard
    | advance verdict =>
        cases phase : state.phase with
        | pollAccept shutdown =>
            cases backlog : state.backlog with
            | nil => simp [LoopState.hears, phase, backlog] at unheard
            | cons accepted rest =>
                have ready : shutdown.createdAt < state.notify.broadcasts := by
                  simpa [LoopState.hears, phase, backlog, Notified.isReady] using unheard
                simp only [loopStep, advance, phase, backlog, Option.some.injEq] at moved
                subst moved
                obtain ⟨head, notify, _⟩ := handle_spec kind
                  { state with phase := .handling accepted, backlog := rest } .ok accepted
                refine ⟨[.advance .ok], _, ?_, head, ?_⟩
                · simp [Machine.exec, acceptLoop, loopStep, advance]
                · rw [notify]
                  exact Nat.zero_lt_of_lt ready
        | _ => simp [LoopState.hears, phase] at unheard
  obtain ⟨first, head, toHead, atHead, broadcasted⟩ := rejoins
  obtain ⟨second, parked, toParked, atParked, sameNotify⟩ := exec_parks kind head atHead
  refine ⟨first ++ second, parked, Machine.exec_append toHead toParked, head.notify.notified,
    ⟨atParked, ?_⟩, broadcasted⟩
  rw [sameNotify]
  exact Notify.notified_isReady _

/-- In every run of every accept loop whose moves are all heard, no state has
lost the shutdown broadcast. -/
theorem acceptLoop_no_lost_shutdown (kind : LoopKind) (state : LoopState)
    (reachable : (acceptLoop kind).Reachable
      (fun current label => LoopState.hears current label = true) state) :
    ¬ state.LostShutdown := by
  have attentive : state.Attentive := by
    apply reachable.invariant LoopState.Attentive
    · rintro start rfl
      rfl
    · intro current label next holds heard moved
      exact LoopState.Attentive.step holds heard moved
  exact attentive.not_lostShutdown

/-- A run that hears its broadcast: the loop is parked when it is made, wakes
up and returns. -/
theorem acceptLoop_no_lost_shutdown_parked :
    ∃ state : LoopState, state.phase = .returned ∧ state.notify.broadcasts = 1 ∧
      ¬ state.LostShutdown := by
  refine ⟨{ entered with phase := .returned, notify := ⟨1⟩ }, rfl, rfl, ?_⟩
  refine acceptLoop_no_lost_shutdown .serveTcp _ ⟨entered, [.advance .ok, .advance .ok,
    .advance .ok, .broadcast, .advance .ok, .advance .ok], rfl, ?_⟩
  refine .cons rfl rfl (.cons rfl rfl (.cons rfl rfl ?_))
  exact .cons rfl rfl (.cons rfl rfl (.cons rfl rfl .nil))

/-- A broadcast that lands while `run_serve_tcp_tenant` handles an accepted
connection is lost: the loop goes back to sleep on a later `Notified`. -/
theorem runServeTcpTenant_loses_broadcast_while_handling :
    ¬ ∀ kind state, (acceptLoop kind).Reachable (acceptLoop kind).Free state →
      ¬ LoopState.LostShutdown state := by
  intro noneLost
  let lost : LoopState :=
    { entered with phase := .parked ⟨1⟩, notify := ⟨1⟩, spawned := [7] }
  have executed : runServeTcpTenant.exec entered
      [.arrive (.connection 7), .advance .ok, .advance .ok, .advance .ok, .broadcast,
        .advance .ok, .advance .ok, .advance .ok, .advance .ok] = some lost := rfl
  exact noneLost .serveTcp lost (.of_exec rfl executed) ⟨⟨1⟩, ⟨rfl, rfl⟩, by decide⟩

end CofreSoberano.Gateway
