import CofreSoberano.Gateway.Lockout
import CofreSoberano.Gateway.Metrics

/-!
# The connections of one tenant

Every connection of a tenant as a task, from the accept loop over admission, dialling and
the handshakes to the end of its session, with the updates of the tenant's counters as
steps of their own. SIGHUP swaps the admission controller while checks are under way, so
the controllers that were ever installed are kept; a check works on the one it loaded, and
a permit goes back to the semaphore that it came from.
-/

namespace CofreSoberano.Gateway.Serving

open CofreSoberano.Std

/-- Why a connection ended. -/
inductive TaskEnd where
  | rejected (reason : RejectReason)
  /-- SNI: the TLS handshake failed, or another tenant or none claims the name. -/
  | unclaimed
  | dialFailed
  | handshakeFailed
  /-- serve-tcp: the TLS handshake with the application failed. -/
  | tlsFailed
  | served
deriving DecidableEq, Repr

/-- Where a connection stands; each constructor names what it does next. -/
inductive Stage where
  /-- The handler reads the clock. -/
  | starting
  /-- SNI: the TLS handshake and the lookup in the dispatch table. -/
  | terminating
  /-- `HotAdmissionController::check` loads the installed controller. -/
  | loading
  /-- `check` of that controller asks the rate limiter. -/
  | rating (controller : Nat)
  /-- `check` of that controller asks the semaphore. -/
  | acquiring (controller : Nat)
  /-- `record_admission_reject`. -/
  | rejecting (reason : RejectReason)
  /-- `TcpStream::connect` to the peer or the backend. -/
  | dialing
  /-- `connect` or `accept` of the CSPQ transport. -/
  | shaking
  /-- `sessions_failed.fetch_add`. -/
  | failing
  /-- serve-tcp: the TLS handshake with the application. -/
  | wrapping
  /-- `sessions_opened.fetch_add`. -/
  | opening
  /-- `sessions_active.fetch_add`. -/
  | activating
  /-- `observe_handshake`: the count. -/
  | counting
  /-- `observe_handshake`: the sum. -/
  | summing
  /-- `observe_handshake`: the bucket. -/
  | bucketing
  /-- The two pumps run. -/
  | proxying
  /-- `sessions_active.fetch_sub`. -/
  | deactivating
  /-- `sessions_closed.fetch_add`. -/
  | closing
  /-- The handler returned; its task drops the permit. -/
  | leaving (outcome : TaskEnd)
  | ended (outcome : TaskEnd)
deriving DecidableEq, Repr

/-- A connection. `started` is when its handler began, `elapsed` how long the handshake took,
`admitted` the controller that let it in, and `permit` the one whose semaphore it holds a
permit of. -/
structure Connection where
  peer : IpAddr
  stage : Stage
  started : Nat
  elapsed : Nat
  admitted : Option Nat
  permit : Option Nat

/-- A controller that was installed, and the limits it was built from. -/
structure Installed where
  settings : AdmissionSettings
  controller : AdmissionController

/-- The connections of a tenant; the newest controller is the installed one, and `clock` the
latest instant that was read. -/
structure Tenant where
  controllers : List Installed
  metrics : Metrics
  connections : List Connection
  clock : Nat

/-- The accept loop that serves the tenant, and whether a serve-tcp tenant terminates TLS. -/
structure Service where
  kind : LoopKind
  tls : Bool

namespace Service

/-- Where a connection starts: an SNI group spawns the handler before anything else. -/
def arrival (service : Service) : Stage :=
  match service.kind with
  | .serveTcp | .servePq => .loading
  | .sniGroup => .starting

/-- After the clock was read. -/
def afterStart (service : Service) : Stage :=
  match service.kind with
  | .serveTcp => .dialing
  | .servePq => .shaking
  | .sniGroup => .terminating

/-- After admission. -/
def afterCheck (service : Service) : Stage :=
  match service.kind with
  | .serveTcp | .servePq => .starting
  | .sniGroup => .dialing

/-- After the dial; serve-pq dials its backend only once the handshake is through. -/
def afterDial (service : Service) : Stage :=
  match service.kind with
  | .serveTcp | .sniGroup => .shaking
  | .servePq => .opening

/-- After the CSPQ handshake. -/
def afterShake (service : Service) : Stage :=
  match service.kind with
  | .serveTcp => if service.tls then .wrapping else .opening
  | .servePq => .dialing
  | .sniGroup => .opening

end Service

/-- The accept loop of a single tenant is in `admission.check`. -/
def Stage.checking : Stage → Bool
  | .loading | .rating _ | .acquiring _ | .rejecting _ => true
  | _ => false

end CofreSoberano.Gateway.Serving

namespace CofreSoberano.Gateway.AdmissionController

/-- The rate half of `check`. -/
def takeToken (controller : AdmissionController) (peer : IpAddr) (now : Instant) :
    Option (AdmissionController × Bool) :=
  match controller.rateLimit with
  | none => some (controller, true)
  | some limiter => do
      let (limiter, admitted) ← limiter.tryTake peer now
      return ({ controller with rateLimit := some limiter }, admitted)

/-- `check` asks the rate limiter first, and the semaphore of the same controller after it. -/
theorem check_eq (controller : AdmissionController) (peer : IpAddr) (now : Instant) :
    controller.check peer now = (controller.takeToken peer now).map fun taken =>
      if taken.2 then taken.1.acquire else (taken.1, .reject .rate) := by
  rw [check, takeToken]
  cases controller.rateLimit with
  | none => rfl
  | some limiter =>
      cases taken : limiter.tryTake peer now with
      | none => simp [taken]
      | some result =>
          obtain ⟨next, admitted⟩ := result
          cases admitted <;> simp [taken]

end CofreSoberano.Gateway.AdmissionController

namespace CofreSoberano.Gateway.Serving

open CofreSoberano.Std

namespace Tenant

/-- Put a controller back after a check or the return of a permit. -/
def update (tenant : Tenant) (id : Nat) (installed : Installed) : Tenant :=
  { tenant with controllers := tenant.controllers.set id installed }

/-- Add to a counter. -/
def count (tenant : Tenant) (counter : Counter) (n : UInt64) : Tenant :=
  { tenant with metrics := tenant.metrics.fetchAdd counter n }

end Tenant

/-- Go on to a stage. -/
def Connection.goTo (connection : Connection) (stage : Stage) : Connection :=
  { connection with stage }

/-- The rate half of the check with a loaded controller. -/
def rate (tenant : Tenant) (connection : Connection) (id : Nat) (now : Instant) :
    Option (Tenant × Connection) := do
  let installed ← tenant.controllers[id]?
  let (controller, admitted) ← installed.controller.takeToken connection.peer now
  return (tenant.update id { installed with controller },
    connection.goTo (if admitted then .acquiring id else .rejecting .rate))

/-- The quota half of the check with a loaded controller. -/
def acquire (service : Service) (tenant : Tenant) (connection : Connection) (id : Nat) :
    Option (Tenant × Connection) := do
  let installed ← tenant.controllers[id]?
  match installed.controller.acquire with
  | (_, .reject reason) => return (tenant, connection.goTo (.rejecting reason))
  | (controller, .ok) =>
      return (tenant.update id { installed with controller },
        { connection with
          stage := service.afterCheck
          admitted := some id
          permit := if installed.controller.quota.isSome then some id else none })

/-- The task is gone, and its permit goes back. -/
def leave (tenant : Tenant) (connection : Connection) (outcome : TaskEnd) :
    Option (Tenant × Connection) :=
  match connection.permit with
  | none => some (tenant, connection.goTo (.ended outcome))
  | some id => do
      let installed ← tenant.controllers[id]?
      return (tenant.update id { installed with controller := installed.controller.release },
        { connection with stage := .ended outcome, permit := none })

/-- What a connection does next. `succeeds` is the outcome of what it awaits. -/
def advance (service : Service) (tenant : Tenant) (connection : Connection) (now : Instant)
    (succeeds : Bool) : Option (Tenant × Connection) :=
  match connection.stage with
  | .starting =>
      some (tenant, { connection with stage := service.afterStart, started := now.nanos })
  | .terminating =>
      some (tenant, connection.goTo (if succeeds then .loading else .leaving .unclaimed))
  | .loading => some (tenant, connection.goTo (.rating (tenant.controllers.length - 1)))
  | .rating id => rate tenant connection id now
  | .acquiring id => acquire service tenant connection id
  | .rejecting reason =>
      some (tenant.count reason.counter 1, connection.goTo (.ended (.rejected reason)))
  | .dialing =>
      some (tenant, connection.goTo (if succeeds then service.afterDial else .leaving .dialFailed))
  | .shaking =>
      if succeeds then
        some (tenant, { connection with
          stage := service.afterShake
          elapsed := now.nanos - connection.started })
      else some (tenant, connection.goTo .failing)
  | .failing => some (tenant.count .sessionsFailed 1, connection.goTo (.leaving .handshakeFailed))
  | .wrapping => some (tenant, connection.goTo (if succeeds then .opening else .leaving .tlsFailed))
  | .opening => some (tenant.count .sessionsOpened 1, connection.goTo .activating)
  | .activating => some (tenant.count .sessionsActive 1, connection.goTo .counting)
  | .counting => some (tenant.count .handshakeCount 1, connection.goTo .summing)
  | .summing =>
      some (tenant.count .handshakeSumUs (asMicros connection.elapsed), connection.goTo .bucketing)
  | .bucketing =>
      some (tenant.count (.handshakeBuckets (handshakeBucket (asMicros connection.elapsed))) 1,
        connection.goTo .proxying)
  | .proxying => some (tenant, connection.goTo .deactivating)
  | .deactivating =>
      some ({ tenant with metrics := tenant.metrics.fetchSub .sessionsActive 1 },
        connection.goTo .closing)
  | .closing => some (tenant.count .sessionsClosed 1, connection.goTo (.leaving .served))
  | .leaving outcome => leave tenant connection outcome
  | .ended _ => none

/-- Moves of the accept loop, of SIGHUP, and of the tasks. -/
inductive Move where
  /-- The accept loop takes a connection. -/
  | accept (peer : IpAddr)
  /-- `HotAdmissionController::swap`. -/
  | swap (settings : AdmissionSettings)
  /-- A connection goes on. -/
  | run (index : Nat) (now : Instant) (succeeds : Bool)

/-- A controller with the limits it is built from. -/
def Installed.new (settings : AdmissionSettings) : Installed where
  settings := settings
  controller := .new settings

/-- A connection that was just taken from the listener. -/
def Service.connection (service : Service) (peer : IpAddr) : Connection where
  peer := peer
  stage := service.arrival
  started := 0
  elapsed := 0
  admitted := none
  permit := none

/-- One move; `Instant::now` does not go back. A loop that checks admission itself takes a
connection only when it is done with the one before. -/
def step (service : Service) (tenant : Tenant) : Move → Option Tenant
  | .accept peer =>
      if service.kind.checksAdmission && tenant.connections.any fun other => other.stage.checking
      then none
      else some { tenant with connections := tenant.connections ++ [service.connection peer] }
  | .swap settings =>
      some { tenant with controllers := tenant.controllers ++ [.new settings] }
  | .run index now succeeds =>
      if tenant.clock ≤ now.nanos then do
        let connection ← tenant.connections[index]?
        let (next, connection) ← advance service tenant connection now succeeds
        return { next with
          connections := tenant.connections.set index connection
          clock := now.nanos }
      else none

/-- The earliest instant. -/
def earliest : Instant where
  nanos := 0
  shown := Nat.mul_pos (Nat.two_pow_pos 64) (Nat.zero_lt_succ _)

/-- A tenant that was just built. -/
def start (settings : AdmissionSettings) : Tenant where
  controllers := [.new settings]
  metrics := .zero
  connections := []
  clock := 0

/-- A tenant with the limits of its first configuration. -/
def machine (service : Service) (settings : AdmissionSettings) : Machine where
  State := Tenant
  Label := Move
  Initial := fun tenant => tenant = start settings
  step := step service

end CofreSoberano.Gateway.Serving
