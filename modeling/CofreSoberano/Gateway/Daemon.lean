import CofreSoberano.Gateway.SniGroup

/-!
# The daemon's shared state

What `cmd_run` shares between its tasks: the maps that the signal task reads and
writes under their locks, the accept loop tasks with their join handles, the
audit channels, and the two tasks that can wait for a channel to drain.

Each built runtime has a number. It identifies the runtime's audit channel, its
metrics registry and its shutdown `Notify`, which live and die together.
-/

namespace CofreSoberano.Gateway

open CofreSoberano.Std

/-- The number of a built tenant runtime. -/
abbrev RuntimeId := Nat

/-- The number of a spawned accept loop task. -/
abbrev TaskId := Nat

/-- The triggers of `[rotation]`. -/
structure RotationPolicy where
  maxEntries : Option UInt64
  maxBytes : Option UInt64
  maxAgeSecs : Option UInt64
deriving DecidableEq, Repr

/-- `RotationPolicy::has_auto_trigger`. -/
def RotationPolicy.hasAutoTrigger (policy : RotationPolicy) : Bool :=
  policy.maxEntries.isSome || policy.maxBytes.isSome || policy.maxAgeSecs.isSome

/-- A configuration file as the daemon loads it. -/
structure DaemonConfig where
  config : Config
  rotation : Option RotationPolicy
deriving DecidableEq, Repr

/-- A rotation monitor runs for a tenant of this configuration. -/
def DaemonConfig.monitors (cfg : DaemonConfig) : Bool :=
  cfg.rotation.any RotationPolicy.hasAutoTrigger

/-- The settings an `AdmissionController` is built with. -/
structure AdmissionSettings where
  maxConcurrent : Option UInt32
  rateLimit : Option RateLimitConfig
deriving DecidableEq, Repr

/-- The settings of a `[tenants.limits]` block; no block sets no limit. -/
def AdmissionSettings.ofLimits : Option TenantLimits → AdmissionSettings
  | some limits =>
      { maxConcurrent := limits.maxConcurrent, rateLimit := limits.rateLimitPerSource }
  | none => { maxConcurrent := none, rateLimit := none }

/-- A hot-swappable controller: the settings in force and how often it was
replaced. -/
structure HotAdmissionController where
  inner : AdmissionSettings
  swaps : Nat
deriving DecidableEq, Repr

/-- `HotAdmissionController::new`. -/
def HotAdmissionController.new (settings : AdmissionSettings) : HotAdmissionController :=
  { inner := settings, swaps := 0 }

/-- `HotAdmissionController::swap`. -/
def HotAdmissionController.swap (controller : HotAdmissionController)
    (settings : AdmissionSettings) : HotAdmissionController :=
  { inner := settings, swaps := controller.swaps + 1 }

/-- What `build_tenant_runtime` returns; the channel, the metrics registry and the
`Notify` are its number. -/
structure TenantRuntime where
  name : String
  id : RuntimeId
  auditLogPath : String
  admission : HotAdmissionController
deriving DecidableEq, Repr

/-- What a rotation request of SIGUSR2 needs. -/
structure RotationTarget where
  tenantName : String
  channel : RuntimeId
  logPath : String
deriving DecidableEq, Repr

/-- The trigger of one TLS listener: `ReloadSource::Single` or `::Multi`. -/
inductive ReloadTrigger where
  | single (cfg : TlsConfig) (label : String)
  | multi (trigger : TlsReloadTrigger)
deriving DecidableEq

/-- An installed dispatch table with the audit handles of its contexts by tenant
name. `presented` is what the acceptor handle of the group's accept loop yields. -/
structure HotSniDispatchTable where
  table : SniDispatchTable
  audits : List (String × RuntimeId)
  presented : MultiSniCertResolver
deriving DecidableEq

/-- An accept loop that has not returned. A tenant's own loop holds an audit
handle; the loop of an SNI group finds handles in its dispatch table. -/
structure AcceptTask where
  owner : String
  listen : String
  audit : Option RuntimeId
  bound : Bool
deriving DecidableEq, Repr

/-- The counters of `DaemonMetrics` that SIGHUP moves. -/
structure DaemonMetrics where
  sighupCyclesTotal : Nat
  sighupFailedTotal : Nat
  configChangedHotTotal : Nat
  configChangedColdTotal : Nat
  limitsHotAppliedTotal : Nat
  tenantsAddedTotal : Nat
  tenantsAddFailedTotal : Nat
  tenantsRemovedTotal : Nat
  tenantsRemoveFailedTotal : Nat
deriving DecidableEq, Repr

/-- `DaemonMetrics::default`. -/
def DaemonMetrics.zero : DaemonMetrics := ⟨0, 0, 0, 0, 0, 0, 0, 0, 0⟩

/-- The maps that startup and the signal task share. The metrics list is kept as
the tenants of its registries, a `Notify` of a group as the task it stops. -/
structure Shared where
  tenantNames : List String
  tenantConfigs : List TenantConfig
  metricsList : List String
  tenantAdmissions : KeyedMap String HotAdmissionController
  tenantShutdowns : KeyedMap String RuntimeId
  tenantAudits : KeyedMap String RuntimeId
  rotationTargets : KeyedMap String RotationTarget
  monitorHandles : KeyedMap String RuntimeId
  reloadTriggers : KeyedMap String ReloadTrigger
  sniDispatches : KeyedMap String HotSniDispatchTable
  sniGroupShutdowns : KeyedMap String TaskId
  sniGroupTasks : KeyedMap String TaskId
  tenantTasks : KeyedMap String TaskId
  daemonMetrics : DaemonMetrics
deriving DecidableEq

/-- Where a wait of the signal task continues: after a tenant of its own accept
loop, or after an SNI tenant. The second keeps `_old`, the replaced table, in
scope to the end of the loop body. -/
inductive Removal where
  | single
  | sni (listen : String) (old : HotSniDispatchTable)
deriving DecidableEq

/-- The signal task. -/
inductive SignalTask where
  /-- At the top of its `select!`. -/
  | idle
  /-- In a SIGHUP cycle, with the names it still has to add and to remove. -/
  | applying (cfg : DaemonConfig) (added removed : List String)
  /-- In `shutdown_async` of a channel, inside the removal of a tenant. -/
  | draining (removal : Removal) (name : String) (channel : RuntimeId) (cfg : DaemonConfig)
      (removed : List String)
  /-- After SIGTERM. -/
  | returned
deriving DecidableEq

/-- The handles that the signal task keeps in its own scope while it waits. -/
def SignalTask.scope : SignalTask → List (String × RuntimeId)
  | .draining (.sni _ old) _ _ _ _ => old.audits
  | _ => []

/-- The main task, in `cmd_run`. -/
inductive MainTask where
  /-- Waiting for the daemon's `Notify`. -/
  | serving
  /-- Waiting for the accept loops. -/
  | joining
  /-- In `shutdown_async` of the first channel of the list. -/
  | draining (channels : List RuntimeId)
  /-- `cmd_run` returned `Ok`. -/
  | returned
deriving DecidableEq

/-- The running daemon. -/
structure Daemon where
  shared : Shared
  /-- The runtimes built at startup, in the order of the configuration. -/
  tenantState : List RuntimeId
  signal : SignalTask
  main : MainTask
  running : KeyedMap TaskId AcceptTask
  /-- The runtimes and the groups whose `Notify` was broadcast. -/
  notified : List RuntimeId
  notifiedGroups : List TaskId
  /-- One entry for each session of an SNI group in its TLS handshake, the address
  of the group; it holds no audit handle yet. -/
  handshakes : List String
  /-- One entry for each session task, the channel it holds a handle of. -/
  sessions : List RuntimeId
  /-- The channels whose own handle `shutdown_async` took. -/
  closing : List RuntimeId
  /-- The channels whose writer has returned. -/
  finished : List RuntimeId
  nextRuntime : RuntimeId
  nextTask : TaskId
deriving DecidableEq

/-- What building the runtime of one tenant finds on disk. -/
structure TenantFiles where
  peerPolicy : String → Except String (List String)
  loadAuditKey : String → String → Except String Unit
  buildAuditLogSoftkey : String → String → Except String Unit
  buildAuditLogPkcs11 : AuditSignerConfig → String → String → Except String Unit

/-- A peer directory without keys is an error. -/
def nonemptyPeers (t : TenantConfig) (peers : List String) : Except String Unit :=
  if peers.isEmpty then .error s!"tenant {t.name}: no peer .cspqid.pub files in {t.peerPubDir}"
  else .ok ()

/-- The signer of a tenant; validation has made sure that there is one. -/
def requireSigner (cfg : Config) (t : TenantConfig) : Except String AuditSignerConfig :=
  match cfg.effectiveSigner t with
  | some signer => .ok signer
  | none =>
      .error <|
        s!"tenant {t.name}: no audit_signer (declare [tenants.audit_signer] for this tenant " ++
        s!"or a top-level [audit_signer] as the default)"

/-- Opening or creating the audit log of a tenant. -/
def openAuditLog (files : TenantFiles) (t : TenantConfig) : AuditSignerConfig → Except String Unit
  | .softkey secretKey publicKey => do
      withContext s!"loading audit keypair (sk={secretKey} pk={publicKey})"
        (files.loadAuditKey secretKey publicKey)
      files.buildAuditLogSoftkey t.auditLog t.name
  | signer => files.buildAuditLogPkcs11 signer t.auditLog t.name

/-- `build_tenant_runtime`; the audit channel is spawned last, so a failure leaves
nothing behind. -/
def buildTenantRuntime (files : TenantFiles) (cfg : Config) (t : TenantConfig) (id : RuntimeId) :
    Except String TenantRuntime := do
  let peers ← withContext s!"loading peer dir {t.peerPubDir}" (files.peerPolicy t.peerPubDir)
  nonemptyPeers t peers
  let signer ← requireSigner cfg t
  openAuditLog files t signer
  return { name := t.name, id, auditLogPath := t.auditLog, admission := .new (.ofLimits t.limits) }

/-- What a built runtime is. -/
theorem buildTenantRuntime_spec {files : TenantFiles} {cfg : Config} {t : TenantConfig}
    {id : RuntimeId} {runtime : TenantRuntime}
    (built : buildTenantRuntime files cfg t id = .ok runtime) :
    runtime = { name := t.name, id, auditLogPath := t.auditLog
                admission := .new (.ofLimits t.limits) } := by
  simp only [buildTenantRuntime] at built
  obtain ⟨_, _, built⟩ := bind_eq_ok.mp built
  obtain ⟨_, _, built⟩ := bind_eq_ok.mp built
  obtain ⟨_, _, built⟩ := bind_eq_ok.mp built
  obtain ⟨_, _, built⟩ := bind_eq_ok.mp built
  cases built
  rfl

/-- `build_acceptor`, as far as it can fail. -/
def buildAcceptor (disk : Disk) (cfg : TlsConfig) : Except String Unit := do
  let chain ← withContext s!"loading cert chain from {cfg.cert}" (disk.loadCertChain cfg.cert)
  if chain.isEmpty then .error s!"no certificates parsed from {cfg.cert}" else pure ()
  let key ← withContext s!"loading private key from {cfg.key}" (disk.loadPrivateKey cfg.key)
  let _ ← withContext "rustls server config build failed" (disk.anySupportedType key)
  return ()

/-- `build_reloadable_acceptor`. -/
def buildReloadableAcceptor (disk : Disk) (cfg : TlsConfig) (tenantName : String) :
    Except String ReloadTrigger := do
  buildAcceptor disk cfg
  return .single cfg tenantName

namespace ReloadTrigger

/-- `TlsReloadTrigger::add_sni_entry`, with the check of the source. -/
def addSniEntry (disk : Disk) (label sni : String) (cfg : TlsConfig) :
    ReloadTrigger → ReloadTrigger × Except String MultiSniCertResolver
  | .single files owner =>
      (.single files owner, .error s!"add_sni_entry called on single-source trigger {owner}")
  | .multi trigger =>
      let (next, outcome) := trigger.addSniEntry disk label sni cfg
      (.multi next, outcome)

/-- `TlsReloadTrigger::remove_sni_entry`, with the check of the source. -/
def removeSniEntry (disk : Disk) (label : String) :
    ReloadTrigger → ReloadTrigger × Except String MultiSniCertResolver
  | .single files owner =>
      (.single files owner, .error s!"remove_sni_entry called on single-source trigger {owner}")
  | .multi trigger =>
      let (next, outcome) := trigger.removeSniEntry disk label
      (.multi next, outcome)

/-- The acceptor a group's handle yields after its trigger sent one; a trigger of
a single listener sends to another handle. -/
def sends (presented : MultiSniCertResolver) : ReloadTrigger → MultiSniCertResolver
  | .single _ _ => presented
  | .multi trigger => trigger.acceptor

end ReloadTrigger

/-- The synthetic key of a group's trigger. -/
def groupKey (listen : String) : String := "sni-group:" ++ listen

/-- The maps before any tenant is registered. -/
def Shared.empty : Shared where
  tenantNames := []
  tenantConfigs := []
  metricsList := []
  tenantAdmissions := .empty
  tenantShutdowns := .empty
  tenantAudits := .empty
  rotationTargets := .empty
  monitorHandles := .empty
  reloadTriggers := .empty
  sniDispatches := .empty
  sniGroupShutdowns := .empty
  sniGroupTasks := .empty
  tenantTasks := .empty
  daemonMetrics := .zero

/-- The registration of a built runtime. SIGHUP ADD writes the maps one after the
other; startup collects the same entries from `tenant_state`. -/
def Shared.register (shared : Shared) (cfg : DaemonConfig) (t : TenantConfig)
    (runtime : TenantRuntime) : Shared :=
  { shared with
    metricsList := shared.metricsList ++ [runtime.name]
    tenantNames := shared.tenantNames.insert runtime.name
    tenantConfigs := shared.tenantConfigs ++ [t]
    tenantAdmissions := shared.tenantAdmissions.insert runtime.name runtime.admission
    tenantShutdowns := shared.tenantShutdowns.insert runtime.name runtime.id
    tenantAudits := shared.tenantAudits.insert runtime.name runtime.id
    rotationTargets := shared.rotationTargets.insert runtime.name
      { tenantName := runtime.name, channel := runtime.id, logPath := runtime.auditLogPath }
    monitorHandles :=
      if cfg.monitors then shared.monitorHandles.insert runtime.name runtime.id
      else shared.monitorHandles }

namespace Daemon

/-- Store a reload trigger. -/
def insertTrigger (daemon : Daemon) (key : String) (trigger : ReloadTrigger) : Daemon :=
  { daemon with
    shared := { daemon.shared with
      reloadTriggers := daemon.shared.reloadTriggers.insert key trigger } }

/-- Spawn the accept loop of one tenant. It binds its address when it first runs. -/
def spawnTenant (daemon : Daemon) (runtime : TenantRuntime) (listen : String) : Daemon :=
  { daemon with
    shared := { daemon.shared with
      tenantTasks := daemon.shared.tenantTasks.insert runtime.name daemon.nextTask }
    running := daemon.running.insert daemon.nextTask
      { owner := runtime.name, listen, audit := some runtime.id, bound := false }
    nextTask := daemon.nextTask + 1 }

/-- Register an SNI group and spawn its accept loop. -/
def installGroup (daemon : Daemon) (listen : String) (group : SniGroup)
    (audits : List (String × RuntimeId)) : Daemon :=
  { daemon with
    shared := { daemon.shared with
      reloadTriggers := daemon.shared.reloadTriggers.insert (groupKey listen) (.multi group.trigger)
      sniDispatches := daemon.shared.sniDispatches.insert listen
        { table := group.dispatch, audits, presented := group.trigger.acceptor }
      sniGroupShutdowns := daemon.shared.sniGroupShutdowns.insert listen daemon.nextTask
      sniGroupTasks := daemon.shared.sniGroupTasks.insert listen daemon.nextTask }
    running := daemon.running.insert daemon.nextTask
      { owner := groupKey listen, listen, audit := none, bound := false }
    nextTask := daemon.nextTask + 1 }

end Daemon

/-- The runtimes of startup, numbered in the order of the configuration. -/
def buildRuntimes (files : TenantFiles) (cfg : Config) :
    RuntimeId → List TenantConfig → Except String (List TenantRuntime)
  | _, [] => .ok []
  | id, t :: rest => do
      let runtime ← buildTenantRuntime files cfg t id
      let later ← buildRuntimes files cfg (id + 1) rest
      return runtime :: later

/-- The runtime of a resolved tenant. -/
def runtimeOf (runtimes : List TenantRuntime) (name : String) : Except String TenantRuntime :=
  match runtimes.find? fun runtime => runtime.name = name with
  | some runtime => .ok runtime
  | none => .error s!"internal: no runtime for tenant {name}"

/-- Startup of a listener with one tenant. -/
def startSingle (disk : Disk) (runtimes : List TenantRuntime) (daemon : Daemon)
    (t : ServeTcpTenant) : Except String Daemon := do
  let runtime ← runtimeOf runtimes t.name
  match t.tls with
  | none => return daemon.spawnTenant runtime t.listen
  | some tls =>
      let trigger ← withContext s!"TLS acceptor for tenant {t.name}"
        (buildReloadableAcceptor disk tls t.name)
      return (daemon.insertTrigger t.name trigger).spawnTenant runtime t.listen

/-- The handle that a member's context clones from its runtime. -/
def memberAudit (runtimes : List TenantRuntime) (t : ServeTcpTenant) :
    Except String (String × RuntimeId) := do
  let runtime ← runtimeOf runtimes t.name
  return (t.name, runtime.id)

/-- Startup of an SNI group. -/
def startGroup (disk : Disk) (runtimes : List TenantRuntime) (daemon : Daemon)
    (group : TlsListenerGroup) : Except String Daemon := do
  let audits ← group.tenants.mapM (memberAudit runtimes)
  let built ← startupGroup disk group
  return daemon.installGroup group.listen built audits

/-- Startup of one listener group. -/
def startListener (disk : Disk) (runtimes : List TenantRuntime) (daemon : Daemon)
    (group : TlsListenerGroup) : Except String Daemon :=
  if group.sniDispatch then startGroup disk runtimes daemon group
  else match group.tenants with
  | t :: _ => startSingle disk runtimes daemon t
  | [] => .error "called `Option::unwrap()` on a `None` value"

/-- Startup of the listeners of a role. -/
def startListeners (disk : Disk) (cfg : Config) (runtimes : List TenantRuntime) (daemon : Daemon) :
    Except String Daemon :=
  match cfg.role with
  | .serveTcp =>
      match cfg.resolveServeTcpGroups with
      | .error rejected => .error s!"resolve serve-tcp groups: {rejected.display}"
      | .ok groups => groups.foldlM (startListener disk runtimes) daemon
  | .servePq =>
      match cfg.resolveServePq with
      | .error rejected => .error s!"resolve serve-pq: {rejected.display}"
      | .ok resolved => .ok <| (runtimes.zip resolved).foldl
          (fun daemon pair => daemon.spawnTenant pair.1 pair.2.listen) daemon

/-- The daemon right after its runtimes are built and registered. -/
def registered (cfg : DaemonConfig) (runtimes : List TenantRuntime) : Daemon where
  shared := (cfg.config.tenants.zip runtimes).foldl
    (fun shared pair => shared.register cfg pair.1 pair.2) .empty
  tenantState := runtimes.map TenantRuntime.id
  signal := .idle
  main := .serving
  running := .empty
  notified := []
  notifiedGroups := []
  handshakes := []
  sessions := []
  closing := []
  finished := []
  nextRuntime := runtimes.length
  nextTask := 0

/-- `cmd_run` up to the installation of the signal handler. -/
def startDaemon (files : TenantFiles) (disk : Disk) (cfg : DaemonConfig) : Except String Daemon :=
  match cfg.config.validate with
  | .error rejected => .error rejected.display
  | .ok () => do
      let runtimes ← buildRuntimes files cfg.config 0 cfg.config.tenants
      startListeners disk cfg.config runtimes (registered cfg runtimes)

end CofreSoberano.Gateway
