import CofreSoberano.Gateway.Daemon

/-!
# Signals and tasks of the running daemon

One SIGHUP is a cycle of the signal task: the limits of the tenants that stay
are applied, then tenants are added, then tenants are removed, one by one. A
removal waits for the audit channel of the tenant, so the cycle is cut at the
points where the signal task waits. SIGTERM ends the signal task and starts the
shutdown sequence of the main task. Accept loops, sessions and the writers of
the audit channels move between these steps.
-/

namespace CofreSoberano.Gateway

open CofreSoberano.Std

namespace Shared

/-- Replace the admission settings of a tenant whose `limits` changed. -/
def applyHot (shared : Shared) (t : TenantConfig) (fields : List String) : Shared :=
  if fields.isEmpty then shared
  else
    let swapped :=
      match shared.tenantAdmissions.get? t.name with
      | some controller =>
          { shared with
            tenantAdmissions := shared.tenantAdmissions.insert t.name
              (controller.swap (.ofLimits t.limits))
            daemonMetrics := { shared.daemonMetrics with
              limitsHotAppliedTotal := shared.daemonMetrics.limitsHotAppliedTotal + 1 } }
      | none => shared
    { swapped with daemonMetrics := { swapped.daemonMetrics with
        configChangedHotTotal := swapped.daemonMetrics.configChangedHotTotal + 1 } }

/-- Cold changes are counted only. -/
def countCold (shared : Shared) (fields : List String) : Shared :=
  if fields.isEmpty then shared
  else { shared with daemonMetrics := { shared.daemonMetrics with
    configChangedColdTotal := shared.daemonMetrics.configChangedColdTotal + 1 } }

/-- One iteration of the scan over the unchanged names: the snapshot of the
tenant's configuration against the new one. -/
def applyChanges (shared : Shared) (t : TenantConfig) : Shared :=
  match shared.tenantConfigs.find? fun known => known.name = t.name with
  | none => shared
  | some previous =>
      let changes := previous.materialChanges t
      (shared.applyHot t (TenantChange.fields .hot changes)).countCold
        (TenantChange.fields .cold changes)

/-- The scan over the unchanged names. The snapshot itself is not written. -/
def applyLimits (shared : Shared) (cfg : Config) : Shared :=
  (cfg.tenants.filter fun t => t.name ∈ shared.tenantNames).foldl applyChanges shared

/-- Count a SIGHUP whose file loads. -/
def countCycle (shared : Shared) : Shared :=
  { shared with daemonMetrics := { shared.daemonMetrics with
    sighupCyclesTotal := shared.daemonMetrics.sighupCyclesTotal + 1 } }

/-- The group of an SNI tenant. -/
def sniTarget (shared : Shared) (name : String) : Option (String × HotSniDispatchTable) :=
  Gateway.sniTarget HotSniDispatchTable.table shared.sniDispatches name

/-- The purge that ends every removal. -/
def purgeRest (shared : Shared) (name : String) : Shared :=
  { shared with
    rotationTargets := shared.rotationTargets.erase name
    monitorHandles := shared.monitorHandles.erase name
    tenantConfigs := shared.tenantConfigs.filter fun t => t.name ≠ name
    metricsList := shared.metricsList.filter fun tenant => tenant ≠ name
    daemonMetrics := { shared.daemonMetrics with
      tenantsRemovedTotal := shared.daemonMetrics.tenantsRemovedTotal + 1 } }

/-- The purge of a group without tenants. -/
def purgeGroup (shared : Shared) (listen : String) : Shared :=
  { shared with
    sniGroupTasks := shared.sniGroupTasks.erase listen
    sniGroupShutdowns := shared.sniGroupShutdowns.erase listen
    sniDispatches := shared.sniDispatches.erase listen
    reloadTriggers := shared.reloadTriggers.erase (groupKey listen) }

end Shared

namespace Daemon

/-- Go on with a cycle, or end it. -/
def proceed (daemon : Daemon) (cfg : DaemonConfig) (added removed : List String) : Daemon :=
  { daemon with signal :=
      if added.isEmpty && removed.isEmpty then .idle else .applying cfg added removed }

/-- The resolved tenant gets an accept loop of its own. TLS is built and its
trigger stored first; the trigger goes again if the tenant does not resolve. -/
def addSingle (daemon : Daemon) (disk : Disk) (cfg : Config) (t : TenantConfig)
    (runtime : TenantRuntime) : Daemon × Bool :=
  let secured : Option Daemon :=
    match t.tls with
    | none => some daemon
    | some tls =>
        match buildReloadableAcceptor disk tls runtime.name with
        | .error _ => none
        | .ok trigger => some (daemon.insertTrigger runtime.name trigger)
  match secured with
  | none => (daemon, false)
  | some secured =>
      match cfg.resolveOneServeTcp t with
      | .ok resolved => (secured.spawnTenant runtime resolved.listen, true)
      | .error _ =>
          ({ secured with shared := { secured.shared with
              reloadTriggers := secured.shared.reloadTriggers.erase runtime.name } }, false)

/-- The first tenant of a new group. -/
def addGroup (daemon : Daemon) (disk : Disk) (cfg : Config) (t : TenantConfig)
    (runtime : TenantRuntime) (sni : String) (tls : TlsConfig) : Daemon × Bool :=
  match newGroup disk cfg t sni tls with
  | none => (daemon, false)
  | some group => (daemon.installGroup t.listen group [(runtime.name, runtime.id)], true)

/-- A tenant joins a running group. -/
def addMember (daemon : Daemon) (disk : Disk) (cfg : Config) (t : TenantConfig)
    (runtime : TenantRuntime) (sni : String) (tls : TlsConfig) (hot : HotSniDispatchTable) :
    Daemon × Bool :=
  match joinGroup (·.addSniEntry disk runtime.name sni tls)
    (daemon.shared.reloadTriggers.get? (groupKey t.listen)) cfg t hot.table with
  | .refused => (daemon, false)
  | .rolledBack kept => (daemon.insertTrigger (groupKey t.listen) kept, false)
  | .replaced next table =>
      let mutated := daemon.insertTrigger (groupKey t.listen) next
      ({ mutated with shared := { mutated.shared with
          sniDispatches := mutated.shared.sniDispatches.insert t.listen
            { table
              audits := hot.audits ++ [(runtime.name, runtime.id)]
              presented := next.sends hot.presented } } }, true)

/-- The spawn of an added tenant: its accept loop or its dispatch entry, and
whether there is one now. -/
def spawnAdded (daemon : Daemon) (disk : Disk) (cfg : Config) (t : TenantConfig)
    (runtime : TenantRuntime) : Daemon × Bool :=
  match placement cfg daemon.shared.sniDispatches t with
  | .servePq =>
      match cfg.resolveOneServePq t with
      | .ok resolved => (daemon.spawnTenant runtime resolved.listen, true)
      | .error _ => (daemon, false)
  | .single => daemon.addSingle disk cfg t runtime
  | .unsecured => (daemon, false)
  | .newGroup sni tls => daemon.addGroup disk cfg t runtime sni tls
  | .member sni tls hot => daemon.addMember disk cfg t runtime sni tls hot

/-- The registration of the next runtime. -/
def enroll (daemon : Daemon) (cfg : DaemonConfig) (t : TenantConfig) (runtime : TenantRuntime) :
    Daemon :=
  { daemon with
    shared := daemon.shared.register cfg t runtime
    nextRuntime := daemon.nextRuntime + 1 }

/-- Count an added tenant. -/
def countAdded (daemon : Daemon) : Daemon :=
  { daemon with shared := { daemon.shared with daemonMetrics := { daemon.shared.daemonMetrics with
      tenantsAddedTotal := daemon.shared.daemonMetrics.tenantsAddedTotal + 1 } } }

/-- Count a tenant whose runtime could not be built. -/
def countAddFailed (daemon : Daemon) : Daemon :=
  { daemon with shared := { daemon.shared with daemonMetrics := { daemon.shared.daemonMetrics with
      tenantsAddFailedTotal := daemon.shared.daemonMetrics.tenantsAddFailedTotal + 1 } } }

/-- SIGHUP ADD of one tenant, and whether an accept loop or a dispatch entry serves
it now. A built runtime is registered before the spawn and counted as added
whatever the spawn did. -/
def addTenant (daemon : Daemon) (files : TenantFiles) (disk : Disk) (cfg : DaemonConfig)
    (t : TenantConfig) : Daemon × Bool :=
  match buildTenantRuntime files cfg.config t daemon.nextRuntime with
  | .error _ => (daemon.countAddFailed, false)
  | .ok runtime =>
      let (spawned, serving) := (daemon.enroll cfg t runtime).spawnAdded disk cfg.config t runtime
      (spawned.countAdded, serving)

/-- Count a failed removal. -/
def removeFailed (daemon : Daemon) : Daemon :=
  { daemon with shared := { daemon.shared with daemonMetrics := { daemon.shared.daemonMetrics with
      tenantsRemoveFailedTotal := daemon.shared.daemonMetrics.tenantsRemoveFailedTotal + 1 } } }

/-- The signal task in `shutdown_async` of a removed tenant's channel, which it took
out of its map. -/
def await (daemon : Daemon) (removal : Removal) (name : String) (channel : RuntimeId)
    (cfg : DaemonConfig) (removed : List String) : Daemon :=
  { daemon with
    shared := { daemon.shared with tenantAudits := daemon.shared.tenantAudits.erase name }
    closing := daemon.closing.insert channel
    signal := .draining removal name channel cfg removed }

/-- Drain the channel of a removed tenant; without a channel the removal goes on at
once. -/
def enterDrain (daemon : Daemon) (removal : Removal) (name : String) (cfg : DaemonConfig)
    (removed : List String) (resume : Daemon → Daemon) : Daemon :=
  match daemon.shared.tenantAudits.get? name with
  | none => resume daemon
  | some channel => daemon.await removal name channel cfg removed

/-- The end of the removal of a tenant with its own accept loop. -/
def finishSingle (daemon : Daemon) (name : String) (cfg : DaemonConfig) (removed : List String) :
    Daemon :=
  let purged := { daemon with shared := { daemon.shared.purgeRest name with
    reloadTriggers := daemon.shared.reloadTriggers.erase name } }
  purged.proceed cfg [] removed

/-- Broadcast the `Notify` of a runtime and take the join handle of its loop. -/
def takeTask (daemon : Daemon) (name : String) (notify : RuntimeId) : Daemon :=
  { daemon with
    notified := daemon.notified.insert notify
    shared := { daemon.shared with tenantTasks := daemon.shared.tenantTasks.erase name } }

/-- The accept loop has returned: the maps up to the audit channel are purged. -/
def purgeSingle (daemon : Daemon) (name : String) (task : TaskId) : Daemon :=
  { daemon with
    running := daemon.running.erase task
    shared := { daemon.shared with
      tenantNames := daemon.shared.tenantNames.filter fun tenant => tenant ≠ name
      tenantShutdowns := daemon.shared.tenantShutdowns.erase name
      tenantAdmissions := daemon.shared.tenantAdmissions.erase name } }

/-- SIGHUP REMOVE of a tenant with its own accept loop. `inTime` says whether the
loop returned before the drain timeout. -/
def removeSingle (daemon : Daemon) (inTime : Bool) (name : String) (cfg : DaemonConfig)
    (removed : List String) : Daemon :=
  match daemon.shared.tenantShutdowns.get? name with
  | none => daemon.proceed cfg [] removed
  | some notify =>
      match daemon.shared.tenantTasks.get? name with
      | none => (daemon.takeTask name notify).proceed cfg [] removed
      | some task =>
          if inTime then
            ((daemon.takeTask name notify).purgeSingle name task).enterDrain
              .single name cfg removed (·.finishSingle name cfg removed)
          else (daemon.takeTask name notify).removeFailed.proceed cfg [] removed

/-- The end of the removal of an SNI tenant. A group without tenants is told to
stop and purged, whether its loop returned in time or not. -/
def finishSni (daemon : Daemon) (inTime : Bool) (listen name : String) (cfg : DaemonConfig)
    (removed : List String) : Daemon :=
  let purged := { daemon with shared := daemon.shared.purgeRest name }
  let drained :=
    match daemon.shared.sniDispatches.get? listen with
    | some hot =>
        if hot.table.tenantNames.isEmpty then
          { purged with
            notifiedGroups :=
          purged.notifiedGroups ++ (purged.shared.sniGroupShutdowns.get? listen).toList
            running :=
              match purged.shared.sniGroupTasks.get? listen with
              | some task => if inTime then purged.running.erase task else purged.running
              | none => purged.running
            shared := purged.shared.purgeGroup listen }
        else purged
    | none => purged
  drained.proceed cfg [] removed

/-- The certificate set and the dispatch table without a tenant, and the maps up to
the audit channel. `tenant_shutdowns` is not among them. -/
def purgeSni (daemon : Daemon) (name listen : String) (hot : HotSniDispatchTable)
    (table : SniDispatchTable) (trigger : ReloadTrigger) : Daemon :=
  { daemon with shared := { daemon.shared with
      reloadTriggers := daemon.shared.reloadTriggers.insert (groupKey listen) trigger
      sniDispatches := daemon.shared.sniDispatches.insert listen
        { table
          audits := hot.audits.filter fun handle => handle.1 ≠ name
          presented := trigger.sends hot.presented }
      tenantNames := daemon.shared.tenantNames.filter fun tenant => tenant ≠ name
      tenantAdmissions := daemon.shared.tenantAdmissions.erase name } }

/-- SIGHUP REMOVE of an SNI tenant: out of the certificate set, then out of the
dispatch table, then out of the maps. -/
def removeSni (daemon : Daemon) (disk : Disk) (inTime : Bool) (name : String) (cfg : DaemonConfig)
    (removed : List String) (listen : String) (hot : HotSniDispatchTable) : Daemon :=
  match leaveGroup (·.removeSniEntry disk name)
    (daemon.shared.reloadTriggers.get? (groupKey listen)) name hot.table with
  | none => daemon.proceed cfg [] removed
  | some .refused => daemon.removeFailed.proceed cfg [] removed
  | some (.rolledBack kept) =>
      (daemon.insertTrigger (groupKey listen) kept).removeFailed.proceed cfg [] removed
  | some (.replaced next table) =>
      (daemon.purgeSni name listen hot table next).enterDrain (.sni listen hot) name cfg removed
        (·.finishSni inTime listen name cfg removed)

/-- SIGHUP REMOVE of one tenant. -/
def removeTenant (daemon : Daemon) (disk : Disk) (inTime : Bool) (name : String)
    (cfg : DaemonConfig) (removed : List String) : Daemon :=
  match daemon.shared.sniTarget name with
  | some (listen, hot) => daemon.removeSni disk inTime name cfg removed listen hot
  | none => daemon.removeSingle inTime name cfg removed

/-- The tenants a configuration adds and the names it drops. -/
def addedNames (daemon : Daemon) (cfg : Config) : List String :=
  (cfg.tenants.map TenantConfig.name).filter fun name => name ∉ daemon.shared.tenantNames

def removedNames (daemon : Daemon) (cfg : Config) : List String :=
  daemon.shared.tenantNames.filter fun name => name ∉ cfg.tenants.map TenantConfig.name

/-- Some handle of a channel is alive outside the session tasks: the channel's
own, one of an accept loop, one in an installed dispatch table, or one in a
replaced table that the waiting signal task keeps in scope. -/
def holdsHandle (daemon : Daemon) (channel : RuntimeId) : Bool :=
  channel ∉ daemon.closing ||
  daemon.running.values.any (fun task => task.audit = some channel) ||
  daemon.shared.sniDispatches.values.any (fun hot => hot.audits.any fun handle =>
    handle.2 = channel) ||
  daemon.signal.scope.any (fun handle => handle.2 = channel)

/-- Enter `shutdown_async` of the next startup runtime, or return. -/
def drainNext (daemon : Daemon) : List RuntimeId → Daemon
  | [] => { daemon with main := .returned }
  | channel :: rest =>
      { daemon with main := .draining (channel :: rest), closing := daemon.closing.insert channel }

/-- SIGUSR1, for one trigger of the map. -/
def reloadTrigger (daemon : Daemon) (disk : Disk) (key : String) : Daemon :=
  match daemon.shared.reloadTriggers.get? key with
  | some (.multi trigger) =>
      let reloaded := (trigger.reload disk).1
      { daemon with shared := { daemon.shared with
          reloadTriggers := daemon.shared.reloadTriggers.insert key (.multi reloaded)
          sniDispatches := daemon.shared.sniDispatches.mapValues fun listen hot =>
            if groupKey listen = key then { hot with presented := reloaded.acceptor } else hot } }
  | _ => daemon

end Daemon

/-- What can happen to the daemon next. -/
inductive DaemonLabel where
  /-- SIGHUP; the file, if it reads and parses, and the order in which the hash
  sets yield the names. -/
  | sighup (file : Option DaemonConfig) (added removed : List String)
  /-- The next ADD of the cycle. -/
  | add (files : TenantFiles) (disk : Disk)
  /-- The next REMOVE of the cycle, up to its wait. -/
  | remove (disk : Disk) (inTime : Bool)
  /-- The wait of the signal task ends. -/
  | drained (inTime : Bool)
  /-- SIGUSR1 reaching one trigger. -/
  | sigusr1 (disk : Disk) (key : String)
  | sigterm
  /-- All accept loops that the main task awaits have returned. -/
  | joined
  /-- The wait of the main task ends. -/
  | mainDrained
  /-- An accept loop binds its address, unless the system refuses. -/
  | bind (task : TaskId) (granted : Bool)
  /-- An accept loop returns. -/
  | exit (task : TaskId)
  /-- An accept loop takes a connection and spawns a session task. -/
  | accept (task : TaskId)
  /-- A session of a group finds its context in the dispatch table. -/
  | dispatch (listen : String) (channel : RuntimeId)
  | handshakeFails (listen : String)
  | sessionEnds (channel : RuntimeId)
  /-- The writer of a channel flushes and returns. -/
  | writerReturns (channel : RuntimeId)

namespace Daemon

/-- Count a SIGHUP whose file does not load. -/
def countSighupFailed (daemon : Daemon) : Daemon :=
  { daemon with shared := { daemon.shared with daemonMetrics := { daemon.shared.daemonMetrics with
      sighupFailedTotal := daemon.shared.daemonMetrics.sighupFailedTotal + 1 } } }

/-- The start of a SIGHUP cycle. -/
def beginCycle (daemon : Daemon) (file : Option DaemonConfig) (added removed : List String) :
    Option Daemon :=
  match file.filter fun cfg => cfg.config.validate = .ok () with
  | none => some daemon.countSighupFailed
  | some cfg =>
      if added.Perm (daemon.addedNames cfg.config) ∧
        removed.Perm (daemon.removedNames cfg.config) then
        some ({ daemon with
          shared := daemon.shared.countCycle.applyLimits cfg.config }.proceed cfg added removed)
      else none

/-- An accept loop reaches its `bind`. The address must be free. -/
def bindTask (daemon : Daemon) (id : TaskId) (granted : Bool) : Option Daemon :=
  match daemon.running.get? id with
  | some task =>
      if task.bound then none
      else if granted && !daemon.running.values.any
          (fun other => other.bound && other.listen = task.listen) then
        some { daemon with running := daemon.running.insert id { task with bound := true } }
      else some { daemon with running := daemon.running.erase id }
  | none => none

/-- An accept loop observes the broadcast of its `Notify`. -/
def exitTask (daemon : Daemon) (id : TaskId) : Option Daemon :=
  match daemon.running.get? id with
  | some task =>
      if task.bound && (task.audit.any (· ∈ daemon.notified) ||
        id ∈ daemon.notifiedGroups) then
        some { daemon with running := daemon.running.erase id }
      else none
  | none => none

/-- An accepted connection. The session of a tenant's own loop starts with a clone
of the loop's handle, that of a group with the TLS handshake. -/
def acceptConnection (daemon : Daemon) (id : TaskId) : Option Daemon :=
  match daemon.running.get? id with
  | some task =>
      if task.bound then
        match task.audit with
        | some channel => some { daemon with sessions := channel :: daemon.sessions }
        | none => some { daemon with handshakes := task.listen :: daemon.handshakes }
      else none
  | none => none

/-- A finished handshake clones a context of the current table. -/
def dispatchSession (daemon : Daemon) (listen : String) (channel : RuntimeId) : Option Daemon :=
  match daemon.shared.sniDispatches.get? listen with
  | some hot =>
      if listen ∈ daemon.handshakes ∧ channel ∈ hot.audits.map Prod.snd then
        some { daemon with
          handshakes := daemon.handshakes.erase listen
          sessions := channel :: daemon.sessions }
      else none
  | none => none

/-- SIGTERM: the signal task notifies every tenant and returns, the main task wakes
up and notifies every group. -/
def terminate (daemon : Daemon) : Daemon :=
  { daemon with
    signal := .returned
    main := .joining
    notified := daemon.notified ++ daemon.shared.tenantShutdowns.values
    notifiedGroups := daemon.notifiedGroups ++ daemon.shared.sniGroupShutdowns.values }

/-- The main task after the accept loops: their handles and those of the monitors
are gone, the drain of the startup runtimes begins. -/
def joinAll (daemon : Daemon) : Daemon :=
  { daemon with shared := { daemon.shared with
      sniGroupTasks := .empty
      tenantTasks := .empty
      monitorHandles := .empty } }.drainNext daemon.tenantState

/-- The accept loops that the main task awaits. -/
def awaited (daemon : Daemon) : List TaskId :=
  daemon.shared.tenantTasks.values ++ daemon.shared.sniGroupTasks.values

/-- The end of a wait of the signal task. -/
def resumeRemoval (daemon : Daemon) (inTime : Bool) (name : String) (cfg : DaemonConfig)
    (removed : List String) : Removal → Daemon
  | .single => daemon.finishSingle name cfg removed
  | .sni listen _ => daemon.finishSni inTime listen name cfg removed

/-- One step of the running daemon. -/
def move (daemon : Daemon) : DaemonLabel → Option Daemon
  | .sighup file added removed =>
      if daemon.signal = .idle then daemon.beginCycle file added removed else none
  | .add files disk =>
      match daemon.signal with
      | .applying cfg (name :: added) removed =>
          (cfg.config.tenants.find? fun t => t.name = name).map fun t =>
            (daemon.addTenant files disk cfg t).1.proceed cfg added removed
      | _ => none
  | .remove disk inTime =>
      match daemon.signal with
      | .applying cfg [] (name :: removed) =>
          some (daemon.removeTenant disk inTime name cfg removed)
      | _ => none
  | .drained inTime =>
      match daemon.signal with
      | .draining removal name channel cfg removed =>
          if channel ∈ daemon.finished then
            some (daemon.resumeRemoval inTime name cfg removed removal)
          else none
      | _ => none
  | .sigusr1 disk key =>
      if daemon.signal = .idle then some (daemon.reloadTrigger disk key) else none
  | .sigterm => if daemon.signal = .idle then some daemon.terminate else none
  | .joined =>
      if daemon.main = .joining ∧ ∀ task ∈ daemon.awaited,
        daemon.running.get? task = none then
        some daemon.joinAll
      else none
  | .mainDrained =>
      match daemon.main with
      | .draining (channel :: rest) =>
          if channel ∈ daemon.finished then some (daemon.drainNext rest) else none
      | _ => none
  | .bind task granted => daemon.bindTask task granted
  | .exit task => daemon.exitTask task
  | .accept task => daemon.acceptConnection task
  | .dispatch listen channel => daemon.dispatchSession listen channel
  | .handshakeFails listen =>
      if listen ∈ daemon.handshakes then
        some { daemon with handshakes := daemon.handshakes.erase listen }
      else none
  | .sessionEnds channel =>
      if channel ∈ daemon.sessions then
        some { daemon with sessions := daemon.sessions.erase channel }
      else none
  | .writerReturns channel =>
      if channel < daemon.nextRuntime ∧ daemon.holdsHandle channel = false ∧
          channel ∉ daemon.sessions ∧ channel ∉ daemon.finished then
        some { daemon with finished := channel :: daemon.finished }
      else none

/-- Nothing runs after `cmd_run` has returned. -/
def step (daemon : Daemon) (label : DaemonLabel) : Option Daemon :=
  if daemon.main = .returned then none else daemon.move label

end Daemon

/-- The daemon as a machine, started on any configuration and any files. -/
def daemonMachine : Machine where
  State := Daemon
  Label := DaemonLabel
  Initial daemon := ∃ files disk cfg, startDaemon files disk cfg = .ok daemon
  step := Daemon.step

namespace Daemon

/-- Everything a spawn can do. -/
inductive Spawned (disk : Disk) (cfg : Config) (t : TenantConfig) (runtime : TenantRuntime)
    (before : Daemon) : Daemon → Bool → Prop where
  /-- Nothing serves the tenant, and nothing changed. -/
  | unserved : Spawned disk cfg t runtime before before false
  /-- The tenant does not resolve; what stood under its name goes. -/
  | unresolved {rejected triggers} (refused : cfg.resolveOneServeTcp t = .error rejected)
      (others : ∀ key, key ≠ runtime.name →
        triggers.get? key = before.shared.reloadTriggers.get? key)
      (own : triggers.get? runtime.name = none) :
      Spawned disk cfg t runtime before
        { before with shared := { before.shared with reloadTriggers := triggers } } false
  /-- The certificate set of a running group refused the tenant. -/
  | rolledBack {sni tls hot trigger kept message} (hostname : t.sni = some sni)
      (secure : t.tls = some tls)
      (group : before.shared.sniDispatches.get? t.listen = some hot)
      (found : before.shared.reloadTriggers.get? (groupKey t.listen) = some trigger)
      (refused : trigger.addSniEntry disk runtime.name sni tls = (kept, .error message)) :
      Spawned disk cfg t runtime before (before.insertTrigger (groupKey t.listen) kept) false
  /-- An accept loop without TLS. -/
  | plain (own : t.sni = none ∨ cfg.role = .servePq) (bare : t.tls = none ∨
      cfg.role = .servePq) :
      Spawned disk cfg t runtime before (before.spawnTenant runtime t.listen) true
  /-- An accept loop with TLS of its own. -/
  | secured {tls trigger} (own : t.sni = none) (secure : t.tls = some tls)
      (role : cfg.role = .serveTcp)
      (built : buildReloadableAcceptor disk tls runtime.name = .ok trigger) :
      Spawned disk cfg t runtime before
        ((before.insertTrigger runtime.name trigger).spawnTenant runtime t.listen) true
  /-- A new group. -/
  | group {sni tls group} (hostname : t.sni = some sni) (secure : t.tls = some tls)
      (role : cfg.role = .serveTcp)
      (absent : before.shared.sniDispatches.get? t.listen = none)
      (built : newGroup disk cfg t sni tls = some group) :
      Spawned disk cfg t runtime before
        (before.installGroup t.listen group [(runtime.name, runtime.id)]) true
  /-- A member of a running group. -/
  | member {sni tls hot resolved table trigger next previous} (hostname : t.sni = some sni)
      (secure : t.tls = some tls) (role : cfg.role = .serveTcp)
      (group : before.shared.sniDispatches.get? t.listen = some hot)
      (resolution : cfg.resolveOneServeTcp t = .ok resolved)
      (added : hot.table.withTenantAdded { tenant := resolved } = .ok table)
      (found : before.shared.reloadTriggers.get? (groupKey t.listen) = some trigger)
      (mutated : trigger.addSniEntry disk runtime.name sni tls = (next, .ok previous)) :
      Spawned disk cfg t runtime before
        { before with shared := { before.shared with
            reloadTriggers := before.shared.reloadTriggers.insert (groupKey t.listen) next
            sniDispatches := before.shared.sniDispatches.insert t.listen
              { table
                audits := hot.audits ++ [(runtime.name, runtime.id)]
                presented := next.sends hot.presented } } } true

/-- An added tenant without `sni` gets an accept loop or none. -/
theorem addSingle_spawned (before : Daemon) (disk : Disk) {cfg : Config} {t : TenantConfig}
    (own : t.sni = none) (role : cfg.role = .serveTcp) (runtime : TenantRuntime) :
    Spawned disk cfg t runtime before (before.addSingle disk cfg t runtime).1
      (before.addSingle disk cfg t runtime).2 := by
  have erased : ∀ triggers : KeyedMap String ReloadTrigger,
      (triggers.erase runtime.name).get? runtime.name = none := by
    intro triggers
    simp [KeyedMap.get?_erase]
  simp only [addSingle]
  cases secure : t.tls with
  | none =>
      dsimp only
      cases resolution : cfg.resolveOneServeTcp t with
      | ok resolved =>
          dsimp only
          rw [(Config.resolveOneServeTcp_spec resolution).2.1]
          exact .plain (.inl own) (.inl secure)
      | error rejected =>
          refine .unresolved resolution ?_ (erased _)
          intro key other
          simp [KeyedMap.get?_erase, other]
  | some tls =>
      dsimp only
      cases built : buildReloadableAcceptor disk tls runtime.name with
      | error message => exact .unserved
      | ok trigger =>
          dsimp only
          cases resolution : cfg.resolveOneServeTcp t with
          | ok resolved =>
              dsimp only
              rw [(Config.resolveOneServeTcp_spec resolution).2.1]
              exact .secured own secure role built
          | error rejected =>
              refine .unresolved resolution ?_ (erased _)
              intro key other
              simp [insertTrigger, KeyedMap.get?_erase, KeyedMap.get?_insert, other]

/-- An added tenant joins a running group or not. -/
theorem addMember_spawned (before : Daemon) (disk : Disk) {cfg : Config} {t : TenantConfig}
    {sni : String} {tls : TlsConfig} {hot : HotSniDispatchTable} (role : cfg.role = .serveTcp)
    (hostname : t.sni = some sni) (secure : t.tls = some tls) (runtime : TenantRuntime)
    (group : before.shared.sniDispatches.get? t.listen = some hot) :
    Spawned disk cfg t runtime before (before.addMember disk cfg t runtime sni tls hot).1
      (before.addMember disk cfg t runtime sni tls hot).2 := by
  simp only [addMember]
  split
  · exact .unserved
  · rename_i kept ended
    obtain ⟨trigger, message, found, refused⟩ := joinGroup_rolledBack ended
    exact .rolledBack hostname secure group found refused
  · rename_i next table ended
    obtain ⟨resolved, trigger, previous, resolution, added, found, mutated⟩ :=
      joinGroup_replaced.mp ended
    exact .member hostname secure role group resolution added found mutated

/-- The spawn of an added tenant is one of these. -/
theorem spawnAdded_spawned (before : Daemon) (disk : Disk) (cfg : Config) (t : TenantConfig)
    (runtime : TenantRuntime) :
    Spawned disk cfg t runtime before (before.spawnAdded disk cfg t runtime).1
      (before.spawnAdded disk cfg t runtime).2 := by
  simp only [spawnAdded]
  split
  · rename_i placed
    have role := placement_servePq.mp placed
    split
    · rename_i resolved resolution
      rw [Config.resolveOneServePq_listen resolution]
      exact .plain (.inr role) (.inr role)
    · exact .unserved
  · rename_i placed
    obtain ⟨role, own⟩ := placement_single.mp placed
    exact before.addSingle_spawned disk own role runtime
  · exact .unserved
  · rename_i sni tls placed
    obtain ⟨role, hostname, secure, absent⟩ := placement_newGroup.mp placed
    simp only [addGroup]
    split
    · exact .unserved
    · rename_i group built
      exact .group hostname secure role absent built
  · rename_i sni tls hot placed
    obtain ⟨role, hostname, secure, group⟩ := placement_member.mp placed
    exact before.addMember_spawned disk role hostname secure runtime group

/-- Everything a removal can do before the signal task waits or goes on. -/
inductive Removing (disk : Disk) (inTime : Bool) (name : String) (cfg : DaemonConfig)
    (removed : List String) (before : Daemon) : Daemon → Prop where
  /-- No `Notify` is registered for the tenant, or it is gone from its table. -/
  | skipped : Removing disk inTime name cfg removed before (before.proceed cfg [] removed)
  /-- The tenant's accept loop cannot be awaited. -/
  | unhandled {notify} (own : before.shared.sniTarget name = none)
      (found : before.shared.tenantShutdowns.get? name = some notify) :
      Removing disk inTime name cfg removed before
        ((before.takeTask name notify).proceed cfg [] removed)
  /-- The accept loop did not return in time. -/
  | timedOut {notify task} (own : before.shared.sniTarget name = none)
      (found : before.shared.tenantShutdowns.get? name = some notify)
      (handle : before.shared.tenantTasks.get? name = some task) (late : inTime = false) :
      Removing disk inTime name cfg removed before
        ((before.takeTask name notify).removeFailed.proceed cfg [] removed)
  /-- The accept loop returned; its channel drains next. -/
  | single {notify task channel} (own : before.shared.sniTarget name = none)
      (found : before.shared.tenantShutdowns.get? name = some notify)
      (handle : before.shared.tenantTasks.get? name = some task) (early : inTime = true)
      (audit : before.shared.tenantAudits.get? name = some channel) :
      Removing disk inTime name cfg removed before
        (((before.takeTask name notify).purgeSingle name task).await .single
          name channel cfg removed)
  /-- The group has no trigger under its key. -/
  | untriggered {listen hot} (member : before.shared.sniTarget name = some (listen, hot))
      (missing : before.shared.reloadTriggers.get? (groupKey listen) = none) :
      Removing disk inTime name cfg removed before (before.removeFailed.proceed cfg [] removed)
  /-- The certificate set did not let the tenant go. -/
  | rolledBack {listen hot trigger kept message}
      (member : before.shared.sniTarget name = some (listen, hot))
      (found : before.shared.reloadTriggers.get? (groupKey listen) = some trigger)
      (refused : trigger.removeSniEntry disk name = (kept, .error message)) :
      Removing disk inTime name cfg removed before
        ((before.insertTrigger (groupKey listen) kept).removeFailed.proceed cfg [] removed)
  /-- The tenant left its group; its channel drains next. -/
  | sni {listen hot table trigger next previous channel}
      (member : before.shared.sniTarget name = some (listen, hot))
      (left : hot.table.withTenantRemoved name = some table)
      (found : before.shared.reloadTriggers.get? (groupKey listen) = some trigger)
      (mutated : trigger.removeSniEntry disk name = (next, .ok previous))
      (audit : before.shared.tenantAudits.get? name = some channel) :
      Removing disk inTime name cfg removed before
        ((before.purgeSni name listen hot table next).await (.sni listen hot)
          name channel cfg removed)
  /-- A tenant without an audit channel is not waited for. -/
  | unaudited {after} (audit : before.shared.tenantAudits.get? name = none) :
      Removing disk inTime name cfg removed before after

/-- Every removal is one of these. -/
theorem removeTenant_removing (before : Daemon) (disk : Disk) (inTime : Bool) (name : String)
    (cfg : DaemonConfig) (removed : List String) :
    Removing disk inTime name cfg removed before
      (before.removeTenant disk inTime name cfg removed) := by
  cases audit : before.shared.tenantAudits.get? name with
  | none => exact .unaudited audit
  | some channel =>
      simp only [removeTenant]
      split
      · rename_i listen hot member
        simp only [removeSni]
        split
        · exact .skipped
        · rename_i ended
          obtain ⟨table, left, ended⟩ := Option.map_eq_some_iff.mp ended
          exact .untriggered member (changeGroup_refused.mp ended)
        · rename_i kept ended
          obtain ⟨table, left, ended⟩ := Option.map_eq_some_iff.mp ended
          obtain ⟨trigger, message, found, refused⟩ := changeGroup_rolledBack.mp ended
          exact .rolledBack member found refused
        · rename_i next table ended
          obtain ⟨_, left, ended⟩ := Option.map_eq_some_iff.mp ended
          obtain ⟨rfl, trigger, previous, found, mutated⟩ := changeGroup_replaced.mp ended
          have drains : Removing disk inTime name cfg removed before _ :=
            .sni member left found mutated audit
          simpa only [enterDrain, purgeSni, audit] using drains
      · rename_i own
        simp only [removeSingle]
        split
        · exact .skipped
        · rename_i notify found
          split
          · exact .unhandled own found
          · rename_i task handle
            split
            · rename_i early
              have drains : Removing disk inTime name cfg removed before _ :=
                .single own found handle early audit
              simpa only [enterDrain, takeTask, purgeSingle, audit] using drains
            · rename_i late
              exact .timedOut own found handle (by simpa using late)

/-- What the accept loops, the sessions and the writers can do between the steps of
the signal task and the main task. -/
structure Background (before after : Daemon) : Prop where
  shared : after.shared = before.shared
  tenantState : after.tenantState = before.tenantState
  signal : after.signal = before.signal
  main : after.main = before.main
  closing : after.closing = before.closing
  nextRuntime : after.nextRuntime = before.nextRuntime
  running : ∀ id task, after.running.get? id = some task →
    ∃ old, before.running.get? id = some old ∧ task.audit = old.audit
  sessions : ∀ channel ∈ after.sessions,
    channel ∈ before.sessions ∨ before.holdsHandle channel = true
  finished : after.finished = before.finished ∨ ∃ channel, channel < before.nextRuntime ∧
    before.holdsHandle channel = false ∧ channel ∉ before.sessions ∧
    after.sessions = before.sessions ∧ after.finished = channel :: before.finished

/-- Everything one step can do. -/
inductive Moved (before : Daemon) : DaemonLabel → Daemon → Prop where
  /-- The file does not load. -/
  | rejected {file added removed} (idle : before.signal = .idle) :
      Moved before (.sighup file added removed) before.countSighupFailed
  | cycle {cfg added removed} (idle : before.signal = .idle)
      (valid : cfg.config.validate = .ok ()) (adds : added.Perm (before.addedNames cfg.config))
      (removes : removed.Perm (before.removedNames cfg.config)) :
      Moved before (.sighup (some cfg) added removed)
        ({ before with
            shared := before.shared.countCycle.applyLimits cfg.config }.proceed cfg added removed)
  | unbuilt {files disk cfg name added removed t message}
      (applying : before.signal = .applying cfg (name :: added) removed)
      (declared : cfg.config.tenants.find? (fun t => t.name = name) = some t)
      (failed : buildTenantRuntime files cfg.config t before.nextRuntime = .error message) :
      Moved before (.add files disk) (before.countAddFailed.proceed cfg added removed)
  | added {files disk cfg name added removed t runtime spawned serving}
      (applying : before.signal = .applying cfg (name :: added) removed)
      (declared : cfg.config.tenants.find? (fun t => t.name = name) = some t)
      (built : buildTenantRuntime files cfg.config t before.nextRuntime = .ok runtime)
      (outcome : (before.addTenant files disk cfg t).2 = serving)
      (spawn : Spawned disk cfg.config t runtime (before.enroll cfg t runtime) spawned serving) :
      Moved before (.add files disk) (spawned.countAdded.proceed cfg added removed)
  | removed {disk inTime cfg name removed after}
      (applying : before.signal = .applying cfg [] (name :: removed))
      (removing : Removing disk inTime name cfg removed before after) :
      Moved before (.remove disk inTime) after
  | resumedSingle {inTime name channel cfg removed}
      (draining : before.signal = .draining .single name channel cfg removed)
      (drained : channel ∈ before.finished) :
      Moved before (.drained inTime) (before.finishSingle name cfg removed)
  | resumedSni {inTime listen old name channel cfg removed after}
      (draining : before.signal = .draining (.sni listen old) name channel cfg removed)
      (drained : channel ∈ before.finished) :
      Moved before (.drained inTime) after
  | reloaded {disk key} (idle : before.signal = .idle) :
      Moved before (.sigusr1 disk key) (before.reloadTrigger disk key)
  | terminated (idle : before.signal = .idle) : Moved before .sigterm before.terminate
  | joined (joining : before.main = .joining)
      (returned : ∀ task ∈ before.awaited, before.running.get? task = none) :
      Moved before .joined before.joinAll
  | mainDrained {channel rest} (draining : before.main = .draining (channel :: rest))
      (drained : channel ∈ before.finished) :
      Moved before .mainDrained (before.drainNext rest)
  | background {label after} (moved : Background before after) : Moved before label after

/-- A running accept loop with a channel holds a handle of it. -/
theorem holdsHandle_of_running {daemon : Daemon} {id : TaskId} {task : AcceptTask}
    {channel : RuntimeId} (found : daemon.running.get? id = some task)
    (audit : task.audit = some channel) : daemon.holdsHandle channel = true := by
  have member : task ∈ daemon.running.values := KeyedMap.mem_values_iff.mpr ⟨id, found⟩
  simp only [holdsHandle, Bool.or_eq_true]
  exact .inl (.inl (.inr (List.any_eq_true.mpr ⟨task, member, by simp [audit]⟩)))

/-- An installed dispatch table holds the handles of its contexts. -/
theorem holdsHandle_of_installed {daemon : Daemon} {listen : String} {hot : HotSniDispatchTable}
    {name : String} {channel : RuntimeId}
    (installed : daemon.shared.sniDispatches.get? listen = some hot)
    (handle : (name, channel) ∈ hot.audits) : daemon.holdsHandle channel = true := by
  have member : hot ∈ daemon.shared.sniDispatches.values :=
    KeyedMap.mem_values_iff.mpr ⟨listen, installed⟩
  simp only [holdsHandle, Bool.or_eq_true]
  exact .inl (.inr (List.any_eq_true.mpr
    ⟨hot, member, List.any_eq_true.mpr ⟨(name, channel), handle, by simp⟩⟩))

/-- The moves of the background tasks. -/
theorem bindTask_background {before after : Daemon} {id : TaskId} {granted : Bool}
    (moved : before.bindTask id granted = some after) : Background before after := by
  simp only [bindTask] at moved
  split at moved
  · rename_i task found
    split at moved
    · cases moved
    · split at moved
      · cases moved
        refine ⟨rfl, rfl, rfl, rfl, rfl, rfl, ?_, fun _ member => .inl member, .inl rfl⟩
        intro other now stored
        rw [KeyedMap.get?_insert] at stored
        split at stored
        · rename_i same
          cases stored
          exact ⟨task, same ▸ found, rfl⟩
        · exact ⟨now, stored, rfl⟩
      · cases moved
        refine ⟨rfl, rfl, rfl, rfl, rfl, rfl, ?_, fun _ member => .inl member, .inl rfl⟩
        intro other now stored
        rw [KeyedMap.get?_erase] at stored
        split at stored
        · cases stored
        · exact ⟨now, stored, rfl⟩
  · cases moved

theorem exitTask_background {before after : Daemon} {id : TaskId}
    (moved : before.exitTask id = some after) : Background before after := by
  simp only [exitTask] at moved
  split at moved
  · split at moved
    · cases moved
      refine ⟨rfl, rfl, rfl, rfl, rfl, rfl, ?_, fun _ member => .inl member, .inl rfl⟩
      intro other now stored
      rw [KeyedMap.get?_erase] at stored
      split at stored
      · cases stored
      · exact ⟨now, stored, rfl⟩
    · cases moved
  · cases moved

theorem acceptConnection_background {before after : Daemon} {id : TaskId}
    (moved : before.acceptConnection id = some after) : Background before after := by
  simp only [acceptConnection] at moved
  split at moved
  · rename_i task found
    split at moved
    · split at moved
      · rename_i channel audit
        cases moved
        refine ⟨rfl, rfl, rfl, rfl, rfl, rfl, fun _ task stored => ⟨task, stored, rfl⟩, ?_,
          .inl rfl⟩
        intro other member
        rcases List.mem_cons.mp member with rfl | member
        · exact .inr (holdsHandle_of_running found audit)
        · exact .inl member
      · cases moved
        exact ⟨rfl, rfl, rfl, rfl, rfl, rfl, fun _ task stored => ⟨task, stored, rfl⟩,
          fun _ member => .inl member, .inl rfl⟩
    · cases moved
  · cases moved

theorem dispatchSession_background {before after : Daemon} {listen : String} {channel : RuntimeId}
    (moved : before.dispatchSession listen channel = some after) : Background before after := by
  simp only [dispatchSession] at moved
  split at moved
  · rename_i hot installed
    split at moved
    · rename_i guard
      cases moved
      obtain ⟨⟨name, found⟩, handle, rfl⟩ := List.mem_map.mp guard.2
      refine ⟨rfl, rfl, rfl, rfl, rfl, rfl, fun _ task stored => ⟨task, stored, rfl⟩, ?_,
        .inl rfl⟩
      intro other member
      rcases List.mem_cons.mp member with rfl | member
      · exact .inr (holdsHandle_of_installed installed handle)
      · exact .inl member
    · cases moved
  · cases moved

/-- Every step is one of these. -/
theorem step_moved {before after : Daemon} {label : DaemonLabel}
    (stepped : before.step label = some after) : before.main ≠ .returned ∧
    Moved before label after := by
  simp only [step] at stepped
  split at stepped
  · cases stepped
  · rename_i alive
    refine ⟨alive, ?_⟩
    cases label with
    | sighup file added removed =>
        simp only [move] at stepped
        split at stepped
        · rename_i idle
          simp only [beginCycle] at stepped
          split at stepped
          · cases stepped
            exact .rejected idle
          · rename_i cfg accepted
            obtain ⟨loaded, valid⟩ := Option.filter_eq_some_iff.mp accepted
            split at stepped
            · rename_i orders
              cases stepped
              cases loaded
              exact .cycle idle (by simpa using valid) orders.1 orders.2
            · cases stepped
        · cases stepped
    | add files disk =>
        simp only [move] at stepped
        split at stepped
        · rename_i cfg name added removed applying
          obtain ⟨t, declared, rfl⟩ := Option.map_eq_some_iff.mp stepped
          cases built : buildTenantRuntime files cfg.config t before.nextRuntime with
          | error message =>
              have failed : Moved before (.add files disk) _ := .unbuilt applying declared built
              simpa only [addTenant, built] using failed
          | ok runtime =>
              have added := Moved.added applying declared built rfl
                (by simpa only [addTenant, built] using
                  (before.enroll cfg t runtime).spawnAdded_spawned disk cfg.config t runtime)
              simpa only [addTenant, built] using added
        · cases stepped
    | remove disk inTime =>
        simp only [move] at stepped
        split at stepped
        · rename_i cfg name removed applying
          cases stepped
          exact .removed applying (before.removeTenant_removing disk inTime name cfg removed)
        · cases stepped
    | drained inTime =>
        simp only [move] at stepped
        split at stepped
        · rename_i removal name channel cfg removed draining
          split at stepped
          · rename_i drained
            cases stepped
            cases removal with
            | single => exact .resumedSingle draining drained
            | sni listen old => exact .resumedSni draining drained
          · cases stepped
        · cases stepped
    | sigusr1 disk key =>
        simp only [move] at stepped
        split at stepped
        · rename_i idle
          cases stepped
          exact .reloaded idle
        · cases stepped
    | sigterm =>
        simp only [move] at stepped
        split at stepped
        · rename_i idle
          cases stepped
          exact .terminated idle
        · cases stepped
    | joined =>
        simp only [move] at stepped
        split at stepped
        · rename_i guard
          cases stepped
          exact .joined guard.1 guard.2
        · cases stepped
    | mainDrained =>
        simp only [move] at stepped
        split at stepped
        · rename_i channel rest draining
          split at stepped
          · rename_i drained
            cases stepped
            exact .mainDrained draining drained
          · cases stepped
        · cases stepped
    | bind task granted => exact .background (bindTask_background stepped)
    | exit task => exact .background (exitTask_background stepped)
    | accept task => exact .background (acceptConnection_background stepped)
    | dispatch listen channel => exact .background (dispatchSession_background stepped)
    | handshakeFails listen =>
        simp only [move] at stepped
        split at stepped
        · cases stepped
          exact .background ⟨rfl, rfl, rfl, rfl, rfl, rfl, fun _ task stored =>
            ⟨task, stored, rfl⟩, fun _ member => .inl member, .inl rfl⟩
        · cases stepped
    | sessionEnds channel =>
        simp only [move] at stepped
        split at stepped
        · cases stepped
          exact .background ⟨rfl, rfl, rfl, rfl, rfl, rfl, fun _ task stored =>
            ⟨task, stored, rfl⟩, fun _ member => .inl (List.mem_of_mem_erase member),
            .inl rfl⟩
        · cases stepped
    | writerReturns channel =>
        simp only [move] at stepped
        split at stepped
        · rename_i guard
          cases stepped
          exact .background ⟨rfl, rfl, rfl, rfl, rfl, rfl, fun _ task stored =>
            ⟨task, stored, rfl⟩, fun _ member => .inl member,
            .inr ⟨channel, guard.1, guard.2.1, guard.2.2.1, rfl, rfl⟩⟩
        · cases stepped

end Daemon
end CofreSoberano.Gateway
