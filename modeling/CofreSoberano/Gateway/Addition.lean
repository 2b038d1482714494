import CofreSoberano.Gateway.Registry

/-!
# Failed additions

SIGHUP ADD registers a built runtime in nine maps and counts it before it tries to
spawn an accept loop or to enter a dispatch table. The spawn has its own failure
exits, and none of them undoes the registration. Only a runtime that cannot be
built leaves the maps alone.
-/

namespace CofreSoberano.Gateway

open CofreSoberano.Std

/-- An attempt to add a tenant that left nothing behind: the maps are the same, the
name is in none of those of the registration, the tenant is not counted as added,
and the same file adds it again. -/
structure LeavesNoTrace (cfg : Config) (name : String) (before after : Daemon) : Prop where
  maps : { after.shared with daemonMetrics := before.shared.daemonMetrics } = before.shared
  unnamed : name ∉ after.shared.tenantNames
  unlisted : name ∉ after.shared.tenantConfigs.map TenantConfig.name
  unmetered : name ∉ after.shared.metricsList
  unmapped : name ∉ after.shared.tenantAdmissions.keys ∧
    name ∉ after.shared.tenantShutdowns.keys ∧
    name ∉ after.shared.tenantAudits.keys ∧ name ∉ after.shared.rotationTargets.keys ∧
    name ∉ after.shared.monitorHandles.keys
  uncounted : after.shared.daemonMetrics.tenantsAddedTotal =
    before.shared.daemonMetrics.tenantsAddedTotal
  retried : name ∈ after.addedNames cfg

/-- The tenant of a name is the declared one. -/
theorem find?_declared {cfg : Config} (valid : cfg.validate = .ok ()) {t : TenantConfig}
    (declared : t ∈ cfg.tenants) : cfg.tenants.find? (fun u => u.name = t.name) = some t := by
  cases found : cfg.tenants.find? (fun u => u.name = t.name) with
  | none =>
      have missing := List.find?_eq_none.mp found t declared
      simp at missing
  | some u =>
      have same : u.name = t.name := Daemon.declared_name found
      rw [List.inj_on_of_nodup_map (Config.validate_names_nodup valid)
        (List.mem_of_find?_eq_some found) declared same]

/-- A name that is being added is in none of the maps of the registration. -/
theorem Daemon.Sound.absent {daemon : Daemon} (sound : daemon.Sound) {cfg : DaemonConfig}
    {name : String} {added removed : List String}
    (applying : daemon.signal = .applying cfg (name :: added) removed) :
    name ∉ daemon.shared.tenantNames ∧
      name ∉ daemon.shared.tenantConfigs.map TenantConfig.name ∧
      name ∉ daemon.shared.metricsList ∧ name ∉ daemon.shared.tenantAdmissions.keys ∧
      name ∉ daemon.shared.tenantShutdowns.keys ∧ name ∉ daemon.shared.tenantAudits.keys ∧
      name ∉ daemon.shared.rotationTargets.keys ∧
      name ∉ daemon.shared.monitorHandles.keys := by
  have keyed : daemon.shared.Keyed none := by
    simpa [applying, SignalTask.leaving] using sound.keyed
  have new : name ∉ daemon.shared.tenantNames :=
    sound.adding.2 name (by simp [applying, SignalTask.added])
  refine ⟨new, ?_, ?_, ?_, ?_, ?_, ?_, ?_⟩
  · simpa [keyed.configs] using new
  · simpa [keyed.metrics] using new
  · rwa [keyed.admissions]
  · intro member
    exact new (by simpa using keyed.shutdowns name member)
  · rwa [keyed.audits]
  · simpa [keyed.targets] using new
  · intro member
    exact new (by simpa using keyed.monitors name member)

/-- A built runtime is registered, whatever the spawn does. -/
theorem addTenant_registers {before : Daemon} {files : TenantFiles} (disk : Disk)
    {cfg : DaemonConfig} {t : TenantConfig} {runtime : TenantRuntime}
    (built : buildTenantRuntime files cfg.config t before.nextRuntime = .ok runtime) :
    t.name ∈ (before.addTenant files disk cfg t).1.shared.tenantNames := by
  have named : runtime.name = t.name := by rw [buildTenantRuntime_spec built]
  have spawn := (before.enroll cfg t runtime).spawnAdded_spawned disk cfg.config t runtime
  simp only [Daemon.addTenant, built, Daemon.countAdded]
  rw [spawn.same.1]
  simp [Daemon.enroll, Shared.register, named]

/-- In every reachable state, an addition leaves no trace exactly when the runtime
could not be built; in particular one that ends without an accept loop or a
dispatch entry for any other reason leaves one. -/
theorem failedAdd_leavesNoTrace_iff {before after : Daemon} {files : TenantFiles} {disk : Disk}
    {cfg : DaemonConfig} {t : TenantConfig} {added removed : List String}
    (reachable : daemonMachine.Reachable daemonMachine.Free before)
    (applying : before.signal = .applying cfg (t.name :: added) removed)
    (declared : t ∈ cfg.config.tenants)
    (stepped : daemonMachine.step before (.add files disk) = some after) :
    LeavesNoTrace cfg.config t.name before after ↔
      (buildTenantRuntime files cfg.config t before.nextRuntime).isOk = false := by
  have sound := Daemon.Sound.of_reachable reachable
  have valid : cfg.config.validate = .ok () :=
    sound.valid cfg (by simp [applying, SignalTask.config])
  have found := find?_declared valid declared
  have result : after = (before.addTenant files disk cfg t).1.proceed cfg added removed := by
    have alive := (Daemon.step_moved stepped).1
    simp only [daemonMachine, Daemon.step, if_neg alive, Daemon.move, applying, found,
      Option.map_some, Option.some.injEq] at stepped
    exact stepped.symm
  constructor
  · intro traceless
    cases built : buildTenantRuntime files cfg.config t before.nextRuntime with
    | error message => rfl
    | ok runtime =>
        have registered := addTenant_registers disk built
        exact absurd (result ▸ registered) traceless.unnamed
  · intro failed
    cases built : buildTenantRuntime files cfg.config t before.nextRuntime with
    | ok runtime => simp [built, Except.isOk, Except.toBool] at failed
    | error message =>
        obtain ⟨unnamed, unlisted, unmetered, unadmitted, unstopped, unaudited, untargeted,
          unmonitored⟩ := sound.absent applying
        have same : after = before.countAddFailed.proceed cfg added removed := by
          simpa only [Daemon.addTenant, built] using result
        subst same
        refine ⟨rfl, unnamed, unlisted, unmetered,
          ⟨unadmitted, unstopped, unaudited, untargeted, unmonitored⟩, rfl, ?_⟩
        exact List.mem_filter.mpr ⟨List.mem_map.mpr ⟨t, declared, rfl⟩,
          decide_eq_true unnamed⟩

/-- A serve-tcp tenant with an accept loop of its own. -/
def loopTenant (name listen : String) (tls : Option TlsConfig) : TenantConfig where
  name := name
  listen := listen
  peerPq := some "peer:9000"
  backend := none
  peerPubDir := "peers"
  auditLog := s!"{name}.qa"
  tls := tls
  sni := none
  auditSigner := some (.softkey "audit.sk" "audit.pk")
  limits := none

/-- A configuration file of the given serve-tcp tenants, without `[rotation]`. -/
def tcpFile (tenants : List TenantConfig) : DaemonConfig where
  config := sniConfig tenants
  rotation := none

/-- Files from which every runtime is built. -/
def readableFiles : TenantFiles where
  peerPolicy _ := .ok ["peer.cspqid.pub"]
  loadAuditKey _ _ := .ok ()
  buildAuditLogSoftkey _ _ := .ok ()
  buildAuditLogPkcs11 _ _ _ := .ok ()

/-- Files without the peer directories. -/
def missingPeers : TenantFiles :=
  { readableFiles with peerPolicy := fun _ => .error "No such file or directory" }

/-- A disk without certificates. -/
def missingCerts : Disk :=
  { loadingDisk with loadCertChain := fun _ => .error "No such file or directory" }

/-- The daemon after a startup with readable files and some steps. -/
def daemonAfter (cfg : DaemonConfig) (labels : List DaemonLabel) : Option Daemon :=
  (startDaemon readableFiles loadingDisk cfg).toOption.bind fun started =>
    daemonMachine.exec started labels

/-- The run behind `daemonAfter`. -/
theorem reachable_daemonAfter {cfg : DaemonConfig} {labels : List DaemonLabel} {daemon : Daemon}
    (executed : daemonAfter cfg labels = some daemon) :
    daemonMachine.Reachable daemonMachine.Free daemon := by
  obtain ⟨started, initial, executed⟩ := Option.bind_eq_some_iff.mp executed
  exact .of_exec ⟨_, _, _, eq_ok_of_toOption initial⟩ executed

/-- The daemon after a startup with readable files and some steps that a check
admits. -/
def daemonChecked (check : Daemon → DaemonLabel → Bool) (cfg : DaemonConfig)
    (labels : List DaemonLabel) : Option Daemon :=
  (startDaemon readableFiles loadingDisk cfg).toOption.bind fun started =>
    daemonMachine.execChecked check started labels

/-- The run behind `daemonChecked`. -/
theorem reachable_daemonChecked {check : Daemon → DaemonLabel → Bool} {cfg : DaemonConfig}
    {labels : List DaemonLabel} {daemon : Daemon}
    (executed : daemonChecked check cfg labels = some daemon) :
    daemonMachine.Reachable (fun daemon label => check daemon label = true) daemon := by
  obtain ⟨started, initial, executed⟩ := Option.bind_eq_some_iff.mp executed
  exact ⟨started, labels, ⟨_, _, _, eq_ok_of_toOption initial⟩, .of_execChecked executed⟩

/-- A tenant with TLS of its own. -/
def betaTenant : TenantConfig :=
  loopTenant "beta" "0.0.0.0:9002" (some { cert := "beta.pem", key := "beta.key" })

/-- A file of one plain tenant, and the same with a second one. -/
def alphaFile : DaemonConfig := tcpFile [loopTenant "alpha" "0.0.0.0:9001" none]

def alphaBetaFile : DaemonConfig := tcpFile [loopTenant "alpha" "0.0.0.0:9001" none, betaTenant]

/-- A tenant without peer keys is not registered. -/
theorem failedAdd_leavesNoTrace_unreadable : ∃ before after : Daemon,
    daemonMachine.step before (.add missingPeers loadingDisk) = some after ∧
      (LeavesNoTrace alphaBetaFile.config "beta" before after ↔
        (buildTenantRuntime missingPeers alphaBetaFile.config betaTenant
          before.nextRuntime).isOk = false) ∧
      (buildTenantRuntime missingPeers alphaBetaFile.config betaTenant
        before.nextRuntime).isOk = false := by
  have evaluated : (daemonAfter alphaFile [.sighup (some alphaBetaFile) ["beta"] []]).any
      (fun before => before.signal = .applying alphaBetaFile ["beta"] [] ∧
        (daemonMachine.step before (.add missingPeers loadingDisk)).isSome = true ∧
        (buildTenantRuntime missingPeers alphaBetaFile.config betaTenant
          before.nextRuntime).isOk = false) = true := by decide +kernel
  obtain ⟨before, executed, facts⟩ := (Option.any_eq_true _ _).mp evaluated
  obtain ⟨applying, moves, unbuilt⟩ := of_decide_eq_true facts
  obtain ⟨after, stepped⟩ := Option.isSome_iff_exists.mp moves
  refine ⟨before, after, stepped, ?_, unbuilt⟩
  exact failedAdd_leavesNoTrace_iff (t := betaTenant) (reachable_daemonAfter executed) applying
    (by simp [alphaBetaFile, tcpFile, sniConfig]) stepped

/-- A tenant whose certificate does not load is registered and counted. -/
theorem failedAdd_leaves_trace :
    ¬ ∀ (before after : Daemon) (files : TenantFiles) (disk : Disk) (cfg : DaemonConfig)
      (t : TenantConfig) (added removed : List String),
      daemonMachine.Reachable daemonMachine.Free before →
      before.signal = .applying cfg (t.name :: added) removed → t ∈ cfg.config.tenants →
      daemonMachine.step before (.add files disk) = some after →
      (before.addTenant files disk cfg t).2 = false →
      LeavesNoTrace cfg.config t.name before after := by
  intro traceless
  have evaluated : (daemonAfter alphaFile [.sighup (some alphaBetaFile) ["beta"] []]).any
      (fun before => before.signal = .applying alphaBetaFile ["beta"] [] ∧
        (before.addTenant readableFiles missingCerts alphaBetaFile betaTenant).2 = false ∧
        (daemonMachine.step before (.add readableFiles missingCerts)).any fun after =>
          "beta" ∈ after.shared.tenantNames) = true := by decide +kernel
  obtain ⟨before, executed, facts⟩ := (Option.any_eq_true _ _).mp evaluated
  obtain ⟨applying, unserved, moves⟩ := of_decide_eq_true facts
  obtain ⟨after, stepped, registered⟩ := (Option.any_eq_true _ _).mp moves
  have trace := traceless before after readableFiles missingCerts alphaBetaFile betaTenant [] []
    (reachable_daemonAfter executed) applying (by simp [alphaBetaFile, tcpFile, sniConfig]) stepped
    unserved
  exact trace.unnamed (of_decide_eq_true registered)

end CofreSoberano.Gateway
