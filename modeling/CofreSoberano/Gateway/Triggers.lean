import CofreSoberano.Gateway.Startup
import CofreSoberano.Gateway.Addition

/-!
# Consistency of the registry between cycles

The keys of the tenant maps agree in every run (`Keyed`). The reload triggers share
one map between two kinds of keys, the names of TLS tenants with their own accept
loop and the synthetic keys of the groups. A removal drops the trigger under the
removed tenant's name, whichever kind of key that name is.
-/

namespace CofreSoberano.Gateway

open CofreSoberano.Std

/-- A tenant whose own accept loop terminates TLS. -/
def TenantConfig.securedAlone (t : TenantConfig) : Bool := t.tls.isSome && t.sni.isNone

/-- The maps as they should be between two cycles. -/
structure Shared.Consistent (shared : Shared) : Prop where
  distinct : shared.tenantNames.Nodup ∧ (shared.tenantConfigs.map TenantConfig.name).Nodup ∧
    shared.metricsList.Nodup ∧ shared.tenantAdmissions.keys.Nodup ∧
    shared.tenantAudits.keys.Nodup ∧ shared.rotationTargets.keys.Nodup
  configs : ∀ name, name ∈ shared.tenantConfigs.map TenantConfig.name ↔
    name ∈ shared.tenantNames
  metrics : ∀ name, name ∈ shared.metricsList ↔ name ∈ shared.tenantNames
  admissions : ∀ name, name ∈ shared.tenantAdmissions.keys ↔ name ∈ shared.tenantNames
  audits : ∀ name, name ∈ shared.tenantAudits.keys ↔ name ∈ shared.tenantNames
  targets : ∀ name, name ∈ shared.rotationTargets.keys ↔ name ∈ shared.tenantNames
  shutdowns : ∀ name ∈ shared.tenantShutdowns.keys, name ∈ shared.tenantNames
  monitors : ∀ name ∈ shared.monitorHandles.keys, name ∈ shared.tenantNames
  triggers : ∀ key, key ∈ shared.reloadTriggers.keys ↔
    (∃ t ∈ shared.tenantConfigs, t.securedAlone = true ∧ t.name = key) ∨
    ∃ listen hot, shared.sniDispatches.get? listen = some hot ∧ hot.table.tenantNames ≠ [] ∧
      groupKey listen = key

/-- An ADD ends with an accept loop or a dispatch entry. -/
def addsServe (daemon : Daemon) : DaemonLabel → Bool
  | .add files disk =>
      match daemon.signal with
      | .applying cfg (name :: _) _ =>
          (cfg.config.tenants.find? fun t => t.name = name).all fun t =>
            (daemon.addTenant files disk cfg t).2
      | _ => true
  | _ => true

/-- A REMOVE that ends an accept loop is not that of a tenant named like the key of
a running group. -/
def sparesGroupTriggers (daemon : Daemon) : DaemonLabel → Bool
  | .remove _ inTime =>
      match daemon.signal with
      | .applying _ [] (name :: _) =>
          !inTime || (daemon.shared.sniTarget name).isSome ||
            daemon.shared.sniDispatches.keys.all fun listen => name ≠ groupKey listen
      | _ => true
  | _ => true

/-- The triggers are those of the listed tenants and of the running groups. -/
structure Shared.Triggered (shared : Shared) (tenants : List TenantConfig) : Prop where
  exact : ∀ key, key ∈ shared.reloadTriggers.keys ↔
    (∃ t ∈ tenants, t.securedAlone = true ∧ t.name = key) ∨
    ∃ listen ∈ shared.sniDispatches.keys, groupKey listen = key
  populated : ∀ listen hot, shared.sniDispatches.get? listen = some hot →
    hot.table.tenantNames ≠ []

namespace Shared.Triggered

variable {shared after : Shared} {tenants : List TenantConfig}

/-- Only the keys of both maps, the members of the tables and the tenants matter. -/
theorem frame (triggered : shared.Triggered tenants)
    (triggers : ∀ key, key ∈ after.reloadTriggers.keys ↔ key ∈ shared.reloadTriggers.keys)
    (dispatches : ∀ listen, listen ∈ after.sniDispatches.keys ↔
      listen ∈ shared.sniDispatches.keys)
    (populated : ∀ listen hot, after.sniDispatches.get? listen = some hot →
      hot.table.tenantNames ≠ []) : after.Triggered tenants where
  exact := by
    intro key
    rw [triggers, triggered.exact]
    simp only [dispatches]
  populated := populated

/-- The frame for steps that leave both maps alone. -/
theorem same (triggered : shared.Triggered tenants)
    (triggers : after.reloadTriggers = shared.reloadTriggers)
    (dispatches : after.sniDispatches = shared.sniDispatches) : after.Triggered tenants := by
  refine triggered.frame (fun _ => by rw [triggers]) (fun _ => by rw [dispatches]) ?_
  rw [dispatches]
  exact triggered.populated

/-- One more tenant without a trigger of its own. -/
theorem pass (triggered : shared.Triggered tenants) {t : TenantConfig}
    (unsecured : t.securedAlone = false) : shared.Triggered (tenants ++ [t]) where
  exact := by
    intro key
    rw [triggered.exact]
    simp only [List.mem_append, List.mem_singleton]
    constructor
    · rintro (⟨u, member, secured⟩ | group)
      · exact .inl ⟨u, .inl member, secured⟩
      · exact .inr group
    · rintro (⟨u, member | rfl, secured⟩ | group)
      · exact .inl ⟨u, member, secured⟩
      · rw [unsecured] at secured
        cases secured.1
      · exact .inr group
  populated := triggered.populated

/-- One more tenant with its trigger. -/
theorem secure (triggered : shared.Triggered tenants) {t : TenantConfig} {trigger : ReloadTrigger}
    (secured : t.securedAlone = true)
    (triggers : after.reloadTriggers = shared.reloadTriggers.insert t.name trigger)
    (dispatches : after.sniDispatches = shared.sniDispatches) :
    after.Triggered (tenants ++ [t]) where
  exact := by
    intro key
    rw [triggers, KeyedMap.mem_keys_insert, triggered.exact, dispatches]
    simp only [List.mem_append, List.mem_singleton]
    constructor
    · rintro (rfl | ⟨u, member, known⟩ | group)
      · exact .inl ⟨t, .inr rfl, secured, rfl⟩
      · exact .inl ⟨u, .inl member, known⟩
      · exact .inr group
    · rintro (⟨u, member | rfl, known⟩ | group)
      · exact .inr (.inl ⟨u, member, known⟩)
      · exact .inl known.2.symm
      · exact .inr (.inr group)
  populated := dispatches ▸ triggered.populated

/-- A group that has a tenant, new or changed, with its trigger. -/
theorem install (triggered : shared.Triggered tenants) {listen : String} {hot : HotSniDispatchTable}
    {trigger : ReloadTrigger}
    (triggers : after.reloadTriggers = shared.reloadTriggers.insert (groupKey listen) trigger)
    (dispatches : after.sniDispatches = shared.sniDispatches.insert listen hot)
    (populated : hot.table.tenantNames ≠ []) : after.Triggered tenants where
  exact := by
    intro key
    rw [triggers, dispatches, KeyedMap.mem_keys_insert, triggered.exact]
    simp only [KeyedMap.mem_keys_insert]
    constructor
    · rintro (rfl | tenant | ⟨other, installed, same⟩)
      · exact .inr ⟨listen, .inl rfl, rfl⟩
      · exact .inl tenant
      · exact .inr ⟨other, .inr installed, same⟩
    · rintro (tenant | ⟨other, rfl | installed, same⟩)
      · exact .inr (.inl tenant)
      · exact .inl same.symm
      · exact .inr (.inr ⟨other, installed, same⟩)
  populated := by
    intro other found installed
    rw [dispatches, KeyedMap.get?_insert] at installed
    split at installed
    · cases installed
      exact populated
    · exact triggered.populated other found installed

/-- A tenant leaves with the trigger under its name, which is no group's. -/
theorem remove (triggered : shared.Triggered tenants) {name : String}
    (spared : ∀ listen ∈ shared.sniDispatches.keys, name ≠ groupKey listen)
    (triggers : after.reloadTriggers = shared.reloadTriggers.erase name)
    (dispatches : after.sniDispatches = shared.sniDispatches) :
    after.Triggered (tenants.filter fun t => t.name ≠ name) where
  exact := by
    intro key
    rw [triggers, dispatches, KeyedMap.mem_keys_erase, triggered.exact]
    simp only [List.mem_filter, decide_eq_true_eq]
    constructor
    · rintro ⟨⟨t, member, secured, rfl⟩ | group, other⟩
      · exact .inl ⟨t, ⟨member, other⟩, secured, rfl⟩
      · exact .inr group
    · rintro (⟨t, ⟨member, other⟩, secured, rfl⟩ | ⟨listen, installed, rfl⟩)
      · exact ⟨.inl ⟨t, member, secured, rfl⟩, other⟩
      · exact ⟨.inr ⟨listen, installed, rfl⟩, (spared listen installed).symm⟩
  populated := dispatches ▸ triggered.populated

end Shared.Triggered

/-- What a startup group is built from and what it has. -/
theorem startupGroup_spec {disk : Disk} {group : TlsListenerGroup} {built : SniGroup}
    (started : startupGroup disk group = .ok built) :
    ∃ members, group.tenants.mapM startupMember = .ok members ∧
      buildReloadableMultiSniAcceptor disk (members.map Prod.fst) s!"sni-group:{group.listen}" =
        .ok built.trigger ∧
      SniDispatchTable.new (members.map Prod.snd) = .ok built.dispatch := by
  obtain ⟨members, listed, started⟩ := bind_eq_ok.mp started
  obtain ⟨trigger, certified, started⟩ := bind_eq_ok.mp started
  obtain ⟨dispatch, dispatched, started⟩ := bind_eq_ok.mp started
  cases started
  exact ⟨members, listed, withContext_eq_ok.mp certified, withContext_eq_ok.mp dispatched⟩

/-- The member of a group is built from its hostname and its certificate files. -/
theorem startupMember_spec {t : ServeTcpTenant} {member : SniEntry × SniTenantContext}
    (converted : startupMember t = .ok member) : ∃ sni tls, t.sni = some sni ∧
    t.tls = some tls ∧
      member = ((sni, t.name, tls), { tenant := t }) := by
  simp only [startupMember] at converted
  split at converted
  · cases converted
  · rename_i sni hostname
    split at converted
    · cases converted
    · rename_i tls secure
      cases converted
      exact ⟨sni, tls, hostname, secure, rfl⟩

/-- A new group is built from one tenant. -/
theorem newGroup_spec {disk : Disk} {cfg : Config} {t : TenantConfig} {sni : String}
    {tls : TlsConfig} {group : SniGroup} (built : newGroup disk cfg t sni tls = some group) :
    ∃ resolved, cfg.resolveOneServeTcp t = .ok resolved ∧
      buildReloadableMultiSniAcceptor disk [(sni, t.name, tls)] s!"sni-group:{t.listen}" =
        .ok group.trigger ∧
      SniDispatchTable.new [{ tenant := resolved }] = .ok group.dispatch := by
  simp only [newGroup] at built
  split at built
  · cases built
  · rename_i resolved resolution
    split at built
    · cases built
    · rename_i trigger certified
      split at built
      · cases built
      · rename_i dispatch dispatched
        cases built
        exact ⟨resolved, resolution, certified, dispatched⟩

/-- A table that was built from some contexts has tenants. -/
theorem tenantNames_new_ne_nil {contexts : List SniTenantContext} {table : SniDispatchTable}
    (built : SniDispatchTable.new contexts = .ok table) (nonempty : contexts ≠ []) :
    table.tenantNames ≠ [] := by
  obtain ⟨ctx, member⟩ := List.exists_mem_of_ne_nil contexts nonempty
  have answered := (SniDispatchTable.mem_contexts_new built ctx).mpr member
  exact List.ne_nil_of_mem (List.mem_map.mpr ⟨ctx, answered, rfl⟩)

/-- Startup stores the triggers of the tenants it has launched. -/
theorem Launching.triggered {disk : Disk} {cfg : Config} {runtimes : List TenantRuntime}
    {base daemon : Daemon} {done : List TenantConfig}
    (launching : Launching disk cfg runtimes base done daemon)
    (untriggered : base.shared.reloadTriggers = .empty)
    (undispatched : base.shared.sniDispatches = .empty) :
    daemon.shared.Triggered done ∧ daemon.shared.tenantConfigs = base.shared.tenantConfigs ∧
      ∀ t ∈ done, t ∈ cfg.tenants := by
  induction launching with
  | start =>
      refine ⟨⟨?_, ?_⟩, rfl, by simp⟩
      · intro key
        simp [untriggered, undispatched]
      · intro listen hot installed
        rw [undispatched] at installed
        cases installed
  | plain prior declared new found named own bare alone inductionHypothesis =>
      obtain ⟨triggered, configs, known⟩ := inductionHypothesis
      refine ⟨(triggered.pass ?_).same rfl rfl, configs, ?_⟩
      · simp [TenantConfig.securedAlone, bare]
      · simpa [or_imp, forall_and, declared] using known
  | secured prior declared new found named own secure built alone inductionHypothesis =>
      obtain ⟨triggered, configs, known⟩ := inductionHypothesis
      refine ⟨triggered.secure (by simp [TenantConfig.securedAlone, own, secure]) rfl rfl,
        configs, ?_⟩
      simpa [or_imp, forall_and, declared] using known
  | @group done before listen tenants built audits prior several new resolved handles started
      inductionHypothesis =>
      obtain ⟨triggered, configs, known⟩ := inductionHypothesis
      obtain ⟨members, listed, _, dispatched⟩ := startupGroup_spec started
      have hostnames : ∀ t ∈ cfg.tenantsAt listen, t.securedAlone = false := by
        intro t member
        obtain ⟨tenant, tenantMember, converted⟩ := exists_mem_of_mapM_eq_ok resolved member
        obtain ⟨_, _, entered⟩ := exists_mem_of_mapM_eq_ok listed tenantMember
        obtain ⟨sni, _, hostname, _⟩ := startupMember_spec entered
        have same := (Config.resolveOneServeTcp_spec converted).2.2.1
        simp [TenantConfig.securedAlone, ← same, hostname]
      have nonempty : members.map Prod.snd ≠ [] := by
        have resolvedLength := length_of_mapM_eq_ok resolved
        have listedLength : members.length = tenants.length := length_of_mapM_eq_ok listed
        apply List.ne_nil_of_length_pos
        rw [List.length_map]
        omega
      have installed : (before.installGroup listen built audits).shared.Triggered done :=
        triggered.install rfl rfl (tenantNames_new_ne_nil dispatched nonempty)
      refine ⟨⟨?_, installed.populated⟩, configs, ?_⟩
      · intro key
        rw [installed.exact]
        constructor
        · rintro (⟨t, member, secured⟩ | running)
          · exact .inl ⟨t, List.mem_append_left _ member, secured⟩
          · exact .inr running
        · rintro (⟨t, member, secured⟩ | running)
          · rcases List.mem_append.mp member with earlier | here
            · exact .inl ⟨t, earlier, secured⟩
            · rw [hostnames t here] at secured
              cases secured.1
          · exact .inr running
      · intro t member
        rcases List.mem_append.mp member with earlier | here
        · exact known t earlier
        · exact (Config.mem_tenantsAt.mp here).1

/-- Startup stores exactly the triggers of its tenants and groups. -/
theorem startDaemon_triggered {files : TenantFiles} {disk : Disk} {cfg : DaemonConfig}
    {daemon : Daemon} (started : startDaemon files disk cfg = .ok daemon) :
    daemon.shared.Triggered daemon.shared.tenantConfigs := by
  obtain ⟨valid, runtimes, done, built, launching, covered⟩ := startDaemon_launching started
  obtain ⟨_, dispatches, triggers, configs, _⟩ := registered_spec valid built
  obtain ⟨triggered, same, known⟩ := launching.triggered triggers dispatches
  refine ⟨?_, triggered.populated⟩
  intro key
  rw [triggered.exact, same, configs]
  constructor
  · rintro (⟨t, member, secured⟩ | running)
    · exact .inl ⟨t, known t member, secured⟩
    · exact .inr running
  · rintro (⟨t, member, secured⟩ | running)
    · exact .inl ⟨t, covered t member, secured⟩
    · exact .inr running

/-- The triggers fit the maps, except while the signal task waits for an SNI tenant,
a wait that does not end. -/
inductive Daemon.Settled (daemon : Daemon) : Prop where
  | waiting {listen old name channel cfg removed}
      (draining : daemon.signal = .draining (.sni listen old) name channel cfg removed)
  | exact (triggered : daemon.shared.Triggered daemon.shared.tenantConfigs)
      (spared : ∀ name ∈ daemon.signal.leaving, ∀ listen ∈ daemon.shared.sniDispatches.keys,
        name ≠ groupKey listen)

namespace Daemon.Settled

variable {before after : Daemon}

/-- A state with the triggers of a settled one in which no removal waits. -/
theorem free (triggered : after.shared.Triggered after.shared.tenantConfigs)
    (present : after.signal.leaving = none) : after.Settled :=
  .exact triggered (by simp [present])

/-- A successful spawn stores the trigger of its tenant. -/
theorem spawned {disk : Disk} {cfg : Config} {t : TenantConfig} {runtime : TenantRuntime}
    (spawn : Daemon.Spawned disk cfg t runtime before after true)
    (valid : cfg.validate = .ok ()) (declared : t ∈ cfg.tenants) (named : runtime.name = t.name)
    {tenants : List TenantConfig} (triggered : before.shared.Triggered tenants) :
    after.shared.Triggered (tenants ++ [t]) := by
  have pq : cfg.role = .servePq → t.tls = none := fun role =>
    (Config.validate_servePq valid role declared).1
  cases spawn with
  | plain own bare =>
      refine (triggered.pass ?_).same rfl rfl
      have none : t.tls = none := bare.elim id pq
      simp [TenantConfig.securedAlone, none]
  | secured own secure role built =>
      refine triggered.secure ?_ (by rw [← named]; rfl) rfl
      simp [TenantConfig.securedAlone, own, secure]
  | group hostname secure role absent built =>
      obtain ⟨_, _, _, dispatched⟩ := newGroup_spec built
      refine Shared.Triggered.install (triggered.pass ?_) rfl rfl
        (tenantNames_new_ne_nil dispatched (by simp))
      simp [TenantConfig.securedAlone, hostname]
  | @member _ _ _ resolved _ _ _ _ hostname secure role group resolution added found mutated =>
      refine Shared.Triggered.install (triggered.pass ?_) rfl rfl ?_
      · simp [TenantConfig.securedAlone, hostname]
      · have answered :=
          (SniDispatchTable.mem_contexts_addContext added ⟨resolved⟩).mpr (.inl rfl)
        exact List.ne_nil_of_mem (List.mem_map.mpr ⟨_, answered, rfl⟩)

/-- A removal keeps the triggers up to the point where it waits. -/
theorem removing {disk : Disk} {inTime : Bool} {name : String} {cfg : DaemonConfig}
    {removed : List String} (sound : before.Sound)
    (triggered : before.shared.Triggered before.shared.tenantConfigs)
    (applying : before.signal = .applying cfg [] (name :: removed))
    (spares : sparesGroupTriggers before (.remove disk inTime) = true)
    (removal : Daemon.Removing disk inTime name cfg removed before after) : after.Settled := by
  cases removal with
  | skipped => exact .free triggered (by simp)
  | unhandled own found => exact .free (triggered.same rfl rfl) (by simp)
  | timedOut own found handle late => exact .free (triggered.same rfl rfl) (by simp)
  | untriggered member missing => exact .free (triggered.same rfl rfl) (by simp)
  | rolledBack member found refused =>
      refine .free (triggered.frame ?_ (fun _ => Iff.rfl) triggered.populated) (by simp)
      intro key
      have known := KeyedMap.mem_keys_iff.mpr ⟨_, found⟩
      simp only [Daemon.proceed_shared, Daemon.removeFailed, Daemon.insertTrigger,
        KeyedMap.mem_keys_insert, or_iff_right_iff_imp]
      rintro rfl
      exact known
  | single own found handle early audit =>
      refine .exact (triggered.same rfl rfl) ?_
      intro leaving waiting listen installed
      cases waiting
      simp only [sparesGroupTriggers, applying, early, own, Bool.not_true, Option.isSome_none,
        Bool.false_or, List.all_eq_true, decide_eq_true_eq] at spares
      exact spares listen installed
  | sni member left found mutated audit => exact .waiting rfl
  | unaudited audit => exact absurd audit (sound.audited applying).2

/-- The step lemma. -/
theorem moved {label : DaemonLabel} (settled : before.Settled) (sound : before.Sound)
    (serves : addsServe before label = true) (spares : sparesGroupTriggers before label = true)
    (moved : Daemon.Moved before label after) :
    after.Settled := by
  cases settled with
  | waiting draining => exact .waiting (moved.still_waits sound draining)
  | exact triggered spared =>
      cases moved with
      | rejected idle => exact .exact (triggered.same rfl rfl) spared
      | @cycle cfg added removed idle valid adds removes =>
          obtain ⟨admissions, metrics, same⟩ :=
            (before.shared.countCycle.applyLimits_hotOnly cfg.config).exists_eq
          refine .free ?_ (by simp)
          rw [Daemon.proceed_shared, same]
          exact triggered.same rfl rfl
      | unbuilt applying declared failed => exact .free (triggered.same rfl rfl) (by simp)
      | @added files disk cfg name added removed t runtime spawned serving applying declared built
          outcome spawn =>
          have successful : serving = true := by
            simp only [addsServe, applying, declared, Option.all_some] at serves
            exact outcome.symm.trans serves
          subst successful
          have valid := sound.valid cfg (by simp [applying, SignalTask.config])
          have named : runtime.name = t.name := by rw [buildTenantRuntime_spec built]
          have enrolled : (before.enroll cfg t runtime).shared.Triggered
              before.shared.tenantConfigs :=
            triggered.same rfl rfl
          have configs : spawned.shared.tenantConfigs = before.shared.tenantConfigs ++ [t] := by
            cases spawn <;> rfl
          refine .free ?_ (by simp)
          simp only [Daemon.proceed_shared, Daemon.countAdded, configs]
          exact (Daemon.Settled.spawned spawn valid (List.mem_of_find?_eq_some declared) named
            enrolled).same rfl rfl
      | removed applying removal =>
          exact Daemon.Settled.removing sound triggered applying spares removal
      | @resumedSingle _ name _ _ _ draining drained =>
          have stays := spared name (by simp [draining, SignalTask.leaving])
          refine .free ?_ (by simp [Daemon.finishSingle])
          exact Shared.Triggered.remove triggered stays rfl rfl
      | resumedSni draining drained => exact absurd drained (sound.sni_waits draining)
      | @reloaded disk key idle =>
          rcases before.reloadTrigger_cases disk key with same | ⟨trigger, found, same⟩
          · rw [same]
            exact .exact triggered spared
          · rw [same]
            have known := KeyedMap.mem_keys_iff.mpr ⟨_, found⟩
            refine .exact (triggered.frame ?_ ?_ ?_) ?_
            · intro other
              simp only [KeyedMap.mem_keys_insert, or_iff_right_iff_imp]
              rintro rfl
              exact known
            · intro listen
              simp only [KeyedMap.keys_mapValues]
            · intro listen hot installed
              obtain ⟨old, wasInstalled, table, _⟩ := Daemon.get?_reloaded installed
              rw [table]
              exact triggered.populated listen old wasInstalled
            · simpa only [KeyedMap.keys_mapValues] using spared
      | terminated idle =>
          exact .free (triggered.same rfl rfl) (by simp [Daemon.terminate, SignalTask.leaving])
      | joined =>
          simp only [Daemon.joinAll]
          rcases Daemon.drainNext_cases _ before.tenantState with
            ⟨_, next⟩ | ⟨_, _, _, next⟩ <;>
            rw [next] <;> exact .exact (triggered.same rfl rfl) spared
      | @mainDrained _ rest =>
          rcases before.drainNext_cases rest with ⟨_, next⟩ | ⟨_, _, _, next⟩ <;>
            rw [next] <;> exact .exact (triggered.same rfl rfl) spared
      | background moved =>
          refine .exact ?_ ?_
          · rw [moved.shared]
            exact triggered
          · rw [moved.signal, moved.shared]
            exact spared

end Daemon.Settled

/-- In every run of successful additions whose removals spare the triggers of the
groups, the registry is consistent between the cycles. -/
theorem registry_consistent {daemon : Daemon}
    (reachable : daemonMachine.Reachable (fun daemon label =>
      (addsServe daemon label && sparesGroupTriggers daemon label) = true) daemon)
    (idle : daemon.signal = .idle) : daemon.shared.Consistent := by
  have invariant :=
    reachable.invariant (fun daemon : Daemon => daemon.Sound ∧ daemon.Settled) ?_ ?_
  · obtain ⟨sound, settled⟩ := invariant
    have keyed : daemon.shared.Keyed none := by simpa [idle, SignalTask.leaving] using sound.keyed
    cases settled with
    | waiting draining =>
        rw [idle] at draining
        cases draining
    | exact triggered spared =>
        constructor
        · exact ⟨keyed.names, keyed.configsOnce, keyed.metricsOnce, KeyedMap.distinct _,
            KeyedMap.distinct _, KeyedMap.distinct _⟩
        · simpa using keyed.configs
        · simpa using keyed.metrics
        · exact keyed.admissions
        · exact keyed.audits
        · simpa using keyed.targets
        · simpa using keyed.shutdowns
        · simpa using keyed.monitors
        · intro key
          rw [triggered.exact]
          constructor
          · rintro (tenant | ⟨listen, installed, same⟩)
            · exact .inl tenant
            · obtain ⟨hot, found⟩ := KeyedMap.mem_keys_iff.mp installed
              exact .inr ⟨listen, hot, found, triggered.populated listen hot found, same⟩
          · rintro (tenant | ⟨listen, hot, found, _, same⟩)
            · exact .inl tenant
            · exact .inr ⟨listen, KeyedMap.mem_keys_iff.mpr ⟨hot, found⟩, same⟩
  · rintro start ⟨files, disk, cfg, started⟩
    exact ⟨startDaemon_sound started, .free (startDaemon_triggered started)
      (by simp [(startDaemon_idle started).1, SignalTask.leaving])⟩
  · rintro before label after ⟨sound, settled⟩ admitted stepped
    have moved := (Daemon.step_moved stepped).2
    rw [Bool.and_eq_true] at admitted
    exact ⟨sound.moved moved, settled.moved sound admitted.1 admitted.2 moved⟩

/-- Two SNI tenants of one address, and a tenant that is named like the key of their
group. -/
def misnamedFile : DaemonConfig :=
  tcpFile (startupTenants ++ [loopTenant (groupKey "0.0.0.0:443") "0.0.0.0:9001" none])

def groupFile : DaemonConfig := tcpFile startupTenants

/-- A tenant with TLS comes and goes. -/
theorem registry_consistent_added_removed : ∃ daemon : Daemon, daemon.signal = .idle ∧
    daemon.shared.tenantNames = ["alpha"] ∧
    daemon.shared.daemonMetrics.tenantsRemovedTotal = 1 ∧ daemon.shared.Consistent := by
  have evaluated : (daemonChecked
      (fun daemon label => addsServe daemon label && sparesGroupTriggers daemon label) alphaFile
      [.sighup (some alphaBetaFile) ["beta"] [], .add readableFiles loadingDisk,
        .sighup (some alphaFile) [] ["beta"], .remove loadingDisk true, .writerReturns 1,
        .drained true]).any
      (fun daemon => daemon.signal = .idle ∧ daemon.shared.tenantNames = ["alpha"] ∧
        daemon.shared.daemonMetrics.tenantsRemovedTotal = 1) = true := by decide +kernel
  obtain ⟨daemon, executed, facts⟩ := (Option.any_eq_true _ _).mp evaluated
  obtain ⟨idle, names, counted⟩ := of_decide_eq_true facts
  exact ⟨daemon, idle, names, counted,
    registry_consistent (reachable_daemonChecked executed) idle⟩

/-- The removal of the misnamed tenant takes the trigger of the group along. -/
theorem registry_inconsistent_after_remove :
    ¬ ∀ daemon :
    Daemon, daemonMachine.Reachable (fun daemon label => addsServe daemon label = true)
      daemon → daemon.signal = .idle → daemon.shared.Consistent := by
  intro consistent
  have evaluated : (daemonChecked addsServe misnamedFile
      [.sighup (some groupFile) [] [groupKey "0.0.0.0:443"], .remove loadingDisk true,
        .writerReturns 2, .drained true]).any
      (fun daemon => daemon.signal = .idle ∧
        (daemon.shared.sniDispatches.get? "0.0.0.0:443").any
          (·.table.tenantNames ≠ []) = true ∧
        groupKey "0.0.0.0:443" ∉ daemon.shared.reloadTriggers.keys) = true := by decide +kernel
  obtain ⟨daemon, executed, facts⟩ := (Option.any_eq_true _ _).mp evaluated
  obtain ⟨idle, running, untriggered⟩ := of_decide_eq_true facts
  obtain ⟨hot, installed, populated⟩ := (Option.any_eq_true _ _).mp running
  have registry := consistent daemon (reachable_daemonChecked executed) idle
  apply untriggered
  exact (registry.triggers _).mpr (.inr ⟨_, hot, installed, of_decide_eq_true populated, rfl⟩)

end CofreSoberano.Gateway
