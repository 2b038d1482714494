import CofreSoberano.Gateway.Registry

/-!
# Startup, listener by listener

`cmd_run` registers all runtimes and then starts the listeners: one accept loop
for a tenant alone at its address, one group for several tenants at one address.
`Launching` lists everything this can do, for both roles; what holds after startup
is proved by induction over it.
-/

namespace CofreSoberano.Gateway

open CofreSoberano.Std

/-- The listeners started so far, on top of the registration `base`, and the
tenants they serve. -/
inductive Launching (disk : Disk) (cfg : Config) (runtimes : List TenantRuntime) (base : Daemon) :
    List TenantConfig → Daemon → Prop where
  | start : Launching disk cfg runtimes base [] base
  /-- An accept loop without TLS. -/
  | plain {done daemon t runtime} (prior : Launching disk cfg runtimes base done daemon)
      (declared : t ∈ cfg.tenants) (new : t ∉ done) (found : runtime ∈ runtimes)
      (named : runtime.name = t.name) (own : t.sni = none) (bare : t.tls = none)
      (alone : cfg.role = .serveTcp → cfg.tenantsAt t.listen = [t]) :
      Launching disk cfg runtimes base (done ++ [t]) (daemon.spawnTenant runtime t.listen)
  /-- An accept loop with TLS of its own. -/
  | secured {done daemon t runtime tls trigger}
      (prior : Launching disk cfg runtimes base done daemon) (declared : t ∈ cfg.tenants)
      (new : t ∉ done) (found : runtime ∈ runtimes) (named : runtime.name = t.name)
      (own : t.sni = none) (secure : t.tls = some tls)
      (built : buildReloadableAcceptor disk tls t.name = .ok trigger)
      (alone : cfg.tenantsAt t.listen = [t]) :
      Launching disk cfg runtimes base (done ++ [t])
        ((daemon.insertTrigger t.name trigger).spawnTenant runtime t.listen)
  /-- A group of all tenants of an address. -/
  | group {done daemon listen tenants built audits}
      (prior : Launching disk cfg runtimes base done daemon)
      (several : 1 < (cfg.tenantsAt listen).length)
      (new : ∀ t ∈ cfg.tenantsAt listen, t ∉ done)
      (resolved : (cfg.tenantsAt listen).mapM cfg.resolveOneServeTcp = .ok tenants)
      (handles : tenants.mapM (memberAudit runtimes) = .ok audits)
      (started : startupGroup disk { listen, sniDispatch := true, tenants } = .ok built) :
      Launching disk cfg runtimes base (done ++ cfg.tenantsAt listen)
        (daemon.installGroup listen built audits)

section

variable {files : TenantFiles} {disk : Disk} {cfg : Config} {runtimes : List TenantRuntime}
  {base daemon : Daemon}

/-- The startup of one listener of a serve-tcp configuration. -/
theorem Launching.listener {done : List TenantConfig} {after : Daemon} {group : TlsListenerGroup}
    (prior : Launching disk cfg runtimes base done daemon) (valid : cfg.validate = .ok ())
    (role : cfg.role = .serveTcp)
    (resolved : (cfg.tenantsAt group.listen).mapM cfg.resolveOneServeTcp = .ok group.tenants)
    (nonempty : group.tenants ≠ [])
    (dispatch : group.sniDispatch = decide (1 < group.tenants.length))
    (new : ∀ t ∈ cfg.tenantsAt group.listen, t ∉ done)
    (started : startListener disk runtimes daemon group = .ok after) :
    Launching disk cfg runtimes base (done ++ cfg.tenantsAt group.listen) after := by
  have lengths := length_of_mapM_eq_ok resolved
  -- A listener without dispatch has one tenant, the only one of its address.
  have alone : ∀ {t rest}, group.sniDispatch = false → group.tenants = t :: rest →
      ∃ source, cfg.tenantsAt group.listen = [source] ∧
        cfg.resolveOneServeTcp source = .ok t := by
    intro t rest single only
    rw [dispatch] at single
    have short : (cfg.tenantsAt group.listen).length = 1 := by
      have bound : ¬ 1 < group.tenants.length := of_decide_eq_false single
      have positive := List.length_pos_iff.mpr nonempty
      omega
    obtain ⟨source, listed⟩ := List.length_eq_one_iff.mp short
    refine ⟨source, listed, ?_⟩
    obtain ⟨value, member, converted⟩ := exists_of_mem_mapM_eq_ok resolved
      (only ▸ List.mem_cons_self : t ∈ group.tenants)
    rw [listed, List.mem_singleton] at member
    exact member ▸ converted
  -- What a single tenant's source entry says about the resolved one.
  have sourced : ∀ {source t}, cfg.tenantsAt group.listen = [source] →
      cfg.resolveOneServeTcp source = .ok t → source ∈ cfg.tenants ∧
      source.listen = group.listen ∧
        source.sni = none ∧ t.name = source.name ∧ t.listen = source.listen ∧
        t.tls = source.tls := by
    intro source t listed converted
    have member := Config.mem_tenantsAt.mp (listed ▸ List.mem_singleton_self source :
      source ∈ cfg.tenantsAt group.listen)
    obtain ⟨name, listen, _, tls⟩ := Config.resolveOneServeTcp_spec converted
    exact ⟨member.1, member.2, Config.validate_alone valid role listed, name, listen, tls⟩
  cases startListener_started started with
  | plain single only found bare =>
      obtain ⟨source, listed, converted⟩ := alone single only
      obtain ⟨declared, address, own, name, listen, tls⟩ := sourced listed converted
      obtain ⟨member, named⟩ := runtimeOf_spec found
      rw [listed, listen]
      refine .plain prior declared (new source (by simp [listed])) member (named.trans name) own
        (tls ▸ bare) fun _ => ?_
      rw [address]
      exact listed
  | secured single only found secure built =>
      obtain ⟨source, listed, converted⟩ := alone single only
      obtain ⟨declared, address, own, name, listen, tls⟩ := sourced listed converted
      obtain ⟨member, named⟩ := runtimeOf_spec found
      rw [listed, listen, name]
      refine .secured prior declared (new source (by simp [listed])) member (named.trans name) own
        (tls ▸ secure) (name ▸ built) ?_
      rw [address]
      exact listed
  | group several handles groupStarted =>
      have many : 1 < (cfg.tenantsAt group.listen).length := by
        rw [dispatch] at several
        have bound := of_decide_eq_true several
        omega
      exact .group prior many new resolved handles groupStarted

/-- The startup of the accept loops of a serve-pq configuration. -/
theorem Launching.servePq (valid : cfg.validate = .ok ()) (role : cfg.role = .servePq)
    (tenants : List TenantConfig) {some : List TenantRuntime} {resolved : List ServePqTenant}
    {done : List TenantConfig} (names : some.map TenantRuntime.name = tenants.map TenantConfig.name)
    (converted : tenants.mapM cfg.resolveOneServePq = .ok resolved)
    (built : ∀ runtime ∈ some, runtime ∈ runtimes)
    (declared : ∀ t ∈ tenants, t ∈ cfg.tenants)
    (distinct : (done ++ tenants).Nodup) (prior : Launching disk cfg runtimes base done daemon) :
    Launching disk cfg runtimes base (done ++ tenants) ((some.zip resolved).foldl
      (fun daemon pair => daemon.spawnTenant pair.1 pair.2.listen) daemon) := by
  induction tenants generalizing some resolved done daemon with
  | nil =>
      obtain rfl : some = [] := by simpa using names
      simpa using prior
  | cons t rest inductionHypothesis =>
      cases some with
      | nil => simp at names
      | cons runtime others =>
          simp only [List.map_cons, List.cons.injEq] at names
          rw [List.mapM_cons] at converted
          obtain ⟨tenant, one, converted⟩ := bind_eq_ok.mp converted
          obtain ⟨later, rest', converted⟩ := bind_eq_ok.mp converted
          cases converted
          obtain ⟨bare, own⟩ :=
            Config.validate_servePq valid role (declared t List.mem_cons_self)
          have fresh : t ∉ done := by
            intro member
            exact (List.nodup_append.mp distinct).2.2 t member t List.mem_cons_self rfl
          have next : Launching disk cfg runtimes base (done ++ [t])
              (daemon.spawnTenant runtime t.listen) := by
            refine .plain prior (declared t List.mem_cons_self) fresh
              (built runtime List.mem_cons_self) names.1 own bare ?_
            intro other
            rw [role] at other
            cases other
          have launched := inductionHypothesis names.2 rest'
            (fun other member => built other (List.mem_cons_of_mem _ member))
            (fun other member => declared other (List.mem_cons_of_mem _ member))
            (by simpa using distinct) next
          simpa [Config.resolveOneServePq_listen one] using launched

/-- Startup launches every tenant of an accepted configuration. -/
theorem startDaemon_launching {cfg : DaemonConfig}
    (started : startDaemon files disk cfg = .ok daemon) :
    cfg.config.validate = .ok () ∧ ∃ runtimes done,
      buildRuntimes files cfg.config 0 cfg.config.tenants = .ok runtimes ∧
      Launching disk cfg.config runtimes (registered cfg runtimes) done daemon ∧
      ∀ t ∈ cfg.config.tenants, t ∈ done := by
  simp only [startDaemon] at started
  split at started
  · cases started
  · rename_i valid
    obtain ⟨runtimes, built, started⟩ := bind_eq_ok.mp started
    refine ⟨valid, runtimes, ?_⟩
    simp only [startListeners] at started
    split at started
    · split at started
      · cases started
      · rename_i groups resolved
        obtain ⟨role, distinct, covered, members⟩ :=
          Config.resolveServeTcpGroups_members resolved
        have folded := foldlM_invariant
          (fun handled (daemon : Daemon) => (handled.map TlsListenerGroup.listen).Nodup →
            Launching disk cfg.config runtimes (registered cfg runtimes)
              (handled.flatMap fun group => cfg.config.tenantsAt group.listen) daemon)
          (fun _ => .start) ?_ started
        · refine ⟨_, built, folded distinct, ?_⟩
          intro t declared
          obtain ⟨group, listed, address⟩ := covered t declared
          exact List.mem_flatMap.mpr ⟨group, listed, Config.mem_tenantsAt.mpr
            ⟨declared, address.symm⟩⟩
        · intro handled group before after member launched advanced nodup
          rw [List.map_append, List.nodup_append] at nodup
          obtain ⟨groupResolved, nonempty, dispatch⟩ := members group member
          rw [List.flatMap_append, List.flatMap_singleton]
          refine (launched nodup.1).listener valid role groupResolved nonempty dispatch ?_ advanced
          intro t here there
          obtain ⟨earlier, earlierMember, again⟩ := List.mem_flatMap.mp there
          have same : earlier.listen = group.listen :=
            (Config.mem_tenantsAt.mp again).2.symm.trans (Config.mem_tenantsAt.mp here).2
          exact nodup.2.2 _ (List.mem_map.mpr ⟨earlier, earlierMember, rfl⟩) group.listen
            (by simp) same
    · rename_i role
      split at started
      · cases started
      · rename_i resolved resolution
        cases started
        simp only [Config.resolveServePq, role, ne_eq, not_true, if_false] at resolution
        have nodup : cfg.config.tenants.Nodup := (Config.validate_names_nodup valid).of_map
        have launched : Launching disk cfg.config runtimes (registered cfg runtimes)
            ([] ++ cfg.config.tenants) _ :=
          .servePq valid role cfg.config.tenants (buildRuntimes_spec built).1 resolution
            (fun _ member => member) (fun _ member => member) (by simpa using nodup) .start
        exact ⟨_, built, launched, fun t declared => by simpa using declared⟩

/-- Starting a listener leaves the tasks of the daemon, the channels and the
registration alone. -/
theorem Launching.same {done : List TenantConfig}
    (launching : Launching disk cfg runtimes base done daemon) :
    daemon.signal = base.signal ∧ daemon.main = base.main ∧ daemon.sessions = base.sessions ∧
      daemon.closing = base.closing ∧ daemon.finished = base.finished ∧
      daemon.nextRuntime = base.nextRuntime ∧ daemon.tenantState = base.tenantState ∧
      daemon.shared.tenantNames = base.shared.tenantNames ∧
      daemon.shared.tenantConfigs = base.shared.tenantConfigs ∧
      daemon.shared.tenantAudits = base.shared.tenantAudits := by
  induction launching with
  | start => exact ⟨rfl, rfl, rfl, rfl, rfl, rfl, rfl, rfl, rfl, rfl⟩
  | plain _ _ _ _ _ _ _ _ inductionHypothesis => exact inductionHypothesis
  | secured _ _ _ _ _ _ _ _ _ inductionHypothesis => exact inductionHypothesis
  | group _ _ _ _ _ _ inductionHypothesis => exact inductionHypothesis

/-- The signal task starts at the top of its `select!`, the main task serving. -/
theorem startDaemon_idle {cfg : DaemonConfig} (started : startDaemon files disk cfg = .ok daemon) :
    daemon.signal = .idle ∧ daemon.main = .serving := by
  obtain ⟨_, _, _, _, launching, _⟩ := startDaemon_launching started
  exact ⟨launching.same.1, launching.same.2.1⟩

end

end CofreSoberano.Gateway
