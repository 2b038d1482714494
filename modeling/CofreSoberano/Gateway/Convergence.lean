import CofreSoberano.Gateway.Routes
import CofreSoberano.Gateway.Drain
import CofreSoberano.Gateway.Limits

/-!
# Convergence of the routes after a SIGHUP

One cycle adds the tenants that only the new file has and then removes those that
only the old file has. `Daemon.Toward` ties the tenants that are present to the
new file at every point of the cycle, and the loops and tables to the tenants that
are present. At the end of the cycle the routes served are those of the new file.
-/

namespace CofreSoberano.Gateway

open CofreSoberano.Std

/-- The file of a SIGHUP, if it is accepted. -/
def accepted (file : Option DaemonConfig) : Option DaemonConfig :=
  file.filter fun cfg => cfg.config.validate = .ok ()

/-- The file in force after a step. -/
def DaemonConfig.after (cfg : DaemonConfig) : DaemonLabel → DaemonConfig
  | .sighup file _ _ => (accepted file).getD cfg
  | _ => cfg

/-- The last file that a run accepted. -/
def inForce (cfg : DaemonConfig) (labels : List DaemonLabel) : DaemonConfig :=
  labels.foldl DaemonConfig.after cfg

theorem inForce_snoc (cfg : DaemonConfig) (labels : List DaemonLabel) (label : DaemonLabel) :
    inForce cfg (labels ++ [label]) = (inForce cfg labels).after label := by
  simp [inForce]

/-- What is granted to a cycle: the file is a serve-tcp one that leaves the tenants
it keeps unchanged, audit logs and certificate files can be loaded, addresses are
bindable, removed loops return in time. -/
def cooperates (daemon : Daemon) : DaemonLabel → Bool
  | .sighup file _ _ =>
      (accepted file).all fun cfg => cfg.config.role = .serveTcp &&
        daemon.shared.tenantConfigs.all fun known =>
          cfg.config.tenants.all fun t => t.name ≠ known.name || t = known
  | .add files disk =>
      match daemon.signal with
      | .applying cfg (name :: _) _ =>
          cfg.config.tenants.all fun t =>
            (t.name ≠ name || (buildTenantRuntime files cfg.config t daemon.nextRuntime).isOk) &&
              t.tls.all fun tls => (buildAcceptor disk tls).isOk
      | _ => true
  | .remove _ inTime => inTime
  | .bind _ granted => granted
  | .sigterm => false
  | _ => true

/-- The trigger under the key of a group is the group's. -/
def Shared.groupTriggered (shared : Shared) (listen : String) : Bool :=
  match shared.reloadTriggers.get? (groupKey listen) with
  | some (.multi _) => true
  | _ => false

/-- A file keeps the tenants with a hostname. A tenant that joins a running group
has its hostname for its name and finds the group's trigger. No loop reaches its bind
while another holds its address. -/
def routable (daemon : Daemon) : DaemonLabel → Bool
  | .sighup file _ _ =>
      (accepted file).all fun cfg => daemon.shared.tenantConfigs.all fun known =>
        known.sni.isNone || known.name ∈ cfg.config.tenants.map TenantConfig.name
  | .add _ _ =>
      match daemon.signal with
      | .applying cfg (name :: _) _ =>
          (cfg.config.tenants.find? fun t => t.name = name).all fun t =>
            t.sni.isNone || (daemon.shared.sniDispatches.get? t.listen).isNone ||
              (t.sni = some t.name && daemon.shared.groupTriggered t.listen)
      | _ => true
  | .bind id _ =>
      (daemon.running.get? id).all fun task =>
        !daemon.running.values.any fun other => other.bound && other.listen = task.listen
  | _ => true

/-- The steps in which both hold. -/
def settles (daemon : Daemon) (label : DaemonLabel) : Bool :=
  cooperates daemon label && routable daemon label

/-- An ADD finds these files. -/
def DaemonLabel.Finds (files : TenantFiles) (disk : Disk) : DaemonLabel → Prop
  | .add found loaded => found = files ∧ loaded = disk
  | _ => True

/-- Whatever is on disk, the cycle can be completed. When it is, with every loop
bound, the routes served are those that the file declares. -/
structure Converges (cfg : DaemonConfig) (daemon : Daemon) : Prop where
  completes : ∀ files disk, ∃ labels later,
    daemonMachine.Runs (fun _ label => label.Finds files disk) daemon labels later ∧
      later.signal = .idle
  routes : daemon.signal = .idle →
    (∀ id task, daemon.running.get? id = some task → task.bound = true) →
    ∀ route, daemon.Serves route ↔ cfg.config.Declares route

/-- The signal task has something to do next, and does not wait for a tenant of a
group. -/
def SignalTask.goesOn : SignalTask → Bool
  | .idle => true
  | .applying _ added removed => !(added.isEmpty && removed.isEmpty)
  | .draining .single _ _ _ _ => true
  | .draining (.sni _ _) _ _ _ _ => false
  | .returned => false

@[simp] theorem Daemon.proceed_goesOn (daemon : Daemon) (cfg : DaemonConfig)
    (added removed : List String) : (daemon.proceed cfg added removed).signal.goesOn = true := by
  simp only [Daemon.proceed]
  split
  · rfl
  · rename_i busy
    simp only [SignalTask.goesOn, eq_false_of_ne_true busy, Bool.not_false]

/-- The daemon on its way to a configuration. -/
structure Daemon.Toward (cfg : DaemonConfig) (daemon : Daemon) : Prop where
  valid : cfg.config.validate = .ok ()
  role : cfg.config.role = .serveTcp
  config : ∀ other ∈ daemon.signal.config, other = cfg
  declared : ∀ name ∈ daemon.signal.added, name ∈ cfg.config.tenants.map TenantConfig.name
  /-- The tenants that stay are those of the configuration that are not still to be
  added. -/
  covered : ∀ t, daemon.shared.Present t ∧ t.name ∉ daemon.signal.removed ↔
    t ∈ cfg.config.tenants ∧ t.name ∉ daemon.signal.added
  plain : ∀ t, daemon.shared.Present t → t.name ∈ daemon.signal.removed → t.sni = none
  looped : daemon.Looped fun t => daemon.shared.Present t ∧ t.sni = none
  hosting : daemon.shared.Hosting fun t => daemon.shared.Present t ∧ t.sni ≠ none
  goesOn : daemon.signal.goesOn = true
  serving : daemon.main = .serving

namespace Daemon.Toward

variable {cfg : DaemonConfig} {before after : Daemon}

/-- Steps that change neither the signal task nor what is present. -/
theorem frame (toward : before.Toward cfg) (signal : after.signal = before.signal)
    (present : ∀ t, after.shared.Present t ↔ before.shared.Present t)
    (looped : after.Looped fun t => before.shared.Present t ∧ t.sni = none)
    (hosting : after.shared.Hosting fun t => before.shared.Present t ∧ t.sni ≠ none)
    (serving : after.main = .serving) : after.Toward cfg where
  valid := toward.valid
  role := toward.role
  config := signal ▸ toward.config
  declared := signal ▸ toward.declared
  covered := by
    intro t
    rw [signal, present]
    exact toward.covered t
  plain := by
    intro t known
    rw [signal]
    exact toward.plain t ((present t).mp known)
  looped := looped.congr fun t => by rw [present]
  hosting := hosting.congr fun t => by rw [present]
  goesOn := signal ▸ toward.goesOn
  serving := serving

/-- A tenant in a table is one of the configuration. -/
theorem declared_of_routed (toward : before.Toward cfg) {listen : String}
    {hot : HotSniDispatchTable} {routes : KeyedMap String SniTenantContext}
    (installed : before.shared.sniDispatches.get? listen = some hot)
    (backs : before.shared.Backs listen hot routes) {sni : String} {ctx : SniTenantContext}
    (routed : (sni, ctx) ∈ routes.entries) :
    ∃ t ∈ cfg.config.tenants, before.shared.Present t ∧
      t.listen = listen ∧ t.sni = some sni ∧ t.tls = ctx.tenant.tls := by
  have listed := (SniDispatchTable.mem_contexts backs.table).mpr ⟨sni, routed⟩
  obtain ⟨t, ⟨present, hostname⟩, address, _, sameSni, sameTls⟩ :=
    toward.hosting.owners listen hot ctx installed listed
  have stays : t.name ∉ before.signal.removed := fun leaving =>
    hostname (toward.plain t present leaving)
  refine ⟨t, ((toward.covered t).mp ⟨present, stays⟩).1, present, address, ?_, sameTls.symm⟩
  rw [← sameSni]
  exact backs.keyed sni ctx routed

/-- The hostname of a new tenant is in no table of its address. -/
theorem fresh_hostname (toward : before.Toward cfg) {t : TenantConfig} {sni : String}
    (declared : t ∈ cfg.config.tenants) (new : t.name ∉ before.shared.tenantNames)
    (hostname : t.sni = some sni) {hot : HotSniDispatchTable}
    {routes : KeyedMap String SniTenantContext}
    (installed : before.shared.sniDispatches.get? t.listen = some hot)
    (backs : before.shared.Backs t.listen hot routes) : Represents.Fresh routes sni := by
  intro ctx routed
  obtain ⟨u, other, present, address, same, _⟩ :=
    toward.declared_of_routed installed backs routed
  have equal :=
    (Config.validate_hostname toward.valid toward.role declared hostname).2.2 u other address same
  exact new (equal ▸ present.2)

/-- The certificate set of a running group takes a new tenant whose name is its
hostname. -/
theorem joins (toward : before.Toward cfg) {disk : Disk} {t : TenantConfig} {tls : TlsConfig}
    (declared : t ∈ cfg.config.tenants) (new : t.name ∉ before.shared.tenantNames)
    (hostname : t.sni = some t.name) (secure : t.tls = some tls)
    (loads : ∀ u ∈ cfg.config.tenants, ∀ tls, u.tls = some tls →
      (buildAcceptor disk tls).isOk = true)
    {hot : HotSniDispatchTable} {trigger : TlsReloadTrigger}
    (installed : before.shared.sniDispatches.get? t.listen = some hot)
    (found : before.shared.reloadTriggers.get? (groupKey t.listen) = some (.multi trigger)) :
    ∃ next previous, trigger.addSniEntry disk t.name t.name tls = (next, .ok previous) := by
  obtain ⟨routes, backs⟩ := toward.hosting.backed t.listen hot installed
  have backed := backs.trigger trigger found
  have fresh := toward.fresh_hostname declared new hostname installed backs
  -- Every entry is that of a declared tenant.
  have entered : ∀ entry ∈ trigger.entries, entry.1 ≠ t.name ∧
      acceptsPattern entry.1 = true ∧ (buildAcceptor disk entry.2.2).isOk = true := by
    intro entry member
    obtain ⟨ctx, routed, files⟩ := (backed.certificates entry.1 entry.2.2).mp
      (List.mem_map.mpr ⟨entry, member, rfl⟩)
    obtain ⟨u, other, _, _, same, sameTls⟩ := toward.declared_of_routed installed backs routed
    refine ⟨?_, (Config.validate_hostname toward.valid toward.role other same).2.1,
      loads u other entry.2.2 (sameTls.trans files)⟩
    intro equal
    exact fresh ctx (equal ▸ routed)
  obtain ⟨acceptor, built⟩ : ∃ acceptor, buildMultiSniAcceptor disk
      (trigger.entries ++ [(t.name, t.name, tls)]) = .ok acceptor := by
    refine buildMultiSniAcceptor_ok_iff.mpr ⟨by simp, ?_, ?_⟩
    · rw [List.map_append, List.nodup_append]
      refine ⟨backed.labels, by simp, ?_⟩
      rintro label listed _ single rfl
      obtain ⟨entry, member, rfl⟩ := List.mem_map.mp listed
      rw [List.map_singleton, List.mem_singleton] at single
      exact (entered entry member).1 single
    · intro entry member
      rcases List.mem_append.mp member with old | single
      · exact (entered entry old).2
      · rw [List.mem_singleton] at single
        subst single
        exact ⟨(Config.validate_hostname toward.valid toward.role declared hostname).2.1,
          loads t declared tls secure⟩
  exact ⟨_, _, TlsReloadTrigger.addSniEntry_succeeds
    (fun entry member => (entered entry member).1) built⟩

end Daemon.Toward

/-- A group of one tenant can be built if its hostname is well formed and its files
load. -/
theorem newGroup_succeeds {disk : Disk} {cfg : Config} {t : TenantConfig} {sni : String}
    {tls : TlsConfig} {resolved : ServeTcpTenant}
    (resolution : cfg.resolveOneServeTcp t = .ok resolved) (hostname : t.sni = some sni)
    (accepted : acceptsPattern sni = true) (loads : (buildAcceptor disk tls).isOk = true) :
    ∃ group, newGroup disk cfg t sni tls = some group := by
  obtain ⟨acceptor, built⟩ : ∃ acceptor, buildMultiSniAcceptor disk [(sni, t.name, tls)] =
    .ok acceptor :=
    buildMultiSniAcceptor_ok_iff.mpr ⟨by simp, by simp, by simp [accepted, loads]⟩
  have certified : ∀ label, ∃ trigger,
      buildReloadableMultiSniAcceptor disk [(sni, t.name, tls)] label = .ok trigger :=
    fun label => ⟨_, bind_eq_ok.mpr ⟨acceptor, built, rfl⟩⟩
  obtain ⟨trigger, triggered⟩ := certified s!"sni-group:{t.listen}"
  have resolvedSni := (Config.resolveOneServeTcp_spec resolution).2.2.1
  obtain ⟨dispatch, added⟩ : ∃ dispatch, SniDispatchTable.new [{ tenant := resolved }] =
    .ok dispatch := by
    obtain ⟨next, added⟩ := SniDispatchTable.addContext_fresh { tenant := resolved }
      Represents.empty (resolvedSni.trans hostname) (fun value member => by cases member)
    exact ⟨next, bind_eq_ok.mpr ⟨next, added, rfl⟩⟩
  simp only [newGroup, resolution, triggered, added]
  exact ⟨_, rfl⟩

namespace Daemon.Toward

variable {cfg : DaemonConfig} {before after : Daemon}

/-- An ADD ends with an accept loop or a dispatch entry. -/
theorem add_serves (toward : before.Toward cfg) {files : TenantFiles}
    {disk : Disk} {t : TenantConfig} {runtime : TenantRuntime} (declared : t ∈ cfg.config.tenants)
    (new : t.name ∉ before.shared.tenantNames)
    (built : buildTenantRuntime files cfg.config t before.nextRuntime = .ok runtime)
    (loads : ∀ u ∈ cfg.config.tenants, ∀ tls, u.tls = some tls →
      (buildAcceptor disk tls).isOk = true)
    (joining : t.sni ≠ none → ∀ hot, before.shared.sniDispatches.get? t.listen = some hot →
      t.sni = some t.name ∧
        ∃ trigger, before.shared.reloadTriggers.get? (groupKey t.listen) =
          some (.multi trigger)) :
    (before.addTenant files disk cfg t).2 = true := by
  obtain ⟨resolved, resolution⟩ := Config.validate_resolves toward.valid toward.role declared
  have named : runtime.name = t.name := by rw [buildTenantRuntime_spec built]
  simp only [Daemon.addTenant, built, Daemon.spawnAdded]
  cases hostname : t.sni with
  | none =>
      simp only [placement_single.mpr ⟨toward.role, hostname⟩, Daemon.addSingle]
      cases secure : t.tls with
      | none => simp only [resolution]
      | some tls =>
          have acceptor : buildReloadableAcceptor disk tls runtime.name =
              .ok (.single tls runtime.name) := by
            have loaded := loads t declared tls secure
            cases accepted : buildAcceptor disk tls with
            | error message => simp [accepted, Except.isOk, Except.toBool] at loaded
            | ok done => exact bind_eq_ok.mpr ⟨done, accepted, rfl⟩
          simp only [acceptor, resolution]
  | some sni =>
      obtain ⟨⟨tls, secure⟩, accepted, _⟩ :=
        Config.validate_hostname toward.valid toward.role declared hostname
      cases installed : before.shared.sniDispatches.get? t.listen with
      | none =>
          obtain ⟨group, grouped⟩ := newGroup_succeeds resolution hostname accepted
            (loads t declared tls secure)
          have placed : placement cfg.config (before.enroll cfg t runtime).shared.sniDispatches t =
              .newGroup sni tls :=
            placement_newGroup.mpr ⟨toward.role, hostname, secure, installed⟩
          simp only [placed, Daemon.addGroup, grouped]
      | some hot =>
          obtain ⟨ownName, trigger, found⟩ := joining (by simp [hostname]) hot installed
          obtain rfl : sni = t.name := by simpa [hostname] using ownName
          obtain ⟨routes, backs⟩ := toward.hosting.backed t.listen hot installed
          have fresh := toward.fresh_hostname declared new hostname installed backs
          have resolvedSni := (Config.resolveOneServeTcp_spec resolution).2.2.1
          obtain ⟨table, added⟩ : ∃ table, hot.table.withTenantAdded { tenant := resolved } =
            .ok table :=
            SniDispatchTable.addContext_fresh { tenant := resolved } backs.table
              (resolvedSni.trans hostname) fresh
          obtain ⟨next, previous, mutated⟩ := toward.joins declared new hostname secure loads
            installed found
          have placed : placement cfg.config (before.enroll cfg t runtime).shared.sniDispatches t =
              .member t.name tls hot :=
            placement_member.mpr ⟨toward.role, hostname, secure, installed⟩
          have stored : (before.enroll cfg t runtime).shared.reloadTriggers.get?
              (groupKey t.listen) = some (.multi trigger) := found
          have accepted : (ReloadTrigger.multi trigger).addSniEntry disk runtime.name t.name tls =
              (.multi next, .ok previous) := by
            simp only [ReloadTrigger.addSniEntry, named, mutated]
          have joins : joinGroup (·.addSniEntry disk runtime.name t.name tls)
              ((before.enroll cfg t runtime).shared.reloadTriggers.get? (groupKey t.listen))
                cfg.config t hot.table = .replaced (.multi next) table :=
            joinGroup_replaced.mpr ⟨resolved, _, previous, resolution, added, stored, accepted⟩
          simp only [placed, Daemon.addMember, joins]

/-- The tenants present after the registration of a new one. -/
theorem present_enroll (sound : before.Sound) {t : TenantConfig} {runtime : TenantRuntime}
    {added removed : List String}
    (applying : before.signal = .applying cfg (t.name :: added) removed)
    (named : runtime.name = t.name) (u : TenantConfig) :
    (before.enroll cfg t runtime).shared.Present u ↔ before.shared.Present u ∨ u = t := by
  have keyed : before.shared.Keyed none := by
    simpa [applying, SignalTask.leaving] using sound.keyed
  have new : t.name ∉ before.shared.tenantNames :=
    sound.adding.2 t.name (by simp [applying, SignalTask.added])
  simp only [Shared.Present, Daemon.enroll, Shared.register, List.mem_append, List.mem_singleton,
    List.mem_insert_iff, named]
  constructor
  · rintro ⟨listed | rfl, known | known⟩
    · have registered := (keyed.configs u.name).mp (List.mem_map.mpr ⟨u, listed, rfl⟩)
      rw [known] at registered
      exact absurd (by simpa using registered) new
    · exact .inl ⟨listed, known⟩
    · exact .inr rfl
    · exact absurd known new
  · rintro (⟨listed, known⟩ | rfl)
    · exact ⟨.inl listed, .inr known⟩
    · exact ⟨.inr rfl, .inl rfl⟩

/-- The loops after the spawn of a new tenant. -/
theorem looped_spawned (toward : before.Toward cfg) {t : TenantConfig} {runtime : TenantRuntime}
    {disk : Disk} (named : runtime.name = t.name)
    (numbered : runtime.id = before.nextRuntime) (new : t.name ∉ before.shared.tenantNames)
    (spawn : Daemon.Spawned disk cfg.config t runtime (before.enroll cfg t runtime) after true) :
    after.Looped fun u => (before.shared.Present u ∨ u = t) ∧ u.sni = none := by
  have other : ∀ u, before.shared.Present u ∧ u.sni = none → u.name ≠ runtime.name := by
    rintro u ⟨present, _⟩ same
    exact new (named ▸ same ▸ present.2)
  have enrolled := toward.looped.enroll cfg t runtime other
  have unused : runtime.id ∉ before.notified := by
    intro stopped
    have bound := toward.looped.spent _ stopped
    rw [numbered] at bound
    exact absurd bound (Nat.lt_irrefl _)
  have audit : (before.enroll cfg t runtime).shared.tenantAudits.get? t.name = some runtime.id := by
    simp [Daemon.enroll, Shared.register, named]
  have shutdown : (before.enroll cfg t runtime).shared.tenantShutdowns.get? t.name =
      some runtime.id := by
    simp [Daemon.enroll, Shared.register, named]
  have joined : ∀ {sni}, t.sni = some sni → ∀ u, before.shared.Present u ∧ u.sni = none ↔
      (before.shared.Present u ∨ u = t) ∧ u.sni = none := by
    grind
  cases spawn with
  | plain own bare =>
      have ownLoop : t.sni = none := own.resolve_right (by simp [toward.role])
      refine (enrolled.spawn (named ▸ other) named audit shutdown unused).congr ?_
      grind
  | @secured tls trigger ownLoop secure tcp built =>
      have stored : ((before.enroll cfg t runtime).insertTrigger runtime.name trigger).Looped
          fun u => before.shared.Present u ∧ u.sni = none :=
        enrolled.frame rfl rfl rfl (fun _ known => known) rfl rfl rfl rfl rfl
      refine (stored.spawn (named ▸ other) named audit shutdown unused).congr ?_
      grind
  | group hostname secure tcp absent built => exact (enrolled.install _ _ _).congr (joined hostname)
  | member hostname secure tcp group resolution extended found mutated =>
      refine Daemon.Looped.congr ?_ (joined hostname)
      refine enrolled.frame rfl rfl rfl ?_ rfl rfl rfl rfl rfl
      intro listen known
      simp only [KeyedMap.mem_keys_insert] at known
      rcases known with rfl | known
      · exact KeyedMap.mem_keys_iff.mpr ⟨_, group⟩
      · exact known

/-- The tables after the spawn of a new tenant. -/
theorem hosting_spawned (toward : before.Toward cfg) {t : TenantConfig} {runtime : TenantRuntime}
    {disk : Disk} (named : runtime.name = t.name)
    (joining : t.sni ≠ none → ∀ hot, before.shared.sniDispatches.get? t.listen = some hot →
      t.sni = some t.name)
    (spawn : Daemon.Spawned disk cfg.config t runtime (before.enroll cfg t runtime) after true) :
    after.shared.Hosting fun u => (before.shared.Present u ∨ u = t) ∧ u.sni ≠ none := by
  have enrolled : (before.enroll cfg t runtime).shared.Hosting
      fun u => before.shared.Present u ∧ u.sni ≠ none := toward.hosting.same rfl rfl
  have grows : ∀ u, before.shared.Present u ∧ u.sni ≠ none →
      (before.shared.Present u ∨ u = t) ∧ u.sni ≠ none :=
    fun u known => ⟨.inl known.1, known.2⟩
  have elsewhere : ∀ u, (before.shared.Present u ∨ u = t) ∧ u.sni ≠ none →
      u.listen ≠ t.listen → before.shared.Present u ∧ u.sni ≠ none := by
    rintro u ⟨present | rfl, hostname⟩ address
    · exact ⟨present, hostname⟩
    · exact absurd rfl address
  cases spawn with
  | plain own bare =>
      have ownLoop : t.sni = none := own.resolve_right (by simp [toward.role])
      refine (enrolled.congr ?_).same rfl rfl
      grind
  | @secured tls trigger ownLoop secure tcp built =>
      obtain ⟨_, _, made⟩ := bind_eq_ok.mp built
      cases made
      refine (enrolled.congr ?_).insert_single rfl rfl
      grind
  | @group sni tls group hostname secure tcp absent built =>
      obtain ⟨routes, _, backed, _, _⟩ := newGroup_backed hostname secure built
      obtain ⟨resolved, resolution, _, dispatched⟩ := newGroup_spec built
      obtain ⟨name, _, sameSni, sameTls⟩ := Config.resolveOneServeTcp_spec resolution
      refine enrolled.put grows ?_ elsewhere ?_ backed rfl rfl rfl
      · rintro u ⟨present | rfl, hosted⟩ address
        · obtain ⟨hot, _, installed, _⟩ := toward.hosting.members u ⟨present, hosted⟩
          rw [address] at installed
          exact absurd (installed.symm.trans absent) (by simp)
        · exact ⟨{ tenant := resolved },
            (SniDispatchTable.mem_contexts_new dispatched _).mpr (by simp),
            name, sameSni, sameTls⟩
      · intro ctx answered
        have only := (SniDispatchTable.mem_contexts_new dispatched ctx).mp answered
        rw [List.mem_singleton] at only
        subst only
        exact ⟨t, ⟨.inr rfl, by simp [hostname]⟩, rfl, name, sameSni, sameTls⟩
  | @member sni tls hot resolved table trigger next previous hostname secure tcp group resolution
      extended found mutated =>
      have own := joining (by simp [hostname]) hot group
      obtain rfl : sni = t.name := by simpa [hostname] using own
      obtain ⟨old, new, rfl, rfl, _, _⟩ := ReloadTrigger.addSniEntry_ok mutated
      simp only [ReloadTrigger.addSniEntry, Prod.mk.injEq, ReloadTrigger.multi.injEq] at mutated
      obtain ⟨rfl, accepted⟩ := mutated
      obtain ⟨name, _, sameSni, sameTls⟩ := Config.resolveOneServeTcp_spec resolution
      obtain ⟨routes, backs⟩ := toward.hosting.backed t.listen hot group
      obtain ⟨joinedRoutes, _, backed, _, _⟩ :=
        (backs.trigger old found).join disk cfg.config true hostname secure
      have joined : joinGroup (·.addSniEntry disk t.name t.name tls) (some old) cfg.config t
          hot.table = .replaced (old.addSniEntry disk runtime.name t.name tls).1 table := by
        rw [named] at accepted ⊢
        exact joinGroup_replaced.mpr
          ⟨resolved, old, previous, resolution, extended, rfl, Prod.ext rfl accepted⟩
      rw [SniGroup.stored, if_pos rfl, joined] at backed
      refine enrolled.put grows ?_ elsewhere ?_ backed rfl rfl rfl
      · rintro u ⟨present | rfl, hosted⟩ address
        · obtain ⟨other, ctx, installed, listed, mine⟩ :=
            toward.hosting.members u ⟨present, hosted⟩
          rw [address] at installed
          obtain rfl : other = hot := Option.some.inj (installed.symm.trans group)
          exact ⟨ctx, (SniDispatchTable.mem_contexts_addContext extended ctx).mpr
            (.inr listed), mine⟩
        · exact ⟨{ tenant := resolved },
            (SniDispatchTable.mem_contexts_addContext extended _).mpr (.inl rfl),
            name, sameSni, sameTls⟩
      · intro ctx answered
        rcases (SniDispatchTable.mem_contexts_addContext extended ctx).mp answered with rfl | listed
        · exact ⟨t, ⟨.inr rfl, by simp [hostname]⟩, rfl, name, sameSni, sameTls⟩
        · obtain ⟨u, known, address, mine⟩ :=
            toward.hosting.owners t.listen hot ctx group listed
          exact ⟨u, grows u known, address, mine⟩

/-- The registered tenants before and after a spawn are the same. -/
theorem present_spawned {disk : Disk} {config : Config} {t : TenantConfig} {runtime : TenantRuntime}
    {serves : Bool} (spawn : Daemon.Spawned disk config t runtime before after serves)
    (u : TenantConfig) : after.shared.Present u ↔ before.shared.Present u := by
  cases spawn <;> exact Iff.rfl

/-- What a settled ADD finds. -/
theorem add_granted {files : TenantFiles} {disk : Disk} {t : TenantConfig}
    {added removed : List String}
    (applying : before.signal = .applying cfg (t.name :: added) removed)
    (known : t ∈ cfg.config.tenants)
    (found : cfg.config.tenants.find? (fun u => u.name = t.name) = some t)
    (admitted : settles before (.add files disk) = true) :
    (∃ runtime, buildTenantRuntime files cfg.config t before.nextRuntime = .ok runtime) ∧
      (∀ u ∈ cfg.config.tenants, ∀ tls, u.tls = some tls →
        (buildAcceptor disk tls).isOk = true) ∧
      (t.sni ≠ none → ∀ hot, before.shared.sniDispatches.get? t.listen = some hot →
        t.sni = some t.name ∧
          ∃ trigger, before.shared.reloadTriggers.get? (groupKey t.listen) =
            some (.multi trigger)) := by
  simp only [settles, cooperates, routable, applying, found, Bool.and_eq_true, List.all_eq_true,
    Option.all_some] at admitted
  obtain ⟨granted, joins⟩ := admitted
  refine ⟨?_, ?_, ?_⟩
  · have builds := (granted t known).1
    simp only [ne_eq, not_true_eq_false, decide_false, Bool.false_or] at builds
    cases outcome : buildTenantRuntime files cfg.config t before.nextRuntime with
    | error message => simp [outcome, Except.isOk, Except.toBool] at builds
    | ok runtime => exact ⟨runtime, rfl⟩
  · intro u other tls secure
    have loads := (granted u other).2
    rw [secure] at loads
    exact loads
  · intro hostname hot installed
    simp only [installed, Option.isNone_some, Bool.or_false, Bool.or_eq_true,
      Option.isNone_iff_eq_none, hostname, false_or, Bool.and_eq_true, decide_eq_true_eq] at joins
    refine ⟨joins.1, ?_⟩
    have stored := joins.2
    simp only [Shared.groupTriggered] at stored
    split at stored
    · rename_i trigger holds
      exact ⟨trigger, holds⟩
    · cases stored

/-- An ADD brings the daemon closer to its configuration. -/
theorem added (toward : before.Toward cfg) (sound : before.Sound)
    {files : TenantFiles} {disk : Disk}
    {name : String} {t : TenantConfig} {added removed : List String}
    (applying : before.signal = .applying cfg (name :: added) removed)
    (found : cfg.config.tenants.find? (fun t => t.name = name) = some t)
    (admitted : settles before (.add files disk) = true) :
    ((before.addTenant files disk cfg t).1.proceed cfg added removed).Toward cfg := by
  obtain rfl := Daemon.declared_name found
  have known : t ∈ cfg.config.tenants := List.mem_of_find?_eq_some found
  have new : t.name ∉ before.shared.tenantNames :=
    sound.adding.2 t.name (by simp [applying, SignalTask.added])
  obtain ⟨⟨runtime, built⟩, loads, joining⟩ := add_granted applying known found admitted
  have named : runtime.name = t.name := by rw [buildTenantRuntime_spec built]
  have numbered : runtime.id = before.nextRuntime := by rw [buildTenantRuntime_spec built]
  have serves := toward.add_serves known new built loads joining
  have spawn := (before.enroll cfg t runtime).spawnAdded_spawned disk cfg.config t runtime
  simp only [Daemon.addTenant, built] at serves ⊢
  rw [serves] at spawn
  have present : ∀ u, ((((before.enroll cfg t runtime).spawnAdded disk cfg.config t
      runtime).1.countAdded.proceed cfg added removed).shared.Present u ↔
        before.shared.Present u ∨ u = t) := fun u =>
    (present_spawned spawn u).trans (present_enroll sound applying named u)
  have looped := toward.looped_spawned named numbered new spawn
  have hosting := toward.hosting_spawned named (fun hostname hot installed =>
    (joining hostname hot installed).1) spawn
  have serving := spawn.same.2.2.2.2.2.2
  have covered : ∀ u, before.shared.Present u ∧ u.name ∉ removed ↔
      u ∈ cfg.config.tenants ∧ u.name ∉ t.name :: added := by
    simpa [applying, SignalTask.added, SignalTask.removed] using toward.covered
  have once : (t.name :: added).Nodup := by simpa [applying, SignalTask.added] using sound.adding.1
  have fresh : t.name ∉ removed := fun leaving =>
    new (sound.removing.2 t.name (by simpa [applying, SignalTask.removed] using leaving))
  constructor
  · exact toward.valid
  · exact toward.role
  · exact fun other under => Daemon.proceed_config _ cfg added removed under
  · rw [Daemon.proceed_added]
    intro other member
    exact toward.declared other (by simp [applying, SignalTask.added, member])
  · intro u
    rw [Daemon.proceed_added, Daemon.proceed_removed, present]
    constructor
    · rintro ⟨member | rfl, stays⟩
      · obtain ⟨declared, later⟩ := (covered u).mp ⟨member, stays⟩
        exact ⟨declared, fun listed => later (List.mem_cons_of_mem _ listed)⟩
      · exact ⟨known, (List.nodup_cons.mp once).1⟩
    · rintro ⟨declared, later⟩
      by_cases same : u.name = t.name
      · have equal :=
          List.inj_on_of_nodup_map (Config.validate_names_nodup toward.valid) declared known same
        exact ⟨.inr equal, same ▸ fresh⟩
      · have earlier := (covered u).mpr ⟨declared, by simp [same, later]⟩
        exact ⟨.inl earlier.1, earlier.2⟩
  · intro u member leaving
    rw [Daemon.proceed_removed] at leaving
    rcases (present u).mp member with old | rfl
    · exact toward.plain u old (by simpa [applying, SignalTask.removed] using leaving)
    · exact absurd leaving fresh
  · refine Daemon.Looped.frame (looped.congr ?_) rfl rfl rfl (fun _ known => known) rfl rfl
      rfl rfl rfl
    intro u
    rw [present]
  · refine Shared.Hosting.same (hosting.congr ?_) rfl rfl
    intro u
    rw [present]
  · exact Daemon.proceed_goesOn _ cfg added removed
  · exact serving.trans toward.serving

/-- The tenant of a name that the cycle removes. -/
theorem leaving (toward : before.Toward cfg) (sound : before.Sound) {name : String}
    (listed : name ∈ before.signal.removed) : ∃ t, before.shared.Present t ∧ t.name = name ∧
      t.sni = none ∧ ∀ u, before.shared.Present u → u.name = name → u = t := by
  have registered := sound.removing.2 name listed
  obtain ⟨t, known, rfl⟩ := List.mem_map.mp ((sound.keyed.configs name).mpr (.inl registered))
  refine ⟨t, ⟨known, registered⟩, rfl, toward.plain t ⟨known, registered⟩ listed, ?_⟩
  intro u other same
  exact List.inj_on_of_nodup_map sound.keyed.configsOnce other.1 known same

/-- No group has a tenant that the cycle removes. -/
theorem alone (toward : before.Toward cfg) (sound : before.Sound) {name : String}
    (listed : name ∈ before.signal.removed) : before.shared.sniTarget name = none := by
  obtain ⟨t, _, _, ownLoop, unique⟩ := toward.leaving sound listed
  cases target : before.shared.sniTarget name with
  | none => rfl
  | some group =>
      obtain ⟨installed, member⟩ := Shared.sniTarget_eq_some target
      obtain ⟨ctx, answered, named⟩ := List.mem_map.mp member
      obtain ⟨u, ⟨present, hostname⟩, _, sameName, _⟩ :=
        toward.hosting.owners group.1 group.2 ctx installed answered
      rw [unique u present (sameName.symm.trans named)] at hostname
      exact absurd ownLoop hostname

/-- A REMOVE ends the loop of its tenant and waits for the channel. -/
theorem removed (toward : before.Toward cfg) (sound : before.Sound) (traced : before.Traced)
    {disk : Disk} {name : String} {removed : List String}
    (applying : before.signal = .applying cfg [] (name :: removed)) :
    (before.removeTenant disk true name cfg removed).Toward cfg := by
  have listed : name ∈ before.signal.removed := by simp [applying, SignalTask.removed]
  have own := toward.alone sound listed
  obtain ⟨t, present, rfl, ownLoop, unique⟩ := toward.leaving sound listed
  obtain ⟨id, task, entry, _, _, _, audited, held⟩ := toward.looped.own t ⟨present, ownLoop⟩
  obtain ⟨channel, audit⟩ := Option.ne_none_iff_exists'.mp (audited ▸ held)
  have shutdown := (toward.looped.stops t ⟨present, ownLoop⟩).trans audit
  have ended : before.removeTenant disk true t.name cfg removed =
      ((before.takeTask t.name channel).purgeSingle t.name id).await .single t.name channel cfg
        removed := by
    simp [Daemon.removeTenant, own, Daemon.removeSingle, shutdown, entry, Daemon.enterDrain,
      Daemon.purgeSingle, Daemon.takeTask, audit]
  have looped : (((before.takeTask t.name channel).purgeSingle t.name id).await
      .single t.name channel
      cfg removed).Looped fun u => (before.shared.Present u ∧ u.sni = none) ∧ u ≠ t :=
    toward.looped.remove traced (fun u member same => unique u member.1 same)
      ⟨present, ownLoop⟩ entry shutdown audit
  have left : ∀ u, (((before.takeTask t.name channel).purgeSingle t.name id).await .single t.name
      channel cfg removed).shared.Present u ↔ before.shared.Present u ∧ u ≠ t := by
    intro u
    simp only [Shared.Present, Daemon.await, Daemon.purgeSingle, Daemon.takeTask, List.mem_filter,
      decide_eq_true_eq]
    constructor
    · rintro ⟨known, registered, different⟩
      exact ⟨⟨known, registered⟩, fun same => different (same ▸ rfl)⟩
    · rintro ⟨⟨known, registered⟩, different⟩
      exact ⟨known, registered, fun same => different (unique u ⟨known, registered⟩ same)⟩
  have covered : ∀ u, before.shared.Present u ∧ u.name ∉ t.name :: removed ↔
      u ∈ cfg.config.tenants := by
    simpa [applying, SignalTask.added, SignalTask.removed] using toward.covered
  rw [ended]
  constructor
  · exact toward.valid
  · exact toward.role
  · rintro other ⟨⟩
    rfl
  · exact fun name member => by cases member
  · intro u
    rw [left]
    refine Iff.trans ?_ ((covered u).trans (by simp [Daemon.await, SignalTask.added]))
    simp only [Daemon.await, SignalTask.removed, List.mem_cons, not_or]
    constructor
    · rintro ⟨⟨member, different⟩, stays⟩
      exact ⟨member, fun same => different (unique u member same), stays⟩
    · rintro ⟨member, different, stays⟩
      exact ⟨⟨member, fun same => different (same ▸ rfl)⟩, stays⟩
  · intro u member later
    exact toward.plain u ((left u).mp member).1
      (by simpa [applying, SignalTask.removed] using .inr later)
  · refine looped.congr ?_
    intro u
    rw [left]
    grind
  · refine Shared.Hosting.same (toward.hosting.congr ?_) rfl rfl
    intro u
    rw [left]
    grind
  · rfl
  · exact toward.serving

/-- The end of a removal. -/
theorem resumed (toward : before.Toward cfg) (sound : before.Sound) {name : String}
    {channel : RuntimeId} {removed : List String}
    (draining : before.signal = .draining .single name channel cfg removed) :
    (before.finishSingle name cfg removed).Toward cfg := by
  have gone : name ∉ before.shared.tenantNames :=
    sound.keyed.gone name (by simp [draining, SignalTask.leaving])
  have same : ∀ u, (before.finishSingle name cfg removed).shared.Present u ↔
      before.shared.Present u := by
    intro u
    simp only [Shared.Present, Daemon.finishSingle, Daemon.proceed, Shared.purgeRest,
      List.mem_filter, decide_eq_true_eq]
    constructor
    · rintro ⟨⟨known, _⟩, registered⟩
      exact ⟨known, registered⟩
    · rintro ⟨known, registered⟩
      exact ⟨⟨known, fun equal => gone (equal ▸ registered)⟩, registered⟩
  have covered := toward.covered
  have plain := toward.plain
  simp only [draining, SignalTask.added, SignalTask.removed] at covered plain
  constructor
  · exact toward.valid
  · exact toward.role
  · exact fun other under => Daemon.proceed_config _ cfg [] removed under
  · simp [Daemon.finishSingle]
  · intro u
    rw [same]
    simpa [Daemon.finishSingle] using covered u
  · intro u member
    rw [same] at member
    simpa [Daemon.finishSingle] using plain u member
  · refine Daemon.Looped.frame (toward.looped.congr ?_) rfl rfl rfl (fun _ known => known) rfl rfl
      rfl rfl rfl
    intro u
    rw [same]
  · refine Shared.Hosting.erase (toward.hosting.congr ?_) rfl rfl
    intro u
    rw [same]
  · exact Daemon.proceed_goesOn _ cfg [] removed
  · exact toward.serving

/-- A SIGHUP turns the daemon towards the new file. -/
theorem turned (toward : before.Toward cfg) (sound : before.Sound) {next : DaemonConfig}
    {added removed : List String} (idle : before.signal = .idle)
    (valid : next.config.validate = .ok ()) (adds : added.Perm (before.addedNames next.config))
    (removes : removed.Perm (before.removedNames next.config))
    (admitted : settles before (.sighup (some next) added removed) = true) :
    ({ before with
        shared := before.shared.countCycle.applyLimits next.config }.proceed
          next added removed).Toward
      next := by
  have loaded : accepted (some next) = some next := by simp [accepted, valid]
  simp only [settles, cooperates, routable, loaded, Option.all_some,
    Bool.and_eq_true, List.all_eq_true, decide_eq_true_eq, Bool.or_eq_true,
    Option.isNone_iff_eq_none] at admitted
  obtain ⟨⟨role, unchanged⟩, spared⟩ := admitted
  obtain ⟨admissions, metrics, scanned⟩ :=
    (before.shared.countCycle.applyLimits_hotOnly next.config).exists_eq
  have keyed : before.shared.Keyed none := by simpa [idle, SignalTask.leaving] using sound.keyed
  have toAdd : ∀ name, name ∈ added ↔ name ∈ next.config.tenants.map TenantConfig.name ∧
      name ∉ before.shared.tenantNames := by
    intro name
    rw [adds.mem_iff, Daemon.addedNames, List.mem_filter, decide_eq_true_eq]
  have toRemove : ∀ name, name ∈ removed ↔ name ∈ before.shared.tenantNames ∧
      name ∉ next.config.tenants.map TenantConfig.name := by
    intro name
    rw [removes.mem_iff, Daemon.removedNames, List.mem_filter, decide_eq_true_eq]
  rw [scanned]
  constructor
  · exact valid
  · exact role
  · exact fun other under => Daemon.proceed_config _ next added removed under
  · rw [Daemon.proceed_added]
    exact fun name member => ((toAdd name).mp member).1
  · intro t
    rw [Daemon.proceed_added, Daemon.proceed_removed, toAdd, toRemove]
    change (t ∈ before.shared.tenantConfigs ∧ t.name ∈ before.shared.tenantNames) ∧ _ ↔ _
    constructor
    · rintro ⟨⟨known, registered⟩, stays⟩
      obtain ⟨u, declared, same⟩ :=
        List.mem_map.mp (not_not.mp fun absent => stays ⟨registered, absent⟩)
      have equal := (unchanged t known u declared).resolve_left (by simp [same])
      exact ⟨equal ▸ declared, fun new => new.2 registered⟩
    · rintro ⟨declared, old⟩
      have name : t.name ∈ next.config.tenants.map TenantConfig.name :=
        List.mem_map.mpr ⟨t, declared, rfl⟩
      have registered : t.name ∈ before.shared.tenantNames :=
        not_not.mp fun new => old ⟨name, new⟩
      obtain ⟨known, listed, same⟩ :=
        List.mem_map.mp ((keyed.configs t.name).mpr (.inl registered))
      have equal := (unchanged known listed t declared).resolve_left (by simp [same])
      exact ⟨⟨equal ▸ listed, registered⟩, fun dropped => dropped.2 name⟩
  · intro t present leaving
    rw [Daemon.proceed_removed, toRemove] at leaving
    exact (spared t present.1).resolve_right leaving.2
  · exact Daemon.Looped.frame toward.looped rfl rfl rfl (fun _ known => known) rfl rfl rfl rfl rfl
  · exact Shared.Hosting.same toward.hosting rfl rfl
  · exact Daemon.proceed_goesOn _ next added removed
  · exact toward.serving

/-- SIGUSR1 rebuilds acceptors only. -/
theorem reloaded (toward : before.Toward cfg) (disk : Disk) (key : String) :
    (before.reloadTrigger disk key).Toward cfg := by
  rcases before.reloadTrigger_cases disk key with same | ⟨trigger, found, moved⟩
  · rw [same]
    exact toward
  · rw [moved]
    refine toward.frame rfl (fun _ => Iff.rfl) ?_ ?_ toward.serving
    · refine toward.looped.frame rfl rfl rfl ?_ rfl rfl rfl rfl rfl
      intro listen known
      obtain ⟨hot, installed⟩ := KeyedMap.mem_keys_iff.mp known
      obtain ⟨old, wasInstalled, _⟩ := Daemon.get?_reloaded installed
      exact KeyedMap.mem_keys_iff.mpr ⟨old, wasInstalled⟩
    · exact toward.hosting.reload disk found rfl rfl

/-- An accept loop binds its address. -/
theorem bound (toward : before.Toward cfg) {id : TaskId} {granted : Bool}
    (admitted : settles before (.bind id granted) = true)
    (moved : before.bindTask id granted = some after) : after.Toward cfg := by
  simp only [settles, cooperates, routable, Bool.and_eq_true] at admitted
  obtain ⟨rfl, free⟩ := admitted
  simp only [Daemon.bindTask] at moved
  split at moved
  · rename_i task found
    simp only [found, Option.all_some] at free
    simp only [free, Bool.and_self, if_true] at moved
    split at moved
    · cases moved
    · cases moved
      exact toward.frame rfl (fun _ => Iff.rfl) (toward.looped.bind found)
        toward.hosting toward.serving
  · cases moved

/-- No accept loop has a reason to return. -/
theorem unexited (toward : before.Toward cfg) {id : TaskId}
    (moved : before.exitTask id = some after) : after.Toward cfg := by
  simp only [Daemon.exitTask] at moved
  split at moved
  · rename_i task found
    split at moved
    · rename_i told
      simp only [toward.looped.ungrouped, List.not_mem_nil, decide_false,
        Bool.or_false, Bool.and_eq_true, Option.any_eq_true, decide_eq_true_eq] at told
      obtain ⟨_, channel, audit, stopped⟩ := told
      exact absurd stopped (toward.looped.unstopped id task channel found audit)
    · cases moved
  · cases moved

/-- Sessions and writers. -/
theorem same (toward : before.Toward cfg) (shared : after.shared = before.shared)
    (signal : after.signal = before.signal) (main : after.main = before.main)
    (running : after.running = before.running) (notified : after.notified = before.notified)
    (notifiedGroups : after.notifiedGroups = before.notifiedGroups)
    (nextRuntime : after.nextRuntime = before.nextRuntime)
    (nextTask : after.nextTask = before.nextTask) : after.Toward cfg := by
  refine toward.frame signal (fun _ => by rw [shared]) ?_ ?_ (main.trans toward.serving)
  · refine toward.looped.frame ?_ ?_ ?_ ?_ running notified notifiedGroups nextRuntime nextTask
    · rw [shared]
    · rw [shared]
    · rw [shared]
    · rw [shared]
      exact fun _ known => known
  · rw [shared]
    exact toward.hosting

/-- The step lemma. -/
theorem step (toward : before.Toward cfg) (sound : before.Sound) (traced : before.Traced)
    {label : DaemonLabel} (admitted : settles before label = true)
    (stepped : daemonMachine.step before label = some after) : after.Toward (cfg.after label) := by
  have alive := (Daemon.step_moved stepped).1
  simp only [daemonMachine, Daemon.step, if_neg alive] at stepped
  cases label with
  | sighup file added removed =>
      simp only [Daemon.move] at stepped
      split at stepped
      · rename_i idle
        simp only [Daemon.beginCycle] at stepped
        split at stepped
        · rename_i refused
          cases stepped
          have kept : cfg.after (.sighup file added removed) = cfg := by
            simp only [DaemonConfig.after, accepted, refused, Option.getD_none]
          rw [kept]
          exact toward.frame rfl (fun _ => Iff.rfl)
            (toward.looped.frame rfl rfl rfl (fun _ known => known) rfl rfl rfl rfl rfl)
            (toward.hosting.same rfl rfl) toward.serving
        · rename_i next loaded
          have turns : cfg.after (.sighup file added removed) = next := by
            simp only [DaemonConfig.after, accepted, loaded, Option.getD_some]
          obtain ⟨given, valid⟩ := Option.filter_eq_some_iff.mp loaded
          cases given
          split at stepped
          · rename_i orders
            cases stepped
            rw [turns]
            exact toward.turned sound idle (by simpa using valid) orders.1 orders.2 admitted
          · cases stepped
      · cases stepped
  | add files disk =>
      simp only [Daemon.move] at stepped
      split at stepped
      · rename_i other name added removed applying
        obtain rfl := toward.config other (by simp [applying, SignalTask.config])
        obtain ⟨t, found, rfl⟩ := Option.map_eq_some_iff.mp stepped
        exact toward.added sound applying found admitted
      · cases stepped
  | remove disk inTime =>
      simp only [Daemon.move] at stepped
      split at stepped
      · rename_i other name removed applying
        obtain rfl := toward.config other (by simp [applying, SignalTask.config])
        obtain rfl : inTime = true := by
          simpa [settles, cooperates, routable] using admitted
        cases stepped
        exact toward.removed sound traced applying
      · cases stepped
  | drained inTime =>
      simp only [Daemon.move] at stepped
      split at stepped
      · rename_i removal name channel other removed draining
        obtain rfl := toward.config other (by simp [draining, SignalTask.config])
        split at stepped
        · cases stepped
          cases removal with
          | single => exact toward.resumed sound draining
          | sni listen old =>
              have waits := toward.goesOn
              rw [draining] at waits
              cases waits
        · cases stepped
      · cases stepped
  | sigusr1 disk key =>
      simp only [Daemon.move] at stepped
      split at stepped
      · cases stepped
        exact toward.reloaded disk key
      · cases stepped
  | sigterm => cases admitted
  | joined =>
      simp only [Daemon.move, toward.serving] at stepped
      split at stepped
      · rename_i guard
        cases guard.1
      · cases stepped
  | mainDrained =>
      simp only [Daemon.move, toward.serving] at stepped
      cases stepped
  | bind id granted => exact toward.bound admitted stepped
  | exit id => exact toward.unexited stepped
  | accept id =>
      simp only [Daemon.move, Daemon.acceptConnection] at stepped
      split at stepped
      · split at stepped
        · split at stepped <;> cases stepped <;> exact toward.same rfl rfl rfl rfl rfl rfl rfl rfl
        · cases stepped
      · cases stepped
  | dispatch listen channel =>
      simp only [Daemon.move, Daemon.dispatchSession] at stepped
      split at stepped
      · split at stepped
        · cases stepped
          exact toward.same rfl rfl rfl rfl rfl rfl rfl rfl
        · cases stepped
      · cases stepped
  | handshakeFails listen =>
      obtain ⟨_, ⟨⟩⟩ := Option.ite_none_right_eq_some.mp stepped
      exact toward.same rfl rfl rfl rfl rfl rfl rfl rfl
  | sessionEnds channel =>
      obtain ⟨_, ⟨⟩⟩ := Option.ite_none_right_eq_some.mp stepped
      exact toward.same rfl rfl rfl rfl rfl rfl rfl rfl
  | writerReturns channel =>
      obtain ⟨_, ⟨⟩⟩ := Option.ite_none_right_eq_some.mp stepped
      exact toward.same rfl rfl rfl rfl rfl rfl rfl rfl

end Daemon.Toward

/-- The work that a cycle has left. -/
def SignalTask.work : SignalTask → Nat
  | .idle => 0
  | .applying _ added removed => 2 * (added.length + removed.length)
  | .draining _ _ _ _ removed => 2 * removed.length + 1
  | .returned => 0

@[simp] theorem Daemon.proceed_work (daemon : Daemon) (cfg : DaemonConfig)
    (added removed : List String) :
    (daemon.proceed cfg added removed).signal.work = 2 * (added.length + removed.length) := by
  simp only [Daemon.proceed]
  split
  · rename_i done
    simp only [Bool.and_eq_true, List.isEmpty_iff] at done
    rw [done.1, done.2]
    rfl
  · rfl

/-- Nothing stops a cycle from being completed. -/
structure Daemon.Unblocked (daemon : Daemon) : Prop where
  sound : daemon.Sound
  traced : daemon.Traced
  owned : daemon.Owned
  declared : ∀ cfg ∈ daemon.signal.config, ∀ name ∈ daemon.signal.added,
    name ∈ cfg.config.tenants.map TenantConfig.name
  alone : ∀ name ∈ daemon.signal.removed, ∀ listen hot,
    daemon.shared.sniDispatches.get? listen = some hot → name ∉ hot.table.tenantNames
  goesOn : daemon.signal.goesOn = true
  serving : daemon.main = .serving

/-- Only the name of the new tenant is new in the tables. -/
theorem Daemon.Spawned.unlisted {disk : Disk} {cfg : Config} {t : TenantConfig}
    {runtime : TenantRuntime} {before after : Daemon} {serves : Bool}
    (spawn : Daemon.Spawned disk cfg t runtime before after serves) {name : String}
    (other : name ≠ t.name)
    (absent : ∀ listen hot, before.shared.sniDispatches.get? listen = some hot →
      name ∉ hot.table.tenantNames) (listen : String) (hot : HotSniDispatchTable)
    (installed : after.shared.sniDispatches.get? listen = some hot) :
    name ∉ hot.table.tenantNames := by
  cases spawn with
  | unserved => exact absent listen hot installed
  | unresolved => exact absent listen hot installed
  | rolledBack => exact absent listen hot installed
  | plain => exact absent listen hot installed
  | secured => exact absent listen hot installed
  | group hostname secure role missing built =>
      simp only [Daemon.installGroup, KeyedMap.get?_insert] at installed
      split at installed
      · cases installed
        obtain ⟨resolved, resolution, _, dispatched⟩ := newGroup_spec built
        intro member
        obtain ⟨ctx, answered, rfl⟩ := List.mem_map.mp member
        have only := (SniDispatchTable.mem_contexts_new dispatched ctx).mp answered
        rw [List.mem_singleton] at only
        subst only
        exact other (Config.resolveOneServeTcp_spec resolution).1
      · exact absent listen hot installed
  | @member _ _ old resolved _ _ _ _ hostname secure role group resolution extended found mutated =>
      simp only [KeyedMap.get?_insert] at installed
      split at installed
      · cases installed
        intro member
        obtain ⟨ctx, answered, rfl⟩ := List.mem_map.mp member
        rcases (SniDispatchTable.mem_contexts_addContext extended ctx).mp answered with
          rfl | earlier
        · exact other (Config.resolveOneServeTcp_spec resolution).1
        · exact absent _ old group (List.mem_map.mpr ⟨ctx, earlier, rfl⟩)
      · exact absent listen hot installed

namespace Daemon.Unblocked

variable {before after : Daemon} {files : TenantFiles} {disk : Disk}

/-- Steps that go on with a cycle and leave the tables alone. -/
theorem moved (unblocked : before.Unblocked) {label : DaemonLabel}
    (stepped : daemonMachine.step before label = some after)
    (declared : ∀ cfg ∈ after.signal.config, ∀ name ∈ after.signal.added,
      name ∈ cfg.config.tenants.map TenantConfig.name)
    (alone : ∀ name ∈ after.signal.removed, ∀ listen hot,
      after.shared.sniDispatches.get? listen = some hot → name ∉ hot.table.tenantNames)
    (goesOn : after.signal.goesOn = true) (main : after.main = before.main) : after.Unblocked := by
  have moved := (Daemon.step_moved stepped).2
  exact ⟨unblocked.sound.moved moved, unblocked.traced.moved unblocked.sound moved,
    unblocked.owned.moved unblocked.sound unblocked.traced moved, declared, alone, goesOn,
    main.trans unblocked.serving⟩

/-- The step function of a daemon that serves. -/
theorem step_eq (unblocked : before.Unblocked) (label : DaemonLabel) :
    daemonMachine.step before label = before.move label := by
  simp [daemonMachine, Daemon.step, unblocked.serving]

/-- An ADD can be made. -/
theorem adds (unblocked : before.Unblocked) {cfg : DaemonConfig} {name : String}
    {added removed : List String} (applying : before.signal = .applying cfg (name :: added) removed)
    (files : TenantFiles) (disk : Disk) :
    ∃ after, daemonMachine.step before (.add files disk) = some after ∧
      after.Unblocked ∧ after.signal.work < before.signal.work := by
  obtain ⟨t, found⟩ : ∃ t, cfg.config.tenants.find? (fun t => t.name = name) = some t := by
    have known := unblocked.declared cfg (by simp [applying, SignalTask.config]) name
      (by simp [applying, SignalTask.added])
    obtain ⟨t, member, rfl⟩ := List.mem_map.mp known
    exact Option.isSome_iff_exists.mp (List.find?_isSome.mpr ⟨t, member, by simp⟩)
  have named := Daemon.declared_name found
  have stepped : daemonMachine.step before (.add files disk) =
      some ((before.addTenant files disk cfg t).1.proceed cfg added removed) := by
    rw [unblocked.step_eq]
    simp only [Daemon.move, applying, found, Option.map_some]
    rfl
  have earlier : ∀ other ∈ added, other ∈ cfg.config.tenants.map TenantConfig.name :=
    fun other member =>
    unblocked.declared cfg (by simp [applying, SignalTask.config]) other
      (by simp [applying, SignalTask.added, member])
  have absent : ∀ other ∈ removed, other ≠ t.name ∧ ∀ listen hot,
      before.shared.sniDispatches.get? listen = some hot → other ∉ hot.table.tenantNames := by
    intro other member
    have leaving : other ∈ before.signal.removed := by simp [applying, SignalTask.removed, member]
    refine ⟨?_, unblocked.alone other leaving⟩
    rintro rfl
    exact unblocked.sound.adding.2 t.name (by simp [applying, SignalTask.added, named])
      (unblocked.sound.removing.2 t.name leaving)
  refine ⟨_, stepped, unblocked.moved stepped ?_ ?_ (Daemon.proceed_goesOn ..) ?_, ?_⟩
  · intro other under
    rw [Daemon.proceed_config _ cfg added removed under, Daemon.proceed_added]
    exact earlier
  · rw [Daemon.proceed_removed]
    intro other member listen hot installed
    obtain ⟨different, unlisted⟩ := absent other member
    cases built : buildTenantRuntime files cfg.config t before.nextRuntime with
    | error message =>
        simp only [Daemon.addTenant, built] at installed
        exact unlisted listen hot installed
    | ok runtime =>
        simp only [Daemon.addTenant, built] at installed
        exact ((before.enroll cfg t runtime).spawnAdded_spawned disk cfg.config t runtime).unlisted
          different unlisted listen hot installed
  · cases built : buildTenantRuntime files cfg.config t before.nextRuntime with
    | error message => simp only [Daemon.addTenant, built, Daemon.proceed, Daemon.countAddFailed]
    | ok runtime =>
        have same := ((before.enroll cfg t runtime).spawnAdded_spawned disk cfg.config t
          runtime).same.2.2.2.2.2.2
        simp only [Daemon.addTenant, built]
        exact same
  · rw [Daemon.proceed_work, applying]
    simp only [SignalTask.work, List.length_cons]
    omega

/-- A REMOVE can be made. -/
theorem removes (unblocked : before.Unblocked) {cfg : DaemonConfig} {name : String}
    {removed : List String} (applying : before.signal = .applying cfg [] (name :: removed))
    (disk : Disk) : ∃ after, daemonMachine.step before (.remove disk true) = some after ∧
      after.Unblocked ∧ after.signal.work < before.signal.work := by
  have stepped : daemonMachine.step before (.remove disk true) =
      some (before.removeTenant disk true name cfg removed) := by
    rw [unblocked.step_eq]
    simp only [Daemon.move, applying]
    rfl
  have grouped : ∀ listen hot, before.shared.sniTarget name ≠ some (listen, hot) := by
    intro listen hot member
    obtain ⟨installed, listed⟩ := Shared.sniTarget_eq_some member
    exact unblocked.alone name (by simp [applying, SignalTask.removed]) listen hot installed listed
  have absent : ∀ other ∈ removed, ∀ listen hot,
      before.shared.sniDispatches.get? listen = some hot → other ∉ hot.table.tenantNames :=
    fun other member => unblocked.alone other (by simp [applying, SignalTask.removed, member])
  have proceeds : ∀ moved : Daemon, moved.shared.sniDispatches = before.shared.sniDispatches →
      moved.main = before.main →
      daemonMachine.step before (.remove disk true) = some (moved.proceed cfg [] removed) →
      (moved.proceed cfg [] removed).Unblocked ∧
        (moved.proceed cfg [] removed).signal.work < before.signal.work := by
    intro moved tables main advanced
    refine ⟨unblocked.moved advanced (by simp) ?_ (Daemon.proceed_goesOn ..) main, ?_⟩
    · rw [Daemon.proceed_removed, Daemon.proceed_shared, tables]
      exact absent
    · rw [Daemon.proceed_work, applying]
      simp only [SignalTask.work, List.length_cons, List.length_nil]
      omega
  refine ⟨_, stepped, ?_⟩
  have removing := before.removeTenant_removing disk true name cfg removed
  generalize before.removeTenant disk true name cfg removed = after at removing stepped ⊢
  cases removing with
  | skipped => exact proceeds _ rfl rfl stepped
  | unhandled own found => exact proceeds _ rfl rfl stepped
  | timedOut own found handle late => cases late
  | single own found handle early audit =>
      refine ⟨unblocked.moved stepped ?_ absent rfl rfl, ?_⟩
      · exact fun _ _ _ member => by cases member
      · rw [applying]
        simp only [Daemon.await, SignalTask.work, List.length_cons, List.length_nil]
        omega
  | untriggered member missing => exact absurd member (grouped _ _)
  | rolledBack member found refused => exact absurd member (grouped _ _)
  | sni member left found mutated audit => exact absurd member (grouped _ _)
  | unaudited audit => exact absurd audit (unblocked.sound.audited applying).2

/-- The wait for a channel that has drained ends. -/
theorem resumes (unblocked : before.Unblocked) {cfg : DaemonConfig} {name : String}
    {channel : RuntimeId} {removed : List String}
    (draining : before.signal = .draining .single name channel cfg removed)
    (drained : channel ∈ before.finished) : ∃ after,
      daemonMachine.step before (.drained true) = some after ∧ after.Unblocked ∧
        after.signal.work < before.signal.work := by
  have stepped : daemonMachine.step before (.drained true) =
      some (before.finishSingle name cfg removed) := by
    rw [unblocked.step_eq]
    simp only [Daemon.move, draining, if_pos drained, Daemon.resumeRemoval]
    rfl
  refine ⟨_, stepped, unblocked.moved stepped ?_ ?_ (Daemon.proceed_goesOn ..) rfl, ?_⟩
  · simp [Daemon.finishSingle]
  · simp only [Daemon.finishSingle, Daemon.proceed_removed]
    exact fun other member => unblocked.alone other (by simp [draining, SignalTask.removed, member])
  · rw [Daemon.finishSingle, Daemon.proceed_work, draining]
    simp [SignalTask.work]

/-- The wait for a channel can be ended: its sessions end, its writer returns. -/
theorem drains {cfg : DaemonConfig} {name : String} {channel : RuntimeId} {removed : List String}
    (unblocked : before.Unblocked)
    (draining : before.signal = .draining .single name channel cfg removed) : ∃ labels after,
      daemonMachine.Runs (fun _ label => label.Finds files disk) before labels after ∧
        after.Unblocked ∧ after.signal.work < before.signal.work := by
  -- The induction is on the sessions that hold a handle of the channel.
  induction count : before.sessions.count channel generalizing before with
  | zero =>
      have quiet : channel ∉ before.sessions := List.count_eq_zero.mp count
      by_cases drained : channel ∈ before.finished
      · obtain ⟨after, stepped, later⟩ := unblocked.resumes draining drained
        exact ⟨[.drained true], after, .snoc .nil trivial stepped, later⟩
      · have unheld := unblocked.owned.single name channel cfg removed draining
        have closed : channel ∈ before.closing := by
          by_contra taken
          rw [Daemon.holdsHandle_iff.mpr (.inl taken)] at unheld
          cases unheld
        have stepped : daemonMachine.step before (.writerReturns channel) =
            some { before with finished := channel :: before.finished } := by
          rw [unblocked.step_eq]
          exact if_pos ⟨unblocked.traced.closed channel closed, unheld, quiet, drained⟩
        have returned :=
          unblocked.moved stepped unblocked.declared unblocked.alone unblocked.goesOn rfl
        obtain ⟨after, resumed, later⟩ := returned.resumes draining List.mem_cons_self
        have drainedRun : daemonMachine.Runs (fun _ label => label.Finds files disk) before
            [.writerReturns channel, .drained true] after :=
          .snoc (.snoc .nil trivial stepped) trivial resumed
        exact ⟨_, after, drainedRun, later⟩
  | succ left inductionHypothesis =>
      have session : channel ∈ before.sessions := by
        rw [← List.count_pos_iff, count]
        exact Nat.succ_pos left
      have stepped : daemonMachine.step before (.sessionEnds channel) =
          some { before with sessions := before.sessions.erase channel } := by
        rw [unblocked.step_eq]
        exact if_pos session
      have ended := unblocked.moved stepped unblocked.declared unblocked.alone unblocked.goesOn rfl
      have fewer : (before.sessions.erase channel).count channel = left := by
        rw [List.count_erase_self, count, Nat.add_sub_cancel]
      obtain ⟨labels, after, run, later⟩ := inductionHypothesis ended draining fewer
      exact ⟨.sessionEnds channel :: labels, after, .cons trivial stepped run, later⟩

/-- A cycle that is under way can be brought further. -/
theorem advances (unblocked : before.Unblocked) (busy : before.signal ≠ .idle) : ∃ labels after,
    daemonMachine.Runs (fun _ label => label.Finds files disk) before labels after ∧
      after.Unblocked ∧ after.signal.work < before.signal.work := by
  have goesOn := unblocked.goesOn
  cases signal : before.signal with
  | idle => exact absurd signal busy
  | applying cfg added removed =>
      cases added with
      | cons name added =>
          obtain ⟨after, stepped, later⟩ := unblocked.adds signal files disk
          exact ⟨[.add files disk], after, .snoc .nil ⟨rfl, rfl⟩ stepped, signal ▸ later⟩
      | nil =>
          cases removed with
          | cons name removed =>
              obtain ⟨after, stepped, later⟩ := unblocked.removes signal disk
              exact ⟨[.remove disk true], after, .snoc .nil trivial stepped, signal ▸ later⟩
          | nil =>
              rw [signal] at goesOn
              cases goesOn
  | draining removal name channel cfg removed =>
      cases removal with
      | single => exact signal ▸ unblocked.drains signal
      | sni listen old =>
          rw [signal] at goesOn
          cases goesOn
  | returned =>
      rw [signal] at goesOn
      cases goesOn

/-- The cycle can be completed, by induction on the work that is left. -/
theorem completes (unblocked : before.Unblocked) (files : TenantFiles) (disk : Disk) :
    ∃ labels later, daemonMachine.Runs (fun _ label => label.Finds files disk)
      before labels later ∧ later.signal = .idle := by
  induction work : before.signal.work using Nat.strong_induction_on generalizing before with
  | _ left inductionHypothesis =>
      by_cases idle : before.signal = .idle
      · exact ⟨[], before, .nil, idle⟩
      · obtain ⟨labels, after, run, stillUnblocked, less⟩ := unblocked.advances idle
        obtain ⟨rest, later, further, ended⟩ :=
          inductionHypothesis _ (work ▸ less) stillUnblocked rfl
        exact ⟨labels ++ rest, later, run.trans further, ended⟩

end Daemon.Unblocked

namespace Daemon.Toward

variable {cfg : DaemonConfig} {daemon : Daemon}

/-- Nothing stops a cycle of settled steps. -/
theorem unblocked (toward : daemon.Toward cfg) (sound : daemon.Sound) (traced : daemon.Traced)
    (owned : daemon.Owned) : daemon.Unblocked where
  sound := sound
  traced := traced
  owned := owned
  declared := by
    intro other under
    rw [toward.config other under]
    exact toward.declared
  alone := fun _ listed _ _ installed =>
    Shared.sniTarget_eq_none (toward.alone sound listed) installed
  goesOn := toward.goesOn
  serving := toward.serving

/-- A daemon that is idle on its way has arrived. -/
theorem arrived (toward : daemon.Toward cfg) (idle : daemon.signal = .idle) (t : TenantConfig) :
    daemon.shared.Present t ↔ t ∈ cfg.config.tenants := by
  simpa [idle, SignalTask.added, SignalTask.removed] using toward.covered t

/-- The daemon converges. -/
theorem converges (toward : daemon.Toward cfg) (sound : daemon.Sound) (traced : daemon.Traced)
    (owned : daemon.Owned) : Converges cfg daemon where
  completes := (toward.unblocked sound traced owned).completes
  routes := by
    intro idle bound route
    rw [Daemon.serves_iff toward.looped toward.hosting bound, Config.Declares]
    simp only [toward.arrived idle]

end Daemon.Toward

/-- Startup has arrived at its configuration. -/
theorem startDaemon_toward {files : TenantFiles} {disk : Disk}
    {cfg : DaemonConfig} {daemon : Daemon}
    (role : cfg.config.role = .serveTcp) (started : startDaemon files disk cfg = .ok daemon) :
    daemon.Toward cfg := by
  obtain ⟨present, looped, hosting⟩ := startDaemon_routed started
  obtain ⟨valid, _, _, _, launching, _⟩ := startDaemon_launching started
  obtain ⟨signal, main, _⟩ := launching.same
  have idle : daemon.signal = .idle := signal
  constructor
  · exact valid
  · exact role
  · simp [idle, SignalTask.config]
  · simp [idle, SignalTask.added]
  · simpa [idle, SignalTask.added, SignalTask.removed] using present
  · simp [idle, SignalTask.removed]
  · exact looped
  · exact hosting
  · rw [idle]
    rfl
  · exact main

/-- In every run of settled steps, the routes converge to those of the file in force. -/
theorem routes_converge {files : TenantFiles} {disk : Disk} {cfg : DaemonConfig}
    {start daemon : Daemon} {labels : List DaemonLabel} (role : cfg.config.role = .serveTcp)
    (started : startDaemon files disk cfg = .ok start)
    (run : daemonMachine.Runs (fun daemon label => settles daemon label = true)
      start labels daemon) :
    Converges (inForce cfg labels) daemon := by
  have invariant := run.labelled_invariant (fun labels (daemon : Daemon) =>
    daemon.Sound ∧ daemon.Traced ∧ daemon.Owned ∧ daemon.Toward (inForce cfg labels)) ?_ ?_
  · obtain ⟨sound, traced, owned, toward⟩ := invariant
    exact toward.converges sound traced owned
  · exact ⟨startDaemon_sound started, startDaemon_traced started, startDaemon_owned started,
      startDaemon_toward role started⟩
  · rintro labels before label after ⟨sound, traced, owned, toward⟩ admitted stepped
    have moved := (Daemon.step_moved stepped).2
    have later := toward.step sound traced admitted stepped
    rw [← inForce_snoc cfg labels label] at later
    exact ⟨sound.moved moved, traced.moved sound moved, owned.moved sound traced moved, later⟩

/-- The startup group with a tenant of its own address, and a file in which another
tenant has that address and a third one joins the group. -/
def firstFile : DaemonConfig := tcpFile (startupTenants ++ [loopTenant "old" "0.0.0.0:9001" none])

def secondFile : DaemonConfig :=
  tcpFile (startupTenants ++ [sniTenant "c.example" "c.example",
    loopTenant "new" "0.0.0.0:9001" none])

/-- The new tenant binds the address once the old one has left it. -/
theorem routes_converge_released : ∃ daemon : Daemon, daemon.signal = .idle ∧
    (∀ id task, daemon.running.get? id = some task → task.bound = true) ∧
    Converges secondFile daemon := by
  have evaluated : (daemonChecked settles firstFile [.bind 0 true, .bind 1 true,
      .sighup (some secondFile) ["new", "c.example"] ["old"], .add readableFiles loadingDisk,
      .add readableFiles loadingDisk, .remove loadingDisk true, .bind 2 true, .writerReturns 2,
      .drained true]).any (fun daemon => daemon.signal = .idle ∧
        daemon.running.values.all AcceptTask.bound = true) = true := by decide +kernel
  obtain ⟨daemon, executed, facts⟩ := (Option.any_eq_true _ _).mp evaluated
  obtain ⟨idle, bound⟩ := of_decide_eq_true facts
  obtain ⟨start, initial, executed⟩ := Option.bind_eq_some_iff.mp executed
  refine ⟨daemon, idle, ?_, ?_⟩
  · intro id task found
    exact List.all_eq_true.mp bound task (KeyedMap.mem_values_iff.mpr ⟨id, found⟩)
  · exact routes_converge rfl (eq_ok_of_toOption initial) (.of_execChecked executed)

/-- The startup group with a tenant that has the hostname of another. -/
def takeoverFile : DaemonConfig :=
  tcpFile [sniTenant "alpha" "a.example", sniTenant "delta" "*.b.example"]

/-- A cycle ends without a tenant that takes the hostname of a removed one. -/
theorem taken_hostname_unserved : ∃ daemon : Daemon,
    daemonChecked cooperates groupFile
      [.bind 0 true, .sighup (some takeoverFile) ["delta"] ["beta"], .add readableFiles loadingDisk,
        .remove loadingDisk true] = some daemon ∧
    daemon.signal = .idle ∧ (∀ id task, daemon.running.get? id = some task →
      task.bound = true) ∧
    takeoverFile.config.Declares ⟨"0.0.0.0:443", some "*.b.example", "delta"⟩ ∧
    ¬ daemon.Serves ⟨"0.0.0.0:443", some "*.b.example", "delta"⟩ := by
  have evaluated : (daemonChecked cooperates groupFile [.bind 0 true,
      .sighup (some takeoverFile) ["delta"] ["beta"], .add readableFiles loadingDisk,
      .remove loadingDisk true]).any (fun daemon => daemon.signal = .idle ∧
        daemon.running.values.all AcceptTask.bound = true ∧
        (daemon.shared.sniDispatches.get? "0.0.0.0:443").all (fun hot =>
          (hot.table.lookup "*.b.example").all (fun ctx => ctx.tenant.name ≠ "delta"))) =
          true := by
    decide +kernel
  obtain ⟨daemon, executed, facts⟩ := (Option.any_eq_true _ _).mp evaluated
  obtain ⟨idle, bound, dispatched⟩ := of_decide_eq_true facts
  refine ⟨daemon, executed, idle, ?_, ?_, ?_⟩
  · intro id task found
    exact List.all_eq_true.mp bound task (KeyedMap.mem_values_iff.mpr ⟨id, found⟩)
  · exact ⟨sniTenant "delta" "*.b.example", by simp [takeoverFile, tcpFile, sniConfig], rfl⟩
  · rintro ⟨_, _, _, _, _, _, hot, ctx, _, installed, answered, _, named, _⟩
    simp only [installed, Option.all_some, answered, named] at dispatched
    exact absurd dispatched (by simp)

end CofreSoberano.Gateway
