import CofreSoberano.Gateway.CertificateSet
import CofreSoberano.Gateway.Triggers

/-!
# The removal of an SNI tenant

A REMOVE looks for the entry of a tenant in the certificate set by the first
component of the tuple. Startup and a new group put the hostname there, only a
tenant that joins a running group has its name there. In every reachable state the
entries of a group are those of its tenants, in one of the two orders.
-/

namespace CofreSoberano.Gateway

open CofreSoberano.Std

/-- The certificate entry of a tenant, in the order of startup or in that of
`add_sni_entry`. -/
def SniTenantContext.HasEntry (ctx : SniTenantContext) (entry : SniEntry) : Prop :=
  ∃ sni tls, ctx.tenant.sni = some sni ∧ ctx.tenant.tls = some tls ∧
    (entry = (sni, ctx.tenant.name, tls) ∨ entry = (ctx.tenant.name, sni, tls))

/-- The certificate set and the dispatch table of a group have the same members. -/
structure Enrolled (members : List (SniEntry × SniTenantContext)) (entries : List SniEntry)
    (table : SniDispatchTable) : Prop where
  certificates : entries.Perm (members.map Prod.fst)
  dispatch : ∀ ctx, ctx ∈ table.contexts ↔ ctx ∈ members.map Prod.snd
  entered : ∀ member ∈ members, member.2.HasEntry member.1
  named : (members.map fun member => member.2.tenant.name).Nodup
  labels : (entries.map Prod.fst).Nodup
  patterns : ∀ entry ∈ entries, acceptsPattern entry.1 = true

namespace Enrolled

variable {members : List (SniEntry × SniTenantContext)} {entries : List SniEntry}
  {table : SniDispatchTable}

/-- The order of the entries does not matter. -/
theorem reorder (enrolled : Enrolled members entries table) {other : List SniEntry}
    (perm : other.Perm entries) : Enrolled members other table where
  certificates := perm.trans enrolled.certificates
  dispatch := enrolled.dispatch
  entered := enrolled.entered
  named := enrolled.named
  labels := (perm.map Prod.fst).nodup_iff.mpr enrolled.labels
  patterns := fun entry member => enrolled.patterns entry (perm.mem_iff.mp member)

/-- The members of a group that was just built. -/
theorem build {disk : Disk} {label : String} {trigger : TlsReloadTrigger}
    (entered : ∀ member ∈ members, member.2.HasEntry member.1)
    (named : (members.map fun member => member.2.tenant.name).Nodup)
    (certified : buildReloadableMultiSniAcceptor disk (members.map Prod.fst) label = .ok trigger)
    (dispatched : SniDispatchTable.new (members.map Prod.snd) = .ok table) :
    Enrolled members trigger.entries table := by
  obtain ⟨acceptor, built, certified⟩ := bind_eq_ok.mp certified
  cases certified
  obtain ⟨_, labels, accepted⟩ := buildMultiSniAcceptor_ok_iff.mp ⟨acceptor, built⟩
  exact ⟨.refl _, SniDispatchTable.mem_contexts_new dispatched, entered, named, labels,
    fun entry member => (accepted entry member).1⟩

/-- A tenant of a new name joins a group. -/
theorem join (enrolled : Enrolled members entries table) {disk : Disk} (ctx : SniTenantContext)
    {sni : String} {tls : TlsConfig} {next : SniDispatchTable} {acceptor : MultiSniCertResolver}
    (hostname : ctx.tenant.sni = some sni) (secure : ctx.tenant.tls = some tls)
    (new : ctx.tenant.name ∉ table.tenantNames) (added : table.withTenantAdded ctx = .ok next)
    (built : buildMultiSniAcceptor disk (entries ++ [(ctx.tenant.name, sni, tls)]) = .ok acceptor) :
    Enrolled (members ++ [((ctx.tenant.name, sni, tls), ctx)])
      (entries ++ [(ctx.tenant.name, sni, tls)]) next := by
  obtain ⟨_, labels, accepted⟩ := buildMultiSniAcceptor_ok_iff.mp ⟨acceptor, built⟩
  refine ⟨?_, ?_, ?_, ?_, labels, fun entry member => (accepted entry member).1⟩
  · rw [List.map_append]
    exact enrolled.certificates.append_right _
  · intro other
    rw [SniDispatchTable.mem_contexts_addContext added, enrolled.dispatch, List.map_append,
      List.mem_append, List.map_singleton, List.mem_singleton, or_comm]
  · intro member listed
    rcases List.mem_append.mp listed with old | single
    · exact enrolled.entered member old
    · rw [List.mem_singleton] at single
      subst single
      exact ⟨sni, tls, hostname, secure, .inr rfl⟩
  · rw [List.map_append, List.nodup_append]
    refine ⟨enrolled.named, by simp, ?_⟩
    rintro name listed other single rfl
    obtain ⟨member, old, rfl⟩ := List.mem_map.mp listed
    rw [List.map_singleton, List.mem_singleton] at single
    apply new
    rw [← single]
    exact List.mem_map.mpr ⟨member.2,
      (enrolled.dispatch _).mpr (List.mem_map.mpr ⟨member, old, rfl⟩), rfl⟩

/-- A tenant of the table has an entry. -/
theorem entry_of_context (enrolled : Enrolled members entries table) {ctx : SniTenantContext}
    (listed : ctx ∈ table.contexts) :
    ∃ entry, (entry, ctx) ∈ members ∧ entry ∈ entries ∧ ctx.HasEntry entry := by
  obtain ⟨⟨entry, _⟩, member, rfl⟩ := List.mem_map.mp ((enrolled.dispatch ctx).mp listed)
  exact ⟨entry, member, enrolled.certificates.mem_iff.mpr (List.mem_map.mpr ⟨_, member, rfl⟩),
    enrolled.entered _ member⟩

/-- An entry has a tenant of the table. -/
theorem context_of_entry (enrolled : Enrolled members entries table) {entry : SniEntry}
    (listed : entry ∈ entries) :
    ∃ ctx, (entry, ctx) ∈ members ∧ ctx ∈ table.contexts ∧ ctx.HasEntry entry := by
  obtain ⟨⟨_, ctx⟩, member, rfl⟩ :=
    List.mem_map.mp (enrolled.certificates.mem_iff.mp listed)
  exact ⟨ctx, member, (enrolled.dispatch ctx).mpr (List.mem_map.mpr ⟨_, member, rfl⟩),
    enrolled.entered _ member⟩

/-- Two members of one name are one member. -/
theorem member_of_name (enrolled : Enrolled members entries table)
    {first second : SniEntry × SniTenantContext} (left : first ∈ members)
    (right : second ∈ members)
    (same : first.2.tenant.name = second.2.tenant.name) : first = second :=
  List.inj_on_of_nodup_map enrolled.named left right same

end Enrolled

/-- Every group with its own trigger is enrolled. -/
def Shared.Listed (shared : Shared) : Prop :=
  ∀ listen hot trigger, shared.sniDispatches.get? listen = some hot →
    shared.reloadTriggers.get? (groupKey listen) = some (.multi trigger) →
      ∃ members, Enrolled members trigger.entries hot.table

theorem groupKey_injective : Function.Injective groupKey := by
  intro left right same
  have lists := congrArg String.toList same
  simp only [groupKey, String.toList_append, List.append_cancel_left_eq] at lists
  exact String.toList_injective lists

namespace Shared.Listed

variable {shared after : Shared}

/-- Steps that keep the members of every group. -/
theorem frame (listed : shared.Listed)
    (tables : ∀ listen hot, after.sniDispatches.get? listen = some hot →
      ∃ old, shared.sniDispatches.get? listen = some old ∧ hot.table = old.table)
    (triggers : ∀ listen trigger, after.reloadTriggers.get? (groupKey listen) =
      some (.multi trigger) →
      ∃ old, shared.reloadTriggers.get? (groupKey listen) = some (.multi old) ∧
        trigger.entries.Perm old.entries) : after.Listed := by
  intro listen hot trigger installed found
  obtain ⟨oldTable, wasInstalled, sameTable⟩ := tables listen hot installed
  obtain ⟨oldTrigger, wasFound, perm⟩ := triggers listen trigger found
  obtain ⟨members, enrolled⟩ := listed listen oldTable oldTrigger wasInstalled wasFound
  rw [sameTable]
  exact ⟨members, enrolled.reorder perm⟩

/-- The frame rule for steps that leave the tables alone. -/
theorem sameTables (listed : shared.Listed) (tables : after.sniDispatches = shared.sniDispatches)
    (triggers : ∀ listen trigger, after.reloadTriggers.get? (groupKey listen) =
      some (.multi trigger) →
      ∃ old, shared.reloadTriggers.get? (groupKey listen) = some (.multi old) ∧
        trigger.entries.Perm old.entries) : after.Listed :=
  listed.frame (fun _ hot installed => ⟨hot, tables ▸ installed, rfl⟩) triggers

theorem same (listed : shared.Listed) (tables : after.sniDispatches = shared.sniDispatches)
    (triggers : after.reloadTriggers = shared.reloadTriggers) : after.Listed :=
  listed.sameTables tables fun _ trigger found => ⟨trigger, triggers ▸ found, .refl _⟩

/-- A group is installed or replaced together with its trigger. -/
theorem install (listed : shared.Listed) {listen : String} {hot : HotSniDispatchTable}
    {trigger : ReloadTrigger}
    (enrolled : ∀ own, trigger = .multi own →
      ∃ members, Enrolled members own.entries hot.table)
    (tables : after.sniDispatches = shared.sniDispatches.insert listen hot)
    (triggers : after.reloadTriggers = shared.reloadTriggers.insert (groupKey listen) trigger) :
    after.Listed := by
  intro other table stored installed found
  rw [tables, KeyedMap.get?_insert] at installed
  rw [triggers, KeyedMap.get?_insert] at found
  split at installed
  · rename_i same
    cases installed
    rw [if_pos (congrArg groupKey same)] at found
    exact enrolled stored (Option.some.inj found)
  · rename_i different
    rw [if_neg fun same => different (groupKey_injective same)] at found
    exact listed other table stored installed found

/-- A trigger that is not a group's is stored under some key. -/
theorem insert_single (listed : shared.Listed) {key owner : String} {files : TlsConfig}
    (tables : after.sniDispatches = shared.sniDispatches)
    (triggers : after.reloadTriggers = shared.reloadTriggers.insert key (.single files owner)) :
    after.Listed := by
  refine listed.sameTables tables ?_
  intro listen trigger found
  rw [triggers, KeyedMap.get?_insert] at found
  split at found
  · cases found
  · exact ⟨trigger, found, .refl _⟩

/-- A trigger goes. -/
theorem erase (listed : shared.Listed) (key : String)
    (tables : after.sniDispatches = shared.sniDispatches)
    (others : ∀ other, other ≠ key → after.reloadTriggers.get? other =
      shared.reloadTriggers.get? other)
    (gone : after.reloadTriggers.get? key = none) : after.Listed := by
  refine listed.sameTables tables ?_
  intro listen trigger found
  by_cases same : groupKey listen = key
  · rw [same, gone] at found
    cases found
  · rw [others _ same] at found
    exact ⟨trigger, found, .refl _⟩

/-- The trigger of a group is put back as a refused mutation left it. -/
theorem putBack (listed : shared.Listed) {listen : String} {old kept : ReloadTrigger}
    (found : shared.reloadTriggers.get? (groupKey listen) = some old)
    (keeps : ∀ trigger, kept = .multi trigger → ∃ before, old = .multi before ∧
      trigger.entries.Perm before.entries)
    (tables : after.sniDispatches = shared.sniDispatches)
    (triggers : after.reloadTriggers = shared.reloadTriggers.insert (groupKey listen) kept) :
    after.Listed := by
  refine listed.sameTables tables ?_
  intro other trigger stored
  rw [triggers, KeyedMap.get?_insert] at stored
  split at stored
  · rename_i same
    obtain ⟨before, rfl, perm⟩ := keeps trigger (Option.some.inj stored)
    rw [same]
    exact ⟨before, found, perm⟩
  · exact ⟨trigger, stored, .refl _⟩

end Shared.Listed

namespace ReloadTrigger

variable {disk : Disk} {label : String} {trigger next : ReloadTrigger}

/-- Only the trigger of a group takes another entry. -/
theorem addSniEntry_ok {sni : String} {cfg : TlsConfig} {previous : MultiSniCertResolver}
    (mutated : trigger.addSniEntry disk label sni cfg = (next, .ok previous)) :
    ∃ old new, trigger = .multi old ∧ next = .multi new ∧
      new.entries = old.entries ++ [(label, sni, cfg)] ∧
      buildMultiSniAcceptor disk new.entries = .ok new.acceptor := by
  cases trigger with
  | single files owner => cases mutated
  | multi old =>
      simp only [addSniEntry, Prod.mk.injEq] at mutated
      obtain ⟨rfl, accepted⟩ := mutated
      obtain ⟨_, entries, built⟩ := TlsReloadTrigger.addSniEntry_ok (Prod.ext rfl accepted)
      exact ⟨old, _, rfl, rfl, entries, built⟩

/-- A refused entry leaves the trigger as it was. -/
theorem addSniEntry_error {sni : String} {cfg : TlsConfig} {message : String}
    (refused : trigger.addSniEntry disk label sni cfg = (next, .error message)) :
    next = trigger := by
  cases trigger with
  | single files owner =>
      cases refused
      rfl
  | multi old =>
      simp only [addSniEntry, Prod.mk.injEq] at refused
      obtain ⟨rfl, failed⟩ := refused
      exact congrArg ReloadTrigger.multi (TlsReloadTrigger.addSniEntry_error (Prod.ext rfl failed))

/-- Only the trigger of a group lets an entry go. -/
theorem removeSniEntry_ok {previous : MultiSniCertResolver}
    (mutated : trigger.removeSniEntry disk label = (next, .ok previous)) :
    ∃ old new, trigger = .multi old ∧ next = .multi new ∧
      (∃ entry ∈ old.entries, entry.1 = label) ∧
      new.entries = old.entries.eraseP (fun entry => entry.1 = label) ∧
      buildMultiSniAcceptor disk new.entries = .ok new.acceptor := by
  cases trigger with
  | single files owner => cases mutated
  | multi old =>
      simp only [removeSniEntry, Prod.mk.injEq] at mutated
      obtain ⟨rfl, accepted⟩ := mutated
      obtain ⟨listed, entries, built⟩ :=
        TlsReloadTrigger.removeSniEntry_ok (Prod.ext rfl accepted)
      exact ⟨old, _, rfl, rfl, listed, entries, built⟩

/-- A refused removal keeps the entries up to their order. -/
theorem removeSniEntry_error {message : String}
    (refused : trigger.removeSniEntry disk label = (next, .error message)) :
    ∀ new, next = .multi new → ∃ old, trigger = .multi old ∧
      new.entries.Perm old.entries := by
  rintro new rfl
  cases trigger with
  | single files owner => cases refused
  | multi old =>
      simp only [removeSniEntry, Prod.mk.injEq, ReloadTrigger.multi.injEq] at refused
      obtain ⟨rfl, failed⟩ := refused
      exact ⟨old, rfl, (TlsReloadTrigger.removeSniEntry_error (Prod.ext rfl failed)).1⟩

end ReloadTrigger

/-- Every group is enrolled, unless the signal task waits for an SNI tenant. -/
inductive Daemon.Grouped (daemon : Daemon) : Prop where
  | waiting {listen old name channel cfg removed}
      (draining : daemon.signal = .draining (.sni listen old) name channel cfg removed)
  | listed (listed : daemon.shared.Listed)

namespace Daemon.Grouped

variable {before after : Daemon}

/-- The groups after the spawn of a new tenant. -/
theorem spawned {disk : Disk} {cfg : Config} {t : TenantConfig} {runtime : TenantRuntime}
    {serving : Bool} (spawn : Daemon.Spawned disk cfg t runtime before after serving)
    (named : runtime.name = t.name)
    (unused : ∀ listen hot, before.shared.sniDispatches.get? listen = some hot →
      t.name ∉ hot.table.tenantNames) (listed : before.shared.Listed) : after.shared.Listed := by
  cases spawn with
  | unserved => exact listed
  | unresolved refused others own => exact listed.erase runtime.name rfl others own
  | rolledBack hostname secure group found refused =>
      refine listed.putBack found ?_ rfl rfl
      rintro trigger rfl
      exact ⟨trigger, (ReloadTrigger.addSniEntry_error refused).symm, .refl _⟩
  | plain own bare => exact listed.same rfl rfl
  | secured own secure role built =>
      obtain ⟨_, _, made⟩ := bind_eq_ok.mp built
      cases made
      exact listed.insert_single rfl rfl
  | @group sni tls group hostname secure role absent built =>
      refine listed.install ?_ rfl rfl
      rintro own ⟨⟩
      obtain ⟨resolved, resolution, certified, dispatched⟩ := newGroup_spec built
      obtain ⟨name, _, resolvedSni, resolvedTls⟩ := Config.resolveOneServeTcp_spec resolution
      refine ⟨[((sni, t.name, tls), { tenant := resolved })],
        .build ?_ (by simp) certified dispatched⟩
      intro member only
      rw [List.mem_singleton] at only
      subst only
      exact ⟨sni, tls, resolvedSni.trans hostname, resolvedTls.trans secure,
        .inl (by simp [name])⟩
  | @member sni tls hot resolved table trigger next previous hostname secure role group resolution
      extended found mutated =>
      refine listed.install ?_ rfl rfl
      rintro new rfl
      obtain ⟨old, _, rfl, same, entries, built⟩ := ReloadTrigger.addSniEntry_ok mutated
      cases same
      obtain ⟨name, _, resolvedSni, resolvedTls⟩ := Config.resolveOneServeTcp_spec resolution
      obtain ⟨members, enrolled⟩ := listed t.listen hot old group found
      have label : runtime.name = resolved.name := named.trans name.symm
      rw [entries, label] at built ⊢
      refine ⟨_, enrolled.join { tenant := resolved } (resolvedSni.trans hostname)
        (resolvedTls.trans secure) ?_ extended built⟩
      rw [name]
      exact unused t.listen hot group

/-- The groups after a removal. -/
theorem removing {disk : Disk} {inTime : Bool} {name : String} {cfg : DaemonConfig}
    {removed : List String} (sound : before.Sound) (listed : before.shared.Listed)
    (applying : before.signal = .applying cfg [] (name :: removed))
    (removal : Daemon.Removing disk inTime name cfg removed before after) : after.Grouped := by
  cases removal with
  | skipped => exact .listed (listed.same rfl rfl)
  | unhandled => exact .listed (listed.same rfl rfl)
  | timedOut => exact .listed (listed.same rfl rfl)
  | untriggered => exact .listed (listed.same rfl rfl)
  | single => exact .listed (listed.same rfl rfl)
  | rolledBack member found refused =>
      exact .listed (listed.putBack found (ReloadTrigger.removeSniEntry_error refused) rfl rfl)
  | sni => exact .waiting rfl
  | unaudited audit => exact absurd audit (sound.audited applying).2

/-- The step lemma. -/
theorem moved {label : DaemonLabel} (grouped : before.Grouped) (sound : before.Sound)
    (moved : Daemon.Moved before label after) : after.Grouped := by
  cases grouped with
  | waiting draining => exact .waiting (moved.still_waits sound draining)
  | listed listed =>
      cases moved with
      | rejected => exact .listed (listed.same rfl rfl)
      | @cycle cfg =>
          obtain ⟨admissions, metrics, same⟩ :=
            (before.shared.countCycle.applyLimits_hotOnly cfg.config).exists_eq
          refine .listed ?_
          rw [Daemon.proceed_shared, same]
          exact listed.same rfl rfl
      | unbuilt => exact .listed (listed.same rfl rfl)
      | @added files disk cfg name added removed t runtime spawned serving applying declared built
          outcome spawn =>
          have named : runtime.name = t.name := by rw [buildTenantRuntime_spec built]
          have keyed : before.shared.Keyed none := by
            simpa [applying, SignalTask.leaving] using sound.keyed
          have unused : ∀ listen hot, before.shared.sniDispatches.get? listen = some hot →
              t.name ∉ hot.table.tenantNames := by
            intro listen hot installed
            refine sound.dispatching.unused ?_ installed
            rw [keyed.audits, Daemon.declared_name declared]
            exact sound.adding.2 name (by simp [applying, SignalTask.added])
          have enrolled : (before.enroll cfg t runtime).shared.Listed := listed.same rfl rfl
          exact .listed ((Daemon.Grouped.spawned spawn named unused enrolled).same rfl rfl)
      | removed applying removal => exact .removing sound listed applying removal
      | @resumedSingle _ name =>
          refine .listed (listed.erase name rfl ?_ ?_)
          · intro other different
            exact (KeyedMap.get?_erase _ _ _).trans (if_neg different)
          · exact (KeyedMap.get?_erase _ _ _).trans (if_pos rfl)
      | resumedSni draining drained => exact absurd drained (sound.sni_waits draining)
      | @reloaded disk key idle =>
          rcases before.reloadTrigger_cases disk key with same | ⟨trigger, found, same⟩
          · rw [same]
            exact .listed listed
          · rw [same]
            refine .listed (listed.frame ?_ ?_)
            · intro listen hot installed
              obtain ⟨old, wasInstalled, table, _⟩ := Daemon.get?_reloaded installed
              exact ⟨old, wasInstalled, table⟩
            · intro listen stored now
              simp only [KeyedMap.get?_insert] at now
              split at now
              · rename_i own
                cases now
                rw [own]
                exact ⟨trigger, found, .of_eq (trigger.reload_entries disk)⟩
              · exact ⟨stored, now, .refl _⟩
      | terminated => exact .listed (listed.same rfl rfl)
      | joined =>
          simp only [Daemon.joinAll]
          rcases Daemon.drainNext_cases _ before.tenantState with
            ⟨_, next⟩ | ⟨_, _, _, next⟩ <;>
            rw [next] <;> exact .listed (listed.same rfl rfl)
      | @mainDrained _ rest =>
          rcases before.drainNext_cases rest with ⟨_, next⟩ | ⟨_, _, _, next⟩ <;>
            rw [next] <;> exact .listed (listed.same rfl rfl)
      | background moved =>
          exact .listed (listed.same (by rw [moved.shared]) (by rw [moved.shared]))

end Daemon.Grouped

/-- Startup enrolls every group it launches. -/
theorem Launching.listed {disk : Disk} {cfg : Config} {runtimes : List TenantRuntime}
    {base daemon : Daemon} {done : List TenantConfig} (valid : cfg.validate = .ok ())
    (undispatched : base.shared.sniDispatches = .empty)
    (launching : Launching disk cfg runtimes base done daemon) : daemon.shared.Listed := by
  induction launching with
  | start =>
      intro listen hot trigger installed
      rw [undispatched] at installed
      cases installed
  | plain _ _ _ _ _ _ _ _ inductionHypothesis => exact inductionHypothesis.same rfl rfl
  | secured _ _ _ _ _ _ _ built _ inductionHypothesis =>
      obtain ⟨_, _, made⟩ := bind_eq_ok.mp built
      cases made
      exact inductionHypothesis.insert_single rfl rfl
  | @group done before listen tenants built audits prior several new resolved handles started
      inductionHypothesis =>
      obtain ⟨members, listed, certified, dispatched⟩ := startupGroup_spec started
      have entered : ∀ member ∈ members, member.2.HasEntry member.1 := by
        intro member inGroup
        obtain ⟨tenant, _, converted⟩ := exists_of_mem_mapM_eq_ok listed inGroup
        obtain ⟨sni, tls, hostname, secure, rfl⟩ := startupMember_spec converted
        exact ⟨sni, tls, hostname, secure, .inl rfl⟩
      have names : (members.map fun member => member.2.tenant.name) =
          (cfg.tenantsAt listen).map TenantConfig.name := by
        have outer : (members.map fun member => member.2.tenant.name) =
            tenants.map ServeTcpTenant.name := by
          refine map_of_mapM_eq_ok ?_ listed
          intro tenant member converted
          obtain ⟨_, _, _, _, rfl⟩ := startupMember_spec converted
          rfl
        have inner : tenants.map ServeTcpTenant.name =
            (cfg.tenantsAt listen).map TenantConfig.name :=
          map_of_mapM_eq_ok (fun one => (Config.resolveOneServeTcp_spec one).1) resolved
        exact outer.trans inner
      have distinct : ((cfg.tenantsAt listen).map TenantConfig.name).Nodup :=
        (Config.validate_names_nodup valid).sublist (List.filter_sublist.map _)
      refine inductionHypothesis.install ?_ rfl rfl
      rintro own ⟨⟩
      exact ⟨members, .build entered (names ▸ distinct) certified dispatched⟩

/-- The run lemma. -/
theorem Daemon.Grouped.of_reachable {admits : Daemon → DaemonLabel → Prop} {daemon : Daemon}
    (reachable : daemonMachine.Reachable admits daemon) : daemon.Grouped := by
  have invariant :=
    reachable.invariant (fun daemon : Daemon => daemon.Sound ∧ daemon.Grouped) ?_ ?_
  · exact invariant.2
  · rintro start ⟨files, disk, cfg, started⟩
    obtain ⟨valid, _, _, built, launching, _⟩ := startDaemon_launching started
    obtain ⟨_, undispatched, _, _, _⟩ := registered_spec valid built
    exact ⟨startDaemon_sound started, .listed (launching.listed valid undispatched)⟩
  · rintro before label after ⟨sound, grouped⟩ _ stepped
    have moved := (Daemon.step_moved stepped).2
    exact ⟨sound.moved moved, grouped.moved sound moved⟩

/-- The group of a tenant is the one that has it. -/
theorem Shared.Dispatching.sniTarget {shared : Shared} (dispatching : shared.Dispatching)
    {listen name : String} {hot : HotSniDispatchTable}
    (installed : shared.sniDispatches.get? listen = some hot)
    (listed : name ∈ hot.table.tenantNames) : shared.sniTarget name = some (listen, hot) := by
  cases target : shared.sniTarget name with
  | none => exact absurd listed (Shared.sniTarget_eq_none target installed)
  | some found =>
      obtain ⟨other, table⟩ := found
      obtain ⟨otherInstalled, member⟩ := Shared.sniTarget_eq_some target
      obtain rfl :=
        dispatching.apart other listen table hot name otherInstalled installed member listed
      rw [installed] at otherInstalled
      cases otherInstalled
      rfl

namespace Enrolled

variable {members : List (SniEntry × SniTenantContext)} {trigger : TlsReloadTrigger}
  {table : SniDispatchTable} {ctx : SniTenantContext} {disk : Disk}

/-- The entries left when one that starts with the name of a tenant goes. -/
theorem mem_left (enrolled : Enrolled members trigger.entries table) {entry : SniEntry} :
    entry ∈ trigger.entries.eraseP (fun entry => entry.1 = ctx.tenant.name) ↔
      entry ∈ trigger.entries ∧ entry.1 ≠ ctx.tenant.name := by
  rw [TlsReloadTrigger.eraseP_label enrolled.labels, List.mem_filter, decide_eq_true_eq]

/-- A tenant whose entries start with its name leaves a set with other tenants. -/
theorem leaves (enrolled : Enrolled members trigger.entries table) (listed : ctx ∈ table.contexts)
    (first : ∀ entry ∈ trigger.entries, ctx.HasEntry entry → entry.1 = ctx.tenant.name)
    (others : ∃ other ∈ table.tenantNames, other ≠ ctx.tenant.name)
    (loads : ∀ other ∈ table.contexts, other.tenant.name ≠ ctx.tenant.name →
      ∀ tls, other.tenant.tls = some tls → (buildAcceptor disk tls).isOk = true) :
    ∃ next previous, trigger.removeSniEntry disk ctx.tenant.name = (next, .ok previous) ∧
      next.entries = trigger.entries.eraseP (fun entry => entry.1 = ctx.tenant.name) := by
  obtain ⟨own, ownMember, ownListed, ownEntry⟩ := enrolled.entry_of_context listed
  have ownFirst := first own ownListed ownEntry
  obtain ⟨acceptor, built⟩ : ∃ acceptor, buildMultiSniAcceptor disk
      (trigger.entries.eraseP fun entry => entry.1 = ctx.tenant.name) = .ok acceptor := by
    refine buildMultiSniAcceptor_ok_iff.mpr ⟨?_, ?_, ?_⟩
    · obtain ⟨_, named, different⟩ := others
      obtain ⟨other, otherListed, rfl⟩ := List.mem_map.mp named
      obtain ⟨entry, member, entryListed, _⟩ := enrolled.entry_of_context otherListed
      refine List.ne_nil_of_mem (enrolled.mem_left.mpr ⟨entryListed, ?_⟩)
      -- Two entries with one label would be one entry, with one tenant.
      intro same
      have equal : entry = own :=
        List.inj_on_of_nodup_map enrolled.labels entryListed ownListed (same.trans ownFirst.symm)
      have labels : (members.map fun member => member.1.1).Nodup := by
        have perm := enrolled.certificates.map Prod.fst
        rw [List.map_map] at perm
        exact perm.nodup_iff.mp enrolled.labels
      have pairs := List.inj_on_of_nodup_map labels member ownMember (congrArg Prod.fst equal)
      exact different (congrArg (fun pair => pair.2.tenant.name) pairs)
    · exact enrolled.labels.sublist (List.eraseP_sublist.map _)
    · intro entry left
      obtain ⟨entryListed, different⟩ := enrolled.mem_left.mp left
      obtain ⟨other, member, otherListed, sni, tls, hostname, secure, shape⟩ :=
        enrolled.context_of_entry entryListed
      refine ⟨enrolled.patterns entry entryListed, ?_⟩
      have apart : other.tenant.name ≠ ctx.tenant.name := by
        intro same
        have pairs := enrolled.member_of_name member ownMember same
        obtain ⟨rfl, rfl⟩ := Prod.mk.inj pairs
        exact different ownFirst
      have files : entry.2.2 = tls := by rcases shape with rfl | rfl <;> rfl
      rw [files]
      exact loads other otherListed apart tls secure
  exact ⟨_, _, TlsReloadTrigger.removeSniEntry_succeeds ⟨own, ownListed, ownFirst⟩
    built, rfl⟩

end Enrolled

/-- The hostnames and owners of the certificates of a group. -/
def ReloadTrigger.owners : ReloadTrigger → List (String × String)
  | .multi trigger => trigger.entries.map fun entry => (entry.1, entry.2.1)
  | .single _ _ => []

end CofreSoberano.Gateway
