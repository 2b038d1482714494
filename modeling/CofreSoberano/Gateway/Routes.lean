import CofreSoberano.Gateway.Removal
import CofreSoberano.Gateway.SniRouting
import CofreSoberano.Gateway.Shutdown

/-!
# The routes a daemon serves

A route is an address, a hostname pattern where the address is shared, and the
tenant that its connections reach. A tenant alone at its address is served by its
own accept loop, the others by the loop of their group, which presents a
certificate for the hostname and finds the tenant in its dispatch table.
`Daemon.Routed` says that the loops, tables and certificate sets are those of a
given set of tenants; startup and each step of a SIGHUP cycle keep it.
-/

namespace CofreSoberano.Gateway

open CofreSoberano.Std

/-- An address, a hostname pattern and the name of a tenant. -/
structure Route where
  listen : String
  pattern : Option String
  tenant : String
deriving DecidableEq, Repr

/-- A configuration declares the routes of its tenants. -/
def Config.Declares (cfg : Config) (route : Route) : Prop :=
  ∃ t ∈ cfg.tenants, route = { listen := t.listen, pattern := t.sni, tenant := t.name }

/-- A bound accept loop takes connections at the address. For a hostname, the group's
acceptor presents the certificate of the tenant that the dispatch table answers. -/
def Daemon.Serves (daemon : Daemon) (route : Route) : Prop :=
  ∃ id task, daemon.running.get? id = some task ∧ task.bound = true ∧
    task.listen = route.listen ∧
    match route.pattern with
    | none => task.audit ≠ none ∧ task.owner = route.tenant
    | some pattern => task.audit = none ∧
        ∃ hot ctx certified, daemon.shared.sniDispatches.get? route.listen = some hot ∧
          hot.table.lookup pattern = some ctx ∧ ctx.tenant.sni = some pattern ∧
          ctx.tenant.name = route.tenant ∧
          hot.presented.resolve (some pattern) = some certified ∧
          ctx.tenant.tls = some certified.files

namespace Config

variable {cfg : Config}

/-- A tenant with a hostname has a certificate, and its hostname is well formed and
no other tenant's at the address. -/
theorem validate_hostname (valid : cfg.validate = .ok ()) (role : cfg.role = .serveTcp)
    {t : TenantConfig} {sni : String} (declared : t ∈ cfg.tenants) (hostname : t.sni = some sni) :
    (∃ tls, t.tls = some tls) ∧ acceptsPattern sni = true ∧
      ∀ u ∈ cfg.tenants, u.listen = t.listen → u.sni = some sni → u = t := by
  have here : t ∈ cfg.tenantsAt t.listen := mem_tenantsAt.mpr ⟨declared, rfl⟩
  have checked := validate_group valid role (List.ne_nil_of_mem here)
  have several : validateMembers t.listen (cfg.tenantsAt t.listen).length none []
      (cfg.tenantsAt t.listen) = .ok () := by
    simp only [validateGroup] at checked
    split at checked
    · rename_i only single
      rw [single, List.mem_singleton] at here
      subst here
      simp [hostname] at checked
    · exact checked
  obtain ⟨members, distinct⟩ := validateMembers_ok several
  obtain ⟨_, tls, sniOf, tlsOf, accepted, _⟩ := members t here
  rw [hostname] at sniOf
  cases sniOf
  refine ⟨⟨tls, tlsOf⟩, accepted, ?_⟩
  intro u other address same
  exact List.inj_on_of_nodup_map distinct (mem_tenantsAt.mpr ⟨other, address⟩) here
    (same.trans hostname.symm)

end Config

/-- The dispatch context of a tenant. -/
def SniTenantContext.Of (ctx : SniTenantContext) (t : TenantConfig) : Prop :=
  ctx.tenant.name = t.name ∧ ctx.tenant.sni = t.sni ∧ ctx.tenant.tls = t.tls

/-- The table and the acceptor of a group stand for the same routes, and so does its
certificate set as long as its trigger is under its key. -/
structure Shared.Backs (shared : Shared) (listen : String) (hot : HotSniDispatchTable)
    (routes : KeyedMap String SniTenantContext) : Prop where
  table : Represents hot.table routes
  keyed : ∀ sni ctx, (sni, ctx) ∈ routes.entries → ctx.tenant.sni = some sni
  secured : ∀ sni ctx, (sni, ctx) ∈ routes.entries → ∃ tls, ctx.tenant.tls = some tls
  presents : Presents hot.presented routes
  trigger : ∀ trigger, shared.reloadTriggers.get? (groupKey listen) = some (.multi trigger) →
    Backed { trigger, dispatch := hot.table } routes

/-- The tables are those of the given tenants. -/
structure Shared.Hosting (shared : Shared) (tenants : TenantConfig → Prop) : Prop where
  members : ∀ t, tenants t → ∃ hot ctx, shared.sniDispatches.get? t.listen = some hot ∧
    ctx ∈ hot.table.contexts ∧ ctx.Of t
  owners : ∀ listen hot ctx, shared.sniDispatches.get? listen = some hot →
    ctx ∈ hot.table.contexts → ∃ t, tenants t ∧ t.listen = listen ∧ ctx.Of t
  backed : ∀ listen hot, shared.sniDispatches.get? listen = some hot →
    ∃ routes, shared.Backs listen hot routes

/-- The accept loops are those of the given tenants and of the groups, and none of
them was told to stop. -/
structure Daemon.Looped (daemon : Daemon) (tenants : TenantConfig → Prop) : Prop where
  own : ∀ t, tenants t → ∃ id task, daemon.shared.tenantTasks.get? t.name = some id ∧
    daemon.running.get? id = some task ∧ task.owner = t.name ∧ task.listen = t.listen ∧
    task.audit = daemon.shared.tenantAudits.get? t.name ∧ task.audit ≠ none
  stops : ∀ t, tenants t →
    daemon.shared.tenantShutdowns.get? t.name = daemon.shared.tenantAudits.get? t.name
  loops : ∀ id task, daemon.running.get? id = some task → task.audit ≠ none →
    ∃ t, tenants t ∧ task.owner = t.name ∧ task.listen = t.listen ∧
      task.audit = daemon.shared.tenantAudits.get? t.name ∧
      daemon.shared.tenantTasks.get? t.name = some id
  groups : ∀ listen ∈ daemon.shared.sniDispatches.keys, ∃ id task,
    daemon.running.get? id = some task ∧ task.audit = none ∧ task.listen = listen
  unstopped : ∀ id task channel, daemon.running.get? id = some task →
    task.audit = some channel → channel ∉ daemon.notified
  ungrouped : daemon.notifiedGroups = []
  spent : ∀ channel ∈ daemon.notified, channel < daemon.nextRuntime
  fresh : ∀ id task, daemon.running.get? id = some task → id < daemon.nextTask

namespace Daemon.Looped

variable {before after : Daemon} {tenants : TenantConfig → Prop}

/-- Steps that leave the loops and the maps of the tenants alone. -/
theorem frame (looped : before.Looped tenants)
    (tasks : after.shared.tenantTasks = before.shared.tenantTasks)
    (audits : after.shared.tenantAudits = before.shared.tenantAudits)
    (shutdowns : after.shared.tenantShutdowns = before.shared.tenantShutdowns)
    (tables : ∀ listen ∈ after.shared.sniDispatches.keys,
      listen ∈ before.shared.sniDispatches.keys)
    (running : after.running = before.running) (notified : after.notified = before.notified)
    (notifiedGroups : after.notifiedGroups = before.notifiedGroups)
    (nextRuntime : after.nextRuntime = before.nextRuntime)
    (nextTask : after.nextTask = before.nextTask) : after.Looped tenants where
  own := by
    rw [tasks, audits, running]
    exact looped.own
  stops := by
    rw [shutdowns, audits]
    exact looped.stops
  loops := by
    rw [tasks, audits, running]
    exact looped.loops
  groups := by
    rw [running]
    exact fun listen known => looped.groups listen (tables listen known)
  unstopped := by
    rw [running, notified]
    exact looped.unstopped
  ungrouped := notifiedGroups.trans looped.ungrouped
  spent := by
    rw [notified, nextRuntime]
    exact looped.spent
  fresh := by
    rw [running, nextTask]
    exact looped.fresh

/-- The registration of a new runtime. -/
theorem enroll (looped : before.Looped tenants) (cfg : DaemonConfig) (t : TenantConfig)
    (runtime : TenantRuntime) (other : ∀ u, tenants u → u.name ≠ runtime.name) :
    (before.enroll cfg t runtime).Looped tenants where
  own := by
    intro u member
    obtain ⟨id, task, entry, found, owner, listen, audit, held⟩ := looped.own u member
    refine ⟨id, task, entry, found, owner, listen, ?_, held⟩
    simp [Daemon.enroll, Shared.register, KeyedMap.get?_insert, other u member, audit]
  stops := by
    intro u member
    simp [Daemon.enroll, Shared.register, KeyedMap.get?_insert, other u member,
      looped.stops u member]
  loops := by
    intro id task found held
    obtain ⟨u, member, owner, listen, audit, entry⟩ := looped.loops id task found held
    refine ⟨u, member, owner, listen, ?_, entry⟩
    simp [Daemon.enroll, Shared.register, KeyedMap.get?_insert, other u member, audit]
  groups := looped.groups
  unstopped := looped.unstopped
  ungrouped := looped.ungrouped
  spent := fun channel stopped => Nat.lt_succ_of_lt (looped.spent channel stopped)
  fresh := looped.fresh

/-- The accept loop of another tenant. -/
theorem spawn (looped : before.Looped tenants) {t : TenantConfig} {runtime : TenantRuntime}
    (other : ∀ u, tenants u → u.name ≠ t.name) (named : runtime.name = t.name)
    (audit : before.shared.tenantAudits.get? t.name = some runtime.id)
    (shutdown : before.shared.tenantShutdowns.get? t.name = some runtime.id)
    (unused : runtime.id ∉ before.notified) :
    (before.spawnTenant runtime t.listen).Looped fun u => tenants u ∨ u = t where
  own := by
    rintro u (member | rfl)
    · obtain ⟨id, task, entry, found, rest⟩ := looped.own u member
      refine ⟨id, task, ?_, ?_, rest⟩
      · simp [Daemon.spawnTenant, KeyedMap.get?_insert, named, other u member, entry]
      · have different : id ≠ before.nextTask := Nat.ne_of_lt (looped.fresh id task found)
        simp [Daemon.spawnTenant, KeyedMap.get?_insert, different, found]
    · refine ⟨before.nextTask, _, ?_, KeyedMap.get?_insert_self _ _ _, named, rfl, ?_, by simp⟩
      · simp [Daemon.spawnTenant, named]
      · exact audit.symm
  stops := by
    rintro u (member | rfl)
    · exact looped.stops u member
    · exact shutdown.trans audit.symm
  loops := by
    intro id task found held
    simp only [Daemon.spawnTenant, KeyedMap.get?_insert] at found ⊢
    split at found
    · rename_i same
      cases found
      exact ⟨t, .inr rfl, named, rfl, audit.symm, by rw [if_pos named.symm, same]⟩
    · obtain ⟨u, member, owner, listen, own, entry⟩ := looped.loops id task found held
      refine ⟨u, .inl member, owner, listen, own, ?_⟩
      rw [if_neg]
      · exact entry
      · rw [named]
        exact other u member
  groups := by
    intro listen known
    obtain ⟨id, task, found, rest⟩ := looped.groups listen known
    refine ⟨id, task, ?_, rest⟩
    have different : id ≠ before.nextTask := Nat.ne_of_lt (looped.fresh id task found)
    simp [Daemon.spawnTenant, KeyedMap.get?_insert, different, found]
  unstopped := by
    intro id task channel found held
    simp only [Daemon.spawnTenant, KeyedMap.get?_insert] at found
    split at found
    · cases found
      cases held
      exact unused
    · exact looped.unstopped id task channel found held
  ungrouped := looped.ungrouped
  spent := looped.spent
  fresh := by
    intro id task found
    simp only [Daemon.spawnTenant, KeyedMap.get?_insert] at found ⊢
    split at found
    · rename_i same
      rw [same]
      exact Nat.lt_succ_self _
    · exact Nat.lt_succ_of_lt (looped.fresh id task found)

/-- The accept loop of a group. -/
theorem install (looped : before.Looped tenants) (listen : String) (group : SniGroup)
    (audits : List (String × RuntimeId)) :
    (before.installGroup listen group audits).Looped tenants where
  own := by
    intro u member
    obtain ⟨id, task, entry, found, rest⟩ := looped.own u member
    refine ⟨id, task, entry, ?_, rest⟩
    have different : id ≠ before.nextTask := Nat.ne_of_lt (looped.fresh id task found)
    simp [Daemon.installGroup, KeyedMap.get?_insert, different, found]
  stops := looped.stops
  loops := by
    intro id task found held
    simp only [Daemon.installGroup, KeyedMap.get?_insert] at found
    split at found
    · cases found
      exact absurd rfl held
    · exact looped.loops id task found held
  groups := by
    intro other known
    simp only [Daemon.installGroup, KeyedMap.mem_keys_insert] at known
    by_cases same : other = listen
    · subst same
      exact ⟨before.nextTask, _, KeyedMap.get?_insert_self _ _ _, rfl, rfl⟩
    · obtain ⟨id, task, found, rest⟩ := looped.groups other (known.resolve_left same)
      refine ⟨id, task, ?_, rest⟩
      have different : id ≠ before.nextTask := Nat.ne_of_lt (looped.fresh id task found)
      simp [Daemon.installGroup, KeyedMap.get?_insert, different, found]
  unstopped := by
    intro id task channel found held
    simp only [Daemon.installGroup, KeyedMap.get?_insert] at found
    split at found
    · cases found
      cases held
    · exact looped.unstopped id task channel found held
  ungrouped := looped.ungrouped
  spent := looped.spent
  fresh := by
    intro id task found
    simp only [Daemon.installGroup, KeyedMap.get?_insert] at found ⊢
    split at found
    · rename_i same
      rw [same]
      exact Nat.lt_succ_self _
    · exact Nat.lt_succ_of_lt (looped.fresh id task found)

/-- An accept loop has bound its address. -/
theorem bind (looped : before.Looped tenants) {id : TaskId} {task : AcceptTask}
    (found : before.running.get? id = some task) :
    ({ before with running := before.running.insert id { task with bound := true } } :
      Daemon).Looped tenants := by
  -- Each loop is the one before, up to its address being bound.
  have same : ∀ other now,
    (before.running.insert id { task with bound := true }).get? other = some now →
      ∃ old, before.running.get? other = some old ∧ now.owner = old.owner ∧
        now.listen = old.listen ∧ now.audit = old.audit := by
    intro other now stored
    rw [KeyedMap.get?_insert] at stored
    split at stored
    · rename_i here
      cases stored
      exact ⟨task, here ▸ found, rfl, rfl, rfl⟩
    · exact ⟨now, stored, rfl, rfl, rfl⟩
  have kept : ∀ other old, before.running.get? other = some old → ∃ now,
      (before.running.insert id { task with bound := true }).get? other = some now ∧
        now.owner = old.owner ∧ now.listen = old.listen ∧ now.audit = old.audit := by
    intro other old stored
    rw [KeyedMap.get?_insert]
    split
    · rename_i here
      subst here
      rw [found] at stored
      cases stored
      exact ⟨_, rfl, rfl, rfl, rfl⟩
    · exact ⟨old, stored, rfl, rfl, rfl⟩
  constructor
  · intro t member
    obtain ⟨other, old, entry, stored, owner, listen, audit, held⟩ := looped.own t member
    obtain ⟨now, nowStored, sameOwner, sameListen, sameAudit⟩ := kept other old stored
    exact ⟨other, now, entry, nowStored, sameOwner.trans owner, sameListen.trans listen,
      sameAudit.trans audit, sameAudit ▸ held⟩
  · exact looped.stops
  · intro other now stored held
    obtain ⟨old, wasStored, sameOwner, sameListen, sameAudit⟩ := same other now stored
    rw [sameOwner, sameListen, sameAudit]
    exact looped.loops other old wasStored (sameAudit ▸ held)
  · intro listen known
    obtain ⟨other, old, stored, unheld, address⟩ := looped.groups listen known
    obtain ⟨now, nowStored, _, sameListen, sameAudit⟩ := kept other old stored
    exact ⟨other, now, nowStored, sameAudit.trans unheld, sameListen.trans address⟩
  · intro other now channel stored held
    obtain ⟨old, wasStored, _, _, sameAudit⟩ := same other now stored
    exact looped.unstopped other old channel wasStored (sameAudit ▸ held)
  · exact looped.ungrouped
  · exact looped.spent
  · intro other now stored
    obtain ⟨old, wasStored, _⟩ := same other now stored
    exact looped.fresh other old wasStored

/-- The accept loop of a removed tenant has returned. -/
theorem remove (looped : before.Looped tenants) (traced : before.Traced) {t : TenantConfig}
    {id : TaskId} {notify channel : RuntimeId} {cfg : DaemonConfig} {removed : List String}
    (unique : ∀ u, tenants u → u.name = t.name → u = t) (member : tenants t)
    (entry : before.shared.tenantTasks.get? t.name = some id)
    (shutdown : before.shared.tenantShutdowns.get? t.name = some notify)
    (audit : before.shared.tenantAudits.get? t.name = some channel) :
    (((before.takeTask t.name notify).purgeSingle t.name id).await .single t.name channel cfg
      removed).Looped fun u => tenants u ∧ u ≠ t := by
  have named : ∀ u, tenants u → u ≠ t → u.name ≠ t.name := by
    intro u other different same
    exact different (unique u other same)
  have stopped : notify = channel := by
    have same := looped.stops t member
    rw [shutdown, audit] at same
    exact Option.some.inj same
  -- The loops that are left are not the one of the tenant.
  have left : ∀ {other task}, (before.running.erase id).get? other = some task →
      other ≠ id ∧ before.running.get? other = some task := by
    intro other task stored
    rw [KeyedMap.get?_erase] at stored
    split at stored
    · cases stored
    · rename_i different
      exact ⟨different, stored⟩
  have erased : ∀ {u : TenantConfig} {V : Type} {map : KeyedMap String V}, tenants u →
      u ≠ t → (map.erase t.name).get? u.name = map.get? u.name := by
    intro u V map other different
    rw [KeyedMap.get?_erase, if_neg (named u other different)]
  constructor
  · rintro u ⟨other, different⟩
    obtain ⟨own, task, ownEntry, found, owner, listen, held, some⟩ := looped.own u other
    refine ⟨own, task, ?_, ?_, owner, listen, ?_, some⟩
    · exact (erased other different).trans ownEntry
    · have apart : own ≠ id := by
        rintro rfl
        obtain ⟨_, mine, mineEntry, mineFound, mineOwner, _⟩ := looped.own t member
        rw [entry] at mineEntry
        cases mineEntry
        rw [found] at mineFound
        cases mineFound
        exact named u other different (owner.symm.trans mineOwner)
      exact (KeyedMap.get?_erase _ _ _).trans ((if_neg apart).trans found)
    · exact held.trans (erased other different).symm
  · rintro u ⟨other, different⟩
    exact (erased other different).trans
      ((looped.stops u other).trans (erased other different).symm)
  · intro other task stored held
    obtain ⟨apart, found⟩ := left stored
    obtain ⟨u, isTenant, owner, listen, audited, ownEntry⟩ := looped.loops other task found held
    have different : u ≠ t := by
      rintro rfl
      rw [entry] at ownEntry
      exact apart (Option.some.inj ownEntry).symm
    exact ⟨u, ⟨isTenant, different⟩, owner, listen,
      audited.trans (erased isTenant different).symm, (erased isTenant different).trans ownEntry⟩
  · intro listen known
    obtain ⟨other, task, found, unheld, address⟩ := looped.groups listen known
    refine ⟨other, task, ?_, unheld, address⟩
    have apart : other ≠ id := by
      rintro rfl
      obtain ⟨_, mine, mineEntry, mineFound, _, _, _, held⟩ := looped.own t member
      rw [entry] at mineEntry
      cases mineEntry
      rw [found] at mineFound
      cases mineFound
      exact held unheld
    exact (KeyedMap.get?_erase _ _ _).trans ((if_neg apart).trans found)
  · intro other task held stored audited
    obtain ⟨apart, found⟩ := left stored
    change held ∉ before.notified.insert notify
    rw [List.mem_insert_iff, not_or]
    refine ⟨?_, looped.unstopped other task held found audited⟩
    rintro rfl
    obtain ⟨u, isTenant, _, _, ownAudit, ownEntry⟩ :=
      looped.loops other task found (by simp [audited])
    rw [audited, stopped] at ownAudit
    rw [traced.apart u.name t.name channel ownAudit.symm audit, entry] at ownEntry
    exact apart (Option.some.inj ownEntry).symm
  · exact looped.ungrouped
  · intro held member
    rcases List.mem_insert_iff.mp member with rfl | old
    · rw [stopped]
      exact traced.numbered t.name channel audit
    · exact looped.spent held old
  · intro other task stored
    exact looped.fresh other task (left stored).2

end Daemon.Looped

namespace Shared.Hosting

variable {shared after : Shared} {tenants : TenantConfig → Prop}

/-- Steps that leave the tables alone and store no other trigger of a group. -/
theorem frame (hosting : shared.Hosting tenants)
    (tables : after.sniDispatches = shared.sniDispatches)
    (triggers : ∀ listen trigger, after.reloadTriggers.get? (groupKey listen) =
      some (.multi trigger) →
      shared.reloadTriggers.get? (groupKey listen) = some (.multi trigger)) :
    after.Hosting tenants where
  members := by
    rw [tables]
    exact hosting.members
  owners := by
    rw [tables]
    exact hosting.owners
  backed := by
    rw [tables]
    intro listen hot installed
    obtain ⟨routes, backs⟩ := hosting.backed listen hot installed
    exact ⟨routes, backs.table, backs.keyed, backs.secured, backs.presents,
      fun trigger found => backs.trigger trigger (triggers listen trigger found)⟩

theorem same (hosting : shared.Hosting tenants)
    (tables : after.sniDispatches = shared.sniDispatches)
    (triggers : after.reloadTriggers = shared.reloadTriggers) : after.Hosting tenants :=
  hosting.frame tables fun _ _ found => triggers ▸ found

/-- The trigger of a single listener is stored, whatever stood under its key. -/
theorem insert_single (hosting : shared.Hosting tenants) {key owner : String} {files : TlsConfig}
    (tables : after.sniDispatches = shared.sniDispatches)
    (triggers : after.reloadTriggers = shared.reloadTriggers.insert key (.single files owner)) :
    after.Hosting tenants := by
  refine hosting.frame tables ?_
  intro listen trigger found
  rw [triggers, KeyedMap.get?_insert] at found
  split at found
  · cases found
  · exact found

/-- A trigger goes. -/
theorem erase (hosting : shared.Hosting tenants) {key : String}
    (tables : after.sniDispatches = shared.sniDispatches)
    (triggers : after.reloadTriggers = shared.reloadTriggers.erase key) :
    after.Hosting tenants := by
  refine hosting.frame tables ?_
  intro listen trigger found
  rw [triggers, KeyedMap.get?_erase] at found
  split at found
  · cases found
  · exact found

/-- A group is installed, or replaced with more tenants. -/
theorem put (hosting : shared.Hosting tenants) {listen : String} {hot : HotSniDispatchTable}
    {own : TlsReloadTrigger} {routes : KeyedMap String SniTenantContext}
    {next : TenantConfig → Prop} (grows : ∀ t, tenants t → next t)
    (here : ∀ t, next t → t.listen = listen → ∃ ctx ∈ hot.table.contexts, ctx.Of t)
    (elsewhere : ∀ t, next t → t.listen ≠ listen → tenants t)
    (owners : ∀ ctx ∈ hot.table.contexts, ∃ t, next t ∧ t.listen = listen ∧ ctx.Of t)
    (backed : Backed { trigger := own, dispatch := hot.table } routes)
    (presented : hot.presented = own.acceptor)
    (tables : after.sniDispatches = shared.sniDispatches.insert listen hot)
    (triggers : after.reloadTriggers = shared.reloadTriggers.insert (groupKey listen)
      (.multi own)) :
    after.Hosting next where
  members := by
    intro t member
    rw [tables]
    by_cases address : t.listen = listen
    · obtain ⟨ctx, listed, mine⟩ := here t member address
      exact ⟨hot, ctx, by rw [address, KeyedMap.get?_insert_self], listed, mine⟩
    · obtain ⟨old, ctx, installed, listed, mine⟩ :=
        hosting.members t (elsewhere t member address)
      exact ⟨old, ctx, by rw [KeyedMap.get?_insert, if_neg address, installed], listed, mine⟩
  owners := by
    intro other table ctx installed listed
    rw [tables, KeyedMap.get?_insert] at installed
    split at installed
    · rename_i same
      cases installed
      obtain ⟨t, member, address, mine⟩ := owners ctx listed
      exact ⟨t, member, address.trans same.symm, mine⟩
    · obtain ⟨t, member, address, mine⟩ := hosting.owners other table ctx installed listed
      exact ⟨t, grows t member, address, mine⟩
  backed := by
    intro other table installed
    rw [tables, KeyedMap.get?_insert] at installed
    split at installed
    · rename_i same
      cases installed
      refine ⟨routes, backed.dispatch, backed.keyed, backed.secured, ?_, ?_⟩
      · rw [presented]
        exact backed.acceptor
      · intro trigger found
        rw [triggers, same, KeyedMap.get?_insert_self] at found
        cases found
        exact backed
    · rename_i different
      obtain ⟨old, backs⟩ := hosting.backed other table installed
      refine ⟨old, backs.table, backs.keyed, backs.secured, backs.presents, ?_⟩
      intro trigger found
      rw [triggers, KeyedMap.get?_insert, if_neg fun same => different (groupKey_injective same)]
        at found
      exact backs.trigger trigger found

/-- SIGUSR1 rebuilds the acceptor of a group from its certificate set. -/
theorem reload (hosting : shared.Hosting tenants) (disk : Disk) {key : String}
    {trigger : TlsReloadTrigger} (found : shared.reloadTriggers.get? key = some (.multi trigger))
    (tables : after.sniDispatches = shared.sniDispatches.mapValues fun listen hot =>
      if groupKey listen =
        key then { hot with presented := (trigger.reload disk).1.acceptor } else hot)
    (triggers : after.reloadTriggers =
      shared.reloadTriggers.insert key (.multi (trigger.reload disk).1)) :
      after.Hosting tenants := by
  -- The tables after the reload are those before it.
  have origin : ∀ {listen hot}, after.sniDispatches.get? listen = some hot →
      ∃ old, shared.sniDispatches.get? listen = some old ∧ hot.table = old.table ∧
        hot.presented = if groupKey listen = key then (trigger.reload disk).1.acceptor
          else old.presented := by
    intro listen hot installed
    rw [tables, KeyedMap.get?_mapValues, Option.map_eq_some_iff] at installed
    obtain ⟨old, wasInstalled, rfl⟩ := installed
    refine ⟨old, wasInstalled, ?_⟩
    split <;> exact ⟨rfl, rfl⟩
  constructor
  · intro t member
    obtain ⟨old, ctx, installed, listed, mine⟩ := hosting.members t member
    have stored : after.sniDispatches.get? t.listen = some (if groupKey t.listen = key then
        { old with presented := (trigger.reload disk).1.acceptor } else old) := by
      rw [tables, KeyedMap.get?_mapValues, installed, Option.map_some]
    refine ⟨_, ctx, stored, ?_, mine⟩
    split <;> exact listed
  · intro listen hot ctx installed listed
    obtain ⟨old, wasInstalled, table, _⟩ := origin installed
    exact hosting.owners listen old ctx wasInstalled (table ▸ listed)
  · intro listen hot installed
    obtain ⟨old, wasInstalled, table, presented⟩ := origin installed
    obtain ⟨routes, backs⟩ := hosting.backed listen old wasInstalled
    by_cases same : groupKey listen = key
    · have backed := (backs.trigger trigger (same ▸ found)).reload disk
      rw [if_pos same] at presented
      refine ⟨routes, table ▸ backs.table, backs.keyed, backs.secured, ?_, ?_⟩
      · rw [presented]
        exact backed.acceptor
      · intro now stored
        rw [triggers, same, KeyedMap.get?_insert_self] at stored
        cases stored
        rw [table]
        exact backed
    · rw [if_neg same] at presented
      refine ⟨routes, table ▸ backs.table, backs.keyed, backs.secured,
        presented ▸ backs.presents, ?_⟩
      intro now stored
      rw [triggers, KeyedMap.get?_insert, if_neg same] at stored
      rw [table]
      exact backs.trigger now stored

end Shared.Hosting

/-- A table answers with its contexts. -/
theorem SniDispatchTable.mem_of_lookup {table : SniDispatchTable} {host : String}
    {ctx : SniTenantContext} (answered : lookup table host = some ctx) :
    ctx ∈ SniDispatchTable.contexts table := by
  simp only [lookup, HostTable.find] at answered
  split at answered
  · rename_i found
    cases answered
    exact List.mem_append_left _ (KeyedMap.mem_values_iff.mpr ⟨host, found⟩)
  · obtain ⟨entry, scanned, rfl⟩ := Option.map_eq_some_iff.mp answered
    exact List.mem_append_right _
      (List.mem_map.mpr ⟨entry, List.mem_of_find?_eq_some scanned, rfl⟩)

/-- What a group does with the hostname of one of its tenants. -/
theorem Shared.Backs.answers {shared : Shared} {listen : String} {hot : HotSniDispatchTable}
    {routes : KeyedMap String SniTenantContext} (backs : shared.Backs listen hot routes)
    {ctx : SniTenantContext} (listed : ctx ∈ hot.table.contexts) :
    ∃ sni certified, ctx.tenant.sni = some sni ∧ hot.table.lookup sni = some ctx ∧
      hot.presented.resolve (some sni) = some certified ∧
      ctx.tenant.tls = some certified.files := by
  obtain ⟨sni, routed⟩ := (SniDispatchTable.mem_contexts backs.table).mp listed
  obtain ⟨tls, secure⟩ := backs.secured sni ctx routed
  obtain ⟨certs, represents, mirrors⟩ := backs.presents
  obtain ⟨⟨pattern, certified⟩, stored, same⟩ :=
    List.mem_map.mp ((mirrors sni tls).mpr ⟨ctx, routed, secure⟩)
  cases same
  refine ⟨pattern, certified, backs.keyed pattern ctx routed, ?_, ?_, secure⟩
  · rw [SniDispatchTable.lookup, HostTable.find_eq_route backs.table, route,
      KeyedMap.get?_eq_some_iff.mpr routed, Option.some_or]
  · simp only [MultiSniCertResolver.resolve, Option.bind_some]
    rw [HostTable.find_eq_route represents, route, KeyedMap.get?_eq_some_iff.mpr stored,
      Option.some_or]

/-- With all loops bound, the routes served are those of the tenants. -/
theorem Daemon.serves_iff {daemon : Daemon} {tenants : TenantConfig → Prop}
    (looped : daemon.Looped fun t => tenants t ∧ t.sni = none)
    (hosting : daemon.shared.Hosting fun t => tenants t ∧ t.sni ≠ none)
    (bound : ∀ id task, daemon.running.get? id = some task → task.bound = true)
    (route : Route) : daemon.Serves route ↔
      ∃ t, tenants t ∧ route = { listen := t.listen, pattern := t.sni, tenant := t.name } := by
  obtain ⟨address, pattern, name⟩ := route
  constructor
  · rintro ⟨id, task, found, _, at', answers⟩
    cases pattern with
    | none =>
        obtain ⟨held, owner⟩ := answers
        obtain ⟨t, ⟨member, own⟩, named, listen, _, _⟩ := looped.loops id task found held
        refine ⟨t, member, ?_⟩
        rw [own, ← named, ← listen, at', owner]
    | some pattern =>
        obtain ⟨_, hot, ctx, _, installed, answered, hostname, named, _⟩ := answers
        obtain ⟨t, ⟨member, _⟩, listen, sameName, sameSni, _⟩ :=
          hosting.owners address hot ctx installed (SniDispatchTable.mem_of_lookup answered)
        refine ⟨t, member, ?_⟩
        rw [← sameSni, hostname, ← sameName, listen]
        exact congrArg _ named.symm
  · rintro ⟨t, member, same⟩
    cases same
    cases hostname : t.sni with
    | none =>
        obtain ⟨id, task, _, found, owner, listen, _, held⟩ :=
          looped.own t ⟨member, hostname⟩
        exact ⟨id, task, found, bound id task found, listen, held, owner⟩
    | some sni =>
        obtain ⟨hot, ctx, installed, listed, sameName, sameSni, _⟩ :=
          hosting.members t ⟨member, by simp [hostname]⟩
        obtain ⟨routes, backs⟩ := hosting.backed t.listen hot installed
        obtain ⟨pattern, certified, sniOf, answered, presented, secure⟩ := backs.answers listed
        rw [sameSni, hostname] at sniOf
        cases sniOf
        obtain ⟨id, task, found, unheld, listen⟩ :=
          looped.groups t.listen (KeyedMap.mem_keys_iff.mpr ⟨hot, installed⟩)
        exact ⟨id, task, found, bound id task found, listen, unheld, hot,
          ctx, certified, installed, answered, sameSni.trans hostname,
          sameName, presented, secure⟩

/-- Two descriptions of the same tenants. -/
theorem Daemon.Looped.congr {daemon : Daemon} {tenants others : TenantConfig → Prop}
    (looped : daemon.Looped tenants) (same : ∀ t, tenants t ↔ others t) :
    daemon.Looped others := by
  obtain rfl : tenants = others := funext fun t => propext (same t)
  exact looped

theorem Shared.Hosting.congr {shared : Shared} {tenants others : TenantConfig → Prop}
    (hosting : shared.Hosting tenants) (same : ∀ t, tenants t ↔ others t) :
    shared.Hosting others := by
  obtain rfl : tenants = others := funext fun t => propext (same t)
  exact hosting

/-- The tenants of a startup group and the contexts of its table. -/
theorem startupGroup_contexts {disk : Disk} {cfg : Config} {listen : String}
    {tenants : List ServeTcpTenant} {built : SniGroup}
    (resolved : (cfg.tenantsAt listen).mapM cfg.resolveOneServeTcp = .ok tenants)
    (started : startupGroup disk { listen, sniDispatch := true, tenants } = .ok built) :
    (∀ t ∈ cfg.tenantsAt listen, t.sni ≠ none ∧
      ∃ ctx ∈ built.dispatch.contexts, ctx.Of t) ∧
      ∀ ctx ∈ built.dispatch.contexts, ∃ t ∈ cfg.tenantsAt listen, ctx.Of t := by
  obtain ⟨members, listed, _, dispatched⟩ := startupGroup_spec started
  constructor
  · intro t here
    obtain ⟨tenant, tenantMember, converted⟩ := exists_mem_of_mapM_eq_ok resolved here
    obtain ⟨member, inGroup, entered⟩ := exists_mem_of_mapM_eq_ok listed tenantMember
    obtain ⟨sni, tls, hostname, secure, rfl⟩ := startupMember_spec entered
    obtain ⟨name, _, sameSni, sameTls⟩ := Config.resolveOneServeTcp_spec converted
    refine ⟨by simp [← sameSni, hostname], { tenant }, ?_, name, sameSni, sameTls⟩
    exact (SniDispatchTable.mem_contexts_new dispatched _).mpr
      (List.mem_map.mpr ⟨_, inGroup, rfl⟩)
  · intro ctx answered
    obtain ⟨member, inGroup, rfl⟩ :=
      List.mem_map.mp ((SniDispatchTable.mem_contexts_new dispatched ctx).mp answered)
    obtain ⟨tenant, tenantMember, entered⟩ := exists_of_mem_mapM_eq_ok listed inGroup
    obtain ⟨sni, tls, hostname, secure, rfl⟩ := startupMember_spec entered
    obtain ⟨t, here, converted⟩ := exists_of_mem_mapM_eq_ok resolved tenantMember
    obtain ⟨name, _, sameSni, sameTls⟩ := Config.resolveOneServeTcp_spec converted
    exact ⟨t, here, name, sameSni, sameTls⟩

/-- Startup serves the tenants it has launched. -/
theorem Launching.routed {disk : Disk} {cfg : Config} {runtimes : List TenantRuntime}
    {base daemon : Daemon} {done : List TenantConfig} (valid : cfg.validate = .ok ())
    (idle : base.running = .empty) (undispatched : base.shared.sniDispatches = .empty)
    (unstopped : base.notified = [] ∧ base.notifiedGroups = [])
    (audits : ∀ runtime ∈ runtimes, base.shared.tenantAudits.get? runtime.name =
      some runtime.id)
    (shutdowns : base.shared.tenantShutdowns = base.shared.tenantAudits)
    (launching : Launching disk cfg runtimes base done daemon) :
    (∀ t ∈ done, t ∈ cfg.tenants) ∧ daemon.notified = [] ∧
      daemon.shared.tenantAudits = base.shared.tenantAudits ∧
      daemon.shared.tenantShutdowns = base.shared.tenantShutdowns ∧
      daemon.Looped (fun t => t ∈ done ∧ t.sni = none) ∧
      daemon.shared.Hosting fun t => t ∈ done ∧ t.sni ≠ none := by
  have runtimeAudit : ∀ {daemon : Daemon} {t : TenantConfig} {runtime : TenantRuntime},
      daemon.shared.tenantAudits = base.shared.tenantAudits → runtime ∈ runtimes →
      runtime.name = t.name → daemon.shared.tenantAudits.get? t.name = some runtime.id := by
    intro daemon t runtime same found named
    rw [same, ← named]
    exact audits runtime found
  have apart : ∀ {done : List TenantConfig} {t}, (∀ t ∈ done, t ∈ cfg.tenants) →
      t ∈ cfg.tenants → t ∉ done →
      ∀ u, u ∈ done ∧ u.sni = none → u.name ≠ t.name := by
    rintro done t known declared new u ⟨member, _⟩ same
    exact new (List.inj_on_of_nodup_map (Config.validate_names_nodup valid) (known u member)
      declared same ▸ member)
  induction launching with
  | start =>
      refine ⟨by simp, unstopped.1, rfl, rfl, ⟨?_, ?_, ?_, ?_, ?_, unstopped.2, ?_, ?_⟩,
        ⟨?_, ?_, ?_⟩⟩
      all_goals simp [idle, undispatched, unstopped, KeyedMap.get?, KeyedMap.keys, KeyedMap.empty]
  | @plain done before t runtime prior declared new found named own bare alone
      inductionHypothesis =>
      obtain ⟨known, quiet, sameAudits, sameShutdowns, looped, hosting⟩ := inductionHypothesis
      have audit := runtimeAudit sameAudits found named
      have other := apart known declared new
      have spawned :=
        looped.spawn other named audit (by rw [sameShutdowns, shutdowns, ← sameAudits, audit])
        (by simp [quiet])
      refine ⟨by simpa [or_imp, forall_and, declared] using known, quiet,
        sameAudits, sameShutdowns, spawned.congr ?_, (hosting.congr ?_).same rfl rfl⟩
      · intro u
        grind
      · intro u
        grind
  | @secured done before t runtime tls trigger prior declared new found named own secure built alone
      inductionHypothesis =>
      obtain ⟨known, quiet, sameAudits, sameShutdowns, looped, hosting⟩ := inductionHypothesis
      have audit := runtimeAudit sameAudits found named
      have other := apart known declared new
      have stored : (before.insertTrigger t.name trigger).Looped fun u =>
          u ∈ done ∧ u.sni = none :=
        looped.frame rfl rfl rfl (fun _ known => known) rfl rfl rfl rfl rfl
      have spawned := stored.spawn other named audit
        (by
          change before.shared.tenantShutdowns.get? t.name = _
          rw [sameShutdowns, shutdowns, ← sameAudits, audit])
        (by
          change runtime.id ∉ before.notified
          simp [quiet])
      obtain ⟨_, _, made⟩ := bind_eq_ok.mp built
      cases made
      refine ⟨by simpa [or_imp, forall_and, declared] using known, quiet,
        sameAudits, sameShutdowns, spawned.congr ?_, (hosting.congr ?_).insert_single rfl rfl⟩
      · intro u
        grind
      · intro u
        grind
  | @group done before listen tenants built handles prior several new resolved given started
      inductionHypothesis =>
      obtain ⟨known, quiet, sameAudits, sameShutdowns, looped, hosting⟩ := inductionHypothesis
      obtain ⟨contexts, owners⟩ := startupGroup_contexts resolved started
      obtain ⟨⟨routes, backed⟩, _⟩ := startupGroup_backed started
      refine ⟨?_, quiet, sameAudits, sameShutdowns, ?_, ?_⟩
      · intro t member
        rcases List.mem_append.mp member with earlier | here
        · exact known t earlier
        · exact (Config.mem_tenantsAt.mp here).1
      · refine (looped.install listen built handles).congr ?_
        intro u
        have hostname := fun here : u ∈ cfg.tenantsAt listen => (contexts u here).1
        grind
      · refine hosting.put ?_ ?_ ?_ ?_ backed rfl rfl rfl
        · rintro t ⟨member, hostname⟩
          exact ⟨List.mem_append_left _ member, hostname⟩
        · rintro t ⟨member, _⟩ address
          have here : t ∈ cfg.tenantsAt listen := by
            rcases List.mem_append.mp member with earlier | here
            · exact Config.mem_tenantsAt.mpr ⟨known t earlier, address⟩
            · exact here
          exact (contexts t here).2
        · rintro t ⟨member, hostname⟩ elsewhere
          rcases List.mem_append.mp member with earlier | here
          · exact ⟨earlier, hostname⟩
          · exact absurd (Config.mem_tenantsAt.mp here).2 elsewhere
        · intro ctx answered
          obtain ⟨t, here, mine⟩ := owners ctx answered
          exact ⟨t, ⟨List.mem_append_right _ here, (contexts t here).1⟩,
            (Config.mem_tenantsAt.mp here).2, mine⟩

/-- Startup registers a `Notify` with every channel. -/
theorem registered_shutdowns (cfg : DaemonConfig) (runtimes : List TenantRuntime) :
    (registered cfg runtimes).shared.tenantShutdowns =
    (registered cfg runtimes).shared.tenantAudits := by
  have folded : ∀ (pairs : List (TenantConfig × TenantRuntime)) (shared : Shared),
      shared.tenantShutdowns = shared.tenantAudits →
      (pairs.foldl (fun shared pair => shared.register cfg pair.1 pair.2) shared).tenantShutdowns =
        (pairs.foldl (fun shared pair => shared.register cfg pair.1 pair.2)
          shared).tenantAudits := by
    intro pairs
    induction pairs with
    | nil => exact fun _ same => same
    | cons pair rest inductionHypothesis =>
        intro shared same
        refine inductionHypothesis _ ?_
        simp only [Shared.register, same]
  exact folded _ _ rfl

/-- A tenant is registered and not about to leave. -/
def Shared.Present (shared : Shared) (t : TenantConfig) : Prop :=
  t ∈ shared.tenantConfigs ∧ t.name ∈ shared.tenantNames

/-- Startup serves the tenants of its configuration. -/
theorem startDaemon_routed {files : TenantFiles} {disk : Disk}
    {cfg : DaemonConfig} {daemon : Daemon} (started : startDaemon files disk cfg = .ok daemon) :
    (∀ t, daemon.shared.Present t ↔ t ∈ cfg.config.tenants) ∧
      daemon.Looped (fun t => daemon.shared.Present t ∧ t.sni = none) ∧
      daemon.shared.Hosting fun t => daemon.shared.Present t ∧ t.sni ≠ none := by
  obtain ⟨valid, runtimes, done, built, launching, covered⟩ := startDaemon_launching started
  obtain ⟨keyed, undispatched, _, configs, audits⟩ := registered_spec valid built
  obtain ⟨_, _, _, _, _, _, _, names, sameConfigs, _⟩ := launching.same
  have present : ∀ t, daemon.shared.Present t ↔ t ∈ cfg.config.tenants := by
    intro t
    simp only [Shared.Present, sameConfigs, configs, names]
    refine and_iff_left_of_imp ?_
    intro declared
    have listed : t.name ∈ (registered cfg runtimes).shared.tenantConfigs.map TenantConfig.name :=
      List.mem_map.mpr ⟨t, configs ▸ declared, rfl⟩
    simpa using (keyed.configs t.name).mp listed
  obtain ⟨known, _, _, _, looped, hosting⟩ :=
    launching.routed valid rfl undispatched ⟨rfl, rfl⟩ audits
    (registered_shutdowns cfg runtimes)
  have launched : ∀ t, t ∈ done ↔ daemon.shared.Present t := by
    intro t
    rw [present]
    exact ⟨known t, covered t⟩
  simp only [launched] at looped hosting
  exact ⟨present, looped, hosting⟩

end CofreSoberano.Gateway
