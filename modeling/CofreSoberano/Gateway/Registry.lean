import CofreSoberano.Gateway.Signals
import CofreSoberano.Gateway.SniAgreement

/-!
# The registry of tenants

Startup, SIGHUP ADD and the two REMOVE paths write the same maps. `Keyed` says
how their keys fit together, also while a removal waits with some of the maps
purged; `Sound` adds what ties the dispatch tables and the audit channels to
them. Both hold in every state of every run.
-/

namespace CofreSoberano.Gateway

open CofreSoberano.Std

/-- The tenant that a waiting removal has taken out of some maps already. -/
def SignalTask.leaving : SignalTask → Option String
  | .draining _ name _ _ _ => some name
  | _ => none

/-- The configuration of the cycle under way. -/
def SignalTask.config : SignalTask → Option DaemonConfig
  | .applying cfg _ _ => some cfg
  | .draining _ _ _ cfg _ => some cfg
  | _ => none

/-- The names a cycle still has to add. -/
def SignalTask.added : SignalTask → List String
  | .applying _ added _ => added
  | _ => []

/-- The names a cycle still has to remove. -/
def SignalTask.removed : SignalTask → List String
  | .applying _ _ removed => removed
  | .draining _ _ _ _ removed => removed
  | _ => []

/-- How the keys of the maps fit together. -/
structure Shared.Keyed (shared : Shared) (leaving : Option String) : Prop where
  names : shared.tenantNames.Nodup
  gone : ∀ name ∈ leaving, name ∉ shared.tenantNames
  admissions : ∀ name, name ∈ shared.tenantAdmissions.keys ↔ name ∈ shared.tenantNames
  audits : ∀ name, name ∈ shared.tenantAudits.keys ↔ name ∈ shared.tenantNames
  configsOnce : (shared.tenantConfigs.map TenantConfig.name).Nodup
  configs : ∀ name, name ∈ shared.tenantConfigs.map TenantConfig.name ↔
    name ∈ shared.tenantNames ∨ name ∈ leaving
  metricsOnce : shared.metricsList.Nodup
  metrics : ∀ name, name ∈ shared.metricsList ↔ name ∈ shared.tenantNames ∨
    name ∈ leaving
  targets : ∀ name, name ∈ shared.rotationTargets.keys ↔
    name ∈ shared.tenantNames ∨ name ∈ leaving
  shutdowns : ∀ name ∈ shared.tenantShutdowns.keys, name ∈ shared.tenantNames ∨
    name ∈ leaving
  monitors : ∀ name ∈ shared.monitorHandles.keys, name ∈ shared.tenantNames ∨
    name ∈ leaving

namespace Shared.Keyed

variable {shared after : Shared} {leaving : Option String}

theorem empty : Shared.empty.Keyed none := by
  constructor <;> simp [Shared.empty]

/-- Only the keys matter, and those of the monitors may become fewer. -/
theorem frame (keyed : shared.Keyed leaving) (names : after.tenantNames = shared.tenantNames)
    (configs : after.tenantConfigs = shared.tenantConfigs)
    (metrics : after.metricsList = shared.metricsList)
    (admissions : ∀ name, name ∈ after.tenantAdmissions.keys ↔
      name ∈ shared.tenantAdmissions.keys)
    (audits : after.tenantAudits = shared.tenantAudits)
    (targets : after.rotationTargets = shared.rotationTargets)
    (shutdowns : after.tenantShutdowns = shared.tenantShutdowns)
    (monitors : ∀ name ∈ after.monitorHandles.keys, name ∈ shared.monitorHandles.keys) :
    after.Keyed leaving where
  names := names ▸ keyed.names
  gone := names ▸ keyed.gone
  admissions := by
    intro name
    rw [admissions, names]
    exact keyed.admissions name
  audits := by
    intro name
    rw [audits, names]
    exact keyed.audits name
  configsOnce := configs ▸ keyed.configsOnce
  configs := by
    intro name
    rw [configs, names]
    exact keyed.configs name
  metricsOnce := metrics ▸ keyed.metricsOnce
  metrics := by
    intro name
    rw [metrics, names]
    exact keyed.metrics name
  targets := by
    intro name
    rw [targets, names]
    exact keyed.targets name
  shutdowns := by
    intro name member
    rw [names]
    exact keyed.shutdowns name (shutdowns ▸ member)
  monitors := by
    intro name member
    rw [names]
    exact keyed.monitors name (monitors name member)

/-- Registering a new name adds it to every map. -/
theorem register (keyed : shared.Keyed none) (cfg : DaemonConfig) {t : TenantConfig}
    {runtime : TenantRuntime} (named : runtime.name = t.name)
    (new : t.name ∉ shared.tenantNames) : (shared.register cfg t runtime).Keyed none := by
  have unlisted : t.name ∉ shared.tenantConfigs.map TenantConfig.name := by
    simpa [keyed.configs] using new
  have unmetered : t.name ∉ shared.metricsList := by
    simpa [keyed.metrics] using new
  constructor
  · exact keyed.names.insert
  · simp
  · intro name
    simp [Shared.register, keyed.admissions]
  · intro name
    simp [Shared.register, keyed.audits]
  · simp only [Shared.register, List.map_append, List.map_cons, List.map_nil]
    rw [List.nodup_append]
    refine ⟨keyed.configsOnce, by simp, ?_⟩
    intro name member other single same
    rw [List.mem_singleton] at single
    exact unlisted (single ▸ same ▸ member)
  · intro name
    have known := keyed.configs name
    simp only [Option.mem_def, reduceCtorEq, or_false] at known
    simp only [Shared.register, List.map_append, List.map_cons, List.map_nil, List.mem_append,
      List.mem_singleton, known, List.mem_insert_iff, named, Option.mem_def, reduceCtorEq, or_false]
    tauto
  · simp only [Shared.register]
    rw [List.nodup_append]
    refine ⟨keyed.metricsOnce, by simp, ?_⟩
    intro name member other single same
    rw [List.mem_singleton] at single
    exact unmetered (named ▸ single ▸ same ▸ member)
  · intro name
    have known := keyed.metrics name
    simp only [Option.mem_def, reduceCtorEq, or_false] at known
    simp only [Shared.register, List.mem_append, List.mem_singleton, known, List.mem_insert_iff,
      Option.mem_def, reduceCtorEq, or_false]
    tauto
  · intro name
    have known := keyed.targets name
    simp only [Option.mem_def, reduceCtorEq, or_false] at known
    simp only [Shared.register, KeyedMap.mem_keys_insert, known,
      List.mem_insert_iff, Option.mem_def, reduceCtorEq, or_false]
  · intro name member
    have known := keyed.shutdowns name
    simp only [Option.mem_def, reduceCtorEq, or_false] at known
    simp only [Shared.register, KeyedMap.mem_keys_insert] at member
    simp only [Shared.register, List.mem_insert_iff, Option.mem_def, reduceCtorEq, or_false]
    tauto
  · intro name member
    have known := keyed.monitors name
    simp only [Option.mem_def, reduceCtorEq, or_false] at known
    simp only [Shared.register] at member
    simp only [Shared.register, List.mem_insert_iff, Option.mem_def, reduceCtorEq, or_false]
    split at member
    · rcases KeyedMap.mem_keys_insert.mp member with rfl | old
      · exact .inl rfl
      · exact .inr (known old)
    · exact .inr (known member)

/-- The first half of a removal. -/
theorem leave (keyed : shared.Keyed none) {name : String} (registered : name ∈ shared.tenantNames)
    (names : after.tenantNames = shared.tenantNames.filter fun tenant => tenant ≠ name)
    (admissions : after.tenantAdmissions = shared.tenantAdmissions.erase name)
    (audits : after.tenantAudits = shared.tenantAudits.erase name)
    (configs : after.tenantConfigs = shared.tenantConfigs)
    (metrics : after.metricsList = shared.metricsList)
    (targets : after.rotationTargets = shared.rotationTargets)
    (shutdowns : ∀ name ∈ after.tenantShutdowns.keys, name ∈ shared.tenantShutdowns.keys)
    (monitors : after.monitorHandles = shared.monitorHandles) : after.Keyed (some name) := by
  have split : ∀ other, other ∈ shared.tenantNames ↔
      other ∈ after.tenantNames ∨ other ∈ some name := by
    intro other
    simp only [names, List.mem_filter, decide_eq_true_eq, Option.mem_def, Option.some.injEq]
    constructor
    · intro member
      by_cases same : other = name
      · exact .inr same.symm
      · exact .inl ⟨member, same⟩
    · rintro (⟨member, _⟩ | rfl)
      · exact member
      · exact registered
  constructor
  · exact names ▸ keyed.names.filter _
  · simp [names]
  · intro other
    simp [admissions, names, keyed.admissions]
  · intro other
    simp [audits, names, keyed.audits]
  · exact configs ▸ keyed.configsOnce
  · intro other
    rw [configs, keyed.configs, ← split]
    simp
  · exact metrics ▸ keyed.metricsOnce
  · intro other
    rw [metrics, keyed.metrics, ← split]
    simp
  · intro other
    rw [targets, keyed.targets, ← split]
    simp
  · intro other member
    rw [← split]
    simpa using keyed.shutdowns other (shutdowns other member)
  · intro other member
    rw [← split]
    simpa using keyed.monitors other (monitors ▸ member)

/-- The second half of a removal, of a tenant without a registered `Notify`. -/
theorem purge {name : String} (keyed : shared.Keyed (some name))
    (stopped : name ∉ shared.tenantShutdowns.keys) : (shared.purgeRest name).Keyed none := by
  have absent : name ∉ shared.tenantNames := keyed.gone name rfl
  have other : ∀ tenant ∈ shared.tenantNames, tenant ≠ name := by
    rintro tenant member rfl
    exact absent member
  constructor
  · exact keyed.names
  · simp
  · exact keyed.admissions
  · exact keyed.audits
  · simp only [Shared.purgeRest]
    exact keyed.configsOnce.sublist (List.filter_sublist.map _)
  · intro tenant
    have known := keyed.configs tenant
    simp only [Shared.purgeRest, List.mem_map, List.mem_filter, decide_eq_true_eq, Option.mem_def,
      reduceCtorEq, or_false, Option.some.injEq] at known ⊢
    constructor
    · rintro ⟨t, ⟨member, different⟩, rfl⟩
      rcases known.mp ⟨t, member, rfl⟩ with registered | rfl
      · exact registered
      · exact absurd rfl different
    · intro registered
      obtain ⟨t, member, rfl⟩ := known.mpr (.inl registered)
      exact ⟨t, ⟨member, other _ registered⟩, rfl⟩
  · exact keyed.metricsOnce.filter _
  · intro tenant
    have known := keyed.metrics tenant
    simp only [Shared.purgeRest, List.mem_filter, known, decide_eq_true_eq, Option.mem_def,
      Option.some.injEq, reduceCtorEq, or_false]
    constructor
    · rintro ⟨registered | rfl, different⟩
      · exact registered
      · exact absurd rfl different
    · exact fun registered => ⟨.inl registered, other _ registered⟩
  · intro tenant
    have known := keyed.targets tenant
    simp only [Shared.purgeRest, KeyedMap.mem_keys_erase, known, Option.mem_def, Option.some.injEq,
      reduceCtorEq, or_false]
    constructor
    · rintro ⟨registered | rfl, different⟩
      · exact registered
      · exact absurd rfl different
    · exact fun registered => ⟨.inl registered, other _ registered⟩
  · intro tenant member
    rcases keyed.shutdowns tenant member with registered | same
    · exact .inl registered
    · cases same
      exact absurd member stopped
  · intro tenant member
    obtain ⟨old, different⟩ := KeyedMap.mem_keys_erase.mp member
    rcases keyed.monitors tenant old with registered | same
    · exact .inl registered
    · cases same
      exact absurd rfl different

end Shared.Keyed

/-- The maps after changes of settings in force and of counters only. -/
inductive Shared.HotOnly (before : Shared) : Shared → Prop where
  | intro (admissions : KeyedMap String HotAdmissionController) (metrics : DaemonMetrics)
      (keys : ∀ name, name ∈ admissions.keys ↔ name ∈ before.tenantAdmissions.keys) :
      before.HotOnly { before with tenantAdmissions := admissions, daemonMetrics := metrics }

namespace Shared.HotOnly

variable {first second third : Shared}

theorem refl (shared : Shared) : shared.HotOnly shared := .intro _ _ fun _ => Iff.rfl

theorem trans (before : first.HotOnly second) (after : second.HotOnly third) :
    first.HotOnly third := by
  obtain ⟨middle, _, earlier⟩ := before
  obtain ⟨admissions, metrics, later⟩ := after
  exact .intro admissions metrics fun name => (later name).trans (earlier name)

/-- The maps before and after, as an equation. -/
theorem exists_eq (hot : first.HotOnly second) : ∃ admissions metrics, second =
    { first with tenantAdmissions := admissions, daemonMetrics := metrics } := by
  obtain ⟨admissions, metrics, _⟩ := hot
  exact ⟨admissions, metrics, rfl⟩

theorem keyed (hot : first.HotOnly second) {leaving : Option String}
    (keyed : first.Keyed leaving) : second.Keyed leaving := by
  obtain ⟨admissions, metrics, keys⟩ := hot
  exact keyed.frame rfl rfl rfl keys rfl rfl rfl fun _ member => member

end Shared.HotOnly

/-- One iteration of the limits scan. -/
theorem Shared.applyChanges_hotOnly (shared : Shared) (t : TenantConfig) :
    shared.HotOnly (shared.applyChanges t) := by
  have counted : ∀ (shared : Shared) (fields : List String),
      shared.HotOnly (shared.countCold fields) := by
    intro shared fields
    simp only [Shared.countCold]
    split
    · exact .refl shared
    · exact .intro _ _ fun _ => Iff.rfl
  simp only [Shared.applyChanges]
  split
  · exact .refl shared
  · refine Shared.HotOnly.trans ?_ (counted _ _)
    simp only [Shared.applyHot]
    split
    · exact .refl shared
    · split
      · rename_i controller found
        have known : t.name ∈ shared.tenantAdmissions.keys :=
          KeyedMap.mem_keys_iff.mpr ⟨controller, found⟩
        apply Shared.HotOnly.intro
        intro name
        rw [KeyedMap.mem_keys_insert]
        constructor
        · rintro (rfl | member)
          · exact known
          · exact member
        · exact .inr
      · exact .intro _ _ fun _ => Iff.rfl

/-- The limits scan changes settings and counters only. -/
theorem Shared.applyLimits_hotOnly (shared : Shared) (cfg : Config) :
    shared.HotOnly (shared.applyLimits cfg) := by
  have folded : ∀ (tenants : List TenantConfig) (shared : Shared),
      shared.HotOnly (tenants.foldl Shared.applyChanges shared) := by
    intro tenants
    induction tenants with
    | nil => exact Shared.HotOnly.refl
    | cons t rest inductionHypothesis =>
        intro shared
        exact (shared.applyChanges_hotOnly t).trans (inductionHypothesis _)
  exact folded _ shared

/-- The dispatch tables against the registered channels. -/
structure Shared.Dispatching (shared : Shared) : Prop where
  members : ∀ listen hot, shared.sniDispatches.get? listen = some hot →
    ∀ name ∈ hot.table.tenantNames, ∃ channel,
      (name, channel) ∈ hot.audits ∧ shared.tenantAudits.get? name = some channel
  apart : ∀ left right first second name, shared.sniDispatches.get? left = some first →
    shared.sniDispatches.get? right = some second → name ∈ first.table.tenantNames →
    name ∈ second.table.tenantNames → left = right

/-- A found group has the tenant. -/
theorem Shared.sniTarget_eq_some {shared : Shared} {name listen : String}
    {hot : HotSniDispatchTable} (found : shared.sniTarget name = some (listen, hot)) :
    shared.sniDispatches.get? listen = some hot ∧ name ∈ hot.table.tenantNames := by
  obtain ⟨member, named⟩ := Gateway.sniTarget_eq_some found
  exact ⟨KeyedMap.get?_eq_some_iff.mpr member, named⟩

/-- Without a group, no table has the tenant. -/
theorem Shared.sniTarget_eq_none {shared : Shared} {name : String}
    (absent : shared.sniTarget name = none) {listen : String} {hot : HotSniDispatchTable}
    (installed : shared.sniDispatches.get? listen = some hot) : name ∉ hot.table.tenantNames := by
  exact Gateway.sniTarget_eq_none absent (KeyedMap.get?_eq_some_iff.mp installed)

namespace Shared.Dispatching

variable {shared after : Shared}

/-- No table has a name that is not registered. -/
theorem unused (dispatching : shared.Dispatching) {name : String}
    (absent : name ∉ shared.tenantAudits.keys) {listen : String} {hot : HotSniDispatchTable}
    (installed : shared.sniDispatches.get? listen = some hot) : name ∉ hot.table.tenantNames := by
  intro member
  obtain ⟨channel, _, registered⟩ := dispatching.members listen hot installed name member
  exact absent (KeyedMap.mem_keys_iff.mpr ⟨channel, registered⟩)

/-- Only the tables and the channels of their tenants matter. -/
theorem frame (dispatching : shared.Dispatching)
    (tables : after.sniDispatches = shared.sniDispatches)
    (audits : ∀ listen hot name, shared.sniDispatches.get? listen = some hot →
      name ∈ hot.table.tenantNames →
      after.tenantAudits.get? name = shared.tenantAudits.get? name) :
    after.Dispatching where
  members := by
    intro listen hot installed name member
    rw [tables] at installed
    obtain ⟨channel, handle, registered⟩ := dispatching.members listen hot installed name member
    exact ⟨channel, handle, (audits listen hot name installed member).trans registered⟩
  apart := by
    rw [tables]
    exact dispatching.apart

/-- The frame for steps that leave the tables and the channels alone. -/
theorem same (dispatching : shared.Dispatching)
    (tables : after.sniDispatches = shared.sniDispatches)
    (audits : after.tenantAudits = shared.tenantAudits) : after.Dispatching :=
  dispatching.frame tables fun _ _ _ _ _ => by rw [audits]

/-- A table with one more tenant, which no other table has. -/
theorem install (dispatching : shared.Dispatching) {listen name : String} {channel : RuntimeId}
    {hot : HotSniDispatchTable}
    (tables : after.sniDispatches = shared.sniDispatches.insert listen hot)
    (audits : after.tenantAudits = shared.tenantAudits)
    (unused : ∀ listen hot, shared.sniDispatches.get? listen = some hot →
      name ∉ hot.table.tenantNames)
    (own : (name, channel) ∈ hot.audits)
    (registered : shared.tenantAudits.get? name = some channel)
    (members : ∀ tenant ∈ hot.table.tenantNames, tenant = name ∨
      ∃ old, shared.sniDispatches.get? listen = some old ∧ tenant ∈ old.table.tenantNames ∧
        ∀ handle ∈ old.audits, handle ∈ hot.audits) : after.Dispatching where
  members := by
    intro other found installed tenant member
    rw [tables, KeyedMap.get?_insert] at installed
    rw [audits]
    split at installed
    · cases installed
      rcases members tenant member with rfl | ⟨old, wasInstalled, wasMember, kept⟩
      · exact ⟨channel, own, registered⟩
      · obtain ⟨id, handle, known⟩ :=
          dispatching.members listen old wasInstalled tenant wasMember
        exact ⟨id, kept _ handle, known⟩
    · exact dispatching.members other found installed tenant member
  apart := by
    -- A name of the new table is the new one, or the old table's at the same address.
    have origin : ∀ {other found tenant}, after.sniDispatches.get? other = some found →
        tenant ∈ found.table.tenantNames → (tenant = name ∧ other = listen) ∨
          ∃ old, shared.sniDispatches.get? other = some old ∧
            tenant ∈ old.table.tenantNames := by
      intro other found tenant installed member
      rw [tables, KeyedMap.get?_insert] at installed
      split at installed
      · rename_i same
        cases installed
        rcases members tenant member with rfl | ⟨old, wasInstalled, wasMember, _⟩
        · exact .inl ⟨rfl, same⟩
        · exact .inr ⟨old, same ▸ wasInstalled, wasMember⟩
      · exact .inr ⟨found, installed, member⟩
    intro left right first second tenant installedLeft installedRight memberLeft memberRight
    rcases origin installedLeft memberLeft with ⟨rfl, rfl⟩ | ⟨old, wasLeft, inLeft⟩
    · rcases origin installedRight memberRight with ⟨_, rfl⟩ | ⟨old, wasRight, inRight⟩
      · rfl
      · exact absurd inRight (unused _ _ wasRight)
    · rcases origin installedRight memberRight with ⟨rfl, rfl⟩ | ⟨other, wasRight, inRight⟩
      · exact absurd inLeft (unused _ _ wasLeft)
      · exact dispatching.apart left right old other tenant wasLeft wasRight inLeft inRight

/-- A tenant leaves its table and the registered channels. -/
theorem leave (dispatching : shared.Dispatching) {listen name : String}
    {hot : HotSniDispatchTable} {table : SniDispatchTable} {presented : MultiSniCertResolver}
    (installed : shared.sniDispatches.get? listen = some hot)
    (member : name ∈ hot.table.tenantNames) (left : hot.table.withTenantRemoved name = some table)
    (tables : after.sniDispatches = shared.sniDispatches.insert listen
      { table, audits := hot.audits.filter (fun handle => handle.1 ≠ name), presented })
    (audits : after.tenantAudits = shared.tenantAudits.erase name) : after.Dispatching := by
  have origin : ∀ {other found tenant}, after.sniDispatches.get? other = some found →
      tenant ∈ found.table.tenantNames → tenant ≠ name ∧
        ∃ old, shared.sniDispatches.get? other = some old ∧ tenant ∈ old.table.tenantNames ∧
          ∀ channel, (tenant, channel) ∈ old.audits → (tenant, channel) ∈ found.audits := by
    intro other found tenant nowInstalled nowMember
    rw [tables, KeyedMap.get?_insert] at nowInstalled
    split at nowInstalled
    · rename_i same
      cases nowInstalled
      obtain ⟨ctx, answered, rfl⟩ := List.mem_map.mp nowMember
      obtain ⟨wasAnswered, different⟩ :=
        (SniDispatchTable.mem_contexts_withTenantRemoved left ctx).mp answered
      refine ⟨different, hot, same ▸ installed,
        List.mem_map.mpr ⟨ctx, wasAnswered, rfl⟩, ?_⟩
      intro channel handle
      exact List.mem_filter.mpr ⟨handle, by simpa using different⟩
    · rename_i different
      refine ⟨?_, found, nowInstalled, nowMember, fun _ handle => handle⟩
      rintro rfl
      exact different (dispatching.apart other listen found hot tenant nowInstalled installed
        nowMember member)
  constructor
  · intro other found nowInstalled tenant nowMember
    obtain ⟨different, old, wasInstalled, wasMember, kept⟩ := origin nowInstalled nowMember
    obtain ⟨channel, handle, registered⟩ :=
      dispatching.members other old wasInstalled tenant wasMember
    refine ⟨channel, kept channel handle, ?_⟩
    rw [audits, KeyedMap.get?_erase, if_neg different]
    exact registered
  · intro first second left right tenant installedLeft installedRight memberLeft memberRight
    obtain ⟨_, oldLeft, wasLeft, inLeft, _⟩ := origin installedLeft memberLeft
    obtain ⟨_, oldRight, wasRight, inRight, _⟩ := origin installedRight memberRight
    exact dispatching.apart first second oldLeft oldRight tenant wasLeft wasRight inLeft inRight

end Shared.Dispatching

namespace Daemon

section Proceed

variable (daemon : Daemon) (cfg : DaemonConfig) (added removed : List String)

@[simp] theorem proceed_shared : (daemon.proceed cfg added removed).shared = daemon.shared := rfl

@[simp] theorem proceed_leaving : (daemon.proceed cfg added removed).signal.leaving = none := by
  simp only [proceed]
  split <;> rfl

@[simp] theorem proceed_added : (daemon.proceed cfg added removed).signal.added = added := by
  simp only [proceed]
  split
  · rename_i done
    simp only [Bool.and_eq_true, List.isEmpty_iff] at done
    exact done.1.symm
  · rfl

@[simp] theorem proceed_removed : (daemon.proceed cfg added removed).signal.removed = removed := by
  simp only [proceed]
  split
  · rename_i done
    simp only [Bool.and_eq_true, List.isEmpty_iff] at done
    exact done.2.symm
  · rfl

theorem proceed_config {other : DaemonConfig}
    (under : other ∈ (daemon.proceed cfg added removed).signal.config) : other = cfg := by
  simp only [proceed] at under
  split at under
  · cases under
  · cases under
    rfl

@[simp] theorem proceed_scope : (daemon.proceed cfg added removed).signal.scope = [] := by
  simp only [proceed]
  split <;> rfl

theorem proceed_not_draining {removal : Removal} {name : String} {channel : RuntimeId}
    {other : DaemonConfig} {rest : List String} :
    (daemon.proceed cfg added removed).signal ≠ .draining removal name channel other rest := by
  simp only [proceed]
  split <;> simp

end Proceed

/-- The places a handle can be outside the session tasks. -/
theorem holdsHandle_iff {daemon : Daemon} {channel : RuntimeId} :
    daemon.holdsHandle channel = true ↔ channel ∉ daemon.closing ∨
      (∃ id task, daemon.running.get? id = some task ∧ task.audit = some channel) ∨
      (∃ listen hot name, daemon.shared.sniDispatches.get? listen = some hot ∧
        (name, channel) ∈ hot.audits) ∨
      ∃ name, (name, channel) ∈ daemon.signal.scope := by
  simp only [holdsHandle, Bool.or_eq_true, decide_eq_true_eq, List.any_eq_true,
    KeyedMap.mem_values_iff, Prod.exists, exists_eq_right, or_assoc]
  constructor
  · rintro (taken | ⟨task, ⟨id, found⟩, audit⟩ | ⟨hot, ⟨listen, found⟩,
      name, handle⟩ | scope)
    · exact .inl taken
    · exact .inr (.inl ⟨id, task, found, audit⟩)
    · exact .inr (.inr (.inl ⟨listen, hot, name, found, handle⟩))
    · exact .inr (.inr (.inr scope))
  · rintro (taken | ⟨id, task, found, audit⟩ | ⟨listen, hot, name, found, handle⟩ | scope)
    · exact .inl taken
    · exact .inr (.inl ⟨task, ⟨id, found⟩, audit⟩)
    · exact .inr (.inr (.inl ⟨hot, ⟨listen, found⟩, name, handle⟩))
    · exact .inr (.inr (.inr scope))

/-- Where the handles of a state come from: from an earlier state, or from a
runtime that is new. -/
theorem holdsHandle_mono (before : Daemon) {after : Daemon} {channel : RuntimeId} {new : Prop}
    (held : after.holdsHandle channel = true)
    (closing : ∀ channel ∈ before.closing, channel ∈ after.closing)
    (running : ∀ id task, after.running.get? id = some task → task.audit = some channel →
      new ∨ before.holdsHandle channel = true)
    (tables : ∀ listen hot name, after.shared.sniDispatches.get? listen = some hot →
      (name, channel) ∈ hot.audits → new ∨ before.holdsHandle channel = true)
    (scope : ∀ name, (name, channel) ∈ after.signal.scope →
      before.holdsHandle channel = true) :
    new ∨ before.holdsHandle channel = true := by
  rcases holdsHandle_iff.mp held with own | ⟨id, task, found, audit⟩ |
    ⟨listen, hot, name, found, handle⟩ | ⟨name, handle⟩
  · exact .inr (holdsHandle_iff.mpr (.inl fun taken => own (closing channel taken)))
  · exact running id task found audit
  · exact tables listen hot name found handle
  · exact .inr (scope name handle)

/-- A replaced table in scope holds the handles of its contexts. -/
theorem holdsHandle_of_scope {daemon : Daemon} {name : String} {channel : RuntimeId}
    (handle : (name, channel) ∈ daemon.signal.scope) : daemon.holdsHandle channel = true :=
  holdsHandle_iff.mpr (.inr (.inr (.inr ⟨name, handle⟩)))

/-- What holds in every state of every run. -/
structure Sound (daemon : Daemon) : Prop where
  keyed : daemon.shared.Keyed daemon.signal.leaving
  dispatching : daemon.shared.Dispatching
  valid : ∀ cfg ∈ daemon.signal.config, cfg.config.validate = .ok ()
  adding : daemon.signal.added.Nodup ∧
    ∀ name ∈ daemon.signal.added, name ∉ daemon.shared.tenantNames
  removing : daemon.signal.removed.Nodup ∧
    ∀ name ∈ daemon.signal.removed, name ∈ daemon.shared.tenantNames
  stopped : ∀ name channel cfg removed,
    daemon.signal = .draining .single name channel cfg removed →
      name ∉ daemon.shared.tenantShutdowns.keys
  kept : ∀ listen old name channel cfg removed,
    daemon.signal = .draining (.sni listen old) name channel cfg removed →
      (name, channel) ∈ old.audits
  numbered : ∀ channel ∈ daemon.finished, channel < daemon.nextRuntime
  unheld : ∀ channel ∈ daemon.finished, daemon.holdsHandle channel = false

/-- The signal task never comes back from the removal of an SNI tenant: the table
it keeps in scope holds a handle of the channel it waits for. -/
theorem Sound.sni_waits {daemon : Daemon} (sound : daemon.Sound) {listen name : String}
    {old : HotSniDispatchTable} {channel : RuntimeId} {cfg : DaemonConfig} {removed : List String}
    (draining : daemon.signal = .draining (.sni listen old) name channel cfg removed) :
    channel ∉ daemon.finished := by
  intro finished
  have scope : (name, channel) ∈ daemon.signal.scope := by
    rw [draining]
    exact sound.kept listen old name channel cfg removed draining
  have free := sound.unheld channel finished
  rw [holdsHandle_of_scope scope] at free
  cases free

/-- A tenant to be removed has an audit channel. -/
theorem Sound.audited {daemon : Daemon} (sound : daemon.Sound) {name : String}
    {cfg : DaemonConfig} {added removed : List String}
    (applying : daemon.signal = .applying cfg added (name :: removed)) :
    name ∈ daemon.shared.tenantNames ∧ daemon.shared.tenantAudits.get? name ≠ none := by
  have registered : name ∈ daemon.shared.tenantNames :=
    sound.removing.2 name (by simp [applying, SignalTask.removed])
  refine ⟨registered, ?_⟩
  obtain ⟨channel, found⟩ := KeyedMap.mem_keys_iff.mp ((sound.keyed.audits name).mpr registered)
  simp [found]

/-- The handles of a spawned tenant are its runtime's. -/
theorem Spawned.holds {disk : Disk} {cfg : Config} {t : TenantConfig} {runtime : TenantRuntime}
    {before after : Daemon} {serving : Bool}
    (spawn : Spawned disk cfg t runtime before after serving)
    {channel : RuntimeId} (held : after.holdsHandle channel = true) :
    channel = runtime.id ∨ before.holdsHandle channel = true := by
  have sameTasks : ∀ id task, before.running.get? id = some task → task.audit = some channel →
      channel = runtime.id ∨ before.holdsHandle channel = true :=
    fun _ _ found audit => .inr (holdsHandle_of_running found audit)
  have sameTables : ∀ listen hot name, before.shared.sniDispatches.get? listen = some hot →
      (name, channel) ∈ hot.audits → channel = runtime.id ∨
      before.holdsHandle channel = true :=
    fun _ _ _ found handle => .inr (holdsHandle_of_installed found handle)
  have sameScope : ∀ name, (name, channel) ∈ before.signal.scope →
      before.holdsHandle channel = true := fun _ handle => holdsHandle_of_scope handle
  have loops : ∀ id task, (before.running.insert before.nextTask
      { owner := runtime.name, listen := t.listen, audit := some runtime.id
        bound := false }).get? id = some task → task.audit = some channel →
      channel = runtime.id ∨ before.holdsHandle channel = true := by
    intro id task found audit
    rw [KeyedMap.get?_insert] at found
    split at found
    · cases found
      exact .inl (Option.some.inj audit).symm
    · exact sameTasks id task found audit
  cases spawn with
  | unserved => exact .inr held
  | unresolved refused others own =>
      exact holdsHandle_mono before held (fun _ taken => taken) sameTasks sameTables sameScope
  | rolledBack hostname secure group found refused =>
      exact holdsHandle_mono before held (fun _ taken => taken) sameTasks sameTables sameScope
  | plain own bare =>
      exact holdsHandle_mono before held (fun _ taken => taken) loops sameTables sameScope
  | secured own secure role built =>
      exact holdsHandle_mono before held (fun _ taken => taken) loops sameTables sameScope
  | group hostname secure role absent built =>
      refine holdsHandle_mono before held (fun _ taken => taken) ?_ ?_ sameScope
      · intro id task found audit
        simp only [installGroup, KeyedMap.get?_insert] at found
        split at found
        · cases found
          cases audit
        · exact sameTasks id task found audit
      · intro listen hot name found handle
        simp only [installGroup, KeyedMap.get?_insert] at found
        split at found
        · cases found
          simp only [List.mem_singleton, Prod.mk.injEq] at handle
          exact .inl handle.2
        · exact sameTables listen hot name found handle
  | @member _ _ hot _ _ _ _ _ hostname secure role group resolution added found mutated =>
      refine holdsHandle_mono before held (fun _ taken => taken) sameTasks ?_ sameScope
      intro listen other name installed handle
      simp only [KeyedMap.get?_insert] at installed
      split at installed
      · cases installed
        rcases List.mem_append.mp handle with old | new
        · exact sameTables t.listen hot name group old
        · simp only [List.mem_singleton, Prod.mk.injEq] at new
          exact .inl new.2
      · exact sameTables listen other name installed handle

/-- A state with the loops and tables of an earlier one and an emptier scope holds no
handle that the earlier one did not. -/
theorem holdsHandle_same (before : Daemon) {after : Daemon} {channel : RuntimeId}
    (held : after.holdsHandle channel = true)
    (closing : ∀ channel ∈ before.closing, channel ∈ after.closing)
    (running : ∀ id task, after.running.get? id = some task →
      ∃ old, before.running.get? id = some old ∧ task.audit = old.audit)
    (tables : after.shared.sniDispatches = before.shared.sniDispatches)
    (scope : ∀ handle ∈ after.signal.scope, handle ∈ before.signal.scope) :
    before.holdsHandle channel = true := by
  have result : False ∨ before.holdsHandle channel = true := by
    refine holdsHandle_mono before held closing ?_ ?_ ?_
    · intro id task found audit
      obtain ⟨old, wasFound, same⟩ := running id task found
      exact .inr (holdsHandle_of_running wasFound (same ▸ audit))
    · intro listen hot name found handle
      exact .inr (holdsHandle_of_installed (tables ▸ found) handle)
    · exact fun name handle => holdsHandle_of_scope (scope _ handle)
  exact result.resolve_left id

/-- The limits scan leaves the tables alone. -/
theorem applyLimits_sniDispatches (shared : Shared) (cfg : Config) :
    (shared.countCycle.applyLimits cfg).sniDispatches = shared.sniDispatches := by
  obtain ⟨admissions, metrics, same⟩ := (shared.countCycle.applyLimits_hotOnly cfg).exists_eq
  rw [same]
  rfl

/-- Entering the drain of a startup runtime, or returning. -/
theorem drainNext_cases (daemon : Daemon) (channels : List RuntimeId) :
    (channels = [] ∧ daemon.drainNext channels = { daemon with main := .returned }) ∨
      ∃ channel rest, channels = channel :: rest ∧ daemon.drainNext channels =
        { daemon with main := .draining (channel :: rest)
                      closing := daemon.closing.insert channel } := by
  cases channels with
  | nil => exact .inl ⟨rfl, rfl⟩
  | cons channel rest => exact .inr ⟨channel, rest, rfl, rfl⟩

/-- A reload changes nothing, or installs an acceptor and nothing else. -/
theorem reloadTrigger_cases (daemon : Daemon) (disk : Disk) (key : String) :
    daemon.reloadTrigger disk key = daemon ∨ ∃ trigger,
      daemon.shared.reloadTriggers.get? key = some (.multi trigger) ∧
      daemon.reloadTrigger disk key = { daemon with shared := { daemon.shared with
        reloadTriggers := daemon.shared.reloadTriggers.insert key (.multi (trigger.reload disk).1)
        sniDispatches := daemon.shared.sniDispatches.mapValues fun listen hot =>
          if groupKey listen = key then { hot with presented := (trigger.reload disk).1.acceptor }
          else hot } } := by
  simp only [reloadTrigger]
  split
  · rename_i trigger found
    exact .inr ⟨trigger, found, rfl⟩
  · exact .inl rfl

/-- The tables after a reload are those before it. -/
theorem get?_reloaded {tables : KeyedMap String HotSniDispatchTable} {key listen : String}
    {presented : MultiSniCertResolver} {hot : HotSniDispatchTable}
    (installed : (tables.mapValues fun listen hot =>
      if groupKey listen = key then { hot with presented } else hot).get? listen = some hot) :
    ∃ old, tables.get? listen = some old ∧ hot.table = old.table ∧
      hot.audits = old.audits := by
  simp only [KeyedMap.get?_mapValues, Option.map_eq_some_iff] at installed
  obtain ⟨old, wasInstalled, rfl⟩ := installed
  refine ⟨old, wasInstalled, ?_⟩
  split <;> exact ⟨rfl, rfl⟩

/-- A removal makes no new handles. -/
theorem Removing.holds {disk : Disk} {inTime : Bool} {name : String} {cfg : DaemonConfig}
    {removed : List String} {before after : Daemon}
    (removing : Removing disk inTime name cfg removed before after)
    (audited : before.shared.tenantAudits.get? name ≠ none) {channel : RuntimeId}
    (held : after.holdsHandle channel = true) : before.holdsHandle channel = true := by
  have sameTasks : ∀ id task, before.running.get? id = some task →
      ∃ old, before.running.get? id = some old ∧ task.audit = old.audit :=
    fun _ task found => ⟨task, found, rfl⟩
  cases removing with
  | skipped => exact holdsHandle_same before held (fun _ taken => taken) sameTasks rfl (by simp)
  | unhandled own found =>
      exact holdsHandle_same before held (fun _ taken => taken) sameTasks rfl (by simp)
  | timedOut own found handle late =>
      exact holdsHandle_same before held (fun _ taken => taken) sameTasks rfl (by simp)
  | single own found handle early audit =>
      refine holdsHandle_same before held (fun _ taken => ?_) ?_ rfl ?_
      · exact List.mem_insert_of_mem taken
      · intro id task found
        simp only [await, purgeSingle, takeTask, KeyedMap.get?_erase] at found
        split at found
        · cases found
        · exact sameTasks id task found
      · simp [await, SignalTask.scope]
  | untriggered member missing =>
      exact holdsHandle_same before held (fun _ taken => taken) sameTasks rfl (by simp)
  | rolledBack member found refused =>
      exact holdsHandle_same before held (fun _ taken => taken) sameTasks rfl (by simp)
  | @sni listen hot _ _ _ _ _ member left found mutated audit =>
      have installed := (Shared.sniTarget_eq_some member).1
      have result : False ∨ before.holdsHandle channel = true := by
        refine holdsHandle_mono before held (fun _ taken => List.mem_insert_of_mem taken) ?_ ?_ ?_
        · exact fun id task found audit => .inr (holdsHandle_of_running found audit)
        · intro other table tenant found handle
          simp only [await, purgeSni, KeyedMap.get?_insert] at found
          split at found
          · cases found
            exact .inr (holdsHandle_of_installed installed (List.mem_filter.mp handle).1)
          · exact .inr (holdsHandle_of_installed found handle)
        · exact fun tenant handle => holdsHandle_of_installed installed handle
      exact result.resolve_left id
  | unaudited audit => exact absurd audit audited

/-- A step makes no new handle, except for a channel that it spawns. -/
theorem Moved.holds {before after : Daemon} {label : DaemonLabel} (sound : before.Sound)
    (moved : Moved before label after) {channel : RuntimeId}
    (held : after.holdsHandle channel = true) :
    before.nextRuntime ≤ channel ∨ before.holdsHandle channel = true := by
  have sameTasks : ∀ id task, before.running.get? id = some task →
      ∃ old, before.running.get? id = some old ∧ task.audit = old.audit :=
    fun _ task found => ⟨task, found, rfl⟩
  cases moved with
  | rejected idle =>
      exact .inr (holdsHandle_same before held (fun _ taken => taken) sameTasks rfl
        fun _ handle => handle)
  | @cycle cfg _ _ idle valid adds removes =>
      exact .inr (holdsHandle_same before held (fun _ taken => taken) sameTasks
        (applyLimits_sniDispatches before.shared cfg.config) (by simp))
  | unbuilt applying declared failed =>
      exact .inr (holdsHandle_same before held (fun _ taken => taken) sameTasks rfl (by simp))
  | @added _ _ cfg _ _ _ t runtime spawned _ applying declared built outcome spawn =>
      have enrolled : spawned.holdsHandle channel = true :=
        holdsHandle_same spawned held (fun _ taken => taken)
        (fun _ task found => ⟨task, found, rfl⟩)
          rfl (by simp)
      rcases spawn.holds enrolled with new | old
      · rw [buildTenantRuntime_spec built] at new
        exact .inl (Nat.le_of_eq new.symm)
      · exact .inr (holdsHandle_same before old (fun _ taken => taken) sameTasks rfl
          fun _ handle => handle)
  | removed applying removing => exact .inr (removing.holds (sound.audited applying).2 held)
  | resumedSingle draining drained =>
      exact .inr (holdsHandle_same before held (fun _ taken => taken) sameTasks rfl
        (by simp [finishSingle]))
  | resumedSni draining drained => exact absurd drained (sound.sni_waits draining)
  | @reloaded disk key idle =>
      have result : False ∨ before.holdsHandle channel = true := by
        rcases before.reloadTrigger_cases disk key with same | ⟨trigger, _, same⟩
        · rw [same] at held
          exact .inr held
        · rw [same] at held
          refine holdsHandle_mono before held (fun _ taken => taken) ?_ ?_ ?_
          · exact fun id task found audit => .inr (holdsHandle_of_running found audit)
          · intro listen hot name found handle
            obtain ⟨old, wasFound, _, audits⟩ := get?_reloaded found
            exact .inr (holdsHandle_of_installed wasFound (audits ▸ handle))
          · exact fun name handle => holdsHandle_of_scope handle
      exact .inr (result.resolve_left id)
  | terminated idle =>
      exact .inr (holdsHandle_same before held (fun _ taken => taken) sameTasks rfl
        (by simp [terminate, SignalTask.scope]))
  | joined joining returned =>
      simp only [joinAll] at held
      rcases drainNext_cases _ before.tenantState with ⟨_, next⟩ | ⟨first, rest, _, next⟩
      · rw [next] at held
        exact .inr (holdsHandle_same before held (fun _ taken => taken) sameTasks rfl
          fun _ handle => handle)
      · rw [next] at held
        exact .inr (holdsHandle_same before held (fun _ taken => List.mem_insert_of_mem taken)
          sameTasks rfl fun _ handle => handle)
  | @mainDrained _ rest draining drained =>
      rcases before.drainNext_cases rest with ⟨_, next⟩ | ⟨first, rest, _, next⟩
      · rw [next] at held
        exact .inr (holdsHandle_same before held (fun _ taken => taken) sameTasks rfl
          fun _ handle => handle)
      · rw [next] at held
        exact .inr (holdsHandle_same before held (fun _ taken => List.mem_insert_of_mem taken)
          sameTasks rfl fun _ handle => handle)
  | background moved =>
      refine .inr (holdsHandle_same before held ?_ moved.running (by rw [moved.shared]) ?_)
      · exact fun _ taken => moved.closing.symm ▸ taken
      · exact fun _ handle => moved.signal ▸ handle

/-- A spawn leaves the registration alone. -/
theorem Spawned.keyed {disk : Disk} {cfg : Config} {t : TenantConfig} {runtime : TenantRuntime}
    {before after : Daemon} {serving : Bool} {leaving : Option String}
    (spawn : Spawned disk cfg t runtime before after serving)
    (keyed : before.shared.Keyed leaving) : after.shared.Keyed leaving := by
  cases spawn <;>
    exact keyed.frame rfl rfl rfl (fun _ => Iff.rfl) rfl rfl rfl fun _ member => member

/-- A spawn keeps the names, the runtimes and the drained channels. -/
theorem Spawned.same {disk : Disk} {cfg : Config} {t : TenantConfig} {runtime : TenantRuntime}
    {before after : Daemon} {serving : Bool}
    (spawn : Spawned disk cfg t runtime before after serving) :
    after.shared.tenantNames = before.shared.tenantNames ∧
      after.shared.tenantAudits = before.shared.tenantAudits ∧
      after.finished = before.finished ∧ after.nextRuntime = before.nextRuntime ∧
      after.closing = before.closing ∧ after.tenantState = before.tenantState ∧
      after.main = before.main := by
  cases spawn <;> exact ⟨rfl, rfl, rfl, rfl, rfl, rfl, rfl⟩

/-- The tables after the spawn of a registered tenant that no table had. -/
theorem Spawned.dispatching {disk : Disk} {cfg : Config} {t : TenantConfig}
    {runtime : TenantRuntime} {before after : Daemon} {serving : Bool}
    (spawn : Spawned disk cfg t runtime before after serving)
    (dispatching : before.shared.Dispatching) (named : runtime.name = t.name)
    (unused : ∀ listen hot, before.shared.sniDispatches.get? listen = some hot →
      runtime.name ∉ hot.table.tenantNames)
    (registered : before.shared.tenantAudits.get? runtime.name = some runtime.id) :
    after.shared.Dispatching := by
  cases spawn with
  | unserved => exact dispatching
  | unresolved => exact dispatching.same rfl rfl
  | rolledBack => exact dispatching.same rfl rfl
  | plain => exact dispatching.same rfl rfl
  | secured => exact dispatching.same rfl rfl
  | @group sni tls group hostname secure role absent built =>
      refine dispatching.install rfl rfl unused List.mem_cons_self registered ?_
      intro tenant member
      obtain ⟨ctx, answered, rfl⟩ := List.mem_map.mp member
      simp only [newGroup] at built
      split at built
      · cases built
      · rename_i resolved resolution
        split at built
        · cases built
        · split at built
          · cases built
          · rename_i dispatch dispatched
            cases built
            have only := (SniDispatchTable.mem_contexts_new dispatched ctx).mp answered
            rw [List.mem_singleton] at only
            left
            rw [only, named]
            exact (Config.resolveOneServeTcp_spec resolution).1
  | @member _ _ hot resolved _ _ _ _ hostname secure role group resolution added found mutated =>
      refine dispatching.install rfl rfl unused ?_ registered ?_
      · exact List.mem_append_right _ List.mem_cons_self
      · intro tenant member
        obtain ⟨ctx, answered, rfl⟩ := List.mem_map.mp member
        rcases (SniDispatchTable.mem_contexts_addContext added ctx).mp answered with new | old
        · left
          rw [new, named]
          exact (Config.resolveOneServeTcp_spec resolution).1
        · right
          exact ⟨hot, group, List.mem_map.mpr ⟨ctx, old, rfl⟩,
            fun handle known => List.mem_append_left _ known⟩

/-- The registered tenant of a name. -/
theorem declared_name {tenants : List TenantConfig} {name : String} {t : TenantConfig}
    (declared : tenants.find? (fun t => t.name = name) = some t) : t.name = name := by
  simpa using List.find?_some declared

/-- A step only adds a channel that nobody holds to the drained ones. -/
theorem Moved.finished {before after : Daemon} {label : DaemonLabel} (sound : before.Sound)
    (moved : Moved before label after) :
    before.nextRuntime ≤ after.nextRuntime ∧ (after.finished = before.finished ∨
      ∃ channel, channel < before.nextRuntime ∧ before.holdsHandle channel = false ∧
        after.finished = channel :: before.finished) := by
  cases moved with
  | rejected => exact ⟨Nat.le_refl _, .inl rfl⟩
  | cycle => exact ⟨Nat.le_refl _, .inl rfl⟩
  | unbuilt => exact ⟨Nat.le_refl _, .inl rfl⟩
  | @added _ _ cfg _ _ _ t runtime spawned _ applying declared built outcome spawn =>
      obtain ⟨_, _, finished, nextRuntime, _⟩ := spawn.same
      refine ⟨?_, .inl finished⟩
      have grown : spawned.nextRuntime = before.nextRuntime + 1 := nextRuntime
      exact Nat.le_trans (Nat.le_succ _) (Nat.le_of_eq grown.symm)
  | removed applying removing =>
      cases removing with
      | unaudited audit => exact absurd audit (sound.audited applying).2
      | _ => exact ⟨Nat.le_refl _, .inl rfl⟩
  | resumedSingle => exact ⟨Nat.le_refl _, .inl rfl⟩
  | resumedSni draining drained => exact absurd drained (sound.sni_waits draining)
  | @reloaded disk key idle =>
      rcases before.reloadTrigger_cases disk key with same | ⟨_, _, same⟩ <;>
        rw [same] <;> exact ⟨Nat.le_refl _, .inl rfl⟩
  | terminated => exact ⟨Nat.le_refl _, .inl rfl⟩
  | joined joining returned =>
      simp only [joinAll]
      rcases drainNext_cases _ before.tenantState with ⟨_, next⟩ | ⟨_, _, _, next⟩ <;>
        rw [next] <;> exact ⟨Nat.le_refl _, .inl rfl⟩
  | @mainDrained _ rest draining drained =>
      rcases before.drainNext_cases rest with ⟨_, next⟩ | ⟨_, _, _, next⟩ <;>
        rw [next] <;> exact ⟨Nat.le_refl _, .inl rfl⟩
  | background moved =>
      refine ⟨Nat.le_of_eq moved.nextRuntime.symm, ?_⟩
      rcases moved.finished with same | ⟨channel, old, free, _, _, more⟩
      · exact .inl same
      · exact .inr ⟨channel, old, free, more⟩

/-- Once the signal task waits for the channel of an SNI tenant, it waits forever. -/
theorem Moved.still_waits {before after : Daemon} {label : DaemonLabel} {listen name : String}
    {old : HotSniDispatchTable} {channel : RuntimeId} {cfg : DaemonConfig} {removed : List String}
    (sound : before.Sound)
    (draining : before.signal = .draining (.sni listen old) name channel cfg removed)
    (moved : Moved before label after) :
    after.signal = .draining (.sni listen old) name channel cfg removed := by
  cases moved with
  | rejected idle => simp [draining] at idle
  | cycle idle => simp [draining] at idle
  | unbuilt applying => simp [draining] at applying
  | added applying => simp [draining] at applying
  | removed applying => simp [draining] at applying
  | resumedSingle single => simp [draining] at single
  | resumedSni again drained => exact absurd drained (sound.sni_waits again)
  | reloaded idle => simp [draining] at idle
  | terminated idle => simp [draining] at idle
  | joined =>
      simp only [joinAll]
      rcases drainNext_cases _ before.tenantState with ⟨_, next⟩ | ⟨_, _, _, next⟩ <;>
        rw [next] <;> exact draining
  | @mainDrained _ rest =>
      rcases before.drainNext_cases rest with ⟨_, next⟩ | ⟨_, _, _, next⟩ <;>
        rw [next] <;> exact draining
  | background moved => exact moved.signal.trans draining

/-- Drained channels stay known and free. -/
theorem Sound.moved_unheld {before after : Daemon} {label : DaemonLabel} (sound : before.Sound)
    (moved : Moved before label after) :
    (∀ channel ∈ after.finished, channel < after.nextRuntime) ∧
      ∀ channel ∈ after.finished, after.holdsHandle channel = false := by
  obtain ⟨grown, finished⟩ := moved.finished sound
  have drained : ∀ channel ∈ after.finished,
      channel < before.nextRuntime ∧ before.holdsHandle channel = false := by
    intro channel member
    rcases finished with same | ⟨new, old, free, more⟩
    · rw [same] at member
      exact ⟨sound.numbered channel member, sound.unheld channel member⟩
    · rw [more] at member
      rcases List.mem_cons.mp member with rfl | member
      · exact ⟨old, free⟩
      · exact ⟨sound.numbered channel member, sound.unheld channel member⟩
  refine ⟨fun channel member => Nat.lt_of_lt_of_le (drained channel member).1 grown, ?_⟩
  intro channel member
  obtain ⟨old, free⟩ := drained channel member
  by_contra held
  rcases moved.holds sound (by simpa using held) with new | wasHeld
  · exact absurd old (Nat.not_lt.mpr new)
  · rw [free] at wasHeld
    cases wasHeld

/-- A state in which the signal task goes on is sound if its maps are. -/
theorem sound_proceed {daemon : Daemon} {cfg : DaemonConfig} {added removed : List String}
    (keyed : daemon.shared.Keyed none) (dispatching : daemon.shared.Dispatching)
    (valid : cfg.config.validate = .ok ())
    (adding : added.Nodup ∧ ∀ name ∈ added, name ∉ daemon.shared.tenantNames)
    (removing : removed.Nodup ∧ ∀ name ∈ removed, name ∈ daemon.shared.tenantNames)
    (drained : (∀ channel ∈ daemon.finished, channel < daemon.nextRuntime) ∧
      ∀ channel ∈ daemon.finished,
        (daemon.proceed cfg added removed).holdsHandle channel = false) :
    (daemon.proceed cfg added removed).Sound where
  keyed := by rwa [proceed_leaving]
  dispatching := dispatching
  valid := by
    intro other under
    rw [daemon.proceed_config cfg added removed under]
    exact valid
  adding := by
    rw [proceed_added]
    exact adding
  removing := by
    rw [proceed_removed]
    exact removing
  stopped := fun _ _ _ _ draining =>
    absurd draining (daemon.proceed_not_draining cfg added removed)
  kept := fun _ _ _ _ _ _ draining =>
    absurd draining (daemon.proceed_not_draining cfg added removed)
  numbered := drained.1
  unheld := drained.2

/-- A state with the signal task and the names of a sound one. -/
theorem Sound.frame {before after : Daemon} (sound : before.Sound)
    (signal : after.signal = before.signal)
    (names : after.shared.tenantNames = before.shared.tenantNames)
    (shutdowns : after.shared.tenantShutdowns = before.shared.tenantShutdowns)
    (keyed : after.shared.Keyed before.signal.leaving) (dispatching : after.shared.Dispatching)
    (drained : (∀ channel ∈ after.finished, channel < after.nextRuntime) ∧
      ∀ channel ∈ after.finished, after.holdsHandle channel = false) : after.Sound where
  keyed := by rwa [signal]
  dispatching := dispatching
  valid := by
    rw [signal]
    exact sound.valid
  adding := by
    rw [signal, names]
    exact sound.adding
  removing := by
    rw [signal, names]
    exact sound.removing
  stopped := by
    rw [signal, shutdowns]
    exact sound.stopped
  kept := by
    rw [signal]
    exact sound.kept
  numbered := drained.1
  unheld := drained.2

/-- A removal keeps the state sound. -/
theorem Sound.removing_sound {disk : Disk} {inTime : Bool} {name : String} {cfg : DaemonConfig}
    {removed : List String} {before after : Daemon} (sound : before.Sound)
    (applying : before.signal = .applying cfg [] (name :: removed))
    (removing : Removing disk inTime name cfg removed before after)
    (drained : (∀ channel ∈ after.finished, channel < after.nextRuntime) ∧
      ∀ channel ∈ after.finished, after.holdsHandle channel = false) : after.Sound := by
  have keyed : before.shared.Keyed none := by
    simpa [applying, SignalTask.leaving] using sound.keyed
  have valid : cfg.config.validate = .ok () :=
    sound.valid cfg (by simp [applying, SignalTask.config])
  have pending : (name :: removed).Nodup ∧
      ∀ tenant ∈ name :: removed, tenant ∈ before.shared.tenantNames := by
    simpa [applying, SignalTask.removed] using sound.removing
  have unique := List.nodup_cons.mp pending.1
  have rest : removed.Nodup ∧ ∀ tenant ∈ removed, tenant ∈ before.shared.tenantNames :=
    ⟨unique.2, fun tenant member => pending.2 tenant (List.mem_cons_of_mem _ member)⟩
  have registered := pending.2 name List.mem_cons_self
  have left : removed.Nodup ∧ ∀ tenant ∈ removed,
      tenant ∈ before.shared.tenantNames.filter fun tenant => tenant ≠ name := by
    refine ⟨unique.2, ?_⟩
    intro tenant member
    rw [List.mem_filter]
    refine ⟨rest.2 tenant member, ?_⟩
    simp only [decide_eq_true_eq]
    rintro rfl
    exact unique.1 member
  -- Every removal that goes on at once leaves the keys and the tables as they were.
  have goesOn : ∀ {daemon : Daemon}, after = daemon.proceed cfg [] removed →
      daemon.shared.Keyed none → daemon.shared.Dispatching →
      daemon.shared.tenantNames = before.shared.tenantNames → after.Sound := by
    rintro daemon rfl stays tables names
    exact sound_proceed stays tables valid (by simp) (names ▸ rest) drained
  cases removing with
  | skipped => exact goesOn rfl keyed sound.dispatching rfl
  | unhandled own found =>
      exact goesOn rfl
        (keyed.frame rfl rfl rfl (fun _ => Iff.rfl) rfl rfl rfl fun _ member => member)
        (sound.dispatching.same rfl rfl) rfl
  | timedOut own found handle late =>
      exact goesOn rfl
        (keyed.frame rfl rfl rfl (fun _ => Iff.rfl) rfl rfl rfl fun _ member => member)
        (sound.dispatching.same rfl rfl) rfl
  | untriggered member missing =>
      exact goesOn rfl
        (keyed.frame rfl rfl rfl (fun _ => Iff.rfl) rfl rfl rfl fun _ member => member)
        (sound.dispatching.same rfl rfl) rfl
  | rolledBack member found refused =>
      exact goesOn rfl
        (keyed.frame rfl rfl rfl (fun _ => Iff.rfl) rfl rfl rfl fun _ member => member)
        (sound.dispatching.same rfl rfl) rfl
  | @single notify task channel own found handle early audit =>
      constructor
      · refine keyed.leave registered rfl rfl rfl rfl rfl rfl ?_ rfl
        exact fun tenant member => (KeyedMap.mem_keys_erase.mp member).1
      · refine sound.dispatching.frame rfl ?_
        intro listen hot tenant installed member
        have different : tenant ≠ name := by
          rintro rfl
          exact Shared.sniTarget_eq_none own installed member
        simp [await, purgeSingle, takeTask, KeyedMap.get?_erase, different]
      · intro other under
        cases under
        exact valid
      · simp [await, SignalTask.added]
      · exact left
      · intro tenant id under pendingNames waiting
        cases waiting
        simp [await, purgeSingle]
      · intro listen old tenant id under pendingNames waiting
        cases waiting
      · exact drained.1
      · exact drained.2
  | @sni listen hot table trigger next previous channel member leftTable found mutated audit =>
      obtain ⟨installed, inTable⟩ := Shared.sniTarget_eq_some member
      constructor
      · exact keyed.leave registered rfl rfl rfl rfl rfl rfl (fun _ member => member) rfl
      · exact sound.dispatching.leave installed inTable leftTable rfl rfl
      · intro other under
        cases under
        exact valid
      · simp [await, SignalTask.added]
      · exact left
      · intro tenant id under pendingNames waiting
        cases waiting
      · intro address old tenant id under pendingNames waiting
        cases waiting
        obtain ⟨id, handle, known⟩ :=
          sound.dispatching.members listen hot installed name inTable
        rw [audit] at known
        cases known
        exact handle
      · exact drained.1
      · exact drained.2
  | unaudited audit => exact absurd audit (sound.audited applying).2

/-- The step lemma: every step keeps the state sound. -/
theorem Sound.moved {before after : Daemon} {label : DaemonLabel} (sound : before.Sound)
    (moved : Moved before label after) : after.Sound := by
  have drained := sound.moved_unheld moved
  cases moved with
  | rejected idle =>
      exact sound.frame rfl rfl rfl
        (sound.keyed.frame rfl rfl rfl (fun _ => Iff.rfl) rfl rfl rfl fun _ member => member)
        (sound.dispatching.same rfl rfl) drained
  | @cycle cfg added removed idle valid adds removes =>
      have keyed : before.shared.Keyed none := by
        simpa [idle, SignalTask.leaving] using sound.keyed
      have hot := before.shared.countCycle.applyLimits_hotOnly cfg.config
      have counted : before.shared.countCycle.Keyed none :=
        keyed.frame rfl rfl rfl (fun _ => Iff.rfl) rfl rfl rfl fun _ member => member
      obtain ⟨admissions, metrics, same⟩ := hot.exists_eq
      have names : (before.shared.countCycle.applyLimits cfg.config).tenantNames =
          before.shared.tenantNames := by
        rw [same]
        rfl
      refine sound_proceed (hot.keyed counted) ?_ valid ?_ ?_ drained
      · refine sound.dispatching.same (applyLimits_sniDispatches before.shared cfg.config) ?_
        change (before.shared.countCycle.applyLimits cfg.config).tenantAudits = _
        rw [same]
        rfl
      · refine ⟨adds.nodup_iff.mpr ((Config.validate_names_nodup valid).filter _), ?_⟩
        intro name member
        have new := adds.mem_iff.mp member
        rw [names]
        simpa using (List.mem_filter.mp new).2
      · refine ⟨removes.nodup_iff.mpr (keyed.names.filter _), ?_⟩
        intro name member
        rw [names]
        exact (List.mem_filter.mp (removes.mem_iff.mp member)).1
  | @unbuilt _ _ cfg name added removed t _ applying declared failed =>
      have pending := sound.adding
      simp only [applying, SignalTask.added, List.nodup_cons, List.mem_cons, forall_eq_or_imp]
        at pending
      have removals := sound.removing
      simp only [applying, SignalTask.removed] at removals
      have keyed : before.shared.Keyed none := by
        simpa [applying, SignalTask.leaving] using sound.keyed
      exact sound_proceed
        (keyed.frame rfl rfl rfl (fun _ => Iff.rfl) rfl rfl rfl fun _ member => member)
        (sound.dispatching.same rfl rfl)
        (sound.valid cfg (by simp [applying, SignalTask.config])) ⟨pending.1.2, pending.2.2⟩
        removals drained
  | @added _ _ cfg name added removed t runtime spawned _ applying declared built outcome spawn =>
      have pending := sound.adding
      simp only [applying, SignalTask.added, List.nodup_cons, List.mem_cons, forall_eq_or_imp]
        at pending
      have removals := sound.removing
      simp only [applying, SignalTask.removed] at removals
      have keyed : before.shared.Keyed none := by
        simpa [applying, SignalTask.leaving] using sound.keyed
      have built' := buildTenantRuntime_spec built
      have named : runtime.name = t.name := by rw [built']
      have same := declared_name declared
      have new : t.name ∉ before.shared.tenantNames := by
        rw [same]
        exact pending.2.1
      obtain ⟨names, _⟩ := spawn.same
      have registered : spawned.shared.tenantNames = before.shared.tenantNames.insert name := by
        rw [names, ← same, ← named]
        rfl
      have unheard : t.name ∉ before.shared.tenantAudits.keys := by
        rw [keyed.audits]
        exact new
      have tables : (before.enroll cfg t runtime).shared.Dispatching := by
        refine sound.dispatching.frame rfl ?_
        intro listen hot tenant installed member
        have different : tenant ≠ t.name := by
          rintro rfl
          exact sound.dispatching.unused unheard installed member
        simp [enroll, Shared.register, KeyedMap.get?_insert, named, different]
      have spawnedTables := spawn.dispatching tables named
        (fun listen hot installed => named ▸ sound.dispatching.unused unheard installed)
        (by simp [enroll, Shared.register])
      refine sound_proceed ?_ (spawnedTables.same rfl rfl)
        (sound.valid cfg (by simp [applying, SignalTask.config])) ?_ ?_ drained
      · exact (spawn.keyed (keyed.register cfg named new)).frame rfl rfl rfl (fun _ => Iff.rfl)
          rfl rfl rfl fun _ member => member
      · refine ⟨pending.1.2, ?_⟩
        intro tenant member
        change tenant ∉ spawned.shared.tenantNames
        rw [registered, List.mem_insert_iff]
        rintro (rfl | known)
        · exact pending.1.1 member
        · exact pending.2.2 tenant member known
      · refine ⟨removals.1, ?_⟩
        intro tenant member
        change tenant ∈ spawned.shared.tenantNames
        rw [registered]
        exact List.mem_insert_of_mem (removals.2 tenant member)
  | removed applying removing => exact sound.removing_sound applying removing drained
  | @resumedSingle _ name channel cfg removed draining finished =>
      have keyed : before.shared.Keyed (some name) := by
        simpa [draining, SignalTask.leaving] using sound.keyed
      have removals := sound.removing
      simp only [draining, SignalTask.removed] at removals
      refine sound_proceed ?_ (sound.dispatching.same rfl rfl)
        (sound.valid cfg (by simp [draining, SignalTask.config])) (by simp) removals drained
      exact (keyed.purge (sound.stopped name channel cfg removed draining)).frame rfl rfl rfl
        (fun _ => Iff.rfl) rfl rfl rfl fun _ member => member
  | resumedSni draining finished => exact absurd finished (sound.sni_waits draining)
  | @reloaded disk key idle =>
      rcases before.reloadTrigger_cases disk key with same | ⟨trigger, _, same⟩
      · rw [same]
        exact sound
      · rw [same] at drained ⊢
        refine sound.frame rfl rfl rfl
          (sound.keyed.frame rfl rfl rfl (fun _ => Iff.rfl) rfl rfl rfl fun _ member => member) ?_
          drained
        constructor
        · intro listen hot installed tenant member
          obtain ⟨old, wasInstalled, table, audits⟩ := get?_reloaded installed
          rw [audits]
          exact sound.dispatching.members listen old wasInstalled tenant (table ▸ member)
        · intro left right first second tenant installedLeft installedRight memberLeft memberRight
          obtain ⟨oldLeft, wasLeft, tableLeft, _⟩ := get?_reloaded installedLeft
          obtain ⟨oldRight, wasRight, tableRight, _⟩ := get?_reloaded installedRight
          exact sound.dispatching.apart left right oldLeft oldRight tenant wasLeft wasRight
            (tableLeft ▸ memberLeft) (tableRight ▸ memberRight)
  | terminated idle =>
      have keyed : before.shared.Keyed none := by
        simpa [idle, SignalTask.leaving] using sound.keyed
      constructor
      · exact keyed
      · exact sound.dispatching
      · intro cfg under
        cases under
      · exact ⟨List.nodup_nil, fun _ member => by cases member⟩
      · exact ⟨List.nodup_nil, fun _ member => by cases member⟩
      · intro name channel cfg removed waiting
        cases waiting
      · intro listen old name channel cfg removed waiting
        cases waiting
      · exact drained.1
      · exact drained.2
  | joined joining returned =>
      simp only [joinAll] at drained ⊢
      rcases drainNext_cases _ before.tenantState with ⟨_, next⟩ | ⟨_, _, _, next⟩ <;>
        rw [next] at drained ⊢ <;>
        exact sound.frame rfl rfl rfl (sound.keyed.frame rfl rfl rfl (fun _ => Iff.rfl) rfl rfl rfl
          (by simp)) (sound.dispatching.same rfl rfl) drained
  | @mainDrained _ rest draining finished =>
      rcases before.drainNext_cases rest with ⟨_, next⟩ | ⟨_, _, _, next⟩ <;>
        rw [next] at drained ⊢ <;>
        exact sound.frame rfl rfl rfl sound.keyed sound.dispatching drained
  | background moved =>
      exact sound.frame moved.signal (by rw [moved.shared]) (by rw [moved.shared])
        (moved.shared ▸ sound.keyed) (moved.shared ▸ sound.dispatching) drained

end Daemon

section Startup

variable {files : TenantFiles} {disk : Disk} {runtimes : List TenantRuntime}

/-- The runtimes of startup carry the names of their tenants and count up. -/
theorem buildRuntimes_spec {cfg : Config} {tenants : List TenantConfig} {id : RuntimeId}
    (built : buildRuntimes files cfg id tenants = .ok runtimes) :
    runtimes.map TenantRuntime.name = tenants.map TenantConfig.name ∧
      runtimes.map TenantRuntime.id = List.range' id tenants.length := by
  induction tenants generalizing id runtimes with
  | nil =>
      cases built
      exact ⟨rfl, rfl⟩
  | cons t rest inductionHypothesis =>
      simp only [buildRuntimes] at built
      obtain ⟨runtime, first, built⟩ := bind_eq_ok.mp built
      obtain ⟨later, others, built⟩ := bind_eq_ok.mp built
      cases built
      obtain ⟨names, ids⟩ := inductionHypothesis others
      rw [buildTenantRuntime_spec first]
      simp [names, ids, List.range'_succ]

/-- What registering the runtimes of startup gives. -/
theorem register_all {cfg : DaemonConfig} (tenants : List TenantConfig)
    (runtimes : List TenantRuntime) (shared : Shared)
    (names : runtimes.map TenantRuntime.name = tenants.map TenantConfig.name)
    (keyed : shared.Keyed none) (nodup : (tenants.map TenantConfig.name).Nodup)
    (new : ∀ t ∈ tenants, t.name ∉ shared.tenantNames) :
    let after := (tenants.zip runtimes).foldl
      (fun shared pair => shared.register cfg pair.1 pair.2) shared
    after.Keyed none ∧ after.sniDispatches = shared.sniDispatches ∧
      after.reloadTriggers = shared.reloadTriggers ∧
      after.tenantConfigs = shared.tenantConfigs ++ tenants ∧
      (∀ runtime ∈ runtimes, after.tenantAudits.get? runtime.name = some runtime.id) ∧
      ∀ name, name ∉ runtimes.map TenantRuntime.name →
        after.tenantAudits.get? name = shared.tenantAudits.get? name := by
  induction tenants generalizing runtimes shared with
  | nil =>
      obtain rfl : runtimes = [] := by simpa using names
      simp [keyed]
  | cons t rest inductionHypothesis =>
      cases runtimes with
      | nil => simp at names
      | cons runtime others =>
          simp only [List.map_cons, List.cons.injEq] at names
          rw [List.map_cons, List.nodup_cons] at nodup
          have apart : ∀ other ∈ rest,
              other.name ∉ (shared.register cfg t runtime).tenantNames := by
            intro other member known
            simp only [Shared.register, List.mem_insert_iff, names.1] at known
            rcases known with same | old
            · exact nodup.1 (List.mem_map.mpr ⟨other, member, same⟩)
            · exact new other (List.mem_cons_of_mem _ member) old
          obtain ⟨final, tables, triggers, configs, audits, rest'⟩ := inductionHypothesis others
            (shared.register cfg t runtime) names.2
            (keyed.register cfg names.1 (new t List.mem_cons_self)) nodup.2 apart
          simp only [List.zip_cons_cons, List.foldl_cons]
          refine ⟨final, tables, triggers, ?_, ?_, ?_⟩
          · rw [configs]
            simp [Shared.register]
          · intro other member
            rcases List.mem_cons.mp member with rfl | member
            · have outside : other.name ∉ others.map TenantRuntime.name := by
                rw [names.2, names.1]
                exact nodup.1
              rw [rest' _ outside]
              simp [Shared.register]
            · exact audits other member
          · intro name outside
            simp only [List.map_cons, List.mem_cons, not_or] at outside
            rw [rest' name outside.2]
            simp [Shared.register, KeyedMap.get?_insert, outside.1]

/-- Everything the startup of one listener can do. -/
inductive Started (disk : Disk) (runtimes : List TenantRuntime) (group : TlsListenerGroup)
    (before : Daemon) : Daemon → Prop where
  | plain {t rest runtime} (single : group.sniDispatch = false) (only : group.tenants = t :: rest)
      (found : runtimeOf runtimes t.name = .ok runtime) (bare : t.tls = none) :
      Started disk runtimes group before (before.spawnTenant runtime t.listen)
  | secured {t rest runtime tls trigger} (single : group.sniDispatch = false)
      (only : group.tenants = t :: rest) (found : runtimeOf runtimes t.name = .ok runtime)
      (secure : t.tls = some tls) (built : buildReloadableAcceptor disk tls t.name = .ok trigger) :
      Started disk runtimes group before
        ((before.insertTrigger t.name trigger).spawnTenant runtime t.listen)
  | group {built audits} (several : group.sniDispatch = true)
      (handles : group.tenants.mapM (memberAudit runtimes) = .ok audits)
      (started : startupGroup disk group = .ok built) :
      Started disk runtimes group before (before.installGroup group.listen built audits)

/-- The startup of a listener is one of these. -/
theorem startListener_started {before after : Daemon} {group : TlsListenerGroup}
    (started : startListener disk runtimes before group = .ok after) :
    Started disk runtimes group before after := by
  simp only [startListener] at started
  split at started
  · rename_i several
    simp only [startGroup] at started
    obtain ⟨audits, handles, started⟩ := bind_eq_ok.mp started
    obtain ⟨built, groupStarted, started⟩ := bind_eq_ok.mp started
    cases started
    exact .group several handles groupStarted
  · rename_i single
    split at started
    · rename_i t rest only
      simp only [startSingle] at started
      obtain ⟨runtime, found, started⟩ := bind_eq_ok.mp started
      split at started
      · rename_i bare
        cases started
        exact .plain (by simpa using single) only found bare
      · rename_i tls secure
        obtain ⟨trigger, built, started⟩ := bind_eq_ok.mp started
        cases started
        exact .secured (by simpa using single) only found secure (withContext_eq_ok.mp built)
    · cases started

/-- A runtime that is found has the name and is one of the list. -/
theorem runtimeOf_spec {name : String} {runtime : TenantRuntime}
    (found : runtimeOf runtimes name = .ok runtime) : runtime ∈ runtimes ∧
    runtime.name = name := by
  simp only [runtimeOf] at found
  split at found
  · rename_i known
    cases found
    exact ⟨List.mem_of_find?_eq_some known, by simpa using List.find?_some known⟩
  · cases found

/-- What startup has put into the maps before the listeners. -/
theorem registered_spec {cfg : DaemonConfig} (valid : cfg.config.validate = .ok ())
    (built : buildRuntimes files cfg.config 0 cfg.config.tenants = .ok runtimes) :
    (registered cfg runtimes).shared.Keyed none ∧
      (registered cfg runtimes).shared.sniDispatches = .empty ∧
      (registered cfg runtimes).shared.reloadTriggers = .empty ∧
      (registered cfg runtimes).shared.tenantConfigs = cfg.config.tenants ∧
      ∀ runtime ∈ runtimes,
        (registered cfg runtimes).shared.tenantAudits.get? runtime.name = some runtime.id := by
  obtain ⟨keyed, tables, triggers, configs, audits, _⟩ :=
    register_all cfg.config.tenants runtimes
    .empty (buildRuntimes_spec built).1 .empty (Config.validate_names_nodup valid)
    (by simp [Shared.empty])
  exact ⟨keyed, tables, triggers, configs, audits⟩

/-- What the startup of listeners keeps: the maps of the registration, and tables
that list each tenant at its own address. -/
structure Launched (flat : List ServeTcpTenant) (base daemon : Daemon) : Prop where
  keyed : daemon.shared.Keyed none
  audits : daemon.shared.tenantAudits = base.shared.tenantAudits
  idle : daemon.signal = .idle
  finished : daemon.finished = []
  tables : ∀ listen hot, daemon.shared.sniDispatches.get? listen = some hot →
    ∀ name ∈ hot.table.tenantNames, (∃ t ∈ flat, t.name = name ∧ t.listen = listen) ∧
      ∃ channel, (name, channel) ∈ hot.audits ∧
        base.shared.tenantAudits.get? name = some channel

/-- A launched daemon is sound. -/
theorem Launched.sound {flat : List ServeTcpTenant} {base daemon : Daemon}
    (launched : Launched flat base daemon) (distinct : (flat.map ServeTcpTenant.name).Nodup) :
    daemon.Sound := by
  have idle := launched.idle
  constructor
  · rw [idle]
    exact launched.keyed
  · constructor
    · intro listen hot installed name member
      rw [launched.audits]
      exact (launched.tables listen hot installed name member).2
    · intro left right first second name installedLeft installedRight memberLeft memberRight
      obtain ⟨⟨t, tenant, named, address⟩, _⟩ :=
        launched.tables left first installedLeft name memberLeft
      obtain ⟨⟨u, other, alsoNamed, alsoAddress⟩, _⟩ :=
        launched.tables right second installedRight name memberRight
      have same := List.inj_on_of_nodup_map distinct tenant other (named.trans alsoNamed.symm)
      rw [← address, ← alsoAddress, same]
  · simp [idle, SignalTask.config]
  · simp [idle, SignalTask.added]
  · simp [idle, SignalTask.removed]
  · simp [idle]
  · simp [idle]
  · simp [launched.finished]
  · simp [launched.finished]

/-- The startup of one listener keeps a daemon launched. -/
theorem Launched.started {flat : List ServeTcpTenant} {base before after : Daemon}
    {group : TlsListenerGroup} (launched : Launched flat base before)
    (known : ∀ runtime ∈ runtimes, base.shared.tenantAudits.get? runtime.name = some runtime.id)
    (members : ∀ t ∈ group.tenants, t ∈ flat ∧ t.listen = group.listen)
    (started : Started disk runtimes group before after) : Launched flat base after := by
  have keyed : ∀ {shared : Shared}, shared.tenantNames = before.shared.tenantNames →
      shared.tenantConfigs = before.shared.tenantConfigs →
      shared.metricsList = before.shared.metricsList →
      shared.tenantAdmissions = before.shared.tenantAdmissions →
      shared.tenantAudits = before.shared.tenantAudits →
      shared.rotationTargets = before.shared.rotationTargets →
      shared.tenantShutdowns = before.shared.tenantShutdowns →
      shared.monitorHandles = before.shared.monitorHandles → shared.Keyed none := by
    intro shared names configs metrics admissions audits targets shutdowns monitors
    exact launched.keyed.frame names configs metrics (fun _ => by rw [admissions]) audits targets
      shutdowns fun _ member => monitors ▸ member
  cases started with
  | plain single only found bare =>
      exact ⟨keyed rfl rfl rfl rfl rfl rfl rfl rfl, launched.audits, launched.idle,
        launched.finished, launched.tables⟩
  | secured single only found secure built =>
      exact ⟨keyed rfl rfl rfl rfl rfl rfl rfl rfl, launched.audits, launched.idle,
        launched.finished, launched.tables⟩
  | @group built audits several handles groupStarted =>
      refine ⟨keyed rfl rfl rfl rfl rfl rfl rfl rfl, launched.audits, launched.idle,
        launched.finished, ?_⟩
      intro listen hot installed name member
      simp only [Daemon.installGroup, KeyedMap.get?_insert] at installed
      split at installed
      · rename_i same
        cases installed
        obtain ⟨ctx, answered, rfl⟩ := List.mem_map.mp member
        have tenant := (startupGroup_backed groupStarted).2 ctx answered
        refine ⟨⟨ctx.tenant, (members _ tenant).1, rfl, same ▸ (members _ tenant).2⟩, ?_⟩
        obtain ⟨handle, listed, converted⟩ := exists_mem_of_mapM_eq_ok handles tenant
        simp only [memberAudit] at converted
        obtain ⟨runtime, found, converted⟩ := bind_eq_ok.mp converted
        cases converted
        obtain ⟨inside, named⟩ := runtimeOf_spec found
        exact ⟨runtime.id, listed, named ▸ known runtime inside⟩
      · exact launched.tables listen hot installed name member

/-- The daemon starts in a sound state. -/
theorem startDaemon_sound {cfg : DaemonConfig} {daemon : Daemon}
    (started : startDaemon files disk cfg = .ok daemon) : daemon.Sound := by
  simp only [startDaemon] at started
  split at started
  · cases started
  · rename_i valid
    obtain ⟨runtimes, built, started⟩ := bind_eq_ok.mp started
    obtain ⟨keyed, tables, _, _, known⟩ := registered_spec valid built
    have base : ∀ flat, Launched flat (registered cfg runtimes) (registered cfg runtimes) := by
      intro flat
      refine ⟨keyed, rfl, rfl, rfl, ?_⟩
      intro listen hot installed
      rw [tables] at installed
      cases installed
    simp only [startListeners] at started
    split at started
    · split at started
      · cases started
      · rename_i groups resolved
        obtain ⟨flat, flattened, members⟩ := Config.resolveServeTcpGroups_spec resolved
        have launched : Launched flat (registered cfg runtimes) daemon := by
          refine foldlM_invariant (fun _ daemon => Launched flat (registered cfg runtimes) daemon)
            (base flat) ?_ started
          intro done group before after member launched advanced
          exact launched.started known (members group member) (startListener_started advanced)
        apply launched.sound
        rw [Config.resolveServeTcp_names flattened]
        exact Config.validate_names_nodup valid
    · split at started
      · cases started
      · rename_i resolved _
        cases started
        have launched : ∀ (pairs : List (TenantRuntime × ServePqTenant)) (before : Daemon),
            Launched [] (registered cfg runtimes) before →
              Launched [] (registered cfg runtimes) (pairs.foldl
                (fun daemon pair => daemon.spawnTenant pair.1 pair.2.listen) before) := by
          intro pairs
          induction pairs with
          | nil => exact fun _ launched => launched
          | cons pair rest inductionHypothesis =>
              intro before launched
              refine inductionHypothesis _ ⟨?_, launched.audits, launched.idle, launched.finished,
                launched.tables⟩
              exact launched.keyed.frame rfl rfl rfl (fun _ => Iff.rfl) rfl rfl rfl
                fun _ member => member
        exact (launched _ _ (base [])).sound List.nodup_nil

end Startup

/-- The run lemma: every state of every run is sound. -/
theorem Daemon.Sound.of_reachable {admits : Daemon → DaemonLabel → Prop} {daemon : Daemon}
    (reachable : daemonMachine.Reachable admits daemon) : daemon.Sound := by
  refine reachable.invariant Daemon.Sound ?_ ?_
  · rintro start ⟨files, disk, cfg, started⟩
    exact startDaemon_sound started
  · intro before label after sound _ stepped
    exact sound.moved (Daemon.step_moved stepped).2

end CofreSoberano.Gateway
