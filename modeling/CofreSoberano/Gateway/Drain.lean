import CofreSoberano.Gateway.Triggers
import CofreSoberano.Gateway.Shutdown

/-!
# Who holds the handle of a draining channel

A task that waits in `shutdown_async` waits for every handle of the channel to be
dropped. The removal of a tenant with its own accept loop has ended that loop, the
only place besides the sessions where a handle was. The removal of an SNI tenant
keeps the replaced dispatch table, and the shutdown sequence keeps the installed
ones, in scope while it waits.
-/

namespace CofreSoberano.Gateway

open CofreSoberano.Std

/-- The signal task or the main task is in `shutdown_async` of a channel. -/
def Daemon.waitsFor (daemon : Daemon) (channel : RuntimeId) : Prop :=
  (∃ removal name cfg removed, daemon.signal = .draining removal name channel cfg removed) ∨
    ∃ rest, daemon.main = .draining (channel :: rest)

/-- Where the handles of accept loops and dispatch tables come from, in every run. -/
structure Daemon.Owned (daemon : Daemon) : Prop where
  /-- The loop of a registered channel is the one that its tenant's task entry names. -/
  loops : ∀ id task channel name own, daemon.running.get? id = some task →
    task.audit = some channel → daemon.shared.tenantAudits.get? name = some channel →
    daemon.shared.tenantTasks.get? name = some own → own = id
  below : ∀ id task channel, daemon.running.get? id = some task → task.audit = some channel →
    channel < daemon.nextRuntime
  /-- A table has handles of the channels of its tenants only. -/
  handles : ∀ listen hot name channel, daemon.shared.sniDispatches.get? listen = some hot →
    (name, channel) ∈ hot.audits →
      name ∈ hot.table.tenantNames ∧ daemon.shared.tenantAudits.get? name = some channel
  single : ∀ name channel cfg removed, daemon.signal = .draining .single name
    channel cfg removed → daemon.holdsHandle channel = false

namespace Daemon.Owned

variable {before after : Daemon}

/-- A state with no more loops, channels and task entries than an earlier one. -/
theorem shrink (owned : before.Owned)
    (running : ∀ id task, after.running.get? id = some task →
      ∃ old, before.running.get? id = some old ∧ task.audit = old.audit)
    (audits : ∀ name id, after.shared.tenantAudits.get? name = some id →
      before.shared.tenantAudits.get? name = some id)
    (tasks : ∀ name id, after.shared.tenantTasks.get? name = some id →
      before.shared.tenantTasks.get? name = some id)
    (handles : ∀ listen hot name channel, after.shared.sniDispatches.get? listen = some hot →
      (name, channel) ∈ hot.audits →
        name ∈ hot.table.tenantNames ∧ after.shared.tenantAudits.get? name = some channel)
    (nextRuntime : before.nextRuntime ≤ after.nextRuntime)
    (single : ∀ name channel cfg removed, after.signal = .draining .single name
      channel cfg removed → after.holdsHandle channel = false) : after.Owned where
  loops := by
    intro id task channel name own found audit registered entry
    obtain ⟨old, wasFound, same⟩ := running id task found
    exact owned.loops id old channel name own wasFound (same ▸ audit)
      (audits name channel registered) (tasks name own entry)
  below := by
    intro id task channel found audit
    obtain ⟨old, wasFound, same⟩ := running id task found
    exact Nat.lt_of_lt_of_le (owned.below id old channel wasFound (same ▸ audit)) nextRuntime
  handles := handles
  single := single

/-- The shrink rule for steps that leave the tables and the channels alone. -/
theorem same (owned : before.Owned)
    (running : ∀ id task, after.running.get? id = some task →
      ∃ old, before.running.get? id = some old ∧ task.audit = old.audit)
    (audits : after.shared.tenantAudits = before.shared.tenantAudits)
    (tasks : ∀ name id, after.shared.tenantTasks.get? name = some id →
      before.shared.tenantTasks.get? name = some id)
    (tables : after.shared.sniDispatches = before.shared.sniDispatches)
    (nextRuntime : after.nextRuntime = before.nextRuntime)
    (single : ∀ name channel cfg removed, after.signal = .draining .single name
      channel cfg removed → after.holdsHandle channel = false) : after.Owned := by
  refine owned.shrink running (fun _ _ found => audits ▸ found) tasks ?_
    (Nat.le_of_eq nextRuntime.symm) single
  rw [tables, audits]
  exact owned.handles

/-- A removed tenant whose accept loop has ended has its handles in sessions only. -/
theorem unheld_single {name : String} {channel : RuntimeId} {notify : RuntimeId} {task : TaskId}
    {cfg : DaemonConfig} {removed : List String} (owned : before.Owned) (traced : before.Traced)
    (own : before.shared.sniTarget name = none)
    (handle : before.shared.tenantTasks.get? name = some task)
    (audit : before.shared.tenantAudits.get? name = some channel) :
    (((before.takeTask name notify).purgeSingle name task).await .single name channel cfg
      removed).holdsHandle channel = false := by
  rw [Bool.eq_false_iff]
  intro held
  rcases Daemon.holdsHandle_iff.mp held with taken | ⟨id, loop, found, mine⟩ |
    ⟨listen, hot, tenant, installed, listed⟩ | ⟨_, scope⟩
  · exact taken (List.mem_insert_self)
  · simp only [Daemon.await, Daemon.purgeSingle, Daemon.takeTask, KeyedMap.get?_erase] at found
    split at found
    · cases found
    · rename_i other
      exact other (owned.loops id loop channel name task found mine audit handle).symm
  · obtain ⟨member, registered⟩ := owned.handles listen hot tenant channel installed listed
    rw [traced.apart tenant name channel registered audit] at member
    exact Shared.sniTarget_eq_none own installed member
  · cases scope

/-- What a step keeps of a channel that the signal task waits for. -/
theorem single_moved {label : DaemonLabel} (owned : before.Owned) (sound : before.Sound)
    (traced : before.Traced) (moved : Daemon.Moved before label after) {name : String}
    {channel : RuntimeId} {cfg : DaemonConfig} {removed : List String}
    (waiting : after.signal = .draining .single name channel cfg removed) :
    after.holdsHandle channel = false := by
  -- Unless the wait begins here, it was there before.
  have continued : before.signal = .draining .single name channel cfg removed →
      after.holdsHandle channel = false := by
    intro waited
    have free := owned.single name channel cfg removed waited
    have closed : channel ∈ before.closing := by
      by_contra taken
      rw [Daemon.holdsHandle_iff.mpr (.inl taken)] at free
      cases free
    rw [Bool.eq_false_iff]
    intro held
    rcases moved.holds sound held with new | old
    · exact absurd (traced.closed channel closed) (Nat.not_lt.mpr new)
    · rw [free] at old
      cases old
  have stopped : ∀ {daemon : Daemon} {other : DaemonConfig} {added rest : List String},
      after = daemon.proceed other added rest → after.holdsHandle channel = false := by
    rintro daemon other added rest rfl
    exact absurd waiting (daemon.proceed_not_draining other added rest)
  cases moved with
  | rejected idle => exact continued waiting
  | cycle => exact stopped rfl
  | unbuilt => exact stopped rfl
  | added => exact stopped rfl
  | removed applying removing =>
      cases removing with
      | skipped => exact stopped rfl
      | unhandled => exact stopped rfl
      | timedOut => exact stopped rfl
      | untriggered => exact stopped rfl
      | rolledBack => exact stopped rfl
      | single own found handle early audit =>
          cases waiting
          exact owned.unheld_single traced own handle audit
      | sni => cases waiting
      | unaudited audit => exact absurd audit (sound.audited applying).2
  | resumedSingle => exact stopped rfl
  | resumedSni draining drained => exact absurd drained (sound.sni_waits draining)
  | @reloaded disk key idle =>
      rcases before.reloadTrigger_cases disk key with same | ⟨_, _, same⟩
      · rw [same] at waiting
        exact continued waiting
      · rw [same] at waiting
        exact continued waiting
  | terminated => cases waiting
  | joined =>
      apply continued
      simp only [Daemon.joinAll] at waiting
      rcases Daemon.drainNext_cases _ before.tenantState with
        ⟨_, next⟩ | ⟨_, _, _, next⟩ <;>
        rw [next] at waiting <;> exact waiting
  | @mainDrained _ rest =>
      apply continued
      rcases before.drainNext_cases rest with ⟨_, next⟩ | ⟨_, _, _, next⟩ <;>
        rw [next] at waiting <;> exact waiting
  | background moved =>
      rw [moved.signal] at waiting
      exact continued waiting

/-- The loops and handles after the spawn of a new tenant. -/
theorem spawned {disk : Disk} {cfg : DaemonConfig} {t : TenantConfig} {runtime : TenantRuntime}
    {added removed : List String} {serving : Bool} (owned : before.Owned) (traced : before.Traced)
    (numbered : runtime.id = before.nextRuntime)
    (unused : ∀ listen hot, before.shared.sniDispatches.get? listen = some hot →
      runtime.name ∉ hot.table.tenantNames) (named : runtime.name = t.name)
    (spawn : Daemon.Spawned disk cfg.config t runtime (before.enroll cfg t runtime) after serving) :
    (after.countAdded.proceed cfg added removed).Owned := by
  obtain ⟨_, audits, _, nextRuntime, _⟩ := spawn.same
  have grown : after.nextRuntime = before.nextRuntime + 1 := nextRuntime
  have registered : ∀ tenant, after.shared.tenantAudits.get? tenant =
      if tenant = runtime.name then some runtime.id
        else before.shared.tenantAudits.get? tenant := by
    intro tenant
    rw [audits]
    exact KeyedMap.get?_insert _ _ _ _
  -- A loop is an old one or that of the new tenant, which its task entry names.
  have loops : ∀ id task channel, after.running.get? id = some task →
      task.audit = some channel → before.running.get? id = some task ∨
        channel = runtime.id ∧ after.shared.tenantTasks.get? runtime.name = some id := by
    intro id task channel found audit
    cases spawn with
    | plain own bare =>
        simp only [Daemon.spawnTenant, KeyedMap.get?_insert] at found
        split at found
        · rename_i same
          cases found
          cases audit
          exact .inr ⟨rfl, by simp [Daemon.spawnTenant, same]⟩
        · exact .inl found
    | secured own secure role built =>
        simp only [Daemon.spawnTenant, KeyedMap.get?_insert] at found
        split at found
        · rename_i same
          cases found
          cases audit
          exact .inr ⟨rfl, by simp [Daemon.spawnTenant, same]⟩
        · exact .inl found
    | group hostname secure role absent built =>
        simp only [Daemon.installGroup, KeyedMap.get?_insert] at found
        split at found
        · cases found
          cases audit
        · exact .inl found
    | _ => exact .inl found
  have tasks : ∀ tenant id, tenant ≠ runtime.name →
      after.shared.tenantTasks.get? tenant = some id →
      before.shared.tenantTasks.get? tenant = some id := by
    intro tenant id other entry
    cases spawn with
    | plain own bare =>
        simpa [Daemon.spawnTenant, Daemon.enroll, Shared.register, KeyedMap.get?_insert, other]
          using entry
    | secured own secure role built =>
        simpa [Daemon.spawnTenant, Daemon.enroll, Daemon.insertTrigger, Shared.register,
          KeyedMap.get?_insert, other] using entry
    | _ => exact entry
  constructor
  · intro id task channel tenant own found audit known entry
    change after.shared.tenantAudits.get? tenant = some channel at known
    change after.shared.tenantTasks.get? tenant = some own at entry
    rw [registered] at known
    rcases loops id task channel found audit with old | ⟨rfl, mine⟩
    · have bound := owned.below id task channel old audit
      split at known
      · cases known
        rw [numbered] at bound
        exact absurd bound (Nat.lt_irrefl _)
      · rename_i other
        exact owned.loops id task channel tenant own old audit known (tasks tenant own other entry)
    · split at known
      · rename_i same
        rw [same, mine] at entry
        exact (Option.some.inj entry).symm
      · have bound := traced.numbered tenant runtime.id known
        rw [numbered] at bound
        exact absurd bound (Nat.lt_irrefl _)
  · intro id task channel found audit
    change channel < after.nextRuntime
    rw [grown]
    rcases loops id task channel found audit with old | ⟨rfl, _⟩
    · exact Nat.lt_succ_of_lt (owned.below id task channel old audit)
    · rw [numbered]
      exact Nat.lt_succ_self _
  · intro listen hot tenant channel installed listed
    change after.shared.sniDispatches.get? listen = some hot at installed
    change _ ∧ after.shared.tenantAudits.get? tenant = some channel
    rw [registered]
    -- The handles of the tables before the spawn are those of other tenants.
    have old : ∀ {listen hot tenant channel}, before.shared.sniDispatches.get? listen =
        some hot → (tenant, channel) ∈ hot.audits → tenant ∈ hot.table.tenantNames ∧
          (if tenant = runtime.name then some runtime.id
            else before.shared.tenantAudits.get? tenant) = some channel := by
      intro listen hot tenant channel installed listed
      obtain ⟨member, known⟩ := owned.handles listen hot tenant channel installed listed
      refine ⟨member, ?_⟩
      rw [if_neg]
      · exact known
      · rintro rfl
        exact unused listen hot installed member
    cases spawn with
    | group hostname secure role absent built =>
        simp only [Daemon.installGroup, KeyedMap.get?_insert] at installed
        split at installed
        · cases installed
          simp only [List.mem_singleton, Prod.mk.injEq] at listed
          obtain ⟨rfl, rfl⟩ := listed
          obtain ⟨resolved, resolution, _, dispatched⟩ := newGroup_spec built
          have answered :=
            (SniDispatchTable.mem_contexts_new dispatched ⟨resolved⟩).mpr (by simp)
          refine ⟨List.mem_map.mpr ⟨_, answered, ?_⟩, if_pos rfl⟩
          rw [named]
          exact (Config.resolveOneServeTcp_spec resolution).1
        · exact old installed listed
    | @member _ _ joined resolved _ _ _ _ hostname secure role group resolution
        extended found mutated =>
        simp only [KeyedMap.get?_insert] at installed
        split at installed
        · cases installed
          rcases List.mem_append.mp listed with earlier | new
          · obtain ⟨member, known⟩ := old group earlier
            obtain ⟨ctx, answered, rfl⟩ := List.mem_map.mp member
            exact ⟨List.mem_map.mpr ⟨ctx,
              (SniDispatchTable.mem_contexts_addContext extended ctx).mpr
              (.inr answered), rfl⟩, known⟩
          · simp only [List.mem_singleton, Prod.mk.injEq] at new
            obtain ⟨rfl, rfl⟩ := new
            have answered :=
              (SniDispatchTable.mem_contexts_addContext extended ⟨resolved⟩).mpr (.inl rfl)
            refine ⟨List.mem_map.mpr ⟨_, answered, ?_⟩, if_pos rfl⟩
            rw [named]
            exact (Config.resolveOneServeTcp_spec resolution).1
        · exact old installed listed
    | _ => exact old installed listed
  · intro tenant channel other rest waiting
    exact absurd waiting (after.countAdded.proceed_not_draining cfg added removed)

/-- The loops and handles after a removal. -/
theorem removing {disk : Disk} {inTime : Bool} {name : String} {cfg : DaemonConfig}
    {removed : List String} (owned : before.Owned) (sound : before.Sound)
    (applying : before.signal = .applying cfg [] (name :: removed))
    (removal : Daemon.Removing disk inTime name cfg removed before after)
    (single : ∀ name channel cfg removed, after.signal = .draining .single name
      channel cfg removed → after.holdsHandle channel = false) : after.Owned := by
  have sameTasks : ∀ id task, before.running.get? id = some task →
      ∃ old, before.running.get? id = some old ∧ task.audit = old.audit :=
    fun _ task found => ⟨task, found, rfl⟩
  have erased : ∀ {map : KeyedMap String RuntimeId} {tenant id},
      (map.erase name).get? tenant = some id → tenant ≠ name ∧ map.get? tenant = some id := by
    intro map tenant id found
    rw [KeyedMap.get?_erase] at found
    split at found
    · cases found
    · rename_i other
      exact ⟨other, found⟩
  cases removal with
  | skipped => exact owned.same sameTasks rfl (fun _ _ entry => entry) rfl rfl single
  | untriggered => exact owned.same sameTasks rfl (fun _ _ entry => entry) rfl rfl single
  | rolledBack => exact owned.same sameTasks rfl (fun _ _ entry => entry) rfl rfl single
  | unhandled => exact owned.same sameTasks rfl (fun _ _ entry => (erased entry).2) rfl rfl single
  | timedOut => exact owned.same sameTasks rfl (fun _ _ entry => (erased entry).2) rfl rfl single
  | single own found handle early audit =>
      refine owned.shrink ?_ (fun _ _ found => (erased found).2)
        (fun _ _ entry => (erased entry).2) ?_ (Nat.le_refl _) single
      · intro id task stored
        simp only [Daemon.await, Daemon.purgeSingle, Daemon.takeTask, KeyedMap.get?_erase] at stored
        split at stored
        · cases stored
        · exact sameTasks id task stored
      · intro listen hot tenant channel installed listed
        obtain ⟨member, known⟩ := owned.handles listen hot tenant channel installed listed
        refine ⟨member, ?_⟩
        have other : tenant ≠ name := by
          rintro rfl
          exact Shared.sniTarget_eq_none own installed member
        simpa [Daemon.await, Daemon.purgeSingle, Daemon.takeTask, KeyedMap.get?_erase, other]
          using known
  | @sni listen hot table trigger next previous channel member left found mutated audit =>
      obtain ⟨installed, inTable⟩ := Shared.sniTarget_eq_some member
      refine owned.shrink sameTasks (fun _ _ found => (erased found).2) (fun _ _ entry => entry) ?_
        (Nat.le_refl _) single
      intro other now tenant id nowInstalled listed
      have kept : tenant ≠ name → before.shared.tenantAudits.get? tenant = some id →
          (before.shared.tenantAudits.erase name).get? tenant = some id := by
        intro different known
        rw [KeyedMap.get?_erase, if_neg different]
        exact known
      simp only [Daemon.await, Daemon.purgeSni, KeyedMap.get?_insert] at nowInstalled
      split at nowInstalled
      · cases nowInstalled
        obtain ⟨earlier, different⟩ := List.mem_filter.mp listed
        have different : tenant ≠ name := of_decide_eq_true different
        obtain ⟨wasMember, known⟩ := owned.handles listen hot tenant id installed earlier
        obtain ⟨ctx, answered, rfl⟩ := List.mem_map.mp wasMember
        exact ⟨List.mem_map.mpr ⟨ctx,
          (SniDispatchTable.mem_contexts_withTenantRemoved left ctx).mpr
          ⟨answered, different⟩, rfl⟩, kept different known⟩
      · rename_i elsewhere
        obtain ⟨wasMember, known⟩ := owned.handles other now tenant id nowInstalled listed
        refine ⟨wasMember, kept ?_ known⟩
        rintro rfl
        exact elsewhere (sound.dispatching.apart other listen now hot tenant nowInstalled installed
          wasMember inTable)
  | unaudited audit => exact absurd audit (sound.audited applying).2

/-- The step lemma. -/
theorem moved {label : DaemonLabel} (owned : before.Owned) (sound : before.Sound)
    (traced : before.Traced) (moved : Daemon.Moved before label after) : after.Owned := by
  have sameTasks : ∀ id task, before.running.get? id = some task →
      ∃ old, before.running.get? id = some old ∧ task.audit = old.audit :=
    fun _ task found => ⟨task, found, rfl⟩
  have single : ∀ name channel cfg removed,
      after.signal = .draining .single name channel cfg removed →
      after.holdsHandle channel = false :=
    fun _ _ _ _ waiting => owned.single_moved sound traced moved waiting
  cases moved with
  | rejected => exact owned.same sameTasks rfl (fun _ _ entry => entry) rfl rfl single
  | @cycle cfg _ _ idle valid adds removes =>
      obtain ⟨admissions, metrics, same⟩ :=
        (before.shared.countCycle.applyLimits_hotOnly cfg.config).exists_eq
      refine owned.same sameTasks ?_ ?_
        (Daemon.applyLimits_sniDispatches before.shared cfg.config) rfl single
      · rw [Daemon.proceed_shared, same]
        rfl
      · intro name id entry
        rw [Daemon.proceed_shared, same] at entry
        exact entry
  | unbuilt => exact owned.same sameTasks rfl (fun _ _ entry => entry) rfl rfl single
  | @added _ _ cfg name _ _ t runtime _ _ applying declared built outcome spawn =>
      have spec := buildTenantRuntime_spec built
      have named : runtime.name = t.name := by rw [spec]
      have keyed : before.shared.Keyed none := by
        simpa [applying, SignalTask.leaving] using sound.keyed
      refine owned.spawned traced (by rw [spec]) ?_ named spawn
      intro listen hot installed
      refine sound.dispatching.unused ?_ installed
      rw [keyed.audits, named, Daemon.declared_name declared]
      exact sound.adding.2 name (by simp [applying, SignalTask.added])
  | removed applying removal => exact owned.removing sound applying removal single
  | resumedSingle => exact owned.same sameTasks rfl (fun _ _ entry => entry) rfl rfl single
  | resumedSni draining drained => exact absurd drained (sound.sni_waits draining)
  | @reloaded disk key idle =>
      rcases before.reloadTrigger_cases disk key with same | ⟨_, _, same⟩
      · rw [same]
        exact owned
      · rw [same] at single ⊢
        refine owned.shrink sameTasks (fun _ _ found => found) (fun _ _ entry => entry) ?_
          (Nat.le_refl _) single
        intro listen hot name channel installed listed
        obtain ⟨old, wasInstalled, table, audits⟩ := Daemon.get?_reloaded installed
        rw [table]
        exact owned.handles listen old name channel wasInstalled (audits ▸ listed)
  | terminated => exact owned.same sameTasks rfl (fun _ _ entry => entry) rfl rfl single
  | joined =>
      simp only [Daemon.joinAll] at single ⊢
      rcases Daemon.drainNext_cases _ before.tenantState with
        ⟨_, next⟩ | ⟨_, _, _, next⟩ <;>
        rw [next] at single ⊢ <;> exact owned.same sameTasks rfl
          (by rintro _ _ ⟨⟩) rfl rfl single
  | @mainDrained _ rest =>
      rcases before.drainNext_cases rest with ⟨_, next⟩ | ⟨_, _, _, next⟩ <;>
        rw [next] at single ⊢ <;>
        exact owned.same sameTasks rfl (fun _ _ entry => entry) rfl rfl single
  | background moved =>
      exact owned.same moved.running (by rw [moved.shared])
        (fun _ _ entry => moved.shared ▸ entry) (by rw [moved.shared]) moved.nextRuntime single

end Daemon.Owned

/-- The loop of a tenant that startup has not served before. -/
theorem spawnTenant_owned {cfg : Config} {runtimes : List TenantRuntime} {daemon : Daemon}
    {done : List TenantConfig} {t : TenantConfig} {runtime : TenantRuntime} {listen : String}
    (valid : cfg.validate = .ok ()) (known : ∀ t ∈ done, t ∈ cfg.tenants)
    (declared : t ∈ cfg.tenants)
    (new : t ∉ done) (found : runtime ∈ runtimes) (named : runtime.name = t.name)
    (loops : ∀ id task channel, daemon.running.get? id = some task →
      task.audit = some channel →
      ∃ t ∈ done, ∃ runtime ∈ runtimes, runtime.name = t.name ∧ runtime.id = channel ∧
        daemon.shared.tenantTasks.get? t.name = some id) :
    ∀ id task channel, (daemon.spawnTenant runtime listen).running.get? id = some task →
      task.audit = some channel → ∃ tenant ∈ done ++ [t], ∃ other ∈ runtimes,
        other.name = tenant.name ∧ other.id = channel ∧
          (daemon.spawnTenant runtime listen).shared.tenantTasks.get? tenant.name = some id := by
  intro id task channel stored audit
  simp only [Daemon.spawnTenant, KeyedMap.get?_insert] at stored ⊢
  split at stored
  · rename_i same
    cases stored
    cases audit
    exact ⟨t, by simp, runtime, found, named, rfl, by simp [named, same]⟩
  · obtain ⟨tenant, member, other, otherMember, otherNamed, numbered, entry⟩ :=
      loops id task channel stored audit
    refine ⟨tenant, List.mem_append_left _ member, other, otherMember, otherNamed, numbered, ?_⟩
    rw [if_neg]
    · exact entry
    · intro same
      have equal :=
        List.inj_on_of_nodup_map (Config.validate_names_nodup valid) (known tenant member)
        declared (same.trans named)
      exact new (equal ▸ member)

/-- The loops and handles of the listeners started so far are those of built
runtimes. -/
theorem Launching.owned {disk : Disk} {cfg : Config} {runtimes : List TenantRuntime}
    {base daemon : Daemon} {done : List TenantConfig} (valid : cfg.validate = .ok ())
    (idle : base.running = .empty) (undispatched : base.shared.sniDispatches = .empty)
    (launching : Launching disk cfg runtimes base done daemon) :
    (∀ t ∈ done, t ∈ cfg.tenants) ∧
      (∀ id task channel, daemon.running.get? id = some task → task.audit = some channel →
        ∃ t ∈ done, ∃ runtime ∈ runtimes, runtime.name = t.name ∧ runtime.id = channel ∧
          daemon.shared.tenantTasks.get? t.name = some id) ∧
      ∀ listen hot name channel, daemon.shared.sniDispatches.get? listen = some hot →
        (name, channel) ∈ hot.audits → name ∈ hot.table.tenantNames ∧
          ∃ runtime ∈ runtimes, runtime.name = name ∧ runtime.id = channel := by
  induction launching with
  | start =>
      refine ⟨by simp, ?_, ?_⟩
      · intro id task channel found
        rw [idle] at found
        cases found
      · intro listen hot name channel installed
        rw [undispatched] at installed
        cases installed
  | @plain done before t runtime prior declared new found named own bare alone
      inductionHypothesis =>
      obtain ⟨known, loops, handles⟩ := inductionHypothesis
      exact ⟨by simpa [or_imp, forall_and, declared] using known,
        spawnTenant_owned valid known declared new found named loops, handles⟩
  | @secured done before t runtime _ _ prior declared new found named own secure built alone
      inductionHypothesis =>
      obtain ⟨known, loops, handles⟩ := inductionHypothesis
      exact ⟨by simpa [or_imp, forall_and, declared] using known,
        spawnTenant_owned valid known declared new found named loops, handles⟩
  | @group done before listen tenants built audits prior several new resolved given started
      inductionHypothesis =>
      obtain ⟨known, loops, handles⟩ := inductionHypothesis
      refine ⟨?_, ?_, ?_⟩
      · intro t member
        rcases List.mem_append.mp member with earlier | here
        · exact known t earlier
        · exact (Config.mem_tenantsAt.mp here).1
      · intro id task channel found audit
        simp only [Daemon.installGroup, KeyedMap.get?_insert] at found
        split at found
        · cases found
          cases audit
        · obtain ⟨t, member, rest⟩ := loops id task channel found audit
          exact ⟨t, List.mem_append_left _ member, rest⟩
      · intro address hot name channel installed listed
        simp only [Daemon.installGroup, KeyedMap.get?_insert] at installed
        split at installed
        · cases installed
          obtain ⟨tenant, member, handle⟩ := exists_of_mem_mapM_eq_ok given listed
          obtain ⟨runtime, found, handle⟩ := bind_eq_ok.mp handle
          cases handle
          obtain ⟨runtimeMember, named⟩ := runtimeOf_spec found
          refine ⟨?_, runtime, runtimeMember, named, rfl⟩
          obtain ⟨members, entered, _, dispatched⟩ := startupGroup_spec started
          obtain ⟨entry, entryMember, converted⟩ := exists_mem_of_mapM_eq_ok entered member
          obtain ⟨_, _, _, _, rfl⟩ := startupMember_spec converted
          exact List.mem_map.mpr ⟨_, (SniDispatchTable.mem_contexts_new dispatched _).mpr
            (List.mem_map.mpr ⟨_, entryMember, rfl⟩), rfl⟩
        · exact handles address hot name channel installed listed

/-- Startup gives each loop its task entry and each table handles of its tenants. -/
theorem startDaemon_owned {files : TenantFiles} {disk : Disk} {cfg : DaemonConfig} {daemon : Daemon}
    (started : startDaemon files disk cfg = .ok daemon) : daemon.Owned := by
  have traced := startDaemon_traced started
  obtain ⟨valid, runtimes, done, built, launching, _⟩ := startDaemon_launching started
  obtain ⟨_, undispatched, _, _, audits⟩ := registered_spec valid built
  obtain ⟨_, loops, handles⟩ := launching.owned valid rfl undispatched
  obtain ⟨signal, _, _, _, _, _, _, _, _, sameAudits⟩ := launching.same
  have registered : ∀ runtime ∈ runtimes,
      daemon.shared.tenantAudits.get? runtime.name = some runtime.id := by
    rw [sameAudits]
    exact audits
  constructor
  · intro id task channel name own found audit known entry
    obtain ⟨t, _, runtime, member, named, rfl, mine⟩ := loops id task channel found audit
    rw [← named] at mine
    rw [traced.apart name runtime.name runtime.id known (registered runtime member), mine] at entry
    exact (Option.some.inj entry).symm
  · intro id task channel found audit
    obtain ⟨_, _, runtime, member, _, rfl, _⟩ := loops id task channel found audit
    exact traced.numbered runtime.name runtime.id (registered runtime member)
  · intro listen hot name channel installed listed
    obtain ⟨inTable, runtime, member, rfl, rfl⟩ :=
      handles listen hot name channel installed listed
    exact ⟨inTable, registered runtime member⟩
  · intro name channel other removed draining
    rw [signal] at draining
    cases draining

/-- The run lemma. -/
theorem Daemon.Owned.of_reachable {admits : Daemon → DaemonLabel → Prop} {daemon : Daemon}
    (reachable : daemonMachine.Reachable admits daemon) : daemon.Owned := by
  have invariant := reachable.invariant
    (fun daemon : Daemon => daemon.Sound ∧ daemon.Traced ∧ daemon.Owned) ?_ ?_
  · exact invariant.2.2
  · rintro start ⟨files, disk, cfg, started⟩
    exact ⟨startDaemon_sound started, startDaemon_traced started, startDaemon_owned started⟩
  · rintro before label after ⟨sound, traced, owned⟩ _ stepped
    have moved := (Daemon.step_moved stepped).2
    exact ⟨sound.moved moved, traced.moved sound moved, owned.moved sound traced moved⟩

/-- The tenant of a startup channel has left its SNI group and its accept loop has
returned. -/
def Daemon.standsAlone (daemon : Daemon) (channel : RuntimeId) : Bool :=
  (daemon.shared.tenantAudits.entries.all fun entry =>
    entry.2 ≠ channel || (daemon.shared.sniTarget entry.1).isNone) &&
    daemon.running.values.all fun task => task.audit ≠ some channel

/-- A REMOVE does not get an SNI tenant out of its group, and the shutdown sequence
goes on to a channel whose tenant is in no group and has no accept loop. -/
def drainsAlone (daemon : Daemon) : DaemonLabel → Bool
  | .remove disk _ =>
      match daemon.signal with
      | .applying _ [] (name :: _) =>
          (daemon.shared.sniTarget name).all fun group =>
            (daemon.shared.reloadTriggers.get? (groupKey group.1)).all fun trigger =>
              !(trigger.removeSniEntry disk name).2.isOk
      | _ => true
  | .joined => daemon.tenantState.head?.all daemon.standsAlone
  | .mainDrained =>
      match daemon.main with
      | .draining (_ :: channel :: _) => daemon.standsAlone channel
      | _ => true
  | _ => true

/-- Only sessions keep a task waiting for a channel. -/
structure Daemon.WaitsForSessions (daemon : Daemon) (channel : RuntimeId) : Prop where
  unheld : daemon.holdsHandle channel = false
  /-- No step starts another session with a handle. -/
  closed : ∀ label after, daemonMachine.step daemon label = some after →
    channel ∈ after.sessions → channel ∈ daemon.sessions
  /-- Without a session the writer returns and the wait ends. -/
  ends : channel ∉ daemon.sessions → ∃ labels after,
    daemonMachine.Runs daemonMachine.Free daemon labels after ∧ ¬ after.waitsFor channel

/-- What the waits of a run of admitted steps look like. -/
structure Daemon.Clear (daemon : Daemon) : Prop where
  once : daemon.tenantState.Nodup
  removal : ∀ listen old name channel cfg removed,
    daemon.signal ≠ .draining (.sni listen old) name channel cfg removed
  shutdown : ∀ channels, daemon.main = .draining channels → channels.Nodup ∧
    ∀ channel ∈ channels.head?, daemon.holdsHandle channel = false

/-- A channel whose tenant stands alone has no handle once its own is taken. -/
theorem Daemon.Owned.unheld_main {before : Daemon} {channel : RuntimeId} (owned : before.Owned)
    (ended : before.signal = .returned) (alone : before.standsAlone channel = true)
    (main : MainTask) {tasks groups : KeyedMap String TaskId}
    {monitors : KeyedMap String RuntimeId} : ({ before with
        shared := { before.shared with
          sniGroupTasks := groups, tenantTasks := tasks, monitorHandles := monitors }
        main := main
        closing := before.closing.insert channel } : Daemon).holdsHandle channel = false := by
  simp only [Daemon.standsAlone, Bool.and_eq_true, List.all_eq_true] at alone
  rw [Bool.eq_false_iff]
  intro held
  rcases Daemon.holdsHandle_iff.mp held with taken | ⟨id, loop, found, mine⟩ |
    ⟨listen, hot, tenant, installed, listed⟩ | ⟨_, scope⟩
  · exact taken List.mem_insert_self
  · have free := alone.2 loop (KeyedMap.mem_values_iff.mpr ⟨id, found⟩)
    simp [mine] at free
  · obtain ⟨member, registered⟩ := owned.handles listen hot tenant channel installed listed
    have free := alone.1 (tenant, channel) (KeyedMap.get?_eq_some_iff.mp registered)
    have own : before.shared.sniTarget tenant = none := by simpa using free
    exact Shared.sniTarget_eq_none own installed member
  · rw [ended] at scope
    cases scope

namespace Daemon.Clear

variable {before after : Daemon}

/-- A state in which neither task waits, or the signal task for a single tenant. -/
theorem frame (clear : before.Clear) (tenantState : after.tenantState = before.tenantState)
    (main : after.main = before.main) (serving : before.main = .serving)
    (removal : ∀ listen old name channel cfg removed,
      after.signal ≠ .draining (.sni listen old) name channel cfg removed) : after.Clear where
  once := by
    rw [tenantState]
    exact clear.once
  removal := removal
  shutdown := by
    intro channels draining
    rw [main, serving] at draining
    cases draining

/-- The removals that an admitted step can begin. -/
theorem removing {disk : Disk} {inTime : Bool} {name : String} {cfg : DaemonConfig}
    {removed : List String} (clear : before.Clear) (sound : before.Sound)
    (serving : before.main = .serving)
    (applying : before.signal = .applying cfg [] (name :: removed))
    (alone : drainsAlone before (.remove disk inTime) = true)
    (removal : Daemon.Removing disk inTime name cfg removed before after) : after.Clear := by
  have proceeds : ∀ {daemon : Daemon} {listen old tenant channel other rest},
      (daemon.proceed cfg [] removed).signal ≠
        .draining (.sni listen old) tenant channel other rest :=
    Daemon.proceed_not_draining _ cfg [] removed
  cases removal with
  | skipped => exact clear.frame rfl rfl serving fun _ _ _ _ _ _ => proceeds
  | unhandled => exact clear.frame rfl rfl serving fun _ _ _ _ _ _ => proceeds
  | timedOut => exact clear.frame rfl rfl serving fun _ _ _ _ _ _ => proceeds
  | untriggered => exact clear.frame rfl rfl serving fun _ _ _ _ _ _ => proceeds
  | rolledBack => exact clear.frame rfl rfl serving fun _ _ _ _ _ _ => proceeds
  | single => exact clear.frame rfl rfl serving (by rintro _ _ _ _ _ _ ⟨⟩)
  | sni member left found mutated audit =>
      simp [drainsAlone, applying, member, found, mutated, Except.isOk, Except.toBool] at alone
  | unaudited audit => exact absurd audit (sound.audited applying).2

/-- The main task goes on to a channel. -/
theorem next (daemon : Daemon) (once : before.tenantState.Nodup)
    (removal : ∀ listen old name channel cfg removed,
      before.signal ≠ .draining (.sni listen old) name channel cfg removed)
    (tenantState : daemon.tenantState = before.tenantState) (signal : daemon.signal = before.signal)
    (channels : List RuntimeId) (distinct : channels.Nodup)
    (unheld : ∀ channel rest, channels = channel :: rest →
      (daemon.drainNext channels).holdsHandle channel = false) :
      (daemon.drainNext channels).Clear := by
  rcases daemon.drainNext_cases channels with ⟨_, next⟩ | ⟨channel, rest, rfl, next⟩
  · rw [next]
    refine ⟨tenantState ▸ once, ?_, by rintro _ ⟨⟩⟩
    rw [← signal] at removal
    exact removal
  · have free := unheld channel rest rfl
    rw [next] at free ⊢
    refine ⟨tenantState ▸ once, ?_, ?_⟩
    · rw [← signal] at removal
      exact removal
    · rintro _ ⟨⟩
      exact ⟨distinct, by simpa using free⟩

/-- The step lemma. -/
theorem moved {label : DaemonLabel} (clear : before.Clear) (sound : before.Sound)
    (traced : before.Traced) (owned : before.Owned) (alone : drainsAlone before label = true)
    (moved : Daemon.Moved before label after) : after.Clear := by
  have serving : before.signal ≠ .returned → before.main = .serving :=
    traced.ended.resolve_right
  have proceeds : ∀ {daemon : Daemon} {cfg added removed listen old tenant channel other rest},
      (daemon.proceed cfg added removed).signal ≠
        .draining (.sni listen old) tenant channel other rest :=
    fun {_ cfg added removed} => Daemon.proceed_not_draining _ cfg added removed
  cases moved with
  | rejected idle => exact clear.frame rfl rfl (serving (by simp [idle])) clear.removal
  | cycle idle => exact clear.frame rfl rfl (serving (by simp [idle])) fun _ _ _ _ _ _ => proceeds
  | unbuilt applying =>
      exact clear.frame rfl rfl (serving (by simp [applying])) fun _ _ _ _ _ _ => proceeds
  | added applying declared built outcome spawn =>
      obtain ⟨_, _, _, _, _, tenantState, main⟩ := spawn.same
      exact clear.frame tenantState main (serving (by simp [applying])) fun _ _ _ _ _ _ => proceeds
  | removed applying removal =>
      exact clear.removing sound (serving (by simp [applying])) applying alone removal
  | resumedSingle draining =>
      exact clear.frame rfl rfl (serving (by simp [draining])) fun _ _ _ _ _ _ => proceeds
  | resumedSni draining => exact absurd draining (clear.removal _ _ _ _ _ _)
  | @reloaded disk key idle =>
      rcases before.reloadTrigger_cases disk key with same | ⟨_, _, same⟩
      · rw [same]
        exact clear
      · rw [same]
        exact clear.frame rfl rfl (serving (by simp [idle])) clear.removal
  | terminated idle => exact ⟨clear.once, by rintro _ _ _ _ _ _ ⟨⟩, by rintro _ ⟨⟩⟩
  | joined joining =>
      have ended : before.signal = .returned := traced.ended.resolve_left (by simp [joining])
      rw [Daemon.joinAll]
      refine next _ clear.once clear.removal ?_ ?_ before.tenantState clear.once ?_
      · rfl
      · rfl
      intro channel rest first
      simp only [drainsAlone, first, List.head?_cons, Option.all_some] at alone
      rw [first]
      exact owned.unheld_main ended alone (.draining (channel :: rest))
  | @mainDrained channel rest draining drained =>
      have ended : before.signal = .returned := traced.ended.resolve_left (by simp [draining])
      have distinct := (clear.shutdown _ draining).1
      refine next before clear.once clear.removal rfl rfl rest (List.nodup_cons.mp distinct).2 ?_
      rintro following others rfl
      simp only [drainsAlone, draining] at alone
      exact owned.unheld_main ended alone (.draining (following :: others))
  | background step =>
      refine ⟨step.tenantState ▸ clear.once, step.signal ▸ clear.removal, ?_⟩
      intro channels draining
      rw [step.main] at draining
      obtain ⟨distinct, unheld⟩ := clear.shutdown channels draining
      refine ⟨distinct, ?_⟩
      intro channel first
      have free := unheld channel first
      have member : channel ∈ before.tenantState := by
        have progress := traced.progress
        rw [draining] at progress
        exact progress.1 channel (List.mem_of_mem_head? first)
      rw [Bool.eq_false_iff]
      intro held
      rcases (Daemon.Moved.background step : Daemon.Moved before label after).holds sound held with
        new | old
      · exact absurd (traced.built channel member) (Nat.not_lt.mpr new)
      · rw [free] at old
        cases old

end Daemon.Clear

/-- A new session has its handle from a place that the step before had. -/
theorem Daemon.Moved.session {before after : Daemon} {label : DaemonLabel} (sound : before.Sound)
    (moved : Daemon.Moved before label after) {channel : RuntimeId}
    (session : channel ∈ after.sessions) :
    channel ∈ before.sessions ∨ before.holdsHandle channel = true := by
  cases moved with
  | rejected => exact .inl session
  | cycle => exact .inl session
  | unbuilt => exact .inl session
  | added applying declared built outcome spawn => cases spawn <;> exact .inl session
  | removed applying removal =>
      cases removal with
      | unaudited audit => exact absurd audit (sound.audited applying).2
      | _ => exact .inl session
  | resumedSingle => exact .inl session
  | resumedSni draining drained => exact absurd drained (sound.sni_waits draining)
  | @reloaded disk key idle =>
      rcases before.reloadTrigger_cases disk key with same | ⟨_, _, same⟩ <;>
        rw [same] at session <;> exact .inl session
  | terminated => exact .inl session
  | joined =>
      simp only [Daemon.joinAll] at session
      rcases Daemon.drainNext_cases _ before.tenantState with
        ⟨_, next⟩ | ⟨_, _, _, next⟩ <;>
        rw [next] at session <;> exact .inl session
  | @mainDrained _ rest =>
      rcases before.drainNext_cases rest with ⟨_, next⟩ | ⟨_, _, _, next⟩ <;>
        rw [next] at session <;> exact .inl session
  | background moved => exact moved.sessions channel session

/-- Nothing waits right after startup. -/
theorem startDaemon_clear {files : TenantFiles} {disk : Disk} {cfg : DaemonConfig} {daemon : Daemon}
    (started : startDaemon files disk cfg = .ok daemon) : daemon.Clear := by
  obtain ⟨idle, serving⟩ := startDaemon_idle started
  obtain ⟨_, runtimes, _, built, launching, _⟩ := startDaemon_launching started
  obtain ⟨_, _, _, _, _, _, tenantState, _⟩ := launching.same
  refine ⟨?_, by simp [idle], by simp [serving]⟩
  rw [tenantState]
  change (runtimes.map TenantRuntime.id).Nodup
  rw [(buildRuntimes_spec built).2]
  exact List.nodup_range'

/-- The run lemma. -/
theorem Daemon.Clear.of_reachable {daemon : Daemon}
    (reachable : daemonMachine.Reachable
      (fun daemon label => drainsAlone daemon label = true) daemon) :
    daemon.Clear := by
  have invariant := reachable.invariant
    (fun daemon : Daemon => daemon.Sound ∧ daemon.Traced ∧ daemon.Owned ∧ daemon.Clear) ?_ ?_
  · exact invariant.2.2.2
  · rintro start ⟨files, disk, cfg, started⟩
    exact ⟨startDaemon_sound started, startDaemon_traced started, startDaemon_owned started,
      startDaemon_clear started⟩
  · rintro before label after ⟨sound, traced, owned, clear⟩ admitted stepped
    have moved := (Daemon.step_moved stepped).2
    exact ⟨sound.moved moved, traced.moved sound moved, owned.moved sound traced moved,
      clear.moved sound traced owned admitted moved⟩

namespace Daemon.Clear

variable {daemon : Daemon} {channel : RuntimeId}

theorem unheld (clear : daemon.Clear) (owned : daemon.Owned) (waiting : daemon.waitsFor channel) :
    daemon.holdsHandle channel = false := by
  rcases waiting with ⟨removal, name, cfg, removed, draining⟩ | ⟨rest, draining⟩
  · cases removal with
    | single => exact owned.single name channel cfg removed draining
    | sni listen old => exact absurd draining (clear.removal listen old name channel cfg removed)
  · exact (clear.shutdown _ draining).2 channel (by simp)

/-- A wait for a channel whose writer has returned ends with the next step. -/
theorem goes_on (clear : daemon.Clear) (traced : daemon.Traced) (waiting : daemon.waitsFor channel)
    (drained : channel ∈ daemon.finished) :
    ∃ label after, daemonMachine.step daemon label = some after ∧
      ¬ after.waitsFor channel := by
  rcases waiting with ⟨removal, name, cfg, removed, draining⟩ | ⟨rest, draining⟩
  · have serving : daemon.main = .serving := traced.ended.resolve_right (by simp [draining])
    cases removal with
    | single =>
        refine ⟨.drained true, daemon.finishSingle name cfg removed, ?_, ?_⟩
        · simp [daemonMachine, Daemon.step, Daemon.move, serving, draining, drained,
            Daemon.resumeRemoval]
        · rintro (⟨_, _, _, _, still⟩ | ⟨_, still⟩)
          · exact Daemon.proceed_not_draining _ cfg [] removed still
          · change daemon.main = _ at still
            rw [serving] at still
            cases still
    | sni listen old => exact absurd draining (clear.removal listen old name channel cfg removed)
  · have ended : daemon.signal = .returned := traced.ended.resolve_left (by simp [draining])
    have distinct := (clear.shutdown _ draining).1
    refine ⟨.mainDrained, daemon.drainNext rest, ?_, ?_⟩
    · simp [daemonMachine, Daemon.step, Daemon.move, draining, drained]
    · rcases daemon.drainNext_cases rest with ⟨_, next⟩ | ⟨following, others, rfl, next⟩
      · rw [next]
        rintro (⟨_, _, _, _, still⟩ | ⟨_, still⟩)
        · rw [ended] at still
          cases still
        · cases still
      · rw [next]
        rintro (⟨_, _, _, _, still⟩ | ⟨_, still⟩)
        · rw [ended] at still
          cases still
        · cases still
          simp at distinct

/-- Without a session the writer returns. -/
theorem ends (clear : daemon.Clear) (sound : daemon.Sound) (traced : daemon.Traced)
    (owned : daemon.Owned) (waiting : daemon.waitsFor channel)
    (unheld : daemon.holdsHandle channel = false) (quiet : channel ∉ daemon.sessions) :
    ∃ labels after, daemonMachine.Runs daemonMachine.Free daemon labels after ∧
      ¬ after.waitsFor channel := by
  by_cases drained : channel ∈ daemon.finished
  · obtain ⟨label, after, stepped, gone⟩ := clear.goes_on traced waiting drained
    exact ⟨[label], after, .snoc .nil trivial stepped, gone⟩
  · have closed : channel ∈ daemon.closing := by
      by_contra taken
      rw [Daemon.holdsHandle_iff.mpr (.inl taken)] at unheld
      cases unheld
    have alive : daemon.main ≠ .returned := by
      intro returned
      rcases waiting with ⟨_, _, _, _, draining⟩ | ⟨_, draining⟩
      · have ended := traced.ended
        simp [returned, draining] at ended
      · rw [returned] at draining
        cases draining
    have stepped : daemonMachine.step daemon (.writerReturns channel) =
        some { daemon with finished := channel :: daemon.finished } := by
      have guard : channel < daemon.nextRuntime ∧ daemon.holdsHandle channel = false ∧
          channel ∉ daemon.sessions ∧ channel ∉ daemon.finished :=
        ⟨traced.closed channel closed, unheld, quiet, drained⟩
      simp only [daemonMachine, Daemon.step, if_neg alive, Daemon.move, if_pos guard]
    have moved := (Daemon.step_moved stepped).2
    obtain ⟨label, after, goesOn, gone⟩ := (clear.moved sound traced owned rfl moved).goes_on
      (traced.moved sound moved) waiting List.mem_cons_self
    exact ⟨_, after, (Machine.Runs.nil.snoc trivial stepped).snoc trivial goesOn, gone⟩

end Daemon.Clear

/-- In every run of admitted steps, only sessions keep the signal task and the main
task waiting for a channel. -/
theorem drain_waits_for_sessions {daemon : Daemon}
    (reachable : daemonMachine.Reachable
      (fun daemon label => drainsAlone daemon label = true) daemon)
    {channel : RuntimeId} (waiting : daemon.waitsFor channel) :
    daemon.WaitsForSessions channel := by
  have sound := Daemon.Sound.of_reachable reachable
  have traced := Daemon.Traced.of_reachable reachable
  have owned := Daemon.Owned.of_reachable reachable
  have clear := Daemon.Clear.of_reachable reachable
  have unheld := clear.unheld owned waiting
  refine ⟨unheld, ?_, clear.ends sound traced owned waiting unheld⟩
  intro label after stepped session
  rcases (Daemon.step_moved stepped).2.session sound session with old | held
  · exact old
  · rw [unheld] at held
    cases held

/-- The main task waits for the channel of a startup tenant with a session. -/
theorem drain_waits_startup : ∃ daemon : Daemon, daemon.main = .draining [0] ∧
    daemon.sessions = [0] ∧ daemon.WaitsForSessions 0 := by
  have evaluated : (daemonChecked drainsAlone alphaFile
      [.bind 0 true, .accept 0, .sigterm, .exit 0, .joined]).any (fun daemon =>
        daemon.main = .draining [0] ∧ daemon.sessions = [0]) = true := by decide +kernel
  obtain ⟨daemon, reached, facts⟩ := (Option.any_eq_true _ _).mp evaluated
  obtain ⟨draining, session⟩ := of_decide_eq_true facts
  exact ⟨daemon, draining, session,
    drain_waits_for_sessions (reachable_daemonChecked reached) (.inr ⟨[], draining⟩)⟩

/-- After SIGTERM the main task waits for a channel whose handle is in the dispatch
table of its group. -/
theorem drain_waits_for_table :
    ¬ ∀ (daemon : Daemon) (channel : RuntimeId),
    daemonMachine.Reachable daemonMachine.Free daemon →
      daemon.waitsFor channel → daemon.WaitsForSessions channel := by
  intro waits
  have evaluated : (daemonAfter groupFile [.bind 0 true, .sigterm, .exit 0, .joined]).any
      (fun daemon =>
      daemon.main = .draining [0, 1] ∧ daemon.holdsHandle 0 = true) = true := by decide +kernel
  obtain ⟨daemon, reached, facts⟩ := (Option.any_eq_true _ _).mp evaluated
  obtain ⟨draining, held⟩ := of_decide_eq_true facts
  have free := (waits daemon 0 (reachable_daemonAfter reached) (.inr ⟨[1], draining⟩)).unheld
  rw [held] at free
  cases free

end CofreSoberano.Gateway
