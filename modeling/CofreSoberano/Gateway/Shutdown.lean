import CofreSoberano.Gateway.Startup
import CofreSoberano.Gateway.Addition
import CofreSoberano.Channel.Drained

/-!
# The drain at shutdown

After SIGTERM the main task drains the runtimes that startup built, in the order of
the configuration. A runtime that SIGHUP added is drained only by its own REMOVE. The
channels of a daemon are runs of the audit channel, each of whose writers has
returned exactly if the daemon counts it as drained.
-/

namespace CofreSoberano.Gateway

open CofreSoberano.Std CofreSoberano.Audit CofreSoberano.Channel

/-- The main task against the channels of the startup runtimes. -/
def MainTask.Progress (tenantState finished : List RuntimeId) : MainTask → Prop
  | .serving => True
  | .joining => True
  | .draining channels => (∀ id ∈ channels, id ∈ tenantState) ∧
      ∀ id ∈ tenantState, id ∈ channels ∨ id ∈ finished
  | .returned => ∀ id ∈ tenantState, id ∈ finished

/-- Where every channel that was ever spawned is. -/
structure Daemon.Traced (daemon : Daemon) : Prop where
  known : ∀ id < daemon.nextRuntime, id ∈ daemon.finished ∨
    (∃ name, daemon.shared.tenantAudits.get? name = some id) ∨ id ∈ daemon.tenantState ∨
    ∃ removal name cfg removed, daemon.signal = .draining removal name id cfg removed
  numbered : ∀ name id, daemon.shared.tenantAudits.get? name = some id → id < daemon.nextRuntime
  built : ∀ id ∈ daemon.tenantState, id < daemon.nextRuntime
  apart : ∀ left right id, daemon.shared.tenantAudits.get? left = some id →
    daemon.shared.tenantAudits.get? right = some id → left = right
  held : ∀ name id, daemon.shared.tenantAudits.get? name = some id →
    id ∉ daemon.tenantState → id ∉ daemon.closing
  closed : ∀ id ∈ daemon.closing, id < daemon.nextRuntime
  ended : daemon.main = .serving ∨ daemon.signal = .returned
  progress : daemon.main.Progress daemon.tenantState daemon.finished

namespace Daemon.Traced

variable {before after : Daemon}

/-- More drained channels do not matter. -/
theorem progress_mono {main : MainTask} {tenantState fewer more : List RuntimeId}
    (progress : main.Progress tenantState fewer) (grown : ∀ id ∈ fewer, id ∈ more) :
    main.Progress tenantState more := by
  cases main with
  | serving => trivial
  | joining => trivial
  | draining channels =>
      refine ⟨progress.1, ?_⟩
      intro id built
      rcases progress.2 id built with waiting | drained
      · exact .inl waiting
      · exact .inr (grown id drained)
  | returned => exact fun id built => grown id (progress id built)

/-- A step that leaves the channels alone. The signal task does not wait. -/
theorem frame (traced : before.Traced)
    (audits : after.shared.tenantAudits = before.shared.tenantAudits)
    (finished : after.finished = before.finished)
    (nextRuntime : after.nextRuntime = before.nextRuntime)
    (tenantState : after.tenantState = before.tenantState)
    (closing : after.closing = before.closing) (main : after.main = before.main)
    (quiet : ∀ removal name id cfg removed,
      before.signal = .draining removal name id cfg removed → after.signal = before.signal)
    (ended : before.signal = .returned → after.signal = .returned) : after.Traced where
  known := by
    intro id old
    rw [nextRuntime] at old
    rw [finished, audits, tenantState]
    rcases traced.known id old with drained | registered | built |
      ⟨removal, name, cfg, removed, waits⟩
    · exact .inl drained
    · exact .inr (.inl registered)
    · exact .inr (.inr (.inl built))
    · refine .inr (.inr (.inr ⟨removal, name, cfg, removed, ?_⟩))
      rw [quiet _ _ _ _ _ waits]
      exact waits
  numbered := by
    rw [audits, nextRuntime]
    exact traced.numbered
  built := by
    rw [tenantState, nextRuntime]
    exact traced.built
  apart := by
    rw [audits]
    exact traced.apart
  held := by
    rw [audits, tenantState, closing]
    exact traced.held
  closed := by
    rw [closing, nextRuntime]
    exact traced.closed
  ended := by
    rw [main]
    exact traced.ended.imp_right ended
  progress := by
    rw [main, tenantState, finished]
    exact traced.progress

/-- A removal that waits has taken the channel of its tenant. -/
theorem await (traced : before.Traced) {removal : Removal} {name : String} {channel : RuntimeId}
    {cfg : DaemonConfig} {removed : List String}
    (free : ∀ removal name id cfg removed, before.signal ≠
      .draining removal name id cfg removed)
    (running : before.signal ≠ .returned)
    (audit : before.shared.tenantAudits.get? name = some channel)
    (audits : after.shared.tenantAudits = before.shared.tenantAudits.erase name)
    (finished : after.finished = before.finished)
    (nextRuntime : after.nextRuntime = before.nextRuntime)
    (tenantState : after.tenantState = before.tenantState)
    (closing : after.closing = before.closing.insert channel) (main : after.main = before.main)
    (signal : after.signal = .draining removal name channel cfg removed) : after.Traced := by
  have kept : ∀ {tenant id}, after.shared.tenantAudits.get? tenant = some id →
      tenant ≠ name ∧ before.shared.tenantAudits.get? tenant = some id := by
    intro tenant id found
    rw [audits, KeyedMap.get?_erase] at found
    split at found
    · cases found
    · rename_i other
      exact ⟨other, found⟩
  constructor
  · intro id old
    rw [nextRuntime] at old
    rw [finished, tenantState]
    rcases traced.known id old with drained | ⟨tenant, registered⟩ | built |
      ⟨_, _, _, _, waits⟩
    · exact .inl drained
    · by_cases same : tenant = name
      · subst same
        rw [audit] at registered
        cases registered
        exact .inr (.inr (.inr ⟨_, _, _, _, signal⟩))
      · refine .inr (.inl ⟨tenant, ?_⟩)
        rw [audits, KeyedMap.get?_erase, if_neg same]
        exact registered
    · exact .inr (.inr (.inl built))
    · exact absurd waits (free _ _ _ _ _)
  · intro tenant id found
    rw [nextRuntime]
    exact traced.numbered tenant id (kept found).2
  · rw [tenantState, nextRuntime]
    exact traced.built
  · intro left right id foundLeft foundRight
    exact traced.apart left right id (kept foundLeft).2 (kept foundRight).2
  · intro tenant id found unbuilt
    rw [tenantState] at unbuilt
    rw [closing, List.mem_insert_iff, not_or]
    refine ⟨?_, traced.held tenant id (kept found).2 unbuilt⟩
    rintro rfl
    exact (kept found).1 (traced.apart tenant name id (kept found).2 audit)
  · intro id closed
    rw [closing, List.mem_insert_iff] at closed
    rw [nextRuntime]
    rcases closed with rfl | earlier
    · exact traced.numbered name id audit
    · exact traced.closed id earlier
  · rw [main]
    exact .inl (traced.ended.resolve_right running)
  · rw [main, tenantState, finished]
    exact traced.progress

/-- A removal. -/
theorem removing {disk : Disk} {inTime : Bool} {name : String} {cfg : DaemonConfig}
    {removed : List String} (traced : before.Traced) (sound : before.Sound)
    (applying : before.signal = .applying cfg [] (name :: removed))
    (removal : Daemon.Removing disk inTime name cfg removed before after) : after.Traced := by
  have free : ∀ removal name id cfg removed,
      before.signal ≠ .draining removal name id cfg removed := by simp [applying]
  have running : before.signal ≠ .returned := by simp [applying]
  cases removal with
  | unaudited audit => exact absurd audit (sound.audited applying).2
  | single own found handle early audit =>
      exact traced.await free running audit rfl rfl rfl rfl rfl rfl rfl
  | sni member left found mutated audit =>
      exact traced.await free running audit rfl rfl rfl rfl rfl rfl rfl
  | _ =>
      exact traced.frame rfl rfl rfl rfl rfl rfl
        (fun _ _ _ _ _ waits => absurd waits (free _ _ _ _ _))
        fun returned => absurd returned running

/-- The registration of a new channel. -/
theorem added {disk : Disk} {cfg : DaemonConfig} {t : TenantConfig} {runtime : TenantRuntime}
    {spawned : Daemon} {serving : Bool} {name : String} {added removed : List String}
    (traced : before.Traced) (sound : before.Sound)
    (applying : before.signal = .applying cfg (name :: added) removed)
    (numbered : runtime.id = before.nextRuntime) (new : runtime.name ∉ before.shared.tenantNames)
    (spawn : Daemon.Spawned disk cfg.config t runtime
      (before.enroll cfg t runtime) spawned serving) :
    (spawned.countAdded.proceed cfg added removed).Traced := by
  obtain ⟨_, audits, finished, nextRuntime, closing, tenantState, main⟩ := spawn.same
  have keyed : before.shared.Keyed none := by simpa [applying, SignalTask.leaving] using sound.keyed
  have registered : ∀ tenant, spawned.shared.tenantAudits.get? tenant =
      if tenant = runtime.name then some runtime.id
        else before.shared.tenantAudits.get? tenant := by
    intro tenant
    rw [audits]
    exact KeyedMap.get?_insert _ _ _ _
  have unused : before.shared.tenantAudits.get? runtime.name = none := by
    rw [KeyedMap.get?_eq_none_iff_notMem, keyed.audits]
    exact new
  have grown : spawned.nextRuntime = before.nextRuntime + 1 := nextRuntime
  have older : ∀ {tenant id}, spawned.shared.tenantAudits.get? tenant = some id →
      (tenant = runtime.name ∧ id = before.nextRuntime) ∨
        before.shared.tenantAudits.get? tenant = some id ∧ id < before.nextRuntime := by
    intro tenant id found
    rw [registered] at found
    split at found
    · rename_i same
      cases found
      exact .inl ⟨same, numbered⟩
    · exact .inr ⟨found, traced.numbered tenant id found⟩
  constructor
  · intro id old
    have bound : id < before.nextRuntime + 1 := Nat.lt_of_lt_of_eq old grown
    have shown : id ∈ before.finished ∨
        (∃ tenant, spawned.shared.tenantAudits.get? tenant = some id) ∨
        id ∈ before.tenantState := by
      rcases Nat.lt_succ_iff_lt_or_eq.mp bound with earlier | rfl
      · rcases traced.known id earlier with drained | ⟨tenant, found⟩ | built |
          ⟨_, _, _, _, waits⟩
        · exact .inl drained
        · refine .inr (.inl ⟨tenant, ?_⟩)
          have other : tenant ≠ runtime.name := by
            rintro rfl
            rw [unused] at found
            cases found
          rw [registered, if_neg other]
          exact found
        · exact .inr (.inr built)
        · rw [applying] at waits
          cases waits
      · refine .inr (.inl ⟨runtime.name, ?_⟩)
        rw [registered, if_pos rfl, numbered]
    rcases shown with drained | found | built
    · exact .inl (finished.symm ▸ drained)
    · exact .inr (.inl found)
    · exact .inr (.inr (.inl (tenantState.symm ▸ built)))
  · intro tenant id found
    change id < spawned.nextRuntime
    rw [grown]
    rcases older found with ⟨_, rfl⟩ | ⟨_, bound⟩
    · exact Nat.lt_succ_self _
    · exact Nat.lt_succ_of_lt bound
  · intro id built
    change id < spawned.nextRuntime
    rw [grown]
    exact Nat.lt_succ_of_lt (traced.built id (tenantState ▸ built))
  · intro left right id foundLeft foundRight
    rcases older foundLeft with ⟨rfl, rfl⟩ | ⟨left', bound⟩
    · rcases older foundRight with ⟨rfl, _⟩ | ⟨_, below⟩
      · rfl
      · exact absurd below (Nat.lt_irrefl _)
    · rcases older foundRight with ⟨_, rfl⟩ | ⟨right', _⟩
      · exact absurd bound (Nat.lt_irrefl _)
      · exact traced.apart left right id left' right'
  · intro tenant id found unbuilt
    have unbuilt : id ∉ before.tenantState := fun built => unbuilt (tenantState.symm ▸ built)
    change id ∉ spawned.closing
    rw [closing]
    rcases older found with ⟨_, rfl⟩ | ⟨found, _⟩
    · exact fun closed => absurd (traced.closed _ closed) (Nat.lt_irrefl _)
    · exact traced.held tenant id found unbuilt
  · intro id closed
    change id < spawned.nextRuntime
    rw [grown]
    exact Nat.lt_succ_of_lt (traced.closed id (closing ▸ closed))
  · left
    change spawned.main = _
    rw [main]
    exact traced.ended.resolve_right (by simp [applying])
  · change spawned.main.Progress spawned.tenantState spawned.finished
    rw [main, tenantState, finished]
    exact traced.progress

/-- The main task goes on with its drain. -/
theorem drainNext (traced : before.Traced) (signal : before.signal = .returned)
    {channels : List RuntimeId} (inside : ∀ id ∈ channels, id ∈ before.tenantState)
    (rest : ∀ id ∈ before.tenantState, id ∈ channels ∨ id ∈ before.finished) :
    (before.drainNext channels).Traced := by
  rcases before.drainNext_cases channels with ⟨none, next⟩ | ⟨channel, others, some, next⟩
  · subst none
    rw [next]
    refine ⟨traced.known, traced.numbered, traced.built, traced.apart, traced.held, traced.closed,
      .inr signal, ?_⟩
    intro id built
    exact (rest id built).resolve_left (by simp)
  · subst some
    rw [next]
    refine ⟨traced.known, traced.numbered, traced.built, traced.apart, ?_, ?_, .inr signal,
      ⟨inside, rest⟩⟩
    · intro name id found unbuilt
      rw [List.mem_insert_iff, not_or]
      refine ⟨?_, traced.held name id found unbuilt⟩
      rintro rfl
      exact unbuilt (inside id List.mem_cons_self)
    · intro id closed
      rcases List.mem_insert_iff.mp closed with rfl | earlier
      · exact traced.built id (inside id List.mem_cons_self)
      · exact traced.closed id earlier

/-- The step lemma. -/
theorem moved {label : DaemonLabel} (traced : before.Traced) (sound : before.Sound)
    (moved : Daemon.Moved before label after) : after.Traced := by
  -- A step of a signal task that neither waits nor has returned.
  have signals : ∀ {state : SignalTask}, before.signal = state →
      (∀ removal name id cfg removed, state ≠ .draining removal name id cfg removed) →
      state ≠ .returned →
      (∀ removal name id cfg removed, before.signal = .draining removal name id cfg removed →
        after.signal = before.signal) ∧
        (before.signal = .returned → after.signal = .returned) := by
    rintro _ rfl free running
    exact ⟨fun _ _ _ _ _ waits => absurd waits (free _ _ _ _ _),
      fun returned => absurd returned running⟩
  cases moved with
  | rejected idle =>
      exact traced.frame rfl rfl rfl rfl rfl rfl (fun _ _ _ _ _ _ => rfl) fun returned => returned
  | @cycle cfg added removed idle valid adds removes =>
      obtain ⟨quiet, ended⟩ := signals idle (by simp) (by simp)
      refine traced.frame ?_ rfl rfl rfl rfl rfl quiet ended
      obtain ⟨admissions, metrics, same⟩ :=
        (before.shared.countCycle.applyLimits_hotOnly cfg.config).exists_eq
      rw [Daemon.proceed_shared, same]
      rfl
  | unbuilt applying declared failed =>
      obtain ⟨quiet, ended⟩ := signals applying (by simp) (by simp)
      exact traced.frame rfl rfl rfl rfl rfl rfl quiet ended
  | @added _ _ cfg name _ _ t runtime _ _ applying declared built outcome spawn =>
      have spec := buildTenantRuntime_spec built
      refine traced.added sound applying (by rw [spec]) ?_ spawn
      rw [spec]
      change t.name ∉ _
      rw [Daemon.declared_name declared]
      exact sound.adding.2 name (by simp [applying, SignalTask.added])
  | removed applying removal => exact traced.removing sound applying removal
  | @resumedSingle _ name channel cfg removed draining drained =>
      refine ⟨?_, traced.numbered, traced.built, traced.apart, traced.held, traced.closed, ?_,
        traced.progress⟩
      · intro id old
        rcases traced.known id old with finished | registered | built | ⟨_, _, _, _, waits⟩
        · exact .inl finished
        · exact .inr (.inl registered)
        · exact .inr (.inr (.inl built))
        · rw [draining] at waits
          cases waits
          exact .inl drained
      · exact .inl (traced.ended.resolve_right (by simp [draining]))
  | resumedSni draining drained => exact absurd drained (sound.sni_waits draining)
  | @reloaded disk key idle =>
      rcases before.reloadTrigger_cases disk key with same | ⟨_, _, same⟩
      · rw [same]
        exact traced
      · rw [same]
        exact traced.frame rfl rfl rfl rfl rfl rfl (fun _ _ _ _ _ _ => rfl) fun returned => returned
  | terminated idle =>
      refine ⟨?_, traced.numbered, traced.built, traced.apart, traced.held,
        traced.closed, .inr rfl, trivial⟩
      intro id old
      rcases traced.known id old with finished | registered | built | ⟨_, _, _, _, waits⟩
      · exact .inl finished
      · exact .inr (.inl registered)
      · exact .inr (.inr (.inl built))
      · rw [idle] at waits
        cases waits
  | joined joining returned =>
      have signal : before.signal = .returned := traced.ended.resolve_left (by simp [joining])
      have cleared : Daemon.Traced { before with shared := { before.shared with
          sniGroupTasks := .empty, tenantTasks := .empty, monitorHandles := .empty } } :=
        traced.frame rfl rfl rfl rfl rfl rfl (fun _ _ _ _ _ _ => rfl) fun returned => returned
      exact cleared.drainNext signal (fun _ built => built) fun _ built => .inl built
  | @mainDrained channel rest draining drained =>
      have signal : before.signal = .returned := traced.ended.resolve_left (by simp [draining])
      have progress := traced.progress
      rw [draining] at progress
      refine traced.drainNext signal
        (fun id later => progress.1 id (List.mem_cons_of_mem _ later)) ?_
      intro id built
      rcases progress.2 id built with waiting | finished
      · rcases List.mem_cons.mp waiting with rfl | later
        · exact .inr drained
        · exact .inl later
      · exact .inr finished
  | background moved =>
      have grown : ∀ id ∈ before.finished, id ∈ after.finished := by
        intro id drained
        rcases moved.finished with same | ⟨_, _, _, _, _, more⟩
        · rw [same]
          exact drained
        · rw [more]
          exact List.mem_cons_of_mem _ drained
      constructor
      · intro id old
        rw [moved.nextRuntime] at old
        rw [moved.shared, moved.tenantState, moved.signal]
        rcases traced.known id old with finished | others
        · exact .inl (grown id finished)
        · exact .inr others
      · rw [moved.shared, moved.nextRuntime]
        exact traced.numbered
      · rw [moved.tenantState, moved.nextRuntime]
        exact traced.built
      · rw [moved.shared]
        exact traced.apart
      · rw [moved.shared, moved.tenantState, moved.closing]
        exact traced.held
      · rw [moved.closing, moved.nextRuntime]
        exact traced.closed
      · rw [moved.main, moved.signal]
        exact traced.ended
      · rw [moved.main, moved.tenantState]
        exact progress_mono traced.progress grown

end Daemon.Traced

/-- The channels right after startup. -/
theorem startDaemon_traced {files : TenantFiles} {disk : Disk}
    {cfg : DaemonConfig} {daemon : Daemon}
    (started : startDaemon files disk cfg = .ok daemon) : daemon.Traced := by
  obtain ⟨valid, runtimes, done, built, launching, _⟩ := startDaemon_launching started
  obtain ⟨keyed, _, _, configs, audits⟩ := registered_spec valid built
  obtain ⟨names, ids⟩ := buildRuntimes_spec built
  obtain ⟨signal, main, _, closing, finished, nextRuntime, tenantState, _, _, sameAudits⟩ :=
    launching.same
  have count : runtimes.length = cfg.config.tenants.length := by
    simpa using congrArg List.length names
  have range : runtimes.map TenantRuntime.id = List.range' 0 runtimes.length := by
    rw [ids, count]
  have below : ∀ runtime ∈ runtimes, runtime.id < runtimes.length := by
    intro runtime member
    have listed : runtime.id ∈ runtimes.map TenantRuntime.id :=
      List.mem_map.mpr ⟨runtime, member, rfl⟩
    rw [range, List.mem_range'_1] at listed
    simpa using listed.2
  -- Every registered channel is that of the runtime with its name.
  have registered : ∀ {name id}, daemon.shared.tenantAudits.get? name = some id →
      ∃ runtime ∈ runtimes, runtime.name = name ∧ runtime.id = id := by
    intro name id found
    rw [sameAudits] at found
    have known : name ∈ (registered cfg runtimes).shared.tenantConfigs.map TenantConfig.name := by
      rw [keyed.configs, ← keyed.audits]
      exact .inl (KeyedMap.mem_keys_iff.mpr ⟨id, found⟩)
    rw [configs, ← names] at known
    obtain ⟨runtime, member, rfl⟩ := List.mem_map.mp known
    refine ⟨runtime, member, rfl, ?_⟩
    rw [audits runtime member] at found
    exact Option.some.inj found
  constructor
  · intro id old
    rw [nextRuntime] at old
    right; right; left
    rw [tenantState]
    change id ∈ runtimes.map TenantRuntime.id
    rw [range, List.mem_range'_1]
    have bound : id < runtimes.length := old
    exact ⟨Nat.zero_le _, by simpa using bound⟩
  · intro name id found
    obtain ⟨runtime, member, _, rfl⟩ := registered found
    rw [nextRuntime]
    exact below runtime member
  · intro id member
    rw [tenantState] at member
    obtain ⟨runtime, listed, rfl⟩ := List.mem_map.mp member
    rw [nextRuntime]
    exact below runtime listed
  · intro left right id foundLeft foundRight
    obtain ⟨first, firstMember, rfl, rfl⟩ := registered foundLeft
    obtain ⟨second, secondMember, rfl, same⟩ := registered foundRight
    have distinct : (runtimes.map TenantRuntime.id).Nodup := by
      rw [range]
      exact List.nodup_range'
    rw [List.inj_on_of_nodup_map distinct firstMember secondMember same.symm]
  · intro name id _ _
    rw [closing]
    exact List.not_mem_nil
  · rw [closing]
    exact fun _ closed => absurd closed List.not_mem_nil
  · left
    rw [main]
    rfl
  · rw [main]
    trivial

/-- The run lemma: every channel is accounted for in every state of every run. -/
theorem Daemon.Traced.of_reachable {admits : Daemon → DaemonLabel → Prop} {daemon : Daemon}
    (reachable : daemonMachine.Reachable admits daemon) : daemon.Traced := by
  have invariant :=
    reachable.invariant (fun daemon : Daemon => daemon.Sound ∧ daemon.Traced) ?_ ?_
  · exact invariant.2
  · rintro start ⟨files, disk, cfg, started⟩
    exact ⟨startDaemon_sound started, startDaemon_traced started⟩
  · rintro before label after ⟨sound, traced⟩ _ stepped
    have moved := (Daemon.step_moved stepped).2
    exact ⟨sound.moved moved, traced.moved sound moved⟩

/-- The audit channels behind the runtimes of a daemon: each is a run on a saved log
in which appends and saves succeed, and its writer has returned exactly if the daemon has
it as drained. -/
structure Channels (crates : Crates) (codec : LogCodec) (config : RuntimeId → WriterConfig)
    (channels : RuntimeId → Writer) (daemon : Daemon) : Prop where
  runs : ∀ id < daemon.nextRuntime, ∃ log files moves,
    files (config id).path = some (log.saveTo codec) ∧
      (writerMachine crates codec (config id)).Runs (Succeeds crates codec (config id))
        (.spawn log files) moves (channels id)
  returned : ∀ id < daemon.nextRuntime, (channels id).phase = .finished ↔ id ∈ daemon.finished

/-- Every channel that was ever spawned has its writer returned and what it accepted
on disk. -/
def AllDrained (codec : LogCodec) (config : RuntimeId → WriterConfig)
    (channels : RuntimeId → Writer) (daemon : Daemon) : Prop :=
  ∀ id < daemon.nextRuntime, (channels id).phase = .finished ∧
    (channels id).Persisted codec (config id)

/-- After SIGTERM the registered channels stay what they are. -/
theorem terminated_keeps {before terminated after : Daemon} {labels : List DaemonLabel}
    (reachable : daemonMachine.Reachable daemonMachine.Free before)
    (sigterm : daemonMachine.step before .sigterm = some terminated)
    (run : daemonMachine.Runs daemonMachine.Free terminated labels after) :
    daemonMachine.Reachable daemonMachine.Free after ∧ after.signal = .returned ∧
      after.shared.tenantAudits = before.shared.tenantAudits ∧
      after.tenantState = before.tenantState := by
  obtain ⟨start, earlier, initial, prior⟩ := reachable
  have toTerminated := prior.snoc trivial sigterm
  have whole := toTerminated.trans run
  refine ⟨⟨start, _, initial, whole⟩, ?_⟩
  have invariant :=
    run.invariant (fun daemon : Daemon => daemon.Sound ∧ daemon.signal = .returned ∧
    daemon.shared.tenantAudits = before.shared.tenantAudits ∧
    daemon.tenantState = before.tenantState) ?_ ?_
  · exact invariant.2
  · refine ⟨.of_reachable ⟨start, _, initial, toTerminated⟩, ?_⟩
    have alive := (Daemon.step_moved sigterm).1
    simp only [daemonMachine, Daemon.step, if_neg alive, Daemon.move] at sigterm
    obtain ⟨_, ⟨⟩⟩ := Option.ite_none_right_eq_some.mp sigterm
    exact ⟨rfl, rfl, rfl⟩
  · rintro state label next ⟨sound, signal, audits, tenantState⟩ _ stepped
    have moved := (Daemon.step_moved stepped).2
    refine ⟨sound.moved moved, ?_⟩
    cases moved with
    | rejected idle => simp [signal] at idle
    | cycle idle => simp [signal] at idle
    | unbuilt applying => simp [signal] at applying
    | added applying => simp [signal] at applying
    | removed applying => simp [signal] at applying
    | resumedSingle draining => simp [signal] at draining
    | resumedSni draining => simp [signal] at draining
    | reloaded idle => simp [signal] at idle
    | terminated idle => simp [signal] at idle
    | joined =>
        simp only [Daemon.joinAll]
        rcases Daemon.drainNext_cases _ state.tenantState with
          ⟨_, same⟩ | ⟨_, _, _, same⟩ <;>
          rw [same] <;> exact ⟨signal, audits, tenantState⟩
    | @mainDrained _ rest =>
        rcases state.drainNext_cases rest with ⟨_, same⟩ | ⟨_, _, _, same⟩ <;>
          rw [same] <;> exact ⟨signal, audits, tenantState⟩
    | background moved =>
        exact ⟨moved.signal.trans signal, by rw [moved.shared, audits],
          moved.tenantState.trans tenantState⟩

/-- In every run that ends with `cmd_run` returning after SIGTERM, every channel has
been drained exactly if startup built every runtime that was registered at the
signal. -/
theorem shutdown_drains_iff {crates : Crates} {codec : LogCodec}
    {config : RuntimeId → WriterConfig}
    {channels : RuntimeId → Writer} {before terminated after : Daemon} {labels : List DaemonLabel}
    (reachable : daemonMachine.Reachable daemonMachine.Free before)
    (sigterm : daemonMachine.step before .sigterm = some terminated)
    (run : daemonMachine.Runs daemonMachine.Free terminated labels after)
    (returned : after.main = .returned) (behind : Channels crates codec config channels after) :
    AllDrained codec config channels after ↔
      ∀ name id, before.shared.tenantAudits.get? name = some id →
        id ∈ before.tenantState := by
  obtain ⟨reached, signal, audits, tenantState⟩ := terminated_keeps reachable sigterm run
  have sound := Daemon.Sound.of_reachable reached
  have traced := Daemon.Traced.of_reachable reached
  constructor
  · intro drained name id registered
    rw [← audits] at registered
    rw [← tenantState]
    by_contra unbuilt
    -- The channel keeps its own handle, so its writer cannot have returned.
    have bound := traced.numbered name id registered
    have finished := (behind.returned id bound).mp (drained id bound).1
    have free := sound.unheld id finished
    have own := Daemon.holdsHandle_iff.mpr (.inl (traced.held name id registered unbuilt))
    rw [free] at own
    cases own
  · intro covered id bound
    have progress := traced.progress
    rw [returned] at progress
    have finished : id ∈ after.finished := by
      rcases traced.known id bound with drained | ⟨name, registered⟩ | built |
        ⟨_, _, _, _, waits⟩
      · exact drained
      · rw [audits] at registered
        exact progress id (tenantState.symm ▸ covered name id registered)
      · exact progress id built
      · rw [signal] at waits
        cases waits
    have phase := (behind.returned id bound).mpr finished
    obtain ⟨log, files, moves, opened, writes⟩ := behind.runs id bound
    exact ⟨phase, Writer.persisted_of_finished opened writes phase⟩

/-- A daemon whose drained runtimes have the same returned channel behind them, and
whose other runtimes a channel that was just spawned. -/
theorem channels_of_drained {moves : List WriterMove} {drained : Writer}
    (run : (writerMachine plainCrates cborCodec (plainConfig 1)).Runs
      (Succeeds plainCrates cborCodec (plainConfig 1)) (.spawn plainLog plainDisk) moves drained)
    (finished : drained.phase = .finished) (daemon : Daemon) :
    Channels plainCrates cborCodec (fun _ => plainConfig 1)
      (fun id => if id ∈ daemon.finished then drained else .spawn plainLog plainDisk) daemon where
  runs := by
    intro id _
    by_cases member : id ∈ daemon.finished
    · refine ⟨plainLog, plainDisk, moves, by simp [plainDisk, Disk.put], ?_⟩
      rwa [if_pos member]
    · refine ⟨plainLog, plainDisk, [], by simp [plainDisk, Disk.put], ?_⟩
      rw [if_neg member]
      exact .nil
  returned := by
    intro id _
    by_cases member : id ∈ daemon.finished
    · simp [member, finished]
    · simp [member, Writer.spawn]

/-- A tenant of the startup configuration is drained, with the event that it accepted and
rotated away. -/
theorem shutdown_drains_startup : ∃ (before terminated after : Daemon)
    (channels : RuntimeId → Writer), daemonMachine.step before .sigterm = some terminated ∧
    after.main = .returned ∧
      after.nextRuntime = 1 ∧ (channels 0).ledger.accepted = [loginEvent] ∧
      (channels 0).ledger.sealed.length = 1 ∧
      AllDrained cborCodec (fun _ => plainConfig 1) channels after := by
  obtain ⟨_, drained, writes, finished, accepted, archived⟩ := plainDrain_runs
  have evaluated : (daemonAfter alphaFile [.bind 0 true]).any (fun before =>
      before.shared.tenantAudits.entries = [("alpha", 0)] ∧ before.tenantState = [0] ∧
      (daemonMachine.step before .sigterm).any (fun terminated =>
        (daemonMachine.exec terminated [.exit 0, .joined, .writerReturns 0, .mainDrained]).any
          (fun after => after.main = .returned ∧ after.nextRuntime = 1 ∧
            after.finished = [0]))) =
      true := by decide +kernel
  obtain ⟨before, reached, facts⟩ := (Option.any_eq_true _ _).mp evaluated
  obtain ⟨registered, built, moves⟩ := of_decide_eq_true facts
  obtain ⟨terminated, sigterm, ends⟩ := (Option.any_eq_true _ _).mp moves
  obtain ⟨after, run, facts⟩ := (Option.any_eq_true _ _).mp ends
  obtain ⟨returned, count, writers⟩ := of_decide_eq_true facts
  refine ⟨before, terminated, after,
    fun id => if id ∈ after.finished then drained else .spawn plainLog plainDisk,
    sigterm, returned, count, ?_, ?_, ?_⟩
  · simpa [writers] using accepted
  · simpa [writers] using archived
  · refine (shutdown_drains_iff (reachable_daemonAfter reached) sigterm (.of_exec run) returned
      (channels_of_drained writes finished after)).mpr ?_
    intro name id found
    rw [KeyedMap.get?_eq_some_iff, registered, List.mem_singleton] at found
    cases found
    simp [built]

/-- A tenant that SIGHUP added is not drained when `cmd_run` returns. -/
theorem shutdown_misses_added :
    ¬ ∀ (crates : Crates) (codec : LogCodec) (config : RuntimeId → WriterConfig)
      (channels : RuntimeId → Writer) (before terminated after : Daemon)
      (labels : List DaemonLabel), daemonMachine.Reachable daemonMachine.Free before →
      daemonMachine.step before .sigterm = some terminated →
      daemonMachine.Runs daemonMachine.Free terminated labels after → after.main = .returned →
      Channels crates codec config channels after → AllDrained codec config channels after := by
  intro drains
  obtain ⟨_, drained, writes, finished, _⟩ := plainDrain_runs
  have evaluated : (daemonAfter alphaFile [.bind 0 true, .sighup (some alphaBetaFile) ["beta"] [],
      .add readableFiles loadingDisk, .bind 1 true]).any (fun before =>
      (daemonMachine.step before .sigterm).any (fun terminated =>
        (daemonMachine.exec terminated
          [.exit 0, .exit 1, .joined, .writerReturns 0, .mainDrained]).any
          (fun after => after.main = .returned ∧ after.nextRuntime = 2 ∧
            after.finished = [0]))) =
      true := by decide +kernel
  obtain ⟨before, reached, moves⟩ := (Option.any_eq_true _ _).mp evaluated
  obtain ⟨terminated, sigterm, ends⟩ := (Option.any_eq_true _ _).mp moves
  obtain ⟨after, run, facts⟩ := (Option.any_eq_true _ _).mp ends
  obtain ⟨returned, count, writers⟩ := of_decide_eq_true facts
  have all :=
    drains plainCrates cborCodec _ _ before terminated after _ (reachable_daemonAfter reached)
    sigterm (.of_exec run) returned
    (channels_of_drained writes finished after)
  have lost := (all 1 (by rw [count]; decide)).1
  simp [writers, Writer.spawn] at lost

end CofreSoberano.Gateway
