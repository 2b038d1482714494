import CofreSoberano.Gateway.Addition

/-!
# Hot-applied limits over whole reloads

A SIGHUP cycle compares the limits of the new file with the stored snapshot of the
tenant's configuration and replaces the admission settings when they differ. The
snapshot is written when the tenant is registered and never again, so what a cycle
does depends on the file that registered the tenant, not on the settings in force.
-/

namespace CofreSoberano.Gateway

open CofreSoberano.Std

/-- The label is a SIGHUP. -/
def DaemonLabel.isSighup : DaemonLabel → Bool
  | .sighup _ _ _ => true
  | _ => false

/-- One SIGHUP cycle of an accepted file: the steps from the signal to a state in
which the signal task waits for the next one. What the other tasks do meanwhile is
part of it. -/
structure Cycle (cfg : DaemonConfig) (before after : Daemon) : Prop where
  accepted : cfg.config.validate = .ok ()
  steps : ∃ added removed begun labels,
    daemonMachine.step before (.sighup (some cfg) added removed) = some begun ∧
      daemonMachine.Runs (fun _ label => label.isSighup = false) begun labels after
  ended : after.signal = .idle

/-- The admission controller of a tenant after a cycle: it has the settings of the
new file, and it was replaced exactly if these were not in force. -/
def LimitsConverged (t : TenantConfig) (before after : Daemon) : Prop :=
  ∃ old new, before.shared.tenantAdmissions.get? t.name = some old ∧
    after.shared.tenantAdmissions.get? t.name = some new ∧
    new.inner = .ofLimits t.limits ∧
    (new.swaps ≠ old.swaps ↔ .ofLimits t.limits ≠ old.inner)

/-- The stored snapshot of the tenant has the limits of the new file exactly if its
controller has them. -/
def SnapshotAgrees (shared : Shared) (t : TenantConfig) : Prop :=
  ∀ known ∈ shared.tenantConfigs, known.name = t.name →
    ∀ controller, shared.tenantAdmissions.get? t.name = some controller →
      (known.limits = t.limits ↔ controller.inner = .ofLimits t.limits)

/-- The controller that a cycle leaves, by the snapshot. -/
def HotAdmissionController.reapplied (controller : HotAdmissionController)
    (known t : TenantConfig) : HotAdmissionController :=
  if known.limits = t.limits then controller else controller.swap (.ofLimits t.limits)

namespace Shared

@[simp] theorem countCold_admissions (shared : Shared) (fields : List String) :
    (shared.countCold fields).tenantAdmissions = shared.tenantAdmissions := by
  simp only [countCold]
  split <;> rfl

/-- One iteration of the scan does not touch the controllers of other tenants. -/
theorem applyChanges_other (shared : Shared) {t : TenantConfig} {name : String}
    (other : name ≠ t.name) :
    (shared.applyChanges t).tenantAdmissions.get? name = shared.tenantAdmissions.get? name := by
  simp only [applyChanges]
  split
  · rfl
  · simp only [countCold_admissions, applyHot]
    split
    · rfl
    · split
      · simp [KeyedMap.get?_insert, other]
      · rfl

/-- One iteration of the scan for the tenant itself. -/
theorem applyChanges_own {shared : Shared} {known t : TenantConfig}
    {controller : HotAdmissionController}
    (snapshot : shared.tenantConfigs.find? (fun known => known.name = t.name) = some known)
    (found : shared.tenantAdmissions.get? t.name = some controller) :
    (shared.applyChanges t).tenantAdmissions.get? t.name = some (controller.reapplied known t) := by
  simp only [applyChanges, snapshot, countCold_admissions, applyHot,
    TenantConfig.hot_materialChanges, HotAdmissionController.reapplied]
  by_cases same : known.limits = t.limits
  · simp [same, found]
  · simp [same, found]

/-- The scan reads the snapshot and does not write it. -/
theorem applyChanges_configs (shared : Shared) (t : TenantConfig) :
    (shared.applyChanges t).tenantConfigs = shared.tenantConfigs := by
  obtain ⟨admissions, metrics, same⟩ := (shared.applyChanges_hotOnly t).exists_eq
  rw [same]

/-- The scan of a list of distinct tenants reaches a tenant once, if at all. -/
theorem foldl_applyChanges_get? (tenants : List TenantConfig) {shared : Shared}
    {known t : TenantConfig} {controller : HotAdmissionController}
    (distinct : (tenants.map TenantConfig.name).Nodup)
    (snapshot : shared.tenantConfigs.find? (fun known => known.name = t.name) = some known)
    (found : shared.tenantAdmissions.get? t.name = some controller) :
    (t ∈ tenants → (tenants.foldl applyChanges shared).tenantAdmissions.get? t.name =
        some (controller.reapplied known t)) ∧
      (t.name ∉ tenants.map TenantConfig.name →
        (tenants.foldl applyChanges shared).tenantAdmissions.get? t.name = some controller) := by
  induction tenants generalizing shared controller with
  | nil => exact ⟨by simp, fun _ => found⟩
  | cons first rest inductionHypothesis =>
      rw [List.map_cons, List.nodup_cons] at distinct
      have kept : (shared.applyChanges first).tenantConfigs.find?
          (fun known => known.name = t.name) = some known := by
        rw [applyChanges_configs]
        exact snapshot
      simp only [List.foldl_cons, List.mem_cons, List.map_cons, not_or]
      constructor
      · rintro (rfl | member)
        · exact (inductionHypothesis distinct.2 kept (applyChanges_own snapshot found)).2
            distinct.1
        · have other : t.name ≠ first.name := by
            intro same
            exact distinct.1 (same ▸ List.mem_map.mpr ⟨t, member, rfl⟩)
          have same := (shared.applyChanges_other other).trans found
          exact (inductionHypothesis distinct.2 kept same).1 member
      · rintro ⟨other, absent⟩
        have same := (shared.applyChanges_other other).trans found
        exact (inductionHypothesis distinct.2 kept same).2 absent

/-- The controller of a tenant that stays, after the scan. -/
theorem applyLimits_get? {shared : Shared} {cfg : Config} {known t : TenantConfig}
    {controller : HotAdmissionController} (valid : cfg.validate = .ok ())
    (declared : t ∈ cfg.tenants) (registered : t.name ∈ shared.tenantNames)
    (snapshot : shared.tenantConfigs.find? (fun known => known.name = t.name) = some known)
    (found : shared.tenantAdmissions.get? t.name = some controller) :
    (shared.applyLimits cfg).tenantAdmissions.get? t.name =
    some (controller.reapplied known t) := by
  refine (foldl_applyChanges_get? _ ?_ snapshot found).1 ?_
  · exact (Config.validate_names_nodup valid).sublist (List.filter_sublist.map _)
  · exact List.mem_filter.mpr ⟨declared, by simpa using registered⟩

end Shared

/-- A tenant that the cycle under way neither adds nor removes. -/
structure Stays (name : String) (controller : HotAdmissionController) (daemon : Daemon) : Prop where
  notAdded : name ∉ daemon.signal.added
  notRemoved : name ∉ daemon.signal.removed
  admission : daemon.shared.tenantAdmissions.get? name = some controller

namespace Stays

variable {name : String} {controller : HotAdmissionController} {before after : Daemon}

/-- A state in which the signal task goes on. -/
theorem proceed {daemon : Daemon} {cfg : DaemonConfig} {added removed : List String}
    (notAdded : name ∉ added) (notRemoved : name ∉ removed)
    (admission : daemon.shared.tenantAdmissions.get? name = some controller) :
    Stays name controller (daemon.proceed cfg added removed) where
  notAdded := by rwa [Daemon.proceed_added]
  notRemoved := by rwa [Daemon.proceed_removed]
  admission := admission

/-- A removal of another tenant. -/
theorem removing {disk : Disk} {inTime : Bool} {leaving : String} {cfg : DaemonConfig}
    {removed : List String} (stays : Stays name controller before) (sound : before.Sound)
    (applying : before.signal = .applying cfg [] (leaving :: removed))
    (removal : Daemon.Removing disk inTime leaving cfg removed before after) :
    Stays name controller after := by
  have pending := stays.notRemoved
  simp only [applying, SignalTask.removed, List.mem_cons, not_or] at pending
  have kept : (before.shared.tenantAdmissions.erase leaving).get? name = some controller := by
    rw [KeyedMap.get?_erase, if_neg pending.1]
    exact stays.admission
  cases removal with
  | skipped => exact .proceed (by simp) pending.2 stays.admission
  | unhandled own found => exact .proceed (by simp) pending.2 stays.admission
  | timedOut own found handle late => exact .proceed (by simp) pending.2 stays.admission
  | untriggered member missing => exact .proceed (by simp) pending.2 stays.admission
  | rolledBack member found refused => exact .proceed (by simp) pending.2 stays.admission
  | single own found handle early audit =>
      exact ⟨by simp [Daemon.await, SignalTask.added], pending.2, kept⟩
  | sni member left found mutated audit =>
      exact ⟨by simp [Daemon.await, SignalTask.added], pending.2, kept⟩
  | unaudited audit => exact absurd audit (sound.audited applying).2

/-- The step lemma: only another SIGHUP could change the settings of a tenant that
stays. -/
theorem moved {label : DaemonLabel} (stays : Stays name controller before) (sound : before.Sound)
    (quiet : label.isSighup = false) (moved : Daemon.Moved before label after) :
    Stays name controller after := by
  cases moved with
  | rejected => cases quiet
  | cycle => cases quiet
  | unbuilt applying declared failed =>
      have notAdded := stays.notAdded
      have notRemoved := stays.notRemoved
      simp only [applying, SignalTask.added, SignalTask.removed, List.mem_cons, not_or]
        at notAdded notRemoved
      exact .proceed notAdded.2 notRemoved stays.admission
  | @added _ _ cfg new _ _ t runtime spawned _ applying declared built outcome spawn =>
      have notAdded := stays.notAdded
      have notRemoved := stays.notRemoved
      simp only [applying, SignalTask.added, SignalTask.removed, List.mem_cons, not_or]
        at notAdded notRemoved
      have other : name ≠ runtime.name := by
        rw [buildTenantRuntime_spec built]
        exact fun same => notAdded.1 (same.trans (Daemon.declared_name declared))
      refine .proceed notAdded.2 notRemoved ?_
      have admissions : spawned.shared.tenantAdmissions =
          (before.enroll cfg t runtime).shared.tenantAdmissions := by
        cases spawn <;> rfl
      change spawned.shared.tenantAdmissions.get? name = _
      simpa [admissions, Daemon.enroll, Shared.register, KeyedMap.get?_insert, other]
        using stays.admission
  | removed applying removal => exact stays.removing sound applying removal
  | resumedSingle draining drained =>
      have notRemoved := stays.notRemoved
      simp only [draining, SignalTask.removed] at notRemoved
      exact .proceed (by simp) notRemoved stays.admission
  | resumedSni draining drained => exact absurd drained (sound.sni_waits draining)
  | @reloaded disk key idle =>
      rcases before.reloadTrigger_cases disk key with same | ⟨_, _, same⟩
      · rw [same]
        exact stays
      · rw [same]
        exact ⟨stays.notAdded, stays.notRemoved, stays.admission⟩
  | terminated => exact ⟨by simp [Daemon.terminate, SignalTask.added],
      by simp [Daemon.terminate, SignalTask.removed], stays.admission⟩
  | joined =>
      simp only [Daemon.joinAll]
      rcases Daemon.drainNext_cases _ before.tenantState with
        ⟨_, next⟩ | ⟨_, _, _, next⟩ <;>
        rw [next] <;> exact ⟨stays.notAdded, stays.notRemoved, stays.admission⟩
  | @mainDrained _ rest =>
      rcases before.drainNext_cases rest with ⟨_, next⟩ | ⟨_, _, _, next⟩ <;>
        rw [next] <;> exact ⟨stays.notAdded, stays.notRemoved, stays.admission⟩
  | background moved =>
      refine ⟨?_, ?_, ?_⟩
      · rw [moved.signal]
        exact stays.notAdded
      · rw [moved.signal]
        exact stays.notRemoved
      · rw [moved.shared]
        exact stays.admission

end Stays

/-- Whether a replaced controller meets the new file depends on the settings in
force and the snapshot alone. -/
theorem HotAdmissionController.reapplied_iff (controller : HotAdmissionController)
    (known t : TenantConfig) :
    ((controller.reapplied known t).inner = .ofLimits t.limits ∧
      ((controller.reapplied known t).swaps ≠ controller.swaps ↔
        .ofLimits t.limits ≠ controller.inner)) ↔
      (known.limits = t.limits ↔ controller.inner = .ofLimits t.limits) := by
  by_cases same : known.limits = t.limits
  · simp only [HotAdmissionController.reapplied, if_pos same]
    constructor
    · rintro ⟨converged, _⟩
      exact ⟨fun _ => converged, fun _ => same⟩
    · intro agrees
      have converged := agrees.mp same
      simp [converged]
  · simp only [HotAdmissionController.reapplied, if_neg same, HotAdmissionController.swap]
    simp [same, eq_comm]

/-- An accepted file begins a cycle. -/
theorem sighup_begins {before begun : Daemon} {cfg : DaemonConfig} {added removed : List String}
    (valid : cfg.config.validate = .ok ())
    (stepped : daemonMachine.step before (.sighup (some cfg) added removed) = some begun) :
    before.signal = .idle ∧ added.Perm (before.addedNames cfg.config) ∧
      removed.Perm (before.removedNames cfg.config) ∧
      begun = { before with
        shared := before.shared.countCycle.applyLimits cfg.config }.proceed cfg added removed := by
  have alive := (Daemon.step_moved stepped).1
  simp only [daemonMachine, Daemon.step, if_neg alive, Daemon.move] at stepped
  split at stepped
  · rename_i idle
    simp only [Daemon.beginCycle, Option.filter_some, valid, decide_true, if_true] at stepped
    split at stepped
    · rename_i orders
      cases stepped
      exact ⟨idle, orders.1, orders.2, rfl⟩
    · cases stepped
  · cases stepped

/-- What a cycle does to the controller of a tenant that stays. -/
theorem Cycle.admission {cfg : DaemonConfig} {before after : Daemon}
    (cycle : Cycle cfg before after)
    (sound : before.Sound) {known t : TenantConfig} {controller : HotAdmissionController}
    (declared : t ∈ cfg.config.tenants) (registered : t.name ∈ before.shared.tenantNames)
    (snapshot : before.shared.tenantConfigs.find? (fun known => known.name = t.name) = some known)
    (found : before.shared.tenantAdmissions.get? t.name = some controller) :
    after.shared.tenantAdmissions.get? t.name = some (controller.reapplied known t) := by
  obtain ⟨added, removed, begun, labels, stepped, run⟩ := cycle.steps
  have valid := cycle.accepted
  have moved := (Daemon.step_moved stepped).2
  obtain ⟨_, adds, removes, rfl⟩ := sighup_begins valid stepped
  have begins : Stays t.name (controller.reapplied known t) ({ before with
      shared := before.shared.countCycle.applyLimits cfg.config }.proceed cfg added removed) := by
    apply Stays.proceed
    · intro member
      have new := (List.mem_filter.mp (adds.mem_iff.mp member)).2
      exact absurd registered (by simpa using new)
    · intro member
      have gone := (List.mem_filter.mp (removes.mem_iff.mp member)).2
      simp only [List.mem_map, not_exists, not_and, decide_eq_true_eq] at gone
      exact gone t declared rfl
    · exact Shared.applyLimits_get? valid declared registered snapshot found
  have invariant := run.invariant
    (fun daemon : Daemon => daemon.Sound ∧ Stays t.name (controller.reapplied known t) daemon)
    ⟨sound.moved moved, begins⟩ ?_
  · exact invariant.2.admission
  · rintro state label next ⟨stateSound, stays⟩ quiet advanced
    have stateMoved := (Daemon.step_moved advanced).2
    exact ⟨stateSound.moved stateMoved, stays.moved stateSound quiet stateMoved⟩

/-- The stored snapshot and the controller of a registered tenant. -/
theorem Daemon.Sound.snapshot {daemon : Daemon} (sound : daemon.Sound)
    (idle : daemon.signal = .idle) {name : String}
    (registered : name ∈ daemon.shared.tenantNames) : ∃ known controller,
      daemon.shared.tenantConfigs.find? (fun known => known.name = name) = some known ∧
      daemon.shared.tenantAdmissions.get? name = some controller := by
  have keyed : daemon.shared.Keyed none := by simpa [idle, SignalTask.leaving] using sound.keyed
  obtain ⟨controller, found⟩ :=
    KeyedMap.mem_keys_iff.mp ((keyed.admissions name).mpr registered)
  obtain ⟨known, listed, rfl⟩ := List.mem_map.mp ((keyed.configs name).mpr (.inl registered))
  cases outcome : daemon.shared.tenantConfigs.find? (fun other => other.name = known.name) with
  | none =>
      have missing := List.find?_eq_none.mp outcome known listed
      simp at missing
  | some other => exact ⟨other, controller, rfl, found⟩

/-- The snapshot of a name is the only one. -/
theorem Daemon.Sound.snapshot_unique {daemon : Daemon} (sound : daemon.Sound)
    {name : String} {known other : TenantConfig}
    (found : daemon.shared.tenantConfigs.find? (fun known => known.name = name) = some known)
    (listed : other ∈ daemon.shared.tenantConfigs) (named : other.name = name) : other = known :=
  List.inj_on_of_nodup_map sound.keyed.configsOnce listed (List.mem_of_find?_eq_some found)
    (named.trans (Daemon.declared_name found).symm)

/-- In every run and for every cycle of it, the limits of a tenant that stays have
converged exactly if the snapshot agreed with the settings in force before. -/
theorem limits_converge_iff {before after : Daemon} {cfg : DaemonConfig} {t : TenantConfig}
    (reachable : daemonMachine.Reachable daemonMachine.Free before)
    (cycle : Cycle cfg before after) (declared : t ∈ cfg.config.tenants)
    (registered : t.name ∈ before.shared.tenantNames) :
    LimitsConverged t before after ↔ SnapshotAgrees before.shared t := by
  have sound := Daemon.Sound.of_reachable reachable
  have idle : before.signal = .idle := by
    obtain ⟨_, _, _, _, stepped, _⟩ := cycle.steps
    exact (sighup_begins cycle.accepted stepped).1
  obtain ⟨known, controller, snapshot, found⟩ := sound.snapshot idle registered
  have now := cycle.admission sound declared registered snapshot found
  have decided := controller.reapplied_iff known t
  constructor
  · rintro ⟨old, new, wasFound, isFound, converged⟩
    rw [found] at wasFound
    rw [now] at isFound
    cases wasFound
    cases isFound
    intro other listed named inForce inForceFound
    rw [found] at inForceFound
    cases inForceFound
    rw [sound.snapshot_unique snapshot listed named]
    exact decided.mp converged
  · intro agrees
    have settled := agrees known (List.mem_of_find?_eq_some snapshot)
      (Daemon.declared_name snapshot) controller found
    exact ⟨controller, _, found, now, decided.mpr settled⟩

/-- The tenant alpha with a bound on its connections, and a file of it. -/
def cappedAlpha (cap : Option UInt32) : TenantConfig :=
  { loopTenant "alpha" "0.0.0.0:9001" none with
    limits := some { maxConcurrent := cap, rateLimitPerSource := none } }

def cappedFile (cap : Option UInt32) : DaemonConfig := tcpFile [cappedAlpha cap]

/-- A SIGHUP that leaves the set of tenants as it is completes at once. -/
theorem cycle_of_same {before after : Daemon} {cfg : DaemonConfig}
    (valid : cfg.config.validate = .ok ())
    (stepped : daemonMachine.step before (.sighup (some cfg) [] []) = some after) :
    Cycle cfg before after where
  accepted := valid
  steps := ⟨[], [], after, [], stepped, .nil⟩
  ended := by
    obtain ⟨_, _, _, rfl⟩ := sighup_begins valid stepped
    rfl

/-- The first change of a limit converges. -/
theorem limits_converge_first : ∃ before after : Daemon,
    Cycle (cappedFile (some 8)) before after ∧
      (LimitsConverged (cappedAlpha (some 8)) before after ↔
        SnapshotAgrees before.shared (cappedAlpha (some 8))) ∧
      LimitsConverged (cappedAlpha (some 8)) before after := by
  have valid : (cappedFile (some 8)).config.validate = .ok () := by decide +kernel
  have evaluated : (daemonAfter (cappedFile (some 4)) []).any
      (fun before => (daemonMachine.step before (.sighup (some (cappedFile (some 8))) [] [])).any
        fun after => "alpha" ∈ before.shared.tenantNames ∧
          before.shared.tenantAdmissions.get? "alpha" =
            some ⟨⟨some 4, none⟩, 0⟩ ∧
          after.shared.tenantAdmissions.get? "alpha" =
            some ⟨⟨some 8, none⟩, 1⟩) = true := by decide +kernel
  obtain ⟨before, executed, moves⟩ := (Option.any_eq_true _ _).mp evaluated
  obtain ⟨after, stepped, facts⟩ := (Option.any_eq_true _ _).mp moves
  obtain ⟨registered, old, new⟩ := of_decide_eq_true facts
  have cycle := cycle_of_same valid stepped
  refine ⟨before, after, cycle, ?_, ⟨_, _, old, new, rfl, ?_⟩⟩
  · exact limits_converge_iff (reachable_daemonAfter executed) cycle
      (by simp [cappedFile, tcpFile, sniConfig]) registered
  · simp [AdmissionSettings.ofLimits, cappedAlpha]

/-- A limit that is changed and changed back stays at the changed value. -/
theorem limits_not_restored :
    ¬ ∀ (before after : Daemon) (cfg : DaemonConfig) (t : TenantConfig),
      daemonMachine.Reachable daemonMachine.Free before → Cycle cfg before after →
      t ∈ cfg.config.tenants → t.name ∈ before.shared.tenantNames →
      t.name ∈ after.shared.tenantNames → LimitsConverged t before after := by
  intro converges
  have valid : (cappedFile (some 4)).config.validate = .ok () := by decide +kernel
  have evaluated : (daemonAfter (cappedFile (some 4))
        [.sighup (some (cappedFile (some 8))) [] []]).any
      (fun before => (daemonMachine.step before (.sighup (some (cappedFile (some 4))) [] [])).any
        fun after => "alpha" ∈ before.shared.tenantNames ∧
        "alpha" ∈ after.shared.tenantNames ∧
          after.shared.tenantAdmissions.get? "alpha" =
            some ⟨⟨some 8, none⟩, 1⟩) = true := by decide +kernel
  obtain ⟨before, executed, moves⟩ := (Option.any_eq_true _ _).mp evaluated
  obtain ⟨after, stepped, facts⟩ := (Option.any_eq_true _ _).mp moves
  obtain ⟨registered, stays, settings⟩ := of_decide_eq_true facts
  obtain ⟨_, new, _, found, converged, _⟩ := converges before after (cappedFile (some 4))
    (cappedAlpha (some 4)) (reachable_daemonAfter executed) (cycle_of_same valid stepped)
    (by simp [cappedFile, tcpFile, sniConfig]) registered stays
  rw [show (cappedAlpha (some 4)).name = "alpha" from rfl, settings] at found
  cases found
  simp [AdmissionSettings.ofLimits, cappedAlpha] at converged

end CofreSoberano.Gateway
