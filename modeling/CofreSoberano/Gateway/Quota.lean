import CofreSoberano.Gateway.Serving

/-!
# The concurrency quota

The permits of every controller that was ever installed, against the connections that it
let in. The number of permits left and the number of connections in service add up to the
limit at every moment, whatever checks of other connections and swaps of the controller
fall between the two halves of a check; so a connection is turned away by the quota
exactly when the limit is reached.
-/

namespace CofreSoberano.Gateway

section Checks

variable {settings : AdmissionSettings} {controller next : AdmissionController} {outstanding : Nat}
  {checks : List (IpAddr × Instant)} {peer : IpAddr} {now : Instant}

/-- The rate half of a check never panics and keeps the accounts. -/
theorem Accounts.takeToken (accounts : Accounts settings controller outstanding checks)
    (later : ∀ call ∈ checks, call.2.nanos ≤ now.nanos) (peer : IpAddr) :
    ∃ next admitted, controller.takeToken peer now = some (next, admitted) ∧
      Accounts settings next outstanding (checks ++ [(peer, now)]) := by
  rw [AdmissionController.takeToken]
  cases rate : controller.rateLimit with
  | none => exact ⟨controller, true, rfl, accounts.longer⟩
  | some limiter =>
      obtain ⟨next, taken, _⟩ := RateLimiter.tryTake_level (accounts.sound rate later) peer
      have kept := accounts.take rate later taken
      simp only [taken, Option.bind_eq_bind, Option.bind_some]
      exact ⟨_, _, rfl, kept⟩

/-- A controller has a semaphore when it was built with a quota. -/
theorem Accounts.quota_isSome (accounts : Accounts settings controller outstanding checks) :
    controller.quota.isSome = settings.maxConcurrent.isSome := by
  have permits := congrArg Option.isSome accounts.permits
  simpa using permits

end Checks

end CofreSoberano.Gateway

namespace CofreSoberano.Gateway.Serving

open CofreSoberano.Std

def Stage.isEnded : Stage → Bool
  | .ended _ => true
  | _ => false

/-- No controller has let the connection in yet. -/
def Service.undecided (service : Service) : Stage → Bool
  | .starting => service.kind = .sniGroup
  | .terminating => true
  | stage => stage.checking

theorem Service.undecided_of_asks (service : Service) {stage : Stage} {id : Nat}
    (asks : stage = .rating id ∨ stage = .acquiring id) : service.undecided stage = true := by
  rcases asks with rfl | rfl <;> rfl

/-- The connections that a controller let in and that have not ended. -/
def Tenant.inService (tenant : Tenant) (id : Nat) : Nat :=
  tenant.connections.countP fun connection =>
    connection.admitted = some id && !connection.stage.isEnded

/-- The connections that hold a permit of a controller. -/
def holding (connections : List Connection) (id : Nat) : Nat :=
  connections.countP fun connection => connection.permit = some id

/-- The controller was installed with a quota. -/
def limited (controllers : List Installed) (id : Nat) : Bool :=
  controllers[id]?.any fun installed => installed.settings.maxConcurrent.isSome

/-- What the permit of a connection is at every stage. -/
structure Connection.Sound (service : Service) (controllers : List Installed)
    (connection : Connection) : Prop where
  asks : ∀ id, connection.stage = .rating id ∨ connection.stage = .acquiring id →
    id < controllers.length
  known : ∀ id ∈ connection.admitted, id < controllers.length
  undecided : service.undecided connection.stage = true → connection.admitted = none
  permit : connection.permit = if connection.stage.isEnded then none
    else connection.admitted.filter (limited controllers)

/-- The later list of controllers has the earlier ones with their limits. -/
structure Grown (earlier later : List Installed) : Prop where
  length : earlier.length ≤ later.length
  settings : ∀ (id : Nat) (installed : Installed), earlier[id]? = some installed →
    ∃ kept : Installed, later[id]? = some kept ∧ kept.settings = installed.settings

theorem Grown.refl (controllers : List Installed) : Grown controllers controllers where
  length := Nat.le_refl _
  settings := fun _ installed found => ⟨installed, found, rfl⟩

/-- A controller is put back with the limits it had. -/
theorem Grown.set {controllers : List Installed} {id : Nat} {installed next : Installed}
    (found : controllers[id]? = some installed) (same : next.settings = installed.settings) :
    Grown controllers (controllers.set id next) where
  length := by simp
  settings := by
    intro other kept present
    have inside := (List.getElem?_eq_some_iff.mp found).1
    by_cases own : id = other
    · subst own
      rw [found] at present
      cases present
      exact ⟨next, by simp [inside], same⟩
    · exact ⟨kept, by rw [List.getElem?_set_ne own, present], rfl⟩

theorem Grown.append (controllers more : List Installed) :
    Grown controllers (controllers ++ more) where
  length := by simp
  settings := by
    intro id installed found
    have inside := (List.getElem?_eq_some_iff.mp found).1
    exact ⟨installed, by rw [List.getElem?_append_left inside, found], rfl⟩

theorem Grown.limited {earlier later : List Installed} {id : Nat} (grown : Grown earlier later)
    (known : id < earlier.length) : limited later id = limited earlier id := by
  have found := List.getElem?_eq_getElem known
  obtain ⟨kept, present, same⟩ := grown.settings id _ found
  simp [Serving.limited, found, present, same]

section Connections

variable {service : Service} {controllers later : List Installed} {connection : Connection}

theorem Connection.Sound.grown (sound : connection.Sound service controllers)
    (grown : Grown controllers later) : connection.Sound service later where
  asks := fun id asked => Nat.lt_of_lt_of_le (sound.asks id asked) grown.length
  known := fun id admitted => Nat.lt_of_lt_of_le (sound.known id admitted) grown.length
  undecided := sound.undecided
  permit := by
    rw [sound.permit]
    congr 1
    cases admitted : connection.admitted with
    | none => rfl
    | some id =>
        rw [Option.filter_some, Option.filter_some, grown.limited (sound.known id admitted)]

/-- Going on without a decision about the connection. -/
theorem Connection.Sound.goTo {stage : Stage} (sound : connection.Sound service controllers)
    (running : connection.stage.isEnded = false) (runs : stage.isEnded = false)
    (asks : ∀ id, stage = .rating id ∨ stage = .acquiring id → id < controllers.length)
    (undecided : service.undecided stage = true → service.undecided connection.stage = true) :
    (connection.goTo stage).Sound service controllers where
  asks := asks
  known := sound.known
  undecided := fun still => sound.undecided (undecided still)
  permit := by
    have permit := sound.permit
    rw [running] at permit
    simpa [Connection.goTo, runs] using permit

/-- A decided connection goes on to a stage that takes no decision. -/
theorem Connection.Sound.onward {stage : Stage} (sound : connection.Sound service controllers)
    (running : connection.stage.isEnded = false) (runs : stage.isEnded = false)
    (decided : service.undecided stage = false) :
    (connection.goTo stage).Sound service controllers := by
  refine sound.goTo running runs ?_ (by simp [decided])
  intro id asked
  rw [service.undecided_of_asks asked] at decided
  cases decided

/-- A permit is one of a controller that was installed. -/
theorem Connection.Sound.holds {id : Nat} (sound : connection.Sound service controllers)
    (held : connection.permit = some id) : id < controllers.length ∧
    connection.admitted = some id := by
  rw [sound.permit] at held
  split at held
  · cases held
  · have admitted := (Option.filter_eq_some_iff.mp held).1
    exact ⟨sound.known id admitted, admitted⟩

/-- The clocks of a connection do not matter. -/
theorem Connection.Sound.timed (sound : connection.Sound service controllers)
    (started elapsed : Nat) :
    { connection with started, elapsed }.Sound service controllers :=
  ⟨sound.asks, sound.known, sound.undecided, sound.permit⟩

end Connections

/-- Every stage that follows admission. -/
theorem Service.after_decided (service : Service) :
    service.undecided service.afterCheck = false ∧ service.undecided service.afterDial = false ∧
      service.undecided service.afterShake = false := by
  obtain ⟨kind, tls⟩ := service
  cases kind <;> cases tls <;> decide

theorem Service.after_runs (service : Service) :
    service.afterStart.isEnded = false ∧ service.afterCheck.isEnded = false ∧
      service.afterDial.isEnded = false ∧ service.afterShake.isEnded = false := by
  obtain ⟨kind, tls⟩ := service
  cases kind <;> cases tls <;> decide

/-- A new connection was let in by nobody. -/
theorem Service.connection_sound (service : Service) (controllers : List Installed)
    (peer : IpAddr) : (service.connection peer).Sound service controllers where
  asks := by
    intro id asked
    cases kind : service.kind <;> simp [connection, arrival, kind] at asked
  known := by simp [connection]
  undecided := fun _ => rfl
  permit := by
    rw [connection]
    split <;> rfl

/-- The permits of a controller and the connections that hold them. -/
def Tenant.Permits (tenant : Tenant) (connections : List Connection) : Prop :=
  ∀ (id : Nat) (installed : Installed), tenant.controllers[id]? = some installed →
    ∃ checks : List (IpAddr × Instant), (∀ call ∈ checks, call.2.nanos ≤ tenant.clock) ∧
      Accounts installed.settings installed.controller (holding connections id) checks

/-- The invariant of a tenant. -/
structure Tenant.Sound (service : Service) (tenant : Tenant) : Prop where
  installed : 0 < tenant.controllers.length
  connections : ∀ connection ∈ tenant.connections, connection.Sound service tenant.controllers
  permits : tenant.Permits tenant.connections

/-- What the step of a connection leaves of the controllers: a permit is taken or given
back where the connection's own permit says so. -/
structure Advanced (service : Service) (tenant : Tenant) (before : Connection) (now : Instant)
    (next : Tenant) (after : Connection) : Prop where
  grown : Grown tenant.controllers next.controllers
  sound : after.Sound service next.controllers
  accounts : ∀ (id : Nat) (installed : Installed), next.controllers[id]? = some installed →
    ∃ earlier : Installed, tenant.controllers[id]? = some earlier ∧
      ∀ (held left : Nat) (checks : List (IpAddr × Instant)),
        left + (decide (before.permit = some id)).toNat =
          held + (decide (after.permit = some id)).toNat →
        (∀ call ∈ checks, call.2.nanos ≤ now.nanos) →
        Accounts earlier.settings earlier.controller held checks →
          ∃ more : List (IpAddr × Instant), (∀ call ∈ more, call.2.nanos ≤ now.nanos) ∧
            Accounts installed.settings installed.controller left more

section Advance

variable {service : Service} {tenant next : Tenant} {connection after : Connection} {now : Instant}
  {succeeds : Bool}

/-- A step that touches neither the controllers nor a permit. -/
theorem Advanced.idle (same : next.controllers = tenant.controllers)
    (permit : after.permit = connection.permit) (sound : after.Sound service tenant.controllers) :
    Advanced service tenant connection now next after where
  grown := by rw [same]; exact .refl _
  sound := by rw [same]; exact sound
  accounts := by
    intro id installed found
    rw [same] at found
    refine ⟨installed, found, ?_⟩
    intro held left checks moved ordered accounts
    rw [permit] at moved
    obtain rfl : left = held := by omega
    exact ⟨checks, ordered, accounts⟩

/-- A step that puts one controller back. -/
theorem Advanced.update {id : Nat} {installed changed : Installed}
    (found : tenant.controllers[id]? = some installed)
    (same : changed.settings = installed.settings)
    (others : ∀ other ≠ id, (connection.permit = some other ↔ after.permit = some other))
    (sound : after.Sound service (tenant.controllers.set id changed))
    (accounts : ∀ (held left : Nat) (checks : List (IpAddr × Instant)),
      left + (decide (connection.permit = some id)).toNat =
        held + (decide (after.permit = some id)).toNat →
      (∀ call ∈ checks, call.2.nanos ≤ now.nanos) →
      Accounts installed.settings installed.controller held checks →
        ∃ more : List (IpAddr × Instant), (∀ call ∈ more, call.2.nanos ≤ now.nanos) ∧
          Accounts installed.settings changed.controller left more) :
    Advanced service tenant connection now (tenant.update id changed) after where
  grown := .set found same
  sound := sound
  accounts := by
    intro other kept present
    have inside := (List.getElem?_eq_some_iff.mp found).1
    by_cases own : other = id
    · subst own
      obtain rfl : changed = kept := by simpa [Tenant.update, inside] using present
      refine ⟨installed, found, ?_⟩
      rw [same]
      exact accounts
    · have unchanged : tenant.controllers[other]? = some kept := by
        simpa [Tenant.update, List.getElem?_set_ne (Ne.symm own)] using present
      refine ⟨kept, unchanged, ?_⟩
      intro held left checks moved ordered accounts
      rw [decide_eq_decide.mpr (others other own)] at moved
      obtain rfl : left = held := by omega
      exact ⟨checks, ordered, accounts⟩

/-- The rate half of a check. -/
theorem rate_advanced {id : Nat} (sound : tenant.Sound service)
    (member : connection ∈ tenant.connections) (stage : connection.stage = .rating id)
    (ordered : tenant.clock ≤ now.nanos) :
    ∃ next after, rate tenant connection id now = some (next, after) ∧
      Advanced service tenant connection now next after := by
  have known := (sound.connections connection member).asks id (.inl stage)
  have found := List.getElem?_eq_getElem known
  generalize tenant.controllers[id] = installed at found
  obtain ⟨checks, earlier, accounts⟩ := sound.permits id installed found
  obtain ⟨controller, admitted, taken, -⟩ := accounts.takeToken
    (fun call member => Nat.le_trans (earlier call member) ordered) connection.peer
  refine ⟨_, _, by rw [rate, found, Option.bind_eq_bind, Option.bind_some, taken]; rfl, ?_⟩
  have grown : Grown tenant.controllers
      (tenant.controllers.set id { installed with controller }) := .set found rfl
  have own := (sound.connections connection member).grown grown
  refine .update found rfl (by simp [Connection.goTo]) ?_ ?_
  · refine own.goTo (by simp [stage, Stage.isEnded]) (by cases admitted <;> rfl) ?_ ?_
    · intro other asked
      cases admitted with
      | false => simp at asked
      | true =>
          obtain rfl : id = other := by simpa using asked
          simpa using known
    · simp [stage, Service.undecided, Stage.checking]
  · intro held left checks moved before accounts
    obtain ⟨_, _, again, kept⟩ := accounts.takeToken before connection.peer
    rw [taken] at again
    cases again
    obtain rfl : left = held := Nat.add_right_cancel moved
    refine ⟨_, ?_, kept⟩
    intro call member
    rcases List.mem_append.mp member with member | member
    · exact before call member
    · rw [List.mem_singleton.mp member]

/-- What a successful acquisition leaves. -/
theorem acquire_ok {controller taken : AdmissionController}
    (acquired : controller.acquire = (taken, .ok)) :
    AdmissionState.granted taken .ok = (decide (controller.quota.isSome = true)).toNat := by
  rw [AdmissionController.acquire] at acquired
  split at acquired
  · rename_i unlimited
    cases acquired
    simp [AdmissionState.granted, unlimited]
  · cases acquired
  · rename_i some
    cases acquired
    simp [AdmissionState.granted, some]

/-- The quota half of a check. -/
theorem acquire_advanced {id : Nat} (sound : tenant.Sound service)
    (member : connection ∈ tenant.connections) (stage : connection.stage = .acquiring id) :
    ∃ next after, acquire service tenant connection id = some (next, after) ∧
      Advanced service tenant connection now next after := by
  have own := sound.connections connection member
  have known := own.asks id (.inr stage)
  have running : connection.stage.isEnded = false := by rw [stage]; rfl
  have waiting : service.undecided connection.stage = true := by rw [stage]; rfl
  have found := List.getElem?_eq_getElem known
  generalize tenant.controllers[id] = installed at found
  have none : connection.permit = none := by
    rw [own.permit, own.undecided waiting]
    simp
  rcases acquired : installed.controller.acquire with ⟨controller, _ | reason⟩
  · refine ⟨_, _,
      by rw [acquire, found, Option.bind_eq_bind, Option.bind_some, acquired]; rfl, ?_⟩
    have limits : installed.controller.quota.isSome = limited tenant.controllers id := by
      obtain ⟨checks, _, accounts⟩ := sound.permits id installed found
      rw [accounts.quota_isSome, limited, found, Option.any_some]
    refine .update found rfl ?_ ?_ ?_
    · intro other different
      simp only [none]
      split <;> simp [Ne.symm different]
    · have grown : Grown tenant.controllers
          (tenant.controllers.set id { installed with controller }) := .set found rfl
      refine ⟨?_, ?_, ?_, ?_⟩
      · intro other asked
        have still := service.undecided_of_asks asked
        rw [service.after_decided.1] at still
        cases still
      · rintro other ⟨⟩
        simpa using known
      · intro still
        rw [service.after_decided.1] at still
        cases still
      · simp only [service.after_runs.2.1, Bool.false_eq_true, if_false, Option.filter_some,
          grown.limited known, ← limits]
    · intro held left checks moved before accounts
      have kept := accounts.acquire
      rw [acquired, acquire_ok acquired] at kept
      refine ⟨checks, before, ?_⟩
      have same : left = held + (decide (installed.controller.quota.isSome = true)).toNat := by
        rw [none] at moved
        cases quota : installed.controller.quota.isSome <;> simpa [quota] using moved
      rw [same]
      exact kept
  · refine ⟨_, _,
      by rw [acquire, found, Option.bind_eq_bind, Option.bind_some, acquired]; rfl, ?_⟩
    refine .idle rfl rfl (own.goTo running rfl (by simp) ?_)
    intro _
    exact waiting

/-- The permit goes back where it came from. -/
theorem leave_advanced {outcome : TaskEnd} (sound : tenant.Sound service)
    (member : connection ∈ tenant.connections) :
    ∃ next after, leave tenant connection outcome = some (next, after) ∧
      Advanced service tenant connection now next after := by
  have own := sound.connections connection member
  have none : ∀ controllers, Grown tenant.controllers controllers →
      { connection with stage := .ended outcome, permit := none }.Sound service controllers :=
    fun controllers grown =>
      { asks := by simp
        known := fun id admitted => Nat.lt_of_lt_of_le (own.known id admitted) grown.length
        undecided := by simp [Service.undecided, Stage.checking]
        permit := rfl }
  rw [leave]
  split
  · rename_i free
    refine ⟨_, _, rfl, .idle rfl rfl ?_⟩
    have same : connection.goTo (.ended outcome) =
        { connection with stage := .ended outcome, permit := Option.none } := by
      rw [Connection.goTo, free]
    rw [same]
    exact none _ (.refl _)
  · rename_i id held
    have known := (own.holds held).1
    have found := List.getElem?_eq_getElem known
    generalize tenant.controllers[id] = installed at found
    refine ⟨_, _, by rw [found, Option.bind_eq_bind, Option.bind_some]; rfl, ?_⟩
    refine .update found rfl ?_ (none _ (.set found rfl)) ?_
    · intro other different
      simp [held, Ne.symm different]
    · intro out left checks moved before accounts
      refine ⟨checks, before, ?_⟩
      obtain rfl : out = left + 1 := by simpa [held] using moved.symm
      exact accounts.release

/-- A connection that has not ended can always go on: no check panics, and no semaphore is
missing. -/
theorem advance_advanced (sound : tenant.Sound service) (member : connection ∈ tenant.connections)
    (running : connection.stage.isEnded = false) (ordered : tenant.clock ≤ now.nanos)
    (succeeds : Bool) :
    ∃ next after, advance service tenant connection now succeeds = some (next, after) ∧
      Advanced service tenant connection now next after := by
  have own := sound.connections connection member
  have decided := service.after_decided
  have runs := service.after_runs
  cases stage : connection.stage with
  | rating id => simpa only [advance, stage] using rate_advanced sound member stage ordered
  | acquiring id => simpa only [advance, stage] using acquire_advanced sound member stage
  | leaving outcome => simpa only [advance, stage] using leave_advanced sound member
  | ended outcome => rw [stage] at running; cases running
  | starting =>
      simp only [advance, stage]
      refine ⟨_, _, rfl, .idle rfl rfl ?_⟩
      refine (own.goTo running runs.1 ?_ ?_).timed now.nanos connection.elapsed
      · obtain ⟨kind, tls⟩ := service
        cases kind <;> simp [Service.afterStart]
      · rw [stage]
        obtain ⟨kind, tls⟩ := service
        cases kind <;> cases tls <;> decide
  | loading =>
      simp only [advance, stage]
      refine ⟨_, _, rfl, .idle rfl rfl (own.goTo running rfl ?_ ?_)⟩
      · rintro id (entered | entered)
        · cases entered
          have := sound.installed
          omega
        · cases entered
      · rw [stage]
        exact fun _ => rfl
  | terminating =>
      simp only [advance, stage]
      refine ⟨_, _, rfl, .idle rfl rfl (own.goTo running ?_ ?_ ?_)⟩
      · cases succeeds <;> rfl
      · cases succeeds <;> simp
      · rw [stage]
        exact fun _ => rfl
  | rejecting reason =>
      have none := own.undecided (by rw [stage]; rfl)
      have free := own.permit
      rw [none, running] at free
      simp only [advance, stage]
      refine ⟨_, _, rfl, .idle rfl rfl ⟨?_, own.known, ?_, ?_⟩⟩
      · simp [Connection.goTo]
      · exact fun _ => none
      · exact free
  | shaking =>
      simp only [advance, stage]
      split
      · refine ⟨_, _, rfl, .idle rfl rfl ?_⟩
        exact (own.onward running runs.2.2.2 decided.2.2).timed connection.started
          (now.nanos - connection.started)
      · exact ⟨_, _, rfl, .idle rfl rfl (own.onward running rfl rfl)⟩
  | dialing =>
      simp only [advance, stage]
      refine ⟨_, _, rfl, .idle rfl rfl (own.onward running ?_ ?_)⟩
      · cases succeeds
        · rfl
        · exact runs.2.2.1
      · cases succeeds
        · rfl
        · exact decided.2.1
  | wrapping =>
      simp only [advance, stage]
      refine ⟨_, _, rfl, .idle rfl rfl (own.onward running ?_ ?_)⟩ <;>
        cases succeeds <;> rfl
  | failing | opening | activating | counting | summing | bucketing | proxying | deactivating
  | closing =>
      simp only [advance, stage]
      exact ⟨_, _, rfl, .idle rfl rfl (own.onward running rfl rfl)⟩

theorem isEnded_of_advance
    (advanced : advance service tenant connection now succeeds = some (next, after)) :
    connection.stage.isEnded = false := by
  cases stage : connection.stage with
  | ended outcome => simp [advance, stage] at advanced
  | _ => rfl

/-- One move keeps the invariant. -/
theorem step_sound {move : Move} (sound : tenant.Sound service)
    (moved : step service tenant move = some next) : next.Sound service := by
  cases move with
  | accept peer =>
      simp only [step, Option.ite_none_left_eq_some] at moved
      obtain ⟨_, ⟨⟩⟩ := moved
      refine ⟨sound.installed, ?_, ?_⟩
      · intro connection member
        rcases List.mem_append.mp member with member | member
        · exact sound.connections connection member
        · rw [List.mem_singleton.mp member]
          exact service.connection_sound _ peer
      · intro id installed found
        obtain ⟨checks, earlier, accounts⟩ := sound.permits id installed found
        refine ⟨checks, earlier, ?_⟩
        simpa [holding, Service.connection] using accounts
  | swap settings =>
      cases moved
      have grown : Grown tenant.controllers (tenant.controllers ++ [.new settings]) := .append _ _
      refine ⟨Nat.lt_of_lt_of_le sound.installed grown.length, ?_, ?_⟩
      · intro connection member
        exact (sound.connections connection member).grown grown
      · intro id installed found
        rcases Nat.lt_or_ge id tenant.controllers.length with inside | outside
        · rw [List.getElem?_append_left inside] at found
          exact sound.permits id installed found
        · -- Nobody holds a permit of the new controller.
          rw [List.getElem?_append_right outside] at found
          obtain rfl := List.mem_singleton.mp (List.mem_of_getElem? found)
          refine ⟨[], by simp, ?_⟩
          have none : holding tenant.connections id = 0 := by
            refine List.countP_eq_zero.mpr ?_
            intro connection member held
            have inside := (sound.connections connection member).holds (of_decide_eq_true held)
            exact absurd inside.1 (Nat.not_lt.mpr outside)
          rw [none]
          exact .new settings
  | run index now succeeds =>
      simp only [step, Option.ite_none_right_eq_some] at moved
      obtain ⟨ordered, moved⟩ := moved
      obtain ⟨connection, found, moved⟩ := Option.bind_eq_some_iff.mp moved
      have member := List.mem_of_getElem? found
      obtain ⟨⟨reached, after⟩, advanced, ⟨⟩⟩ := Option.bind_eq_some_iff.mp moved
      have running := isEnded_of_advance advanced
      obtain ⟨_, _, same, kept⟩ := advance_advanced sound member running ordered succeeds
      rw [advanced] at same
      cases same
      refine ⟨Nat.lt_of_lt_of_le sound.installed kept.grown.length, ?_, ?_⟩
      · intro other present
        rcases List.mem_or_eq_of_mem_set present with present | rfl
        · exact (sound.connections other present).grown kept.grown
        · exact kept.sound
      · intro id installed present
        obtain ⟨earlier, before, accounts⟩ := kept.accounts id installed present
        obtain ⟨checks, past, accounted⟩ := sound.permits id earlier before
        exact accounts _ _ checks (countP_set _ found after)
          (fun call member => Nat.le_trans (past call member) ordered) accounted

end Advance

section Runs

variable {service : Service} {settings : AdmissionSettings} {tenant : Tenant}

theorem reachable_sound
    (reachable : (machine service settings).Reachable (machine service settings).Free tenant) :
    tenant.Sound service := by
  refine Machine.Reachable.invariant (fun tenant : Tenant => tenant.Sound service) ?_ ?_ reachable
  · rintro _ rfl
    refine ⟨by simp [start], by simp [start], ?_⟩
    intro id installed found
    obtain rfl := List.mem_singleton.mp (List.mem_of_getElem? found)
    exact ⟨[], by simp, .new settings⟩
  · intro tenant move next sound _ moved
    exact step_sound sound moved

/-- With a quota, the permits that are out are the connections in service. -/
theorem Tenant.Sound.holding_eq (sound : tenant.Sound service) {id : Nat}
    (quota : limited tenant.controllers id = true) :
    holding tenant.connections id = tenant.inService id := by
  refine List.countP_congr ?_
  intro connection member
  have own := sound.connections connection member
  rw [own.permit]
  cases ended : connection.stage.isEnded with
  | true => simp
  | false =>
      cases connection.admitted with
      | none => simp
      | some other =>
          by_cases own : other = id
          · subst own
            simp [Option.filter_some, quota]
          · have different : (Option.some other).filter (limited tenant.controllers) ≠
                some id := by
              rw [Option.filter_some]
              split <;> simp [own]
            simp [different, own]

/-- The quota of a controller is exact: it never has more connections in service than its
limit, and a check that gets to the semaphore turns its connection away when and only when
the limit is reached, and lets it in otherwise. Other controllers do not matter. -/
theorem quota_exact
    (reachable : (machine service settings).Reachable (machine service settings).Free tenant)
    {id : Nat} {installed : Installed} (found : tenant.controllers[id]? = some installed)
    {maximum : UInt32} (quota : installed.settings.maxConcurrent = some maximum) :
    tenant.inService id ≤ maximum.toNat ∧
      ∀ (index : Nat) (connection : Connection) (now : Instant) (succeeds : Bool),
        tenant.connections[index]? = some connection → connection.stage = .acquiring id →
        tenant.clock ≤ now.nanos →
          ∃ next after, step service tenant (.run index now succeeds) = some next ∧
            next.connections[index]? = some after ∧
            (after.stage = .rejecting .quota ↔ tenant.inService id = maximum.toNat) ∧
            (after.admitted = some id ↔ tenant.inService id < maximum.toNat) := by
  have sound := reachable_sound reachable
  obtain ⟨checks, _, accounts⟩ := sound.permits id installed found
  have bounded : limited tenant.controllers id = true := by
    rw [limited, found, Option.any_some, quota]
    rfl
  have held := sound.holding_eq bounded
  have permits := accounts.permits
  rw [held, quota, Option.map_some] at permits
  obtain ⟨left, some, total⟩ := Option.map_eq_some_iff.mp permits
  refine ⟨by omega, ?_⟩
  intro index connection now succeeds present stage ordered
  have own := sound.connections connection (List.mem_of_getElem? present)
  have fresh := own.undecided (by rw [stage]; rfl)
  have inside := (List.getElem?_eq_some_iff.mp present).1
  have advanced : step service tenant (.run index now succeeds) =
      (acquire service tenant connection id).map fun moved =>
        { moved.1 with
          connections := tenant.connections.set index moved.2
          clock := now.nanos } := by
    have asks : advance service tenant connection now succeeds =
        acquire service tenant connection id := by simp only [advance, stage]
    rw [step, if_pos ordered, present, Option.bind_eq_bind, Option.bind_some, asks]
    cases acquire service tenant connection id <;> rfl
  rw [advanced, acquire, found, Option.bind_eq_bind, Option.bind_some, AdmissionController.acquire,
    some]
  cases left with
  | zero =>
      refine ⟨_, _, rfl, List.getElem?_set_self inside, ?_, ?_⟩
      · simp only [Connection.goTo, true_iff]
        omega
      · simp only [Connection.goTo, fresh]
        simp
        omega
  | succ left =>
      refine ⟨_, _, rfl, List.getElem?_set_self inside, ?_, ?_⟩
      · have decided := service.after_decided.1
        have other : service.afterCheck ≠ .rejecting .quota := by
          intro rejected
          rw [rejected] at decided
          cases decided
        simp only [other, false_iff]
        omega
      · simp
        omega

/-- Two connections of a serve-tcp tenant with a quota of one: the first is in service, the
second has loaded the same controller, and SIGHUP then lifts the quota. -/
def crowded : List Move :=
  [.accept (.v4 1), .run 0 earliest true, .run 0 earliest true, .run 0 earliest true,
    .accept (.v4 2), .run 1 earliest true, .run 1 earliest true,
    .swap { maxConcurrent := none, rateLimit := none }]

theorem quota_exact_crowded :
    ∃ tenant next : Tenant, ∃ after : Connection,
      tenant.controllers.length = 2 ∧ tenant.inService 0 = 1 ∧
        step { kind := .serveTcp, tls := false } tenant (.run 1 earliest true) = some next ∧
        next.connections[1]? = some after ∧ after.stage = .rejecting .quota := by
  have reachable := @Machine.Reachable.of_exec
    (machine { kind := .serveTcp, tls := false } { maxConcurrent := some 1, rateLimit := none })
    _ _ crowded rfl rfl
  obtain ⟨_, turned⟩ := @quota_exact _ _ _ reachable 0 _ rfl _ rfl
  obtain ⟨next, after, moved, found, rejected, _⟩ :=
    turned 1 _ earliest true rfl rfl (Nat.le_refl 0)
  exact ⟨_, next, after, rfl, rfl, moved, found, rejected.mpr rfl⟩

end Runs

end CofreSoberano.Gateway.Serving
