import CofreSoberano.Gateway.Admission
import CofreSoberano.Gateway.Config
import CofreSoberano.Std.Machine

/-!
# Limits that lock clients out

The admission controller of a tenant as a machine: checks of peers at instants that do
not decrease, and sessions that end and give their permits back. Whether a peer that
waits a second is admitted depends on the limits being positive. Validation demands
that of serve-tcp tenants only.
-/

namespace CofreSoberano.Gateway

open CofreSoberano.Std

/-- `AdmissionController`: the permits left in the semaphore, and the rate limiter. -/
structure AdmissionController where
  quota : Option Nat
  rateLimit : Option RateLimiter

namespace AdmissionController

/-- `AdmissionController::new`. -/
def new (settings : AdmissionSettings) : AdmissionController where
  quota := settings.maxConcurrent.map UInt32.toNat
  rateLimit := settings.rateLimit.map RateLimiter.new

/-- The quota half of `check`: `try_acquire_owned`. -/
def acquire (controller : AdmissionController) : AdmissionController × Admit :=
  match controller.quota with
  | none => (controller, .ok)
  | some 0 => (controller, .reject .quota)
  | some (permits + 1) => ({ controller with quota := some permits }, .ok)

/-- `AdmissionController::check`. A token is spent also where the quota then rejects. -/
def check (controller : AdmissionController) (peer : IpAddr) (now : Instant) :
    Option (AdmissionController × Admit) :=
  match controller.rateLimit with
  | none => some controller.acquire
  | some limiter => do
      let (limiter, admitted) ← limiter.tryTake peer now
      let controller := { controller with rateLimit := some limiter }
      if admitted then return controller.acquire else return (controller, .reject .rate)

/-- A session gives its permit back. -/
def release (controller : AdmissionController) : AdmissionController :=
  { controller with quota := controller.quota.map (· + 1) }

end AdmissionController

/-- A controller, the permits that sessions hold, and the checks made so far. -/
structure AdmissionState where
  controller : AdmissionController
  outstanding : Nat
  checks : List (IpAddr × Instant)

namespace AdmissionState

/-- The permits that a check hands out. -/
def granted (controller : AdmissionController) : Admit → Nat
  | .ok => if controller.quota.isSome then 1 else 0
  | .reject _ => 0

end AdmissionState

inductive AdmissionMove where
  | check (peer : IpAddr) (now : Instant)
  | release

/-- One move of the machine; `Instant::now` does not go back. -/
def admissionStep (state : AdmissionState) : AdmissionMove → Option AdmissionState
  | .check peer now =>
      if state.checks.all fun call => call.2.nanos ≤ now.nanos then do
        let (controller, verdict) ← state.controller.check peer now
        return { controller,
                 outstanding := state.outstanding + AdmissionState.granted controller verdict,
                 checks := state.checks ++ [(peer, now)] }
      else none
  | .release =>
      match state.outstanding with
      | 0 => none
      | held + 1 =>
          some { state with controller := state.controller.release, outstanding := held }

/-- The controller that `build_admission` makes, with its sessions. -/
def admissionMachine (settings : AdmissionSettings) : Machine where
  State := AdmissionState
  Label := AdmissionMove
  Initial := fun state => state = { controller := .new settings, outstanding := 0, checks := [] }
  step := admissionStep

/-- A peer that waits a second after each check is admitted whenever no session holds a
permit. -/
def AdmitsPatient (settings : AdmissionSettings) : Prop :=
  ∀ state, (admissionMachine settings).Reachable (admissionMachine settings).Free state →
    state.outstanding = 0 → ∀ (peer : IpAddr) (now : Instant),
      (∀ call ∈ state.checks, call.2.nanos ≤ now.nanos) →
      (∀ call ∈ state.checks, call.1 = peer → call.2.nanos + nanosPerSec ≤ now.nanos) →
        ∃ next, state.controller.check peer now = some (next, .ok)

/-- No limit is zero. -/
def AdmissionSettings.Positive (settings : AdmissionSettings) : Prop :=
  settings.maxConcurrent ≠ some 0 ∧
    ∀ limit ∈ settings.rateLimit, limit.capacity ≠ 0 ∧ limit.refillPerSec ≠ 0

instance (settings : AdmissionSettings) : Decidable settings.Positive :=
  inferInstanceAs (Decidable (_ ∧ ∀ limit ∈ settings.rateLimit, _))

section Invariant

variable {settings : AdmissionSettings} {controller : AdmissionController} {outstanding : Nat}
  {checks : List (IpAddr × Instant)}

/-- The permits add up, and every bucket was last refilled at or before a check of its
peer. -/
structure Accounts (settings : AdmissionSettings) (controller : AdmissionController)
    (outstanding : Nat) (checks : List (IpAddr × Instant)) : Prop where
  permits : controller.quota.map (· + outstanding) = settings.maxConcurrent.map UInt32.toNat
  held : controller.quota = none → outstanding = 0
  limits : controller.rateLimit.map RateLimiter.cfg = settings.rateLimit
  buckets : ∀ limiter ∈ controller.rateLimit, ∀ peer, ∀ level ∈ limiter.level peer,
    level.tokens ≤ limiter.cfg.rule.capacity ∧ ∃ now, (peer, now) ∈ checks ∧
    level.anchor ≤ now.nanos

theorem Accounts.new (settings : AdmissionSettings) : Accounts settings (.new settings) 0 [] where
  permits := by cases maximum : settings.maxConcurrent <;> simp [AdmissionController.new, maximum]
  held := fun _ => rfl
  limits := by
    cases rate : settings.rateLimit <;> simp [AdmissionController.new, rate, RateLimiter.new]
  buckets := by
    intro limiter stored peer level found
    obtain ⟨cfg, _, rfl⟩ := Option.map_eq_some_iff.mp stored
    cases found

/-- Taking a permit. -/
theorem Accounts.acquire (accounts : Accounts settings controller outstanding checks) :
    Accounts settings controller.acquire.1
      (outstanding + AdmissionState.granted controller.acquire.1 controller.acquire.2) checks := by
  obtain ⟨permits, held, limits, buckets⟩ := accounts
  simp only [AdmissionController.acquire]
  split
  · rename_i unlimited
    exact ⟨by simpa [AdmissionState.granted, unlimited] using permits,
      fun _ => by simp [AdmissionState.granted, unlimited, held unlimited], limits, buckets⟩
  · rename_i none
    exact ⟨permits, held, limits, buckets⟩
  · rename_i left some
    refine ⟨?_, by simp, limits, buckets⟩
    rw [← permits, some]
    simp only [AdmissionState.granted, Option.isSome_some, if_true, Option.map_some]
    congr 1
    omega

theorem Accounts.sound {limiter : RateLimiter} {now : Instant}
    (accounts : Accounts settings controller outstanding checks)
    (stored : controller.rateLimit = some limiter)
    (later : ∀ call ∈ checks, call.2.nanos ≤ now.nanos) : limiter.Sound now.nanos := by
  intro peer level found
  obtain ⟨within, last, member, reached⟩ := accounts.buckets limiter stored peer level found
  exact ⟨within, Nat.le_trans reached (later _ member)⟩

/-- The rate-limit half of a check. -/
theorem Accounts.take {limiter next : RateLimiter} {peer : IpAddr} {now : Instant} {admitted : Bool}
    (accounts : Accounts settings controller outstanding checks)
    (stored : controller.rateLimit = some limiter)
    (later : ∀ call ∈ checks, call.2.nanos ≤ now.nanos)
    (taken : limiter.tryTake peer now = some (next, admitted)) :
    Accounts settings { controller with rateLimit := some next } outstanding
      (checks ++ [(peer, now)]) := by
  have sound := accounts.sound stored later
  obtain ⟨found, same, sameCfg, levels⟩ := RateLimiter.tryTake_level sound peer
  rw [taken] at same
  cases same
  refine ⟨accounts.permits, accounts.held, ?_, ?_⟩
  · rw [← accounts.limits, stored, Option.map_some, Option.map_some, sameCfg]
  · intro limiter' changed other level present
    cases changed
    rw [levels] at present
    rw [sameCfg]
    split at present
    · rename_i own
      cases present
      subst own
      have left := limiter.cfg.rule.take_leaves fun bucket remains =>
        (sound.sweep now other bucket remains).2
      exact ⟨left.1, now, List.mem_append_right _ (List.mem_singleton_self _), left.2.1⟩
    · obtain ⟨within, last, member, reached⟩ :=
        accounts.buckets limiter stored other level (RateLimiter.of_sweep_level present)
      exact ⟨within, last, List.mem_append_left _ member, reached⟩

theorem Accounts.longer {more : List (IpAddr × Instant)}
    (accounts : Accounts settings controller outstanding checks) :
    Accounts settings controller outstanding (checks ++ more) := by
  refine ⟨accounts.permits, accounts.held, accounts.limits, ?_⟩
  intro limiter stored peer level found
  obtain ⟨within, last, member, reached⟩ := accounts.buckets limiter stored peer level found
  exact ⟨within, last, List.mem_append_left _ member, reached⟩

/-- A check never panics and keeps the accounts. -/
theorem Accounts.check {now : Instant} (accounts : Accounts settings controller outstanding checks)
    (later : ∀ call ∈ checks, call.2.nanos ≤ now.nanos) (peer : IpAddr) :
    ∃ next verdict, controller.check peer now = some (next, verdict) ∧
      Accounts settings next (outstanding + AdmissionState.granted next verdict)
        (checks ++ [(peer, now)]) := by
  rw [AdmissionController.check]
  cases rate : controller.rateLimit with
  | none => exact ⟨_, _, rfl, accounts.acquire.longer⟩
  | some limiter =>
      obtain ⟨next, taken, _⟩ := RateLimiter.tryTake_level (accounts.sound rate later) peer
      have kept := accounts.take rate later taken
      simp only [taken, Option.bind_eq_bind, Option.bind_some]
      split
      · exact ⟨_, _, rfl, kept.acquire⟩
      · exact ⟨_, _, rfl, kept⟩

theorem Accounts.release {held : Nat} (accounts : Accounts settings controller (held + 1) checks) :
    Accounts settings controller.release held checks := by
  obtain ⟨permits, unlimited, limits, buckets⟩ := accounts
  refine ⟨?_, ?_, limits, buckets⟩
  · rw [← permits, AdmissionController.release, Option.map_map]
    congr 1
    funext left
    simp only [Function.comp_apply]
    omega
  · intro absent
    exact absurd (unlimited (Option.map_eq_none_iff.mp absent)) (Nat.succ_ne_zero held)

theorem admissionStep_accounts {state next : AdmissionState} {move : AdmissionMove}
    (accounts : Accounts settings state.controller state.outstanding state.checks)
    (moved : admissionStep state move = some next) :
    Accounts settings next.controller next.outstanding next.checks := by
  cases move with
  | check peer now =>
      simp only [admissionStep] at moved
      split at moved
      · rename_i ordered
        simp only [List.all_eq_true, decide_eq_true_eq] at ordered
        obtain ⟨controller, verdict, checked, kept⟩ := accounts.check ordered peer
        rw [checked] at moved
        cases moved
        exact kept
      · cases moved
  | release =>
      simp only [admissionStep] at moved
      split at moved
      · cases moved
      · rename_i held outstanding
        cases moved
        rw [outstanding] at accounts
        exact accounts.release

theorem reachable_accounts {state : AdmissionState}
    (reachable : (admissionMachine settings).Reachable (admissionMachine settings).Free state) :
    Accounts settings state.controller state.outstanding state.checks := by
  refine Machine.Reachable.invariant
    (fun state : AdmissionState => Accounts settings state.controller state.outstanding
      state.checks) ?_ ?_ reachable
  · rintro _ rfl
    exact .new settings
  · intro state move next accounts _ moved
    exact admissionStep_accounts accounts moved

theorem reachable_step {state next : AdmissionState} {move : AdmissionMove}
    (reachable : (admissionMachine settings).Reachable (admissionMachine settings).Free state)
    (moved : admissionStep state move = some next) :
    (admissionMachine settings).Reachable (admissionMachine settings).Free next := by
  have step : (admissionMachine settings).step state move = some next := moved
  exact reachable.step trivial step

end Invariant

section Patience

variable {settings : AdmissionSettings}

/-- A bucket with a positive capacity and rate has a token a second after its last
refill. -/
theorem take_after_period {rule : TokenBucket.Rule} {level : Option TokenBucket.Level} {now : Nat}
    (capacity : 0 < rule.capacity) (rate : 0 < rule.rate)
    (waited : ∀ bucket ∈ level, bucket.anchor + rule.period ≤ now) :
    (rule.take level now).2 = true := by
  cases level with
  | none =>
      rw [TokenBucket.Rule.take, Option.getD_none, TokenBucket.Rule.refill_fresh]
      exact congrArg Prod.snd (if_pos capacity)
  | some bucket =>
      have waited := waited bucket rfl
      have periods : 1 ≤ rule.periods bucket now :=
        (Nat.one_le_div_iff rule.positive).mpr (by omega)
      have refilled : 0 < (rule.refill bucket now).tokens := by
        have product := Nat.mul_le_mul periods rate
        simp only [TokenBucket.Rule.refill]
        omega
      rw [TokenBucket.Rule.take, Option.getD_some, if_pos refilled]

/-- With positive limits, a peer that waits a second is admitted when no permit is out. -/
theorem AdmissionSettings.Positive.admits (positive : settings.Positive) :
    AdmitsPatient settings := by
  intro state reachable none peer now later waited
  have accounts := reachable_accounts reachable
  -- With no permit out, the semaphore has all of its permits.
  have free : ∀ controller : AdmissionController, controller.quota = state.controller.quota →
      controller.acquire.2 = .ok := by
    intro controller same
    have permits := accounts.permits
    rw [none, ← same] at permits
    rw [AdmissionController.acquire]
    split
    · rfl
    · rename_i zero
      rw [zero, Option.map_some, Nat.add_zero] at permits
      obtain ⟨maximum, set, empty⟩ := Option.map_eq_some_iff.mp permits.symm
      obtain rfl : maximum = 0 := UInt32.toNat_inj.mp empty
      exact absurd set positive.1
    · rfl
  rw [AdmissionController.check]
  cases rate : state.controller.rateLimit with
  | none => exact ⟨_, congrArg some (Prod.ext rfl (free _ rfl))⟩
  | some limiter =>
      have limits := accounts.limits
      rw [rate, Option.map_some] at limits
      obtain ⟨capacity, refill⟩ := positive.2 limiter.cfg limits.symm
      obtain ⟨next, taken, _⟩ := RateLimiter.tryTake_level (accounts.sound rate later) peer
      have admitted :
          (limiter.cfg.rule.take ((limiter.sweep now).level peer) now.nanos).2 = true := by
        refine take_after_period ?_ ?_ ?_
        · exact Nat.pos_of_ne_zero fun zero => capacity (UInt32.toNat_inj.mp zero)
        · exact Nat.pos_of_ne_zero fun zero => refill (UInt32.toNat_inj.mp zero)
        · intro bucket remains
          obtain ⟨_, last, member, reached⟩ :=
            accounts.buckets limiter rate peer bucket (RateLimiter.of_sweep_level remains)
          exact Nat.le_trans (Nat.add_le_add_right reached _) (waited _ member rfl)
      rw [admitted] at taken
      simp only [taken, Option.bind_eq_bind, Option.bind_some, if_true]
      exact ⟨_, congrArg some (Prod.ext rfl (free _ rfl))⟩

end Patience

section Exhaustion

variable {settings : AdmissionSettings} {limiter : RateLimiter} {peer : IpAddr} {now : Instant}

/-- The tokens that a peer has left; a peer without a bucket has a full one. -/
def spare (limiter : RateLimiter) (peer : IpAddr) : Nat :=
  ((limiter.level peer).map TokenBucket.Level.tokens).getD limiter.cfg.rule.capacity

/-- Without a refill rate every call uses up a token for good. -/
theorem tryTake_spare (sound : limiter.Sound now.nanos) (never : limiter.cfg.refillPerSec = 0)
    (peer : IpAddr) :
    ∃ next, limiter.tryTake peer now = some (next, decide (0 < spare limiter peer)) ∧
      spare next peer = spare limiter peer - 1 := by
  obtain ⟨next, taken, sameCfg, levels⟩ := RateLimiter.tryTake_level sound peer
  have rate : limiter.cfg.rule.rate = 0 := congrArg UInt32.toNat never
  have kept : ∀ level : TokenBucket.Level, level.tokens ≤ limiter.cfg.rule.capacity →
      (limiter.cfg.rule.refill level now.nanos).tokens = level.tokens := by
    intro level within
    rw [TokenBucket.Rule.refill, rate, Nat.mul_zero, Nat.add_zero]
    exact Nat.min_eq_right within
  have refilled : (limiter.cfg.rule.refill (((limiter.sweep now).level peer).getD
      (limiter.cfg.rule.fresh now.nanos)) now.nanos).tokens = spare limiter peer := by
    rcases limiter.sweep_level now peer with same | ⟨level, stored, forgotten, full, _⟩
    · rw [same, spare]
      cases stored : limiter.level peer with
      | none => exact kept _ (Nat.le_refl _)
      | some level => exact kept level (sound peer level stored).1
    · rw [kept level (sound peer level stored).1] at full
      rw [forgotten, spare, stored, Option.getD_none, TokenBucket.Rule.refill_fresh]
      exact full.symm
  obtain ⟨_, tokens, empty⟩ :=
    limiter.cfg.rule.take_spec ((limiter.sweep now).level peer) now.nanos
  rw [refilled] at tokens empty
  refine ⟨next, ?_, ?_⟩
  · rw [taken]
    congr 2
    cases outcome : (limiter.cfg.rule.take ((limiter.sweep now).level peer) now.nanos).2 with
    | true =>
        rw [outcome, Bool.toNat_true] at tokens
        exact (decide_eq_true (by omega)).symm
    | false => exact (decide_eq_false (by rw [empty outcome]; exact Nat.lt_irrefl 0)).symm
  · rw [spare, levels, if_pos rfl, Option.map_some, Option.getD_some]
    cases outcome : (limiter.cfg.rule.take ((limiter.sweep now).level peer) now.nanos).2 with
    | true =>
        rw [outcome, Bool.toNat_true] at tokens
        omega
    | false =>
        rw [outcome, Bool.toNat_false, empty outcome] at tokens
        rw [empty outcome]
        omega

/-- What an admitting check says of the quota and of the rate limiter. -/
theorem AdmissionController.check_ok {controller next : AdmissionController}
    (checked : controller.check peer now = some (next, .ok)) :
    controller.quota ≠ some 0 ∧
      ∀ limiter ∈ controller.rateLimit, ∃ left, limiter.tryTake peer now =
        some (left, true) := by
  have acquired : ∀ controller : AdmissionController, controller.acquire = (next, .ok) →
      controller.quota ≠ some 0 := by
    intro controller acquired zero
    rw [acquire, zero] at acquired
    cases acquired
  rw [check] at checked
  cases rate : controller.rateLimit with
  | none =>
      simp only [rate] at checked
      exact ⟨acquired _ (Option.some_inj.mp checked), by simp⟩
  | some limiter =>
      simp only [rate, Option.bind_eq_bind] at checked
      obtain ⟨⟨left, admitted⟩, taken, checked⟩ := Option.bind_eq_some_iff.mp checked
      cases admitted with
      | false => simp at checked
      | true =>
          have spent :=
            acquired { controller with rateLimit := some left } (Option.some_inj.mp checked)
          refine ⟨spent, ?_⟩
          intro other same
          cases same
          exact ⟨left, taken⟩

/-- A reachable state in which no permit is out, after some checks of one peer a second
apart, and with the tokens that are left to it. -/
def Worn (settings : AdmissionSettings) (peer : IpAddr) (seconds left : Nat) : Prop :=
  ∃ state, (admissionMachine settings).Reachable (admissionMachine settings).Free state ∧
    state.outstanding = 0 ∧
    (∀ call ∈ state.checks, call.2.nanos ≤ seconds * nanosPerSec) ∧
    ∃ limiter, state.controller.rateLimit = some limiter ∧ spare limiter peer = left

/-- The limiter after a check, whether or not there was a permit. -/
theorem AdmissionController.check_limiter {controller : AdmissionController} {left : RateLimiter}
    {admitted : Bool} (stored : controller.rateLimit = some limiter)
    (taken : limiter.tryTake peer now = some (left, admitted)) :
    ∃ next verdict, controller.check peer now = some (next, verdict) ∧
      next.rateLimit = some left ∧ AdmissionState.granted next verdict ≤ 1 := by
  have single : ∀ (controller : AdmissionController) (verdict : Admit),
      AdmissionState.granted controller verdict ≤ 1 := by
    intro controller verdict
    rw [AdmissionState.granted.eq_def]
    split
    · split <;> decide
    · decide
  have kept : ∀ controller : AdmissionController,
      controller.acquire.1.rateLimit = controller.rateLimit := by
    intro controller
    rw [acquire]
    split <;> rfl
  rw [check]
  simp only [stored, taken, Option.bind_eq_bind, Option.bind_some]
  cases admitted with
  | true => exact ⟨_, _, rfl, kept _, single _ _⟩
  | false => exact ⟨_, _, rfl, rfl, single _ _⟩

/-- A check, and the end of the session it may have started. -/
theorem Worn.next {cfg : RateLimitConfig} {seconds left : Nat}
    (worn : Worn settings peer seconds left)
    (limited : settings.rateLimit = some cfg) (never : cfg.refillPerSec = 0)
    (soon : seconds + 1 < 2 ^ 64) : Worn settings peer (seconds + 1) (left - 1) := by
  obtain ⟨state, reachable, free, past, limiter, stored, spared⟩ := worn
  have accounts := reachable_accounts reachable
  have sameCfg : limiter.cfg = cfg := by
    have limits := accounts.limits
    rw [stored, Option.map_some, limited] at limits
    exact Option.some_inj.mp limits
  have representable : (seconds + 1) * nanosPerSec < 2 ^ 64 * nanosPerSec :=
    (Nat.mul_lt_mul_right (by decide)).mpr soon
  have later : ∀ call ∈ state.checks, call.2.nanos ≤ (seconds + 1) * nanosPerSec := by
    intro call member
    exact Nat.le_trans (past call member) (Nat.mul_le_mul_right _ (Nat.le_succ seconds))
  generalize moment : (⟨(seconds + 1) * nanosPerSec, representable⟩ : Instant) = now
  have nanos : now.nanos = (seconds + 1) * nanosPerSec := by rw [← moment]
  rw [← nanos] at later
  obtain ⟨worse, taken, less⟩ :=
    tryTake_spare (accounts.sound stored later) (sameCfg ▸ never) peer
  obtain ⟨controller, verdict, checked, remaining, single⟩ :=
    AdmissionController.check_limiter stored taken
  have made : admissionStep state (.check peer now) = some
      ⟨controller, AdmissionState.granted controller verdict, state.checks ++
        [(peer, now)]⟩ := by
    have ordered : (state.checks.all fun call => call.2.nanos ≤ now.nanos) = true :=
      List.all_eq_true.mpr fun call member => decide_eq_true (later call member)
    simp only [admissionStep, if_pos ordered, checked, free, Option.bind_eq_bind, Option.bind_some,
      Option.pure_def, Nat.zero_add]
  have reached := reachable_step reachable made
  have checksPast : ∀ call ∈ state.checks ++ [(peer, now)],
      call.2.nanos ≤ (seconds + 1) * nanosPerSec := by
    intro call member
    rw [← nanos]
    rcases List.mem_append.mp member with earlier | last
    · exact later call earlier
    · rw [List.mem_singleton.mp last]
  cases given : AdmissionState.granted controller verdict with
  | zero => exact ⟨_, reached, given, checksPast, worse, remaining, less.trans (by rw [spared])⟩
  | succ more =>
      obtain rfl : more = 0 := by omega
      have ended : admissionStep
          ⟨controller, AdmissionState.granted controller verdict,
            state.checks ++ [(peer, now)]⟩ .release =
            some ⟨controller.release, 0, state.checks ++ [(peer, now)]⟩ := by
        rw [given]
        rfl
      exact ⟨_, reachable_step reached ended, rfl, checksPast, worse, remaining,
        less.trans (by rw [spared])⟩

/-- After as many checks as the bucket has tokens nothing is left. -/
theorem worn_out {cfg : RateLimitConfig} (limited : settings.rateLimit = some cfg)
    (never : cfg.refillPerSec = 0) (peer : IpAddr) :
    Worn settings peer cfg.capacity.toNat 0 := by
  have steps : ∀ count ≤ cfg.capacity.toNat,
      Worn settings peer count (cfg.capacity.toNat - count) := by
    intro count
    induction count with
    | zero =>
        intro _
        refine ⟨⟨.new settings, 0, []⟩, ⟨_, [], rfl, .nil⟩, rfl,
          by simp, .new cfg, ?_, ?_⟩
        · simp [AdmissionController.new, limited]
        · simp [spare, RateLimiter.level, RateLimiter.new, KeyedMap.empty, KeyedMap.get?,
            RateLimitConfig.rule]
    | succ count inductionHypothesis =>
        intro bounded
        have small := cfg.capacity.toNat_lt
        have next := (inductionHypothesis (by omega)).next limited never (by omega)
        rwa [Nat.sub_sub] at next
  have all := steps _ (Nat.le_refl _)
  rwa [Nat.sub_self] at all

/-- A zero among the limits locks some patient peer out. -/
theorem AdmitsPatient.positive (admits : AdmitsPatient settings) : settings.Positive := by
  have first : ∃ next, (AdmissionController.new settings).check (.v4 0) ⟨0, by decide⟩ =
      some (next, .ok) :=
    admits ⟨.new settings, 0, []⟩ ⟨_, [], rfl, .nil⟩ rfl _ _ (by simp) (by simp)
  obtain ⟨next, checked⟩ := first
  obtain ⟨quota, rate⟩ := AdmissionController.check_ok checked
  refine ⟨?_, ?_⟩
  · intro zero
    refine quota ?_
    rw [AdmissionController.new, zero]
    rfl
  · intro cfg limited
    have present : (AdmissionController.new settings).rateLimit = some (.new cfg) := by
      rw [AdmissionController.new, limited]
      rfl
    constructor
    · intro empty
      obtain ⟨left, taken⟩ := rate (.new cfg) present
      have sound : (RateLimiter.new cfg).Sound 0 := by
        rintro ip bucket ⟨⟩
      obtain ⟨found, same, _⟩ :=
        RateLimiter.tryTake_level
          (sound.mono (Nat.zero_le (⟨0, by decide⟩ : Instant).nanos)) (.v4 0)
      rw [taken, Option.some_inj, Prod.mk.injEq] at same
      have capacity : 0 < cfg.capacity.toNat := TokenBucket.Rule.take_admits same.2.symm
      rw [empty] at capacity
      exact absurd capacity (Nat.lt_irrefl 0)
    · intro never
      obtain ⟨state, reachable, free, past, limiter, stored, spared⟩ :=
        worn_out limited never (.v4 0)
      have small := cfg.capacity.toNat_lt
      have representable : (cfg.capacity.toNat + 1) * nanosPerSec < 2 ^ 64 * nanosPerSec :=
        (Nat.mul_lt_mul_right (by decide)).mpr (by omega)
      have waited : ∀ call ∈ state.checks,
          call.2.nanos + nanosPerSec ≤ (cfg.capacity.toNat + 1) * nanosPerSec := by
        intro call member
        rw [Nat.add_mul, Nat.one_mul]
        exact Nat.add_le_add_right (past call member) _
      have later : ∀ call ∈ state.checks, call.2.nanos ≤
          (cfg.capacity.toNat + 1) * nanosPerSec :=
        fun call member => Nat.le_trans (Nat.le_add_right _ _) (waited call member)
      have accounts := reachable_accounts reachable
      have sameCfg : limiter.cfg = cfg := by
        have limits := accounts.limits
        rw [stored, Option.map_some, limited] at limits
        exact Option.some_inj.mp limits
      obtain ⟨last, passed⟩ := admits state reachable free (.v4 0) ⟨_, representable⟩ later
        fun call member _ => waited call member
      obtain ⟨left, taken⟩ := (AdmissionController.check_ok passed).2 limiter stored
      have sound : limiter.Sound (⟨_, representable⟩ : Instant).nanos :=
        accounts.sound stored later
      obtain ⟨_, refused, _⟩ := tryTake_spare sound (sameCfg ▸ never) (.v4 0)
      rw [taken, spared] at refused
      simp at refused

end Exhaustion

/-- An accepted serve-tcp configuration has no zero limit. -/
theorem Config.validate_limits {cfg : Config} (valid : cfg.validate = .ok ())
    (role : cfg.role = .serveTcp) {t : TenantConfig} (declared : t ∈ cfg.tenants) :
    (AdmissionSettings.ofLimits t.limits).Positive := by
  simp only [validate] at valid
  split at valid
  · cases valid
  · obtain ⟨_, _, valid⟩ := bind_eq_ok.mp valid
    simp only [validateSniGroups, role] at valid
    obtain ⟨_, _, limits⟩ := bind_eq_ok.mp valid
    have checked := of_forM_eq_ok limits declared
    simp only [validateLimits] at checked
    cases stored : t.limits with
    | none => simp [AdmissionSettings.Positive, AdmissionSettings.ofLimits]
    | some limits =>
        simp only [stored] at checked
        split at checked
        · cases checked
        · rename_i quota
          refine ⟨quota, ?_⟩
          intro limit set
          change limits.rateLimitPerSource = some limit at set
          simp only [set] at checked
          split at checked
          · cases checked
          · rename_i capacity
            split at checked
            · cases checked
            · rename_i refill
              exact ⟨capacity, refill⟩

/-- Which accepted configurations lock nobody out: all of the serve-tcp role, and those
of the serve-pq role without a zero limit. -/
theorem validated_limits_admit {cfg : Config} (valid : cfg.validate = .ok ()) {t : TenantConfig}
    (declared : t ∈ cfg.tenants) :
    AdmitsPatient (.ofLimits t.limits) ↔
      (cfg.role = .servePq → (AdmissionSettings.ofLimits t.limits).Positive) := by
  constructor
  · exact fun admits _ => admits.positive
  · intro positive
    cases role : cfg.role with
    | servePq => exact (positive role).admits
    | serveTcp => exact (Config.validate_limits valid role declared).admits

/-- A serve-pq tenant with the given limits. -/
def limitedTenant (limits : TenantLimits) : TenantConfig where
  name := "a"
  listen := "0.0.0.0:9443"
  peerPq := none
  backend := some "127.0.0.1:80"
  peerPubDir := "/etc/qgateway/peer"
  auditLog := "/var/log/qgateway/a.qaudit"
  tls := none
  sni := none
  auditSigner := some (.softkey "sk.bin" "pk.bin")
  limits := some limits

/-- A serve-pq file whose only tenant has the given limits. -/
def limitedConfig (limits : TenantLimits) : Config where
  role := .servePq
  auditSigner := none
  tenants := [limitedTenant limits]

theorem validated_limits_admit_positive :
    let limits : TenantLimits :=
      { maxConcurrent := some 1, rateLimitPerSource := some { capacity := 1, refillPerSec := 1 } }
    (limitedConfig limits).validate = .ok () ∧ AdmitsPatient (.ofLimits (some limits)) := by
  intro limits
  have valid : (limitedConfig limits).validate = .ok () := by decide +kernel
  refine ⟨valid, ?_⟩
  have admits := validated_limits_admit valid (List.mem_singleton_self (limitedTenant limits))
  exact admits.mpr
    fun _ => by decide

/-- A serve-pq file with a quota of zero is accepted, and the first check is refused. -/
theorem zero_quota_locks_out :
    let limits : TenantLimits := { maxConcurrent := some 0, rateLimitPerSource := none }
    let settings := AdmissionSettings.ofLimits (some limits)
    (limitedConfig limits).validate = .ok () ∧
      limitedTenant limits ∈ (limitedConfig limits).tenants ∧
      (admissionMachine settings).Initial ⟨.new settings, 0, []⟩ ∧
      ∃ next, (AdmissionController.new settings).check (.v4 0) ⟨0, by decide⟩ =
        some (next, .reject .quota) := by
  refine ⟨?_, List.mem_singleton_self _, rfl, ?_⟩
  · decide +kernel
  · exact ⟨_, rfl⟩

end CofreSoberano.Gateway
