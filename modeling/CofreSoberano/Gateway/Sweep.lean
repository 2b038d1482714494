import CofreSoberano.Gateway.Admission

/-!
# The sweep of idle buckets

`maybe_gc` drops a bucket that a refill would fill, and the next call of its peer
starts a full one. The new bucket is anchored at that call, while the old one would
have kept the part of a second since its last refill. Here a limiter that sweeps is
run beside one that never does: they agree as long as a peer whose bucket is gone
comes back a whole number of seconds after its first call, and the first return out of
phase can be told apart.
-/

namespace CofreSoberano.Gateway

open CofreSoberano.Std

/-- The results of a sequence of calls to a new limiter. -/
def resultsOf (take : TakeStep) (cfg : RateLimitConfig) (calls : List (IpAddr × Instant)) :
    Option (List Bool) :=
  (takeAll take (.new cfg) calls).map Prod.snd

/-- The first call of a peer. -/
def firstCall (calls : List (IpAddr × Instant)) (peer : IpAddr) : Option Instant :=
  (calls.find? fun call => call.1 = peer).map Prod.snd

/-- Whenever a call finds no bucket for a peer that has called before, it comes a whole
number of seconds after the peer's first call. -/
def ReturnsInPhase (cfg : RateLimitConfig) (calls : List (IpAddr × Instant)) : Prop :=
  ∀ before peer now after, calls = before ++ (peer, now) :: after →
    ∀ limiter results, takeAll RateLimiter.tryTake (.new cfg) before = some (limiter, results) →
      (limiter.sweep now).buckets.get? peer = none →
        ∀ first ∈ firstCall before peer, nanosPerSec ∣ now.nanos - first.nanos

section Runs

variable {take : TakeStep} {limiter : RateLimiter}

theorem takeAll_append (take : TakeStep) (limiter : RateLimiter)
    (before after : List (IpAddr × Instant)) :
    takeAll take limiter (before ++ after) =
      (takeAll take limiter before).bind fun (limiter, results) =>
        (takeAll take limiter after).map fun (limiter, more) => (limiter, results ++ more) := by
  induction before generalizing limiter with
  | nil =>
      simp only [List.nil_append, takeAll, Option.bind_some]
      exact Option.map_id'.symm
  | cons call before inductionHypothesis =>
      obtain ⟨peer, now⟩ := call
      simp only [List.cons_append, takeAll, Option.bind_eq_bind]
      cases take limiter peer now with
      | none => rfl
      | some taken =>
          simp only [Option.bind_some, inductionHypothesis]
          cases takeAll take taken.1 before with
          | none => rfl
          | some run =>
              simp only [Option.bind_some, Option.pure_def]
              cases takeAll take run.1 after <;> rfl

theorem firstCall_snoc (calls : List (IpAddr × Instant)) (caller peer : IpAddr) (now : Instant) :
    firstCall (calls ++ [(caller, now)]) peer =
      (firstCall calls peer).or (if caller = peer then some now else none) := by
  rw [firstCall, List.find?_append, Option.map_or, ← firstCall]
  congr 1
  by_cases same : caller = peer <;> simp [same]

theorem ReturnsInPhase.init {cfg : RateLimitConfig} {calls : List (IpAddr × Instant)}
    {call : IpAddr × Instant} (inPhase : ReturnsInPhase cfg (calls ++ [call])) :
    ReturnsInPhase cfg calls := by
  intro before peer now after split
  refine inPhase before peer now (after ++ [call]) ?_
  rw [split, List.append_assoc, List.cons_append]

end Runs

section Simulation

variable {swept unswept : RateLimiter} {past : List (IpAddr × Instant)} {clock : Nat}

/-- A bucket that is full stays full. -/
theorem full_later {rule : TokenBucket.Rule} {level : TokenBucket.Level} {earlier later : Nat}
    (full : (rule.refill level earlier).tokens = rule.capacity) (ordered : earlier ≤ later) :
    (rule.refill level later).tokens = rule.capacity := by
  have more : rule.periods level earlier ≤ rule.periods level later :=
    Nat.div_le_div_right (Nat.sub_le_sub_right ordered _)
  have product := Nat.mul_le_mul_right rule.rate more
  simp only [TokenBucket.Rule.refill] at full ⊢
  omega

/-- A limiter that sweeps beside one that does not, after the same calls: it lacks only
buckets that are full. The anchors of a bucket that is never dropped are a whole number
of seconds after the peer's first call. -/
structure Shadows (swept unswept : RateLimiter) (clock : Nat) (past : List (IpAddr × Instant)) :
    Prop where
  cfg : swept.cfg = unswept.cfg
  sound : unswept.Sound clock
  same : ∀ peer, swept.level peer = unswept.level peer ∨
    swept.level peer = none ∧ ∃ level, unswept.level peer = some level ∧
      (unswept.cfg.rule.refill level clock).tokens = unswept.cfg.rule.capacity
  known : ∀ peer first, firstCall past peer = some first →
    ∃ level, unswept.level peer = some level ∧ first.nanos ≤ level.anchor ∧
      nanosPerSec ∣ level.anchor - first.nanos ∧
      (0 < unswept.cfg.rule.capacity → level.tokens < unswept.cfg.rule.capacity)
  unknown : ∀ peer, firstCall past peer = none → unswept.level peer = none

theorem Shadows.new (cfg : RateLimitConfig) (clock : Nat) :
    Shadows (.new cfg) (.new cfg) clock [] where
  cfg := rfl
  sound := by rintro _ _ ⟨⟩
  same := fun _ => .inl rfl
  known := by rintro _ _ ⟨⟩
  unknown := fun _ _ => rfl

theorem Shadows.mono {later : Nat} (shadows : Shadows swept unswept clock past)
    (ordered : clock ≤ later) : Shadows swept unswept later past where
  cfg := shadows.cfg
  sound := shadows.sound.mono ordered
  same := by
    intro peer
    refine (shadows.same peer).imp_right ?_
    rintro ⟨gone, level, stored, full⟩
    exact ⟨gone, level, stored, full_later full ordered⟩
  known := shadows.known
  unknown := shadows.unknown

/-- A sweep drops only full buckets. -/
theorem Shadows.sweep {now : Instant} (shadows : Shadows swept unswept now.nanos past) :
    Shadows (swept.sweep now) unswept now.nanos past where
  cfg := by rw [RateLimiter.sweep_cfg, shadows.cfg]
  sound := shadows.sound
  same := by
    intro peer
    rcases swept.sweep_level now peer with kept | ⟨level, stored, forgotten, full, _⟩
    · rw [kept]
      exact shadows.same peer
    · rw [shadows.cfg] at full
      rcases shadows.same peer with same | ⟨gone, _⟩
      · exact .inr ⟨forgotten, level, same.symm.trans stored, full⟩
      · rw [stored] at gone
        cases gone
  known := shadows.known
  unknown := shadows.unknown

theorem Shadows.sound_swept (shadows : Shadows swept unswept clock past) : swept.Sound clock := by
  intro peer level stored
  rw [shadows.cfg]
  rcases shadows.same peer with same | ⟨gone, _⟩
  · exact shadows.sound peer level (same ▸ stored)
  · rw [gone] at stored
    cases stored

theorem RateLimiter.Sound.takeUnswept {limiter next : RateLimiter} {now : Instant} {peer : IpAddr}
    {admitted : Bool} (sound : limiter.Sound now.nanos)
    (taken : limiter.takeUnswept peer now = some (next, admitted)) :
    next.cfg = limiter.cfg ∧ next.Sound now.nanos := by
  obtain ⟨found, foundTaken, sameCfg, levels⟩ := RateLimiter.takeUnswept_level sound peer
  rw [taken] at foundTaken
  cases foundTaken
  refine ⟨sameCfg, ?_⟩
  intro other level stored
  rw [levels] at stored
  rw [sameCfg]
  split at stored
  · cases stored
    have left := limiter.cfg.rule.take_leaves fun bucket stored =>
      (sound peer bucket stored).2
    exact ⟨left.1, left.2.1⟩
  · exact sound other level stored

/-- In phase, the old bucket and the new one are alike at the call. -/
theorem refill_in_phase {rule : TokenBucket.Rule} {level : TokenBucket.Level} {now : Nat}
    (full : (rule.refill level now).tokens = rule.capacity) (reached : level.anchor ≤ now)
    (inPhase : rule.period ∣ now - level.anchor) : rule.refill level now = rule.fresh now := by
  have anchor : (rule.refill level now).anchor = now := by
    simp only [TokenBucket.Rule.refill, TokenBucket.Rule.periods, Nat.div_mul_cancel inPhase]
    omega
  generalize rule.refill level now = refilled at full anchor
  cases refilled
  cases full
  cases anchor
  rfl

/-- One call to each limiter. A peer whose bucket was dropped comes back in phase. -/
theorem Shadows.step {peer : IpAddr} {now : Instant}
    (shadows : Shadows swept unswept now.nanos past)
    (inPhase : (swept.sweep now).level peer = none →
      ∀ first ∈ firstCall past peer, nanosPerSec ∣ now.nanos - first.nanos) :
    ∃ nextSwept nextUnswept admitted, swept.tryTake peer now = some (nextSwept, admitted) ∧
      unswept.takeUnswept peer now = some (nextUnswept, admitted) ∧
      Shadows nextSwept nextUnswept now.nanos (past ++ [(peer, now)]) := by
  have beside := shadows.sweep
  obtain ⟨nextSwept, takenSwept, cfgSwept, levelsSwept⟩ :=
    RateLimiter.takeUnswept_level beside.sound_swept peer
  obtain ⟨nextUnswept, takenUnswept, cfgUnswept, levelsUnswept⟩ :=
    RateLimiter.takeUnswept_level shadows.sound peer
  -- Both calls start from the same refilled bucket.
  have alike : unswept.cfg.rule.take ((swept.sweep now).level peer) now.nanos =
      unswept.cfg.rule.take (unswept.level peer) now.nanos := by
    rcases beside.same peer with same | ⟨gone, level, stored, full⟩
    · rw [same]
    · obtain ⟨first, called⟩ : ∃ first, firstCall past peer = some first := by
        refine Option.ne_none_iff_exists'.mp fun uncalled => ?_
        rw [shadows.unknown peer uncalled] at stored
        cases stored
      obtain ⟨known, again, before, phase, _⟩ := shadows.known peer first called
      obtain rfl : level = known := Option.some_inj.mp (stored.symm.trans again)
      have reached := (shadows.sound peer _ again).2
      have whole : nanosPerSec ∣ now.nanos - level.anchor := by
        have difference := Nat.dvd_sub (inPhase gone first called) phase
        rwa [show now.nanos - first.nanos - (level.anchor - first.nanos) =
          now.nanos - level.anchor by omega] at difference
      rw [gone, stored, TokenBucket.Rule.take, TokenBucket.Rule.take, Option.getD_none,
        Option.getD_some, TokenBucket.Rule.refill_fresh, refill_in_phase full reached whole]
  rw [beside.cfg, alike] at takenSwept levelsSwept
  refine ⟨nextSwept, nextUnswept, _, takenSwept, takenUnswept, ?_⟩
  have left := unswept.cfg.rule.take_leaves fun bucket stored =>
    (shadows.sound peer bucket stored).2
  refine ⟨(cfgSwept.trans beside.cfg).trans cfgUnswept.symm,
    (shadows.sound.takeUnswept takenUnswept).2, ?_, ?_, ?_⟩
  · intro other
    rw [levelsSwept, levelsUnswept, cfgUnswept]
    split
    · exact .inl rfl
    · exact beside.same other
  · intro other first called
    rw [firstCall_snoc] at called
    rw [levelsUnswept, cfgUnswept]
    by_cases same : other = peer
    · subst same
      rw [if_pos rfl] at called ⊢
      refine ⟨_, rfl, ?_⟩
      rw [(unswept.cfg.rule.take_spec _ _).1]
      refine and_assoc.mp ⟨?_, left.2.2⟩
      cases known : firstCall past other with
      | none =>
          rw [known, Option.none_or, Option.some_inj] at called
          rw [shadows.unknown other known, Option.getD_none, TokenBucket.Rule.refill_fresh, called]
          simp [TokenBucket.Rule.fresh]
      | some earlier =>
          rw [known, Option.some_or, Option.some_inj] at called
          subst called
          obtain ⟨level, stored, before, phase, _⟩ := shadows.known other earlier known
          rw [stored, Option.getD_some]
          simp only [TokenBucket.Rule.refill]
          refine ⟨by omega, ?_⟩
          rw [Nat.sub_add_comm before]
          exact Nat.dvd_add phase (Nat.dvd_mul_left nanosPerSec _)
    · rw [if_neg (Ne.symm same), Option.or_none] at called
      rw [if_neg same]
      exact shadows.known other first called
  · intro other uncalled
    rw [firstCall_snoc, Option.or_eq_none_iff] at uncalled
    have different : other ≠ peer := by
      rintro rfl
      rw [if_pos rfl] at uncalled
      cases uncalled.2
    rw [levelsUnswept, if_neg different]
    exact shadows.unknown other uncalled.1

/-- In phase, the two limiters give the same results, and stay beside each other. -/
theorem ReturnsInPhase.shadows {cfg : RateLimitConfig} {calls : List (IpAddr × Instant)}
    (inPhase : ReturnsInPhase cfg calls) (ordered : Ordered calls)
    (past : ∀ call ∈ calls, call.2.nanos ≤ clock) :
    ∃ swept unswept results, takeAll RateLimiter.tryTake (.new cfg) calls =
      some (swept, results) ∧
      takeAll RateLimiter.takeUnswept (.new cfg) calls = some (unswept, results) ∧
      unswept.cfg = cfg ∧ Shadows swept unswept clock calls := by
  induction calls using List.reverseRecOn generalizing clock with
  | nil => exact ⟨_, _, [], rfl, rfl, rfl, Shadows.new cfg clock⟩
  | append_singleton calls call inductionHypothesis =>
      obtain ⟨peer, now⟩ := call
      obtain ⟨earlier, _, before⟩ := List.pairwise_append.mp ordered
      obtain ⟨swept, unswept, results, runSwept, runUnswept, sameCfg, shadows⟩ :=
        inductionHypothesis inPhase.init earlier
          fun call member => before call member (peer, now) (List.mem_singleton_self _)
      have phase : (swept.sweep now).level peer = none →
          ∀ first ∈ firstCall calls peer, nanosPerSec ∣ now.nanos - first.nanos := by
        intro gone
        exact inPhase calls peer now [] rfl swept results runSwept (Option.map_eq_none_iff.mp gone)
      obtain ⟨nextSwept, nextUnswept, admitted, takenSwept, takenUnswept, stepped⟩ :=
        shadows.step phase
      refine ⟨nextSwept, nextUnswept, results ++ [admitted], ?_, ?_, ?_, ?_⟩
      · rw [takeAll_append, runSwept]
        simp [takeAll, takenSwept]
      · rw [takeAll_append, runUnswept]
        simp [takeAll, takenUnswept]
      · exact (shadows.sound.takeUnswept takenUnswept).1.trans sameCfg
      · exact stepped.mono (past (peer, now) (List.mem_append_right _ (List.mem_singleton_self _)))

end Simulation

section Divergence

variable {limiter swept unswept : RateLimiter} {past : List (IpAddr × Instant)} {peer : IpAddr}
  {now : Instant} {level : TokenBucket.Level}

/-- A call less than a second after the anchor takes a token if there is one. -/
def Draws (take : TakeStep) : Prop :=
  ∀ {limiter : RateLimiter} {peer : IpAddr} {now : Instant} {level : TokenBucket.Level},
    limiter.Sound now.nanos → limiter.level peer = some level →
      now.nanos < level.anchor + nanosPerSec →
        ∃ next, take limiter peer now = some (next, decide (0 < level.tokens)) ∧
          next.cfg = limiter.cfg ∧ next.Sound now.nanos ∧
          next.level peer = some { level with tokens := level.tokens - 1 }

theorem takeUnswept_draws : Draws RateLimiter.takeUnswept := by
  intro limiter peer now level sound stored recent
  obtain ⟨next, taken, sameCfg, levels⟩ := RateLimiter.takeUnswept_level sound peer
  have none : limiter.cfg.rule.periods level now.nanos = 0 := by
    refine Nat.div_eq_of_lt (show now.nanos - level.anchor < nanosPerSec from ?_)
    have second : 0 < nanosPerSec := by decide
    omega
  have kept : limiter.cfg.rule.refill level now.nanos = level := by
    rw [TokenBucket.Rule.refill, none, Nat.zero_mul, Nat.zero_mul, Nat.add_zero, Nat.add_zero,
      Nat.min_eq_right (sound peer level stored).1]
  have draw : limiter.cfg.rule.take (some level) now.nanos =
      ({ level with tokens := level.tokens - 1 }, decide (0 < level.tokens)) := by
    rw [TokenBucket.Rule.take, Option.getD_some, kept]
    by_cases available : 0 < level.tokens
    · rw [if_pos available, decide_eq_true available]
    · rw [if_neg available, decide_eq_false available, Nat.eq_zero_of_not_pos available]
      cases level
      cases Nat.eq_zero_of_not_pos available
      rfl
  rw [stored, draw] at taken levels
  exact ⟨next, taken, sameCfg, (sound.takeUnswept taken).2, by rw [levels, if_pos rfl]⟩

theorem tryTake_draws : Draws RateLimiter.tryTake := by
  intro limiter peer now level sound stored recent
  have kept : (limiter.sweep now).level peer = some level := by
    rcases limiter.sweep_level now peer with kept | ⟨dropped, found, _, _, idle⟩
    · exact kept.trans stored
    · rw [stored] at found
      cases found
      rw [idleTtl] at idle
      have second : 0 < nanosPerSec := by decide
      omega
  rw [← limiter.sweep_cfg now]
  exact takeUnswept_draws (sound.sweep now) kept recent

/-- As many calls at one instant as there are tokens. -/
theorem Draws.takeAll {take : TakeStep} (draws : Draws take) {count : Nat}
    (sound : limiter.Sound now.nanos) (stored : limiter.level peer = some level)
    (recent : now.nanos < level.anchor + nanosPerSec) (enough : count ≤ level.tokens) :
    ∃ final, takeAll take limiter (List.replicate count (peer, now)) =
        some (final, List.replicate count true) ∧
      final.cfg = limiter.cfg ∧ final.Sound now.nanos ∧
      final.level peer = some { level with tokens := level.tokens - count } := by
  induction count generalizing limiter level with
  | zero => exact ⟨limiter, rfl, rfl, sound, stored⟩
  | succ count inductionHypothesis =>
      obtain ⟨next, taken, cfgNext, soundNext, left⟩ := draws sound stored recent
      rw [decide_eq_true (by omega : 0 < level.tokens)] at taken
      obtain ⟨final, run, cfgFinal, soundFinal, rest⟩ :=
        inductionHypothesis soundNext left recent (show count ≤ level.tokens - 1 by omega)
      refine ⟨final, ?_, cfgFinal.trans cfgNext, soundFinal, ?_⟩
      · simp [List.replicate_succ, Gateway.takeAll, taken, run]
      · rw [rest]
        simp only [Nat.sub_sub, Nat.add_comm]

/-- A call that finds a full bucket, or starts one, takes a token from it. -/
theorem takeUnswept_full (peer : IpAddr) (refilled : TokenBucket.Level)
    (sound : limiter.Sound now.nanos) (positive : 0 < limiter.cfg.rule.capacity)
    (refills : limiter.cfg.rule.refill ((limiter.level peer).getD
      (limiter.cfg.rule.fresh now.nanos)) now.nanos = refilled)
    (full : refilled.tokens = limiter.cfg.rule.capacity) :
    ∃ next, limiter.takeUnswept peer now = some (next, true) ∧ next.cfg = limiter.cfg ∧
      next.Sound now.nanos ∧
      next.level peer = some { refilled with tokens := limiter.cfg.rule.capacity - 1 } := by
  obtain ⟨next, taken, sameCfg, levels⟩ := RateLimiter.takeUnswept_level sound peer
  have draw : limiter.cfg.rule.take (limiter.level peer) now.nanos =
      ({ refilled with tokens := limiter.cfg.rule.capacity - 1 }, true) := by
    rw [TokenBucket.Rule.take, refills, full, if_pos positive]
  rw [draw] at taken levels
  exact ⟨next, taken, sameCfg, (sound.takeUnswept taken).2, by rw [levels, if_pos rfl]⟩

/-- The refilled anchor of a bucket that was never dropped is one second before the next
instant in phase with the first call. -/
theorem next_second {rule : TokenBucket.Rule} {first now tick : Nat}
    (before : first ≤ level.anchor)
    (anchored : rule.period ∣ level.anchor - first) (reached : level.anchor ≤ now)
    (after : now < tick) (soon : tick < now + rule.period) (phase : rule.period ∣ tick - first) :
    (rule.refill level now).anchor + rule.period = tick := by
  obtain ⟨past, recent⟩ := rule.refill_recent reached
  have aligned : rule.period ∣ (rule.refill level now).anchor - first := by
    simp only [TokenBucket.Rule.refill]
    rw [Nat.sub_add_comm before]
    exact Nat.dvd_add anchored (Nat.dvd_mul_left rule.period _)
  have later : first ≤ (rule.refill level now).anchor :=
    Nat.le_trans before (Nat.le_add_right _ _)
  generalize (rule.refill level now).anchor = anchor at *
  obtain ⟨count, distance⟩ : rule.period ∣ tick - anchor := by
    have difference := Nat.dvd_sub phase aligned
    rwa [show tick - first - (anchor - first) = tick - anchor by omega] at difference
  have above : 0 < count := by
    refine Nat.pos_of_ne_zero ?_
    rintro rfl
    omega
  have below : count < 2 := by
    refine Nat.lt_of_mul_lt_mul_left (a := rule.period) ?_
    omega
  rw [show count = 1 by omega, Nat.mul_one] at distance
  omega

/-- A peer comes back out of phase after its bucket was dropped, and empties it. At its
old bucket's next second the old bucket has a token and the new one has none. -/
theorem Shadows.diverges {first tick : Instant} (shadows : Shadows swept unswept now.nanos past)
    (positive : 0 < unswept.cfg.rule.capacity) (gone : (swept.sweep now).level peer = none)
    (called : firstCall past peer = some first) (after : now.nanos < tick.nanos)
    (soon : tick.nanos < now.nanos + nanosPerSec)
    (phase : nanosPerSec ∣ tick.nanos - first.nanos) : ∃ results finalSwept finalUnswept,
      takeAll RateLimiter.tryTake swept ((peer, now) ::
        (List.replicate (unswept.cfg.rule.capacity - 1) (peer, now) ++ [(peer, tick)])) =
          some (finalSwept, results ++ [false]) ∧
      takeAll RateLimiter.takeUnswept unswept ((peer, now) ::
        (List.replicate (unswept.cfg.rule.capacity - 1) (peer, now) ++ [(peer, tick)])) =
          some (finalUnswept, results ++ [true]) := by
  obtain ⟨level, stored, before, anchored, less⟩ := shadows.known peer first called
  have full : (unswept.cfg.rule.refill level now.nanos).tokens = unswept.cfg.rule.capacity := by
    rcases shadows.sweep.same peer with same | ⟨_, found, again, full⟩
    · rw [gone, stored] at same
      cases same
    · rw [stored] at again
      cases again
      exact full
  have reached := (shadows.sound peer level stored).2
  have next : (unswept.cfg.rule.refill level now.nanos).anchor + nanosPerSec = tick.nanos :=
    next_second before anchored reached after soon phase
  have rate : 0 < unswept.cfg.rule.rate := by
    refine Nat.pos_of_ne_zero fun zero => ?_
    have short := less positive
    simp only [TokenBucket.Rule.refill, zero, Nat.mul_zero, Nat.add_zero] at full
    omega
  -- The limiter that sweeps starts a new bucket, and is left with nothing.
  have beside := shadows.sweep
  obtain ⟨started, takenSwept, _, soundStarted, newLevel⟩ :=
    takeUnswept_full peer (unswept.cfg.rule.fresh now.nanos)
      beside.sound_swept (beside.cfg ▸ positive)
      (by rw [gone, beside.cfg]; exact TokenBucket.Rule.refill_fresh _) (by rw [beside.cfg]; rfl)
  rw [beside.cfg] at newLevel
  obtain ⟨emptySwept, runSwept, _, soundSwept, leftSwept⟩ :=
    tryTake_draws.takeAll soundStarted newLevel (show now.nanos < now.nanos + nanosPerSec by omega)
    (Nat.le_refl (unswept.cfg.rule.capacity - 1))
  obtain ⟨finalSwept, lastSwept, _⟩ :=
    tryTake_draws (soundSwept.mono after.le) leftSwept soon
  rw [Nat.sub_self, decide_eq_false (Nat.lt_irrefl 0)] at lastSwept
  -- The other one takes from the old bucket.
  obtain ⟨drawn, takenUnswept, sameCfg, soundDrawn, oldLevel⟩ :=
    takeUnswept_full peer (unswept.cfg.rule.refill level now.nanos)
      shadows.sound positive (by rw [stored, Option.getD_some]) full
  obtain ⟨emptyUnswept, runUnswept, cfgUnswept, soundUnswept, leftUnswept⟩ :=
    takeUnswept_draws.takeAll soundDrawn oldLevel
      (show now.nanos < (unswept.cfg.rule.refill level now.nanos).anchor + nanosPerSec by omega)
      (Nat.le_refl (unswept.cfg.rule.capacity - 1))
  obtain ⟨finalUnswept, lastUnswept, _⟩ :=
    RateLimiter.takeUnswept_level (soundUnswept.mono after.le) peer
  rw [leftUnswept, cfgUnswept, sameCfg] at lastUnswept
  have refilled : (unswept.cfg.rule.take (some
      { tokens := unswept.cfg.rule.capacity - 1 - (unswept.cfg.rule.capacity - 1),
        anchor := (unswept.cfg.rule.refill level now.nanos).anchor }) tick.nanos).2 = true := by
    have elapsed : tick.nanos - (unswept.cfg.rule.refill level now.nanos).anchor = nanosPerSec := by
      omega
    have one : nanosPerSec / unswept.cfg.rule.period = 1 := Nat.div_self unswept.cfg.rule.positive
    rw [TokenBucket.Rule.take, Option.getD_some, if_pos]
    simp only [TokenBucket.Rule.refill, TokenBucket.Rule.periods] at elapsed ⊢
    rw [elapsed, one, Nat.one_mul]
    omega
  rw [refilled] at lastUnswept
  refine ⟨true :: List.replicate (unswept.cfg.rule.capacity - 1) true, finalSwept,
    finalUnswept, ?_, ?_⟩
  · change swept.tryTake peer now = some (started, true) at takenSwept
    simp [takeAll, takeAll_append, takenSwept, runSwept, lastSwept]
  · simp [takeAll, takeAll_append, takenUnswept, runUnswept, lastUnswept]

end Divergence

section Transparency

variable {cfg : RateLimitConfig} {calls : List (IpAddr × Instant)}

/-- Without capacity every call is refused, with or without sweeps. -/
theorem Keeps.refuses {take : TakeStep} (keeps : Keeps take) (ordered : Ordered calls)
    (none : cfg.capacity = 0) :
    resultsOf take cfg calls = some (List.replicate calls.length false) := by
  obtain ⟨final, results, run, sameLength, sameCfg, clock, tracks⟩ :=
    keeps.takeAll (.new cfg) ordered fun _ _ => Nat.zero_le _
  rw [resultsOf, run, Option.map_some, Option.some_inj]
  change results = _
  refine List.eq_replicate_iff.mpr ⟨sameLength, ?_⟩
  intro admitted member
  obtain ⟨index, bound, rfl⟩ := List.mem_iff_getElem.mp member
  have entry : (calls[index], results[index]) ∈ calls.zip results := by
    rw [← List.getElem_zip (h := by rw [List.length_zip]; omega)]
    exact List.getElem_mem _
  obtain ⟨last, _, history⟩ := tracks calls[index].1
  simp only [List.nil_append, sameCfg] at history
  have bounded := history.admits_at_most
    (show calls[index].2.nanos ≤ calls[index].2.nanos + 0 * nanosPerSec from Nat.le_add_right _ _)
  rw [show (RateLimiter.new cfg).cfg.rule.capacity = 0 from congrArg UInt32.toNat none,
    Nat.zero_mul, Nat.zero_add, Nat.le_zero, TokenBucket.admittedIn, List.countP_eq_zero] at bounded
  have refused := bounded (calls[index].2.nanos, results[index])
    (List.mem_filterMap.mpr ⟨_, entry, by rw [if_pos rfl]⟩)
  simpa using refused

/-- The calls that tell the two limiters apart come in order. -/
theorem ordered_burst {peer : IpAddr} {now tick : Instant} (ordered : Ordered calls)
    (before : ∀ call ∈ calls, call.2.nanos ≤ now.nanos) (after : now.nanos < tick.nanos)
    (count : Nat) :
    Ordered (calls ++ (peer, now) :: (List.replicate count (peer, now) ++ [(peer, tick)])) := by
  refine List.pairwise_append.mpr ⟨ordered, List.pairwise_cons.mpr ⟨?_, ?_⟩, ?_⟩
  · intro call member
    rcases List.mem_append.mp member with same | last
    · rw [(List.mem_replicate.mp same).2]
    · rw [List.mem_singleton.mp last]
      exact after.le
  · refine List.pairwise_append.mpr ⟨?_, List.pairwise_singleton _ _, ?_⟩
    · exact List.pairwise_replicate.mpr (.inr (Nat.le_refl _))
    · intro call member last final
      rw [(List.mem_replicate.mp member).2, List.mem_singleton.mp final]
      exact after.le
  · intro call member later final
    have reached : now.nanos ≤ later.2.nanos := by
      rcases List.mem_cons.mp final with rfl | final
      · exact Nat.le_refl _
      rcases List.mem_append.mp final with same | last
      · rw [(List.mem_replicate.mp same).2]
      · rw [List.mem_singleton.mp last]
        exact after.le
    exact Nat.le_trans (before call member) reached

/-- The results of the calls before and of those after a return out of phase. -/
theorem Shadows.results_differ {swept unswept : RateLimiter} {results : List Bool} {peer : IpAddr}
    {first now tick : Instant} (shadows : Shadows swept unswept now.nanos calls)
    (runSwept : takeAll RateLimiter.tryTake (.new cfg) calls = some (swept, results))
    (runUnswept : takeAll RateLimiter.takeUnswept (.new cfg) calls = some (unswept, results))
    (positive : 0 < unswept.cfg.rule.capacity) (gone : (swept.sweep now).level peer = none)
    (called : firstCall calls peer = some first) (after : now.nanos < tick.nanos)
    (soon : tick.nanos < now.nanos + nanosPerSec)
    (phase : nanosPerSec ∣ tick.nanos - first.nanos) :
    resultsOf RateLimiter.tryTake cfg (calls ++ (peer, now) ::
        (List.replicate (unswept.cfg.rule.capacity - 1) (peer, now) ++ [(peer, tick)])) ≠
      resultsOf RateLimiter.takeUnswept cfg (calls ++ (peer, now) ::
        (List.replicate (unswept.cfg.rule.capacity - 1) (peer, now) ++ [(peer, tick)])) := by
  obtain ⟨more, finalSwept, finalUnswept, laterSwept, laterUnswept⟩ :=
    shadows.diverges positive gone called after soon phase
  rw [resultsOf, resultsOf, takeAll_append, takeAll_append, runSwept, runUnswept]
  simp only [Option.bind_some, laterSwept, laterUnswept, Option.map_some, ne_eq, Option.some_inj,
    ← List.append_assoc]
  intro same
  have last := (List.append_inj' same rfl).2
  simp at last

/-- The next instant in phase with an earlier one. -/
theorem next_in_phase {first now : Instant} (past : first.nanos ≤ now.nanos)
    (off : ¬ nanosPerSec ∣ now.nanos - first.nanos)
    (room : now.nanos + nanosPerSec < 2 ^ 64 * nanosPerSec) :
    ∃ tick : Instant, now.nanos < tick.nanos ∧ tick.nanos < now.nanos + nanosPerSec ∧
      nanosPerSec ∣ tick.nanos - first.nanos := by
  have below := Nat.mod_lt (now.nanos - first.nanos) (show 0 < nanosPerSec by decide)
  have above : 0 < (now.nanos - first.nanos) % nanosPerSec :=
    Nat.pos_of_ne_zero fun zero => off (Nat.dvd_of_mod_eq_zero zero)
  refine ⟨⟨now.nanos + nanosPerSec - (now.nanos - first.nanos) % nanosPerSec, by omega⟩,
    ?_, ?_, ?_⟩
  · show now.nanos < now.nanos + nanosPerSec - _
    omega
  · show now.nanos + nanosPerSec - _ < now.nanos + nanosPerSec
    omega
  · refine ⟨(now.nanos - first.nanos) / nanosPerSec + 1, ?_⟩
    have whole := Nat.div_add_mod (now.nanos - first.nanos) nanosPerSec
    rw [Nat.mul_add, Nat.mul_one]
    show now.nanos + nanosPerSec - _ - first.nanos = _
    omega

/-- The first call out of phase. -/
theorem ReturnsInPhase.snoc {peer : IpAddr} {now : Instant} (inPhase : ReturnsInPhase cfg calls)
    (last : ∀ limiter results, takeAll RateLimiter.tryTake (.new cfg) calls =
      some (limiter, results) → (limiter.sweep now).buckets.get? peer = none →
        ∀ first ∈ firstCall calls peer, nanosPerSec ∣ now.nanos - first.nanos) :
    ReturnsInPhase cfg (calls ++ [(peer, now)]) := by
  intro before caller moment after split
  rcases List.eq_nil_or_concat after with rfl | ⟨more, final, rfl⟩
  · obtain ⟨rfl, same⟩ := List.append_inj' split rfl
    cases same
    exact last
  · rw [List.concat_eq_append, ← List.cons_append, ← List.append_assoc] at split
    exact inPhase before caller moment more (List.append_inj' split rfl).1

/-- As long as peers come back in phase the sweeps cannot be seen; after the first return
out of phase some later calls tell them apart. -/
theorem sweep_transparent (cfg : RateLimitConfig) (calls : List (IpAddr × Instant))
    (ordered : Ordered calls) :
    (cfg.capacity = 0 ∨ ReturnsInPhase cfg calls →
      ∃ results, resultsOf RateLimiter.tryTake cfg calls = some results ∧
        resultsOf RateLimiter.takeUnswept cfg calls = some results) ∧
    (cfg.capacity ≠ 0 → ReturnsInPhase cfg calls →
      ∀ (peer : IpAddr) (now : Instant), Ordered (calls ++ [(peer, now)]) →
        now.nanos + nanosPerSec < 2 ^ 64 * nanosPerSec →
        ¬ ReturnsInPhase cfg (calls ++ [(peer, now)]) →
          ∃ later, Ordered (calls ++ (peer, now) :: later) ∧
            resultsOf RateLimiter.tryTake cfg (calls ++ (peer, now) :: later) ≠
              resultsOf RateLimiter.takeUnswept cfg (calls ++ (peer, now) :: later)) := by
  constructor
  · rintro (none | inPhase)
    · exact ⟨_, tryTake_keeps.refuses ordered none, takeUnswept_keeps.refuses ordered none⟩
    · have past : ∀ call ∈ calls, call.2.nanos ≤ 2 ^ 64 * nanosPerSec :=
        fun call _ => call.2.shown.le
      obtain ⟨swept, unswept, results, runSwept, runUnswept, _⟩ := inPhase.shadows ordered past
      refine ⟨results, ?_, ?_⟩
      · rw [resultsOf, runSwept, Option.map_some]
      · rw [resultsOf, runUnswept, Option.map_some]
  · intro capacity inPhase peer now extended room drifted
    have before : ∀ call ∈ calls, call.2.nanos ≤ now.nanos := fun call member =>
      (List.pairwise_append.mp extended).2.2 call member _ (List.mem_singleton_self _)
    obtain ⟨swept, unswept, results, runSwept, runUnswept, sameCfg, shadows⟩ :=
      inPhase.shadows ordered before
    obtain ⟨first, called, gone, off⟩ : ∃ first, firstCall calls peer = some first ∧
        (swept.sweep now).level peer = none ∧ ¬ nanosPerSec ∣ now.nanos - first.nanos := by
      by_contra never
      refine drifted (inPhase.snoc ?_)
      intro limiter outcomes run absent first called
      rw [runSwept] at run
      cases run
      by_contra off
      exact never ⟨first, called, Option.map_eq_none_iff.mpr absent, off⟩
    obtain ⟨level, stored, started, _⟩ := shadows.known peer first called
    have past := Nat.le_trans started (shadows.sound peer level stored).2
    obtain ⟨tick, after, soon, phase⟩ := next_in_phase past off room
    refine ⟨_, ordered_burst ordered before after _,
      shadows.results_differ runSwept runUnswept ?_ gone called after soon phase⟩
    rw [sameCfg]
    exact Nat.pos_of_ne_zero fun zero => capacity (UInt32.toNat_inj.mp zero)

/-- A sweep of a crowded limiter drops a full and idle bucket. -/
theorem RateLimiter.sweep_forgets {limiter : RateLimiter} {now : Instant} {peer : IpAddr}
    {level : TokenBucket.Level} (crowded : gcThreshold < limiter.buckets.len)
    (stored : limiter.level peer = some level)
    (full : (limiter.cfg.rule.refill level now.nanos).tokens = limiter.cfg.rule.capacity)
    (idle : idleTtl < now.nanos - level.anchor) : (limiter.sweep now).level peer = none := by
  obtain ⟨bucket, found, rfl⟩ := Option.map_eq_some_iff.mp stored
  have stale : isStale limiter.cfg now bucket = true := isStale_iff.mpr ⟨full, idle⟩
  rw [sweep, if_pos crowded, RateLimiter.level, maybeGc, KeyedMap.get?_retain, found]
  simp [stale]

/-- More peers than the limiter keeps without a sweep, each calling once, half a second
after the earliest instant. -/
def crowd : List (IpAddr × Instant) :=
  (List.range (gcThreshold + 1)).map fun number =>
    (.v4 (BitVec.ofNat 32 number), ⟨500000000, by decide⟩)

theorem crowd_ordered : Ordered crowd := by
  refine List.pairwise_map.mpr (List.Pairwise.imp ?_ List.nodup_range)
  exact fun _ => Nat.le_refl _

theorem crowd_distinct : (crowd.map Prod.fst).Nodup := by
  rw [crowd, List.map_map]
  refine List.nodup_range.map_on ?_
  intro left member right other same
  rw [List.mem_range, gcThreshold] at member other
  have bits := congrArg BitVec.toNat (IpAddr.v4.inj same)
  rw [BitVec.toNat_ofNat, BitVec.toNat_ofNat] at bits
  omega

/-- Nobody in the crowd has called before. -/
theorem crowd_inPhase (cfg : RateLimitConfig) : ReturnsInPhase cfg crowd := by
  intro before peer now after split limiter results run absent first called
  have distinct := crowd_distinct
  rw [split, List.map_append, List.map_cons] at distinct
  have fresh := (List.nodup_append.mp distinct).2.2
  obtain ⟨call, found, _⟩ := Option.map_eq_some_iff.mp called
  have same := List.find?_some found
  simp only [decide_eq_true_eq] at same
  exact absurd same (fresh call.1 (List.mem_map_of_mem (List.mem_of_find?_eq_some found)) peer
    (List.mem_cons_self ..))

theorem mem_crowd {number : Nat} (within : number ≤ gcThreshold) :
    .v4 (BitVec.ofNat 32 number) ∈ crowd.map Prod.fst := by
  rw [crowd, List.map_map]
  exact List.mem_map.mpr ⟨number, List.mem_range.mpr (Nat.lt_succ_of_le within), rfl⟩

theorem first_mem_crowd : .v4 0 ∈ crowd.map Prod.fst := mem_crowd (Nat.zero_le _)

theorem crowd_firstCall {peer : IpAddr} (member : peer ∈ crowd.map Prod.fst) :
    firstCall crowd peer = some ⟨500000000, by decide⟩ := by
  obtain ⟨call, present, rfl⟩ := List.mem_map.mp member
  obtain ⟨found, first⟩ := Option.isSome_iff_exists.mp
    (List.find?_isSome (p := fun candidate => decide (candidate.1 = call.1)) |>.mpr
      ⟨call, present, decide_eq_true rfl⟩)
  rw [firstCall, first, Option.map_some, Option.some_inj]
  obtain ⟨_, _, rfl⟩ := List.mem_map.mp (List.mem_of_find?_eq_some first)
  rfl

/-- The buckets of the crowd are all kept, and are empty. -/
theorem Shadows.crowd_level {cfg : RateLimitConfig} {swept unswept : RateLimiter} {peer : IpAddr}
    (shadows : Shadows swept unswept 500000000 crowd) (sameCfg : unswept.cfg = cfg)
    (single : cfg.capacity = 1) (member : peer ∈ crowd.map Prod.fst) :
    swept.level peer = some { tokens := 0, anchor := 500000000 } := by
  subst sameCfg
  have capacity : unswept.cfg.rule.capacity = 1 := congrArg UInt32.toNat single
  obtain ⟨level, stored, before, _, less⟩ := shadows.known peer _ (crowd_firstCall member)
  have reached := (shadows.sound peer level stored).2
  obtain ⟨tokens, anchor⟩ := level
  obtain rfl : anchor = 500000000 := Nat.le_antisymm reached before
  obtain rfl : tokens = 0 := by
    rw [capacity] at less
    exact Nat.lt_one_iff.mp (less Nat.one_pos)
  rcases shadows.same peer with same | ⟨_, level, again, full⟩
  · exact same.trans stored
  · rw [stored] at again
    cases again
    simp [TokenBucket.Rule.refill, TokenBucket.Rule.periods, capacity] at full

/-- Whoever of the crowd comes back after more than five minutes is forgotten. -/
theorem Shadows.crowd_gone {cfg : RateLimitConfig} {swept unswept : RateLimiter} {peer : IpAddr}
    {now : Instant} (shadows : Shadows swept unswept 500000000 crowd) (sameCfg : unswept.cfg = cfg)
    (single : cfg = { capacity := 1, refillPerSec := 1 }) (member : peer ∈ crowd.map Prod.fst)
    (idle : idleTtl < now.nanos - 500000000) : (swept.sweep now).level peer = none := by
  have rule : swept.cfg = { capacity := 1, refillPerSec := 1 } := by
    rw [shadows.cfg, sameCfg, single]
  have kept : ∀ peer ∈ crowd.map Prod.fst,
      swept.level peer = some { tokens := 0, anchor := 500000000 } :=
    fun peer member => shadows.crowd_level sameCfg (by rw [single]) member
  have crowded : gcThreshold < swept.buckets.len := by
    have included : crowd.map Prod.fst ⊆ swept.buckets.keys := by
      intro peer member
      obtain ⟨bucket, found, _⟩ := Option.map_eq_some_iff.mp (kept peer member)
      exact KeyedMap.mem_keys_iff.mpr ⟨bucket, found⟩
    have most := (List.subperm_of_subset crowd_distinct included).length_le
    rw [List.length_map, crowd, List.length_map, List.length_range, KeyedMap.keys, List.length_map]
      at most
    exact most
  refine RateLimiter.sweep_forgets crowded (kept peer member) ?_ idle
  have passed : 1 ≤ (now.nanos - 500000000) / nanosPerSec := by
    rw [idleTtl] at idle
    rw [Nat.le_div_iff_mul_le (by decide)]
    omega
  rw [rule]
  simpa [TokenBucket.Rule.refill, TokenBucket.Rule.periods, RateLimitConfig.rule] using passed

theorem crowd_past : ∀ call ∈ crowd, call.2.nanos ≤ 500000000 := by
  intro call member
  obtain ⟨_, _, rfl⟩ := List.mem_map.mp member
  exact Nat.le_refl _

/-- A call leaves the buckets of others as the sweep left them. -/
theorem RateLimiter.tryTake_other {limiter next : RateLimiter} {peer other : IpAddr} {now : Instant}
    {admitted : Bool} (sound : (limiter.sweep now).Sound now.nanos)
    (taken : limiter.tryTake peer now = some (next, admitted)) (different : other ≠ peer) :
    next.level other = (limiter.sweep now).level other := by
  obtain ⟨found, foundTaken, _, levels⟩ := takeUnswept_level sound peer
  rw [tryTake, foundTaken] at taken
  cases taken
  rw [levels, if_neg different]

/-- The crowd, and the first of it again, a whole number of seconds later. -/
def crowdAndReturn : List (IpAddr × Instant) := crowd ++ [(.v4 0, ⟨301500000000, by decide⟩)]

theorem crowdAndReturn_ordered : Ordered crowdAndReturn := by
  refine List.pairwise_append.mpr ⟨crowd_ordered, List.pairwise_singleton _ _, ?_⟩
  intro call member last final
  rw [List.mem_singleton.mp final]
  exact Nat.le_trans (crowd_past call member) (by decide)

theorem crowdAndReturn_inPhase (cfg : RateLimitConfig) : ReturnsInPhase cfg crowdAndReturn := by
  refine (crowd_inPhase cfg).snoc ?_
  intro limiter outcomes _ _ first called
  rw [crowd_firstCall first_mem_crowd] at called
  cases called
  decide

/-- The sweep at that return forgot the whole crowd, so that the second of it, half a second
later, is out of phase. -/
theorem crowdAndReturn_forgets {cfg : RateLimitConfig} {limiter : RateLimiter}
    {results : List Bool} (single : cfg = { capacity := 1, refillPerSec := 1 })
    (run : takeAll RateLimiter.tryTake (.new cfg) crowdAndReturn = some (limiter, results)) :
    (limiter.sweep ⟨302000000000, by decide⟩).level (.v4 1) = none := by
  obtain ⟨swept, unswept, before, runSwept, _, sameCfg, shadows⟩ :=
    (crowd_inPhase cfg).shadows crowd_ordered crowd_past
  have gone : (swept.sweep ⟨301500000000, by decide⟩).level (.v4 1) = none :=
    shadows.crowd_gone sameCfg single (mem_crowd (by decide)) (by decide)
  have later : Shadows swept unswept (⟨301500000000, by decide⟩ : Instant).nanos crowd :=
    shadows.mono (by decide)
  have sound := later.sweep.sound_swept
  rw [crowdAndReturn, takeAll_append, runSwept] at run
  obtain ⟨⟨next, more⟩, last, same⟩ := Option.map_eq_some_iff.mp run
  obtain ⟨⟨taken, admitted⟩, call, rest⟩ := Option.bind_eq_some_iff.mp last
  cases rest
  cases same
  have absent := (RateLimiter.tryTake_other sound call (by decide)).trans gone
  rcases limiter.sweep_level ⟨302000000000, by decide⟩ (.v4 1) with
    kept | ⟨level, stored, _⟩
  · exact kept.trans absent
  · rw [absent] at stored
    cases stored

/-- The first of the crowd comes back in phase after the sweep, the second out of phase. -/
theorem sweep_transparent_crowd :
    let cfg : RateLimitConfig := { capacity := 1, refillPerSec := 1 }
    let returning : IpAddr × Instant := (.v4 1, ⟨302000000000, by decide⟩)
    (∃ results, resultsOf RateLimiter.tryTake cfg crowdAndReturn = some results ∧
      resultsOf RateLimiter.takeUnswept cfg crowdAndReturn = some results) ∧
    ∃ later, Ordered (crowdAndReturn ++ returning :: later) ∧
      resultsOf RateLimiter.tryTake cfg (crowdAndReturn ++ returning :: later) ≠
        resultsOf RateLimiter.takeUnswept cfg (crowdAndReturn ++ returning :: later) := by
  intro cfg returning
  obtain ⟨agree, differ⟩ := sweep_transparent cfg crowdAndReturn crowdAndReturn_ordered
  refine ⟨agree (.inr (crowdAndReturn_inPhase cfg)), ?_⟩
  have past : ∀ call ∈ crowdAndReturn, call.2.nanos ≤ 301500000000 := by
    intro call member
    rcases List.mem_append.mp member with early | last
    · exact Nat.le_trans (crowd_past call early) (by decide)
    · rw [List.mem_singleton.mp last]
  refine differ (by decide) (crowdAndReturn_inPhase cfg) _ _ ?_ (by decide) ?_
  · refine List.pairwise_append.mpr ⟨crowdAndReturn_ordered, List.pairwise_singleton _ _, ?_⟩
    intro call member last final
    rw [List.mem_singleton.mp final]
    exact Nat.le_trans (past call member) (by decide)
  · intro inPhase
    obtain ⟨swept, _, results, run, _⟩ :=
      (crowdAndReturn_inPhase cfg).shadows crowdAndReturn_ordered past
    have second : firstCall crowd (.v4 1) = some ⟨500000000, by decide⟩ :=
      crowd_firstCall (mem_crowd (by decide))
    have first : firstCall crowdAndReturn (.v4 1) = some ⟨500000000, by decide⟩ := by
      rw [crowdAndReturn, firstCall_snoc, second]
      rfl
    have phase := inPhase crowdAndReturn _ _ [] rfl swept results run
      (Option.map_eq_none_iff.mp (crowdAndReturn_forgets rfl run)) _ first
    revert phase
    decide

/-- After the crowd, the first peer comes back half a second out of phase, and calls
again half a second later: the limiter that sweeps refuses that call. -/
theorem swept_bucket_differs :
    let cfg : RateLimitConfig := { capacity := 1, refillPerSec := 1 }
    let calls :=
      crowd ++ [(.v4 0, ⟨301000000000, by decide⟩), (.v4 0, ⟨301500000000, by decide⟩)]
    Ordered calls ∧
      resultsOf RateLimiter.tryTake cfg calls ≠ resultsOf RateLimiter.takeUnswept cfg calls := by
  intro cfg calls
  obtain ⟨swept, unswept, results, runSwept, runUnswept, sameCfg, shadows⟩ :=
    (crowd_inPhase cfg).shadows crowd_ordered crowd_past
  have gone : (swept.sweep ⟨301000000000, by decide⟩).level (.v4 0) = none :=
    shadows.crowd_gone sameCfg rfl first_mem_crowd (by decide)
  have capacity : unswept.cfg.rule.capacity = 1 := by rw [sameCfg]; rfl
  have after : (⟨301000000000, by decide⟩ : Instant).nanos <
      (⟨301500000000, by decide⟩ : Instant).nanos := by decide
  have differ := (shadows.mono (show 500000000 ≤ 301000000000 by decide)).results_differ runSwept
    runUnswept (by rw [capacity]; exact Nat.one_pos) gone (crowd_firstCall first_mem_crowd) after
      (by decide)
    (by decide)
  rw [capacity] at differ
  refine ⟨?_, differ⟩
  exact ordered_burst crowd_ordered (fun call found => Nat.le_trans (crowd_past call found)
    (by decide)) after 0

end Transparency

end CofreSoberano.Gateway
