import CofreSoberano.Gateway.AcceptLoop
import CofreSoberano.Gateway.Daemon
import CofreSoberano.Std.TokenBucket
import Mathlib.Algebra.Order.Archimedean.Real.Basic
import Mathlib.Algebra.Order.Floor.Semifield

/-!
# Admission control

The `AdmissionController` of a tenant: a semaphore for its concurrent sessions and a
token bucket for each source address. The integers are the source's own. An operation
that would panic on overflow returns `none` here, so that a result says that nothing
overflowed. Each bucket refines the bucket of `TokenBucket` with the tenant's rule.
-/

namespace CofreSoberano.Gateway

open CofreSoberano.Std

/-- `IpAddr`. -/
inductive IpAddr where
  | v4 (bits : BitVec 32)
  | v6 (bits : BitVec 128)
deriving DecidableEq, Repr

def nanosPerSec : Nat := 1000000000

/-- `Instant`, in nanoseconds since the earliest one; it has 64 bits for the seconds. -/
structure Instant where
  nanos : Nat
  shown : nanos < 2 ^ 64 * nanosPerSec
deriving DecidableEq

namespace Instant

/-- `saturating_duration_since`, in nanoseconds. -/
def saturatingDurationSince (instant earlier : Instant) : Nat := instant.nanos - earlier.nanos

/-- `Instant + Duration::from_secs`, which panics past the last instant. -/
def addSecs (instant : Instant) (secs : UInt64) : Option Instant :=
  if shown : instant.nanos + secs.toNat * nanosPerSec < 2 ^ 64 * nanosPerSec then
    some { nanos := instant.nanos + secs.toNat * nanosPerSec, shown }
  else none

end Instant

/-- `Duration::as_secs`. -/
def asSecs (nanos : Nat) : UInt64 := UInt64.ofNat (nanos / nanosPerSec)

/-- `u64::saturating_mul`. -/
def saturatingMul (left right : UInt64) : UInt64 :=
  UInt64.ofNat (min (left.toNat * right.toNat) (2 ^ 64 - 1))

/-- `u32::saturating_add`. -/
def saturatingAdd (left right : UInt32) : UInt32 :=
  UInt32.ofNat (min (left.toNat + right.toNat) (2 ^ 32 - 1))

/-- `u32` subtraction, which panics below zero. -/
def checkedSub (left right : UInt32) : Option UInt32 :=
  if right ≤ left then some (left - right) else none

/-- The tokens of a bucket after some whole seconds: `try_take` and `maybe_gc` compute
them alike. -/
def projectedTokens (cfg : RateLimitConfig) (tokens : UInt32) (secs : UInt64) : UInt32 :=
  let add := saturatingMul secs cfg.refillPerSec.toUInt64
  let sum := saturatingAdd tokens (if add ≤ 4294967295 then add else 4294967295).toUInt32
  if sum ≤ cfg.capacity then sum else cfg.capacity

structure Bucket where
  tokens : UInt32
  lastRefill : Instant
deriving DecidableEq

/-- The refill of `try_take`. -/
def Bucket.refill (cfg : RateLimitConfig) (bucket : Bucket) (now : Instant) : Option Bucket :=
  let elapsed := now.saturatingDurationSince bucket.lastRefill
  if nanosPerSec ≤ elapsed then do
    let secs := asSecs elapsed
    let lastRefill ← bucket.lastRefill.addSecs secs
    return { tokens := projectedTokens cfg bucket.tokens secs, lastRefill }
  else some bucket

structure RateLimiter where
  cfg : RateLimitConfig
  buckets : KeyedMap IpAddr Bucket

/-- `GC_THRESHOLD`. -/
def gcThreshold : Nat := 8192

/-- `IDLE_TTL`, in nanoseconds. -/
def idleTtl : Nat := 300 * nanosPerSec

namespace RateLimiter

/-- `RateLimiter::new`. -/
def new (cfg : RateLimitConfig) : RateLimiter := { cfg, buckets := .empty }

/-- What `maybe_gc` drops: buckets that are full and idle. -/
def isStale (cfg : RateLimitConfig) (now : Instant) (bucket : Bucket) : Bool :=
  let elapsed := now.saturatingDurationSince bucket.lastRefill
  let secs := asSecs elapsed
  let projected := if 0 < secs then projectedTokens cfg bucket.tokens secs else bucket.tokens
  projected = cfg.capacity && idleTtl < elapsed

/-- `RateLimiter::maybe_gc`. -/
def maybeGc (limiter : RateLimiter) (now : Instant) : RateLimiter :=
  { limiter with
    buckets := limiter.buckets.retain fun _ bucket => !isStale limiter.cfg now bucket }

/-- The buckets that `try_take` goes on with. -/
def sweep (limiter : RateLimiter) (now : Instant) : RateLimiter :=
  if gcThreshold < limiter.buckets.len then limiter.maybeGc now else limiter

/-- `try_take` without the sweep. -/
def takeUnswept (limiter : RateLimiter) (peer : IpAddr) (now : Instant) :
    Option (RateLimiter × Bool) := do
  let bucket :=
    (limiter.buckets.get? peer).getD { tokens := limiter.cfg.capacity, lastRefill := now }
  let bucket ← bucket.refill limiter.cfg now
  if 0 < bucket.tokens then
    let tokens ← checkedSub bucket.tokens 1
    return ({ limiter with buckets := limiter.buckets.insert peer { bucket with tokens } }, true)
  else return ({ limiter with buckets := limiter.buckets.insert peer bucket }, false)

/-- `RateLimiter::try_take`. -/
def tryTake (limiter : RateLimiter) (peer : IpAddr) (now : Instant) :
    Option (RateLimiter × Bool) :=
  (limiter.sweep now).takeUnswept peer now

end RateLimiter

/-- The rule of a configured bucket. -/
def RateLimitConfig.rule (cfg : RateLimitConfig) : TokenBucket.Rule where
  capacity := cfg.capacity.toNat
  rate := cfg.refillPerSec.toNat
  period := nanosPerSec
  positive := by decide

/-- The level of a bucket. -/
def Bucket.level (bucket : Bucket) : TokenBucket.Level where
  tokens := bucket.tokens.toNat
  anchor := bucket.lastRefill.nanos

/-- The level of a peer's bucket, if there is one. -/
def RateLimiter.level (limiter : RateLimiter) (peer : IpAddr) : Option TokenBucket.Level :=
  (limiter.buckets.get? peer).map Bucket.level

section Arithmetic

theorem asSecs_toNat (now earlier : Instant) :
    (asSecs (now.saturatingDurationSince earlier)).toNat =
    (now.nanos - earlier.nanos) / nanosPerSec := by
  have shown := now.shown
  rw [asSecs, Instant.saturatingDurationSince, UInt64.toNat_ofNat_of_lt']
  apply Nat.div_lt_of_lt_mul
  show now.nanos - earlier.nanos < 1000000000 * 18446744073709551616
  rw [nanosPerSec] at shown
  omega

theorem saturatingMul_toNat (left right : UInt64) :
    (saturatingMul left right).toNat = min (left.toNat * right.toNat) (2 ^ 64 - 1) := by
  rw [saturatingMul, UInt64.toNat_ofNat_of_lt']
  show _ < 18446744073709551616
  omega

theorem saturatingAdd_toNat (left right : UInt32) :
    (saturatingAdd left right).toNat = min (left.toNat + right.toNat) (2 ^ 32 - 1) := by
  rw [saturatingAdd, UInt32.toNat_ofNat_of_lt']
  show _ < 4294967296
  omega

/-- The conversion to 32 bits of `min` with the largest of them. -/
theorem cut_toNat (wide : UInt64) :
    (if wide ≤ 4294967295 then wide else 4294967295).toUInt32.toNat =
    min wide.toNat (2 ^ 32 - 1) := by
  have largest : (4294967295 : UInt64).toNat = 4294967295 := rfl
  have converted : (4294967295 : UInt64).toUInt32.toNat = 4294967295 := rfl
  split
  · rename_i fits
    rw [UInt64.le_iff_toNat_le] at fits
    rw [UInt64.toNat_toUInt32]
    omega
  · rename_i exceeds
    rw [UInt64.le_iff_toNat_le] at exceeds
    omega

/-- The saturating operations lose nothing that the capacity would not cut off. -/
theorem projectedTokens_toNat (cfg : RateLimitConfig) (tokens : UInt32) (secs : UInt64) :
    (projectedTokens cfg tokens secs).toNat =
      min cfg.capacity.toNat (tokens.toNat + secs.toNat * cfg.refillPerSec.toNat) := by
  have small := cfg.capacity.toNat_lt
  have sum := saturatingAdd_toNat tokens
    (if saturatingMul secs cfg.refillPerSec.toUInt64 ≤ 4294967295 then
      saturatingMul secs cfg.refillPerSec.toUInt64 else 4294967295).toUInt32
  rw [cut_toNat, saturatingMul_toNat, UInt32.toNat_toUInt64] at sum
  rw [projectedTokens, apply_ite UInt32.toNat]
  simp only [UInt32.le_iff_toNat_le, sum]
  split <;> omega

end Arithmetic

section Refinement

variable {cfg : RateLimitConfig} {limiter : RateLimiter} {now : Instant}

/-- A refill of a bucket is a refill of its level, and the new instant exists. -/
theorem Bucket.refill_level {bucket : Bucket} (within : bucket.tokens.toNat ≤ cfg.capacity.toNat)
    (reached : bucket.lastRefill.nanos ≤ now.nanos) :
    ∃ refilled, bucket.refill cfg now = some refilled ∧
      refilled.level = cfg.rule.refill bucket.level now.nanos := by
  have secs := asSecs_toNat now bucket.lastRefill
  have whole := Nat.div_mul_le_self (now.nanos - bucket.lastRefill.nanos) nanosPerSec
  have shown := now.shown
  rw [Bucket.refill]
  split
  · have shown : bucket.lastRefill.nanos +
        (asSecs (now.saturatingDurationSince bucket.lastRefill)).toNat * nanosPerSec <
          2 ^ 64 * nanosPerSec := by
      rw [secs]
      omega
    simp only [Instant.addSecs, dif_pos shown]
    refine ⟨_, rfl, ?_⟩
    simp only [level, TokenBucket.Rule.refill, TokenBucket.Rule.periods, RateLimitConfig.rule,
      projectedTokens_toNat, secs]
  · rename_i recent
    have none : (now.nanos - bucket.lastRefill.nanos) / nanosPerSec = 0 :=
      Nat.div_eq_of_lt (Nat.lt_of_not_le recent)
    refine ⟨bucket, rfl, ?_⟩
    simp only [level, TokenBucket.Rule.refill, TokenBucket.Rule.periods, RateLimitConfig.rule, none,
      Nat.zero_mul, Nat.add_zero, Nat.min_eq_right within]

/-- What `maybe_gc` drops would be filled by a refill. -/
theorem RateLimiter.isStale_iff {bucket : Bucket} :
    RateLimiter.isStale cfg now bucket = true ↔
      (cfg.rule.refill bucket.level now.nanos).tokens = cfg.rule.capacity ∧
        idleTtl < now.nanos - bucket.lastRefill.nanos := by
  simp only [isStale, Bool.and_eq_true, decide_eq_true_eq]
  refine and_congr_left fun idle => ?_
  have secs := asSecs_toNat now bucket.lastRefill
  have passed : 0 < asSecs (now.saturatingDurationSince bucket.lastRefill) := by
    rw [UInt64.lt_iff_toNat_lt, secs]
    refine Nat.div_pos ?_ (by decide)
    rw [Instant.saturatingDurationSince, idleTtl] at idle
    simp only [nanosPerSec] at idle ⊢
    omega
  rw [if_pos passed, ← UInt32.toNat_inj, projectedTokens_toNat, secs]
  rfl

namespace RateLimiter

/-- The bucket that the limiter goes on with. -/
theorem sweep_level (limiter : RateLimiter) (now : Instant) (peer : IpAddr) :
    (limiter.sweep now).level peer = limiter.level peer ∨
      ∃ level, limiter.level peer = some level ∧ (limiter.sweep now).level peer = none ∧
        (limiter.cfg.rule.refill level now.nanos).tokens = limiter.cfg.rule.capacity ∧
        idleTtl < now.nanos - level.anchor := by
  rw [sweep]
  split
  · simp only [level, maybeGc, KeyedMap.get?_retain]
    cases stored : limiter.buckets.get? peer with
    | none => exact .inl rfl
    | some bucket =>
        cases stale : isStale limiter.cfg now bucket with
        | false => exact .inl (by simp [stale])
        | true => exact .inr ⟨bucket.level, rfl, by simp [stale], isStale_iff.mp stale⟩
  · exact .inl rfl

@[simp] theorem sweep_cfg (limiter : RateLimiter) (now : Instant) :
    (limiter.sweep now).cfg = limiter.cfg := by
  rw [sweep]
  split <;> rfl

/-- A level that a refill can start from. -/
def Sound (limiter : RateLimiter) (clock : Nat) : Prop :=
  ∀ peer, ∀ level ∈ limiter.level peer,
    level.tokens ≤ limiter.cfg.rule.capacity ∧ level.anchor ≤ clock

theorem Sound.mono {clock later : Nat} (sound : limiter.Sound clock) (ordered : clock ≤ later) :
    limiter.Sound later := by
  intro peer level stored
  obtain ⟨within, reached⟩ := sound peer level stored
  exact ⟨within, Nat.le_trans reached ordered⟩

/-- A call takes from the level of its peer and leaves the others. -/
theorem takeUnswept_level (sound : limiter.Sound now.nanos) (peer : IpAddr) :
    ∃ next, limiter.takeUnswept peer now =
        some (next, (limiter.cfg.rule.take (limiter.level peer) now.nanos).2) ∧
      next.cfg = limiter.cfg ∧
      ∀ other, next.level other =
        if other = peer then some (limiter.cfg.rule.take (limiter.level peer) now.nanos).1
        else limiter.level other := by
  generalize found : (limiter.buckets.get? peer).getD
    { tokens := limiter.cfg.capacity, lastRefill := now } = bucket
  have level : (limiter.level peer).getD (limiter.cfg.rule.fresh now.nanos) = bucket.level := by
    rw [← found, RateLimiter.level]
    cases limiter.buckets.get? peer <;> rfl
  have valid : bucket.tokens.toNat ≤ limiter.cfg.capacity.toNat ∧
      bucket.lastRefill.nanos ≤ now.nanos := by
    rw [← found]
    cases stored : limiter.buckets.get? peer with
    | none => exact ⟨Nat.le_refl _, Nat.le_refl _⟩
    | some bucket => exact sound peer bucket.level (by rw [RateLimiter.level, stored]; rfl)
  obtain ⟨refilled, refills, refines⟩ := Bucket.refill_level valid.1 valid.2
  have inserted : ∀ (bucket : Bucket) (other : IpAddr),
      ({ limiter with buckets := limiter.buckets.insert peer bucket } : RateLimiter).level other =
        if other = peer then some bucket.level else limiter.level other := by
    intro bucket other
    rw [RateLimiter.level, KeyedMap.get?_insert]
    split <;> rfl
  rw [takeUnswept, found, TokenBucket.Rule.take, level, ← refines]
  simp only [refills, Option.bind_eq_bind, Option.bind_some]
  by_cases available : 0 < refilled.tokens
  · have one : (1 : UInt32) ≤ refilled.tokens := by
      rw [UInt32.lt_iff_toNat_lt] at available
      rw [UInt32.le_iff_toNat_le]
      exact available
    have positive : 0 < refilled.level.tokens := UInt32.lt_iff_toNat_lt.mp available
    rw [if_pos available, if_pos positive, checkedSub, if_pos one]
    refine ⟨_, rfl, rfl, ?_⟩
    intro other
    rw [inserted]
    simp only [Bucket.level, UInt32.toNat_sub_of_le _ _ one]
    rfl
  · have empty : ¬ 0 < refilled.level.tokens := fun positive =>
      available (UInt32.lt_iff_toNat_lt.mpr positive)
    rw [if_neg available, if_neg empty]
    exact ⟨_, rfl, rfl, inserted refilled⟩

/-- A bucket that is left by the sweep was there before. -/
theorem of_sweep_level {peer : IpAddr} {level : TokenBucket.Level}
    (left : (limiter.sweep now).level peer = some level) : limiter.level peer = some level := by
  rcases limiter.sweep_level now peer with kept | ⟨_, _, forgotten, _⟩
  · exact kept.symm.trans left
  · rw [forgotten] at left
    cases left

theorem Sound.sweep {clock : Nat} (sound : limiter.Sound clock) (now : Instant) :
    (limiter.sweep now).Sound clock := by
  intro peer level left
  rw [sweep_cfg]
  exact sound peer level (of_sweep_level left)

/-- `try_take` takes from the level that the sweep leaves to its peer. -/
theorem tryTake_level (sound : limiter.Sound now.nanos) (peer : IpAddr) :
    ∃ next, limiter.tryTake peer now =
        some (next, (limiter.cfg.rule.take ((limiter.sweep now).level peer) now.nanos).2) ∧
      next.cfg = limiter.cfg ∧
      ∀ other, next.level other =
        if other = peer then
          some (limiter.cfg.rule.take ((limiter.sweep now).level peer) now.nanos).1
        else (limiter.sweep now).level other := by
  have taken := takeUnswept_level (sound.sweep now) peer
  rw [sweep_cfg] at taken
  exact taken

end RateLimiter
end Refinement

/-- What one call does to a limiter, and whether it is admitted. -/
abbrev TakeStep := RateLimiter → IpAddr → Instant → Option (RateLimiter × Bool)

/-- A sequence of calls, with their results. -/
def takeAll (take : TakeStep) : RateLimiter → List (IpAddr × Instant) →
    Option (RateLimiter × List Bool)
  | limiter, [] => some (limiter, [])
  | limiter, (peer, now) :: rest => do
      let (limiter, admitted) ← take limiter peer now
      let (limiter, results) ← takeAll take limiter rest
      return (limiter, admitted :: results)

/-- The takes of a peer in a sequence of calls with their results. -/
def takesOf (peer : IpAddr) (trace : List ((IpAddr × Instant) × Bool)) : List (Nat × Bool) :=
  trace.filterMap fun entry => if entry.1.1 = peer then some (entry.1.2.nanos, entry.2) else none

/-- The instants of the calls do not decrease. -/
def Ordered (calls : List (IpAddr × Instant)) : Prop :=
  calls.Pairwise fun earlier later => earlier.2.nanos ≤ later.2.nanos

instance (calls : List (IpAddr × Instant)) : Decidable (Ordered calls) :=
  inferInstanceAs (Decidable (calls.Pairwise _))

section Run

variable {limiter : RateLimiter} {clock : Nat} {takes : IpAddr → List (Nat × Bool)}
    {now : Instant}

/-- Every peer's bucket has a history of its own. -/
def Tracks (limiter : RateLimiter) (clock : Nat) (takes : IpAddr → List (Nat × Bool)) : Prop :=
  ∀ peer, ∃ last ≤ clock, limiter.cfg.rule.History (limiter.level peer) last (takes peer)

theorem Tracks.new (cfg : RateLimitConfig) : Tracks (.new cfg) 0 fun _ => [] :=
  fun _ => ⟨0, Nat.le_refl 0, .start 0⟩

theorem Tracks.sound (tracks : Tracks limiter clock takes) : limiter.Sound clock := by
  intro peer level stored
  obtain ⟨last, past, history⟩ := tracks peer
  exact ⟨(history.spent 0).within level stored,
    Nat.le_trans (history.anchored level stored).1 past⟩

/-- A sweep only forgets buckets that are full. -/
theorem Tracks.sweep (tracks : Tracks limiter clock takes) (later : clock ≤ now.nanos) :
    Tracks (limiter.sweep now) now.nanos takes := by
  intro peer
  obtain ⟨last, past, history⟩ := tracks peer
  rw [RateLimiter.sweep_cfg]
  rcases limiter.sweep_level now peer with kept | ⟨level, stored, forgotten, full, _⟩
  · rw [kept]
    exact ⟨last, Nat.le_trans past later, history⟩
  · rw [forgotten]
    rw [stored] at history
    exact ⟨now.nanos, Nat.le_refl _, .forget history (Nat.le_trans past later) full⟩

/-- A step never panics, and adds one take to the history of its peer. -/
def Keeps (take : TakeStep) : Prop :=
  ∀ {limiter clock takes} {now : Instant}, Tracks limiter clock takes → clock ≤ now.nanos →
    ∀ peer, ∃ next admitted, take limiter peer now = some (next, admitted) ∧
      next.cfg = limiter.cfg ∧
      Tracks next now.nanos (Function.update takes peer (takes peer ++ [(now.nanos, admitted)]))

theorem takeUnswept_keeps : Keeps RateLimiter.takeUnswept := by
  intro limiter clock takes now tracks later peer
  obtain ⟨next, taken, sameCfg, levels⟩ :=
    RateLimiter.takeUnswept_level (tracks.sound.mono later) peer
  refine ⟨next, _, taken, sameCfg, ?_⟩
  intro other
  obtain ⟨last, past, history⟩ := tracks other
  rw [levels, sameCfg]
  by_cases same : other = peer
  · subst same
    rw [if_pos rfl, Function.update_self]
    exact ⟨now.nanos, Nat.le_refl _, .take history (Nat.le_trans past later)⟩
  · rw [if_neg same, Function.update_of_ne same]
    exact ⟨last, Nat.le_trans past later, history⟩

theorem tryTake_keeps : Keeps RateLimiter.tryTake := by
  intro limiter clock takes now tracks later peer
  rw [← limiter.sweep_cfg now]
  exact takeUnswept_keeps (tracks.sweep later) (Nat.le_refl _) peer

@[simp] theorem takesOf_cons (peer caller : IpAddr) (now : Instant) (admitted : Bool)
    (trace : List ((IpAddr × Instant) × Bool)) :
    takesOf peer (((caller, now), admitted) :: trace) =
      if caller = peer then (now.nanos, admitted) :: takesOf peer trace
        else takesOf peer trace := by
  rw [takesOf, List.filterMap_cons]
  split <;> rename_i found <;> split at found <;> simp_all [takesOf]

/-- No call of an ordered sequence panics, and every peer's calls make up a history. -/
theorem Keeps.takeAll {take : TakeStep} (keeps : Keeps take) {calls : List (IpAddr × Instant)}
    (tracks : Tracks limiter clock takes) (ordered : Ordered calls)
    (later : ∀ call ∈ calls, clock ≤ call.2.nanos) :
    ∃ final results, takeAll take limiter calls = some (final, results) ∧
      results.length = calls.length ∧ final.cfg = limiter.cfg ∧
      ∃ last, Tracks final last fun peer => takes peer ++ takesOf peer (calls.zip results) := by
  induction calls generalizing limiter clock takes with
  | nil =>
      refine ⟨limiter, [], rfl, rfl, rfl, clock, ?_⟩
      simpa [takesOf] using tracks
  | cons call rest inductionHypothesis =>
      obtain ⟨peer, now⟩ := call
      obtain ⟨head, tail⟩ := List.pairwise_cons.mp ordered
      obtain ⟨next, admitted, taken, sameCfg, stepped⟩ :=
        keeps tracks (later (peer, now) (List.mem_cons_self ..)) peer
      obtain ⟨final, results, run, sameLength, finalCfg, last, tracked⟩ :=
        inductionHypothesis stepped tail head
      refine ⟨final, admitted :: results, ?_, ?_, finalCfg.trans sameCfg, last, ?_⟩
      · simp [Gateway.takeAll, taken, run]
      · rw [List.length_cons, List.length_cons, sameLength]
      · intro other
        obtain ⟨moment, past, history⟩ := tracked other
        refine ⟨moment, past, ?_⟩
        simp only [List.zip_cons_cons, takesOf_cons]
        by_cases same : peer = other
        · subst same
          rw [if_pos rfl]
          simpa [Function.update_self] using history
        · rw [if_neg same]
          simpa [Function.update_of_ne (Ne.symm same)] using history

end Run

section Windows

/-- An instant in seconds. -/
noncomputable def Instant.seconds (instant : Instant) : ℝ := instant.nanos / nanosPerSec

open scoped Classical in
/-- The calls of a peer in a window. -/
noncomputable def madeIn (peer : IpAddr) (calls : List (IpAddr × Instant))
    (window : Set ℝ) : Nat :=
  calls.countP fun call => call.1 = peer ∧ call.2.seconds ∈ window

open scoped Classical in
/-- The admitted calls of a peer in a window. -/
noncomputable def admittedOf (peer : IpAddr) (trace : List ((IpAddr × Instant) × Bool))
    (window : Set ℝ) : Nat :=
  trace.countP fun entry => entry.1.1 = peer ∧ entry.2 ∧ entry.1.2.seconds ∈ window

variable {peer : IpAddr}

/-- The instants of a window are those between two numbers of nanoseconds. -/
theorem seconds_mem {instant : Instant} {start length : ℝ}
    (member : instant.seconds ∈ Set.Icc start (start + length)) :
    ⌈start * nanosPerSec⌉₊ ≤ instant.nanos ∧
      instant.nanos ≤ ⌊(start + length) * nanosPerSec⌋₊ := by
  have positive : (0 : ℝ) < nanosPerSec := by norm_num [nanosPerSec]
  obtain ⟨first, last⟩ := member
  rw [Instant.seconds] at first last
  exact ⟨Nat.ceil_le.mpr ((le_div_iff₀ positive).mp first),
    Nat.le_floor ((div_le_iff₀ positive).mp last)⟩

theorem admittedOf_le (trace : List ((IpAddr × Instant) × Bool)) (start length : ℝ) :
    admittedOf peer trace (Set.Icc start (start + length)) ≤
      TokenBucket.admittedIn (takesOf peer trace) ⌈start * nanosPerSec⌉₊
        ⌊(start + length) * nanosPerSec⌋₊ := by
  induction trace with
  | nil => simp [admittedOf]
  | cons entry trace inductionHypothesis =>
      obtain ⟨⟨caller, now⟩, admitted⟩ := entry
      rw [admittedOf, List.countP_cons, ← admittedOf, takesOf_cons]
      by_cases same : caller = peer
      · rw [if_pos same, TokenBucket.admittedIn, List.countP_cons, ← TokenBucket.admittedIn]
        refine Nat.add_le_add inductionHypothesis ?_
        split
        · rename_i counted
          simp only [decide_eq_true_eq] at counted
          obtain ⟨_, taken, member⟩ := counted
          rw [if_pos (decide_eq_true ⟨taken, seconds_mem member⟩)]
        · exact Nat.zero_le _
      · rw [if_neg same]
        simpa [same] using inductionHypothesis

/-- A window in nanoseconds, in seconds. -/
theorem callsIn_eq (calls : List (IpAddr × Instant)) (results : List Bool)
    (sameLength : results.length = calls.length) (first last : Nat) :
    TokenBucket.callsIn (takesOf peer (calls.zip results)) first last =
      madeIn peer calls (Set.Icc (first / nanosPerSec) (last / nanosPerSec)) := by
  induction calls generalizing results with
  | nil => simp [takesOf, TokenBucket.callsIn, madeIn]
  | cons call calls inductionHypothesis =>
      obtain ⟨caller, now⟩ := call
      cases results with
      | nil => simp at sameLength
      | cons admitted results =>
          have tail := inductionHypothesis results (by simpa using sameLength)
          have positive : (0 : ℝ) < nanosPerSec := by norm_num [nanosPerSec]
          have window : now.seconds ∈ Set.Icc ((first : ℝ) / nanosPerSec)
              (last / nanosPerSec) ↔
              first ≤ now.nanos ∧ now.nanos ≤ last := by
            rw [Instant.seconds, Set.mem_Icc, div_le_div_iff_of_pos_right positive,
              div_le_div_iff_of_pos_right positive, Nat.cast_le, Nat.cast_le]
          rw [List.zip_cons_cons, takesOf_cons, madeIn, List.countP_cons, ← madeIn, ← tail]
          by_cases same : caller = peer
          · rw [if_pos same, TokenBucket.callsIn, List.countP_cons, ← TokenBucket.callsIn]
            simp only [window, same, true_and, decide_eq_true_eq]
          · simp [same]

/-- The bucket of a peer admits no more than its rule in any window, and refuses
nothing to a peer that stays within the rule, whatever the others do. No operation of
the limiter overflows. -/
theorem tryTake_conforms (cfg : RateLimitConfig) (calls : List (IpAddr × Instant))
    (ordered : Ordered calls) :
    ∃ final results, takeAll RateLimiter.tryTake (.new cfg) calls = some (final, results) ∧
      results.length = calls.length ∧
      ∀ peer,
        (∀ start length : ℝ, 0 ≤ length →
          admittedOf peer (calls.zip results) (Set.Icc start (start + length)) ≤
            cfg.capacity.toNat + cfg.refillPerSec.toNat * ⌈length⌉₊) ∧
        ((∀ start length : ℝ, 0 ≤ length →
          madeIn peer calls (Set.Icc start (start + length)) ≤
            cfg.capacity.toNat + cfg.refillPerSec.toNat * ⌊length⌋₊) →
          ∀ entry ∈ calls.zip results, entry.1.1 = peer → entry.2 = true) := by
  obtain ⟨final, results, run, sameLength, sameCfg, clock, tracks⟩ :=
    tryTake_keeps.takeAll (.new cfg) ordered fun _ _ => Nat.zero_le _
  refine ⟨final, results, run, sameLength, fun peer => ?_⟩
  obtain ⟨last, _, history⟩ := tracks peer
  simp only [List.nil_append, sameCfg] at history
  have positive : (0 : ℝ) < nanosPerSec := by norm_num [nanosPerSec]
  constructor
  · intro start length nonneg
    refine Nat.le_trans (admittedOf_le _ _ _) ?_
    rw [Nat.mul_comm]
    refine history.admits_at_most ?_
    refine Nat.floor_le_of_le ?_
    have ceiling := Nat.le_ceil length
    have begins := Nat.le_ceil (start * nanosPerSec)
    have spans := mul_le_mul_of_nonneg_right ceiling positive.le
    show (start + length) * nanosPerSec ≤
      ((⌈start * nanosPerSec⌉₊ + ⌈length⌉₊ * nanosPerSec : ℕ) : ℝ)
    push_cast
    linarith
  · intro conforms entry member caller
    have admitted := history.refuses_none (fun first last n spans => ?_)
      (entry.1.2.nanos, entry.2)
      (List.mem_filterMap.mpr ⟨entry, member, by rw [if_pos caller]⟩)
    · exact admitted
    · rw [callsIn_eq calls results sameLength]
      by_cases proper : first ≤ last
      · have length : (0 : ℝ) ≤ (last - first : ℕ) / nanosPerSec := by positivity
        have bound := conforms (first / nanosPerSec) ((last - first : ℕ) / nanosPerSec) length
        have ends : (first : ℝ) / nanosPerSec + (last - first : ℕ) / nanosPerSec =
            last / nanosPerSec := by
          rw [← add_div, ← Nat.cast_add, Nat.add_sub_cancel' proper]
        have whole : ⌊((last - first : ℕ) : ℝ) / nanosPerSec⌋₊ ≤ n := by
          rw [Nat.floor_div_eq_div]
          refine Nat.le_of_lt_succ ?_
          refine Nat.div_lt_of_lt_mul ?_
          show last - first < nanosPerSec * (n + 1)
          rw [Nat.mul_comm]
          change last < first + (n + 1) * nanosPerSec at spans
          omega
        rw [ends] at bound
        refine Nat.le_trans bound (Nat.add_le_add_left ?_ _)
        rw [Nat.mul_comm]
        exact Nat.mul_le_mul_right _ whole
      · have empty : madeIn peer calls
            (Set.Icc ((first : ℝ) / nanosPerSec) (last / nanosPerSec)) = 0 := by
          refine List.countP_eq_zero.mpr ?_
          intro call _
          have reversed : (last : ℝ) / nanosPerSec < first / nanosPerSec :=
            (div_lt_div_iff_of_pos_right positive).mpr (Nat.cast_lt.mpr (Nat.lt_of_not_le proper))
          simp [Set.Icc_eq_empty_of_lt reversed]
        rw [empty]
        exact Nat.zero_le _

/-- A bucket of one token: the second of two calls within a second is refused. -/
theorem tryTake_conforms_burst :
    let cfg : RateLimitConfig := { capacity := 1, refillPerSec := 1 }
    let calls : List (IpAddr × Instant) :=
      [(.v4 1, ⟨0, by decide⟩), (.v4 1, ⟨400000000, by decide⟩),
        (.v4 1, ⟨1000000000, by decide⟩)]
    Ordered calls ∧
      ∃ final, takeAll RateLimiter.tryTake (.new cfg) calls = some (final,
        [true, false, true]) ∧ ∀ start length : ℝ, 0 ≤ length →
          admittedOf (.v4 1) (calls.zip [true, false, true]) (Set.Icc start (start + length)) ≤
            1 + 1 * ⌈length⌉₊ := by
  intro cfg calls
  have ordered : Ordered calls := by decide
  refine ⟨ordered, ?_⟩
  obtain ⟨final, results, run, _, bounds⟩ := tryTake_conforms cfg calls ordered
  have outcome : (takeAll RateLimiter.tryTake (.new cfg) calls).map Prod.snd =
      some [true, false, true] := by decide
  rw [run, Option.map_some, Option.some_inj] at outcome
  change results = _ at outcome
  subst outcome
  exact ⟨final, run, (bounds (.v4 1)).1⟩

end Windows

end CofreSoberano.Gateway
