import Mathlib.Data.List.Count
import Mathlib.Tactic.Linarith

/-!
# Token buckets with whole periods

A bucket has at most `capacity` tokens and gets `rate` more for every whole period
since its anchor; the anchor moves by whole periods, so that the rest of a period is
kept for the next refill. A take refills the bucket first. A bucket that a refill
would fill can be forgotten; the next take starts a full one anchored at its own time.

`History` is what one bucket goes through. Two bounds hold of every history: what it
admits in a window, and what it never refuses.
-/

namespace CofreSoberano.Std.TokenBucket

/-- The capacity of a bucket, and what it gets for each period. -/
structure Rule where
  capacity : Nat
  rate : Nat
  period : Nat
  positive : 0 < period

/-- The tokens of a bucket at its anchor. -/
structure Level where
  tokens : Nat
  anchor : Nat
deriving DecidableEq, Repr

namespace Rule

variable (rule : Rule)

/-- A full bucket. -/
def fresh (now : Nat) : Level := { tokens := rule.capacity, anchor := now }

/-- The whole periods that have passed since the anchor. -/
def periods (level : Level) (now : Nat) : Nat := (now - level.anchor) / rule.period

/-- Add what the whole periods bring. -/
def refill (level : Level) (now : Nat) : Level where
  tokens := min rule.capacity (level.tokens + rule.periods level now * rule.rate)
  anchor := level.anchor + rule.periods level now * rule.period

/-- Refill, and take a token if there is one. -/
def take (level : Option Level) (now : Nat) : Level × Bool :=
  let refilled := rule.refill (level.getD (rule.fresh now)) now
  if 0 < refilled.tokens then ({ refilled with tokens := refilled.tokens - 1 }, true)
  else (refilled, false)

/-- What a bucket goes through: its level, the time of the last event, and the takes
with their outcomes, oldest first. -/
inductive History : Option Level → Nat → List (Nat × Bool) → Prop where
  | start (clock : Nat) : History none clock []
  | take {level clock takes now} (prior : History level clock takes) (later : clock ≤ now) :
      History (some (rule.take level now).1) now (takes ++ [(now, (rule.take level now).2)])
  | forget {level clock takes now} (prior : History (some level) clock takes)
      (later : clock ≤ now)
      (full : (rule.refill level now).tokens = rule.capacity) : History none now takes

end Rule

/-- The takes of a closed window. -/
def callsIn (takes : List (Nat × Bool)) (first last : Nat) : Nat :=
  takes.countP fun call => first ≤ call.1 ∧ call.1 ≤ last

/-- The takes of a closed window that got a token. -/
def admittedIn (takes : List (Nat × Bool)) (first last : Nat) : Nat :=
  takes.countP fun call => call.2 ∧ first ≤ call.1 ∧ call.1 ≤ last

namespace Rule

variable {rule : Rule} {level : Option Level} {clock : Nat} {takes : List (Nat × Bool)}

/-- After a refill the anchor is less than a period ago. -/
theorem refill_recent (rule : Rule) {level : Level} {now : Nat} (reached : level.anchor ≤ now) :
    (rule.refill level now).anchor ≤ now ∧
    now < (rule.refill level now).anchor + rule.period := by
  have whole := Nat.div_add_mod (now - level.anchor) rule.period
  have rest := Nat.mod_lt (now - level.anchor) rule.positive
  simp only [refill, periods]
  rw [Nat.mul_comm] at whole
  omega

theorem refill_le (rule : Rule) (level : Level) (now : Nat) :
    (rule.refill level now).tokens ≤ rule.capacity :=
  Nat.min_le_left _ _

theorem refill_fresh (now : Nat) : rule.refill (rule.fresh now) now = rule.fresh now := by
  simp [refill, periods, fresh]

/-- Everything in a history lies in its past. -/
theorem History.past (history : rule.History level clock takes) :
    ∀ call ∈ takes, call.1 ≤ clock := by
  induction history with
  | start clock => simp
  | take prior later inductionHypothesis =>
      intro call member
      rcases List.mem_append.mp member with old | new
      · exact Nat.le_trans (inductionHypothesis call old) later
      · rw [List.mem_singleton] at new
        subst new
        exact Nat.le_refl _
  | forget prior later full inductionHypothesis =>
      exact fun call member => Nat.le_trans (inductionHypothesis call member) later

/-- What a take does to the refilled bucket. -/
theorem take_spec (rule : Rule) (level : Option Level) (now : Nat) :
    (rule.take level now).1.anchor = (rule.refill (level.getD (rule.fresh now)) now).anchor ∧
      (rule.take level now).1.tokens + (rule.take level now).2.toNat =
        (rule.refill (level.getD (rule.fresh now)) now).tokens ∧
      ((rule.take level now).2 = false →
        (rule.refill (level.getD (rule.fresh now)) now).tokens = 0) := by
  simp only [take]
  split
  · rename_i some
    refine ⟨rfl, ?_, by simp⟩
    simp only [Bool.toNat_true]
    omega
  · rename_i none
    exact ⟨rfl, rfl, fun _ => by omega⟩

/-- A bucket without capacity admits nothing. -/
theorem take_admits {now : Nat} (admitted : (rule.take level now).2 = true) :
    0 < rule.capacity := by
  obtain ⟨_, tokens, _⟩ := rule.take_spec level now
  have bounded := rule.refill_le (level.getD (rule.fresh now)) now
  rw [admitted, Bool.toNat_true] at tokens
  omega

/-- What a take leaves in a bucket: never a full one, and no anchor ahead of it. -/
theorem take_leaves (rule : Rule) {level : Option Level} {now : Nat}
    (reached : ∀ bucket ∈ level, bucket.anchor ≤ now) :
    (rule.take level now).1.tokens ≤ rule.capacity ∧ (rule.take level now).1.anchor ≤ now ∧
      (0 < rule.capacity → (rule.take level now).1.tokens < rule.capacity) := by
  obtain ⟨anchor, tokens, empty⟩ := rule.take_spec level now
  have bounded := rule.refill_le (level.getD (rule.fresh now)) now
  rw [← tokens] at bounded
  refine ⟨by omega, ?_, ?_⟩
  · rw [anchor]
    refine (rule.refill_recent ?_).1
    cases level with
    | none => exact Nat.le_refl now
    | some bucket => exact reached bucket rfl
  · intro positive
    cases admitted : (rule.take level now).2 with
    | true =>
        rw [admitted, Bool.toNat_true] at bounded
        omega
    | false =>
        rw [admitted, Bool.toNat_false, empty admitted] at tokens
        omega

/-- The anchor of a bucket is less than a period before its last take. -/
theorem History.anchored (history : rule.History level clock takes) :
    ∀ bucket ∈ level, bucket.anchor ≤ clock ∧ clock < bucket.anchor + rule.period := by
  induction history with
  | start clock => simp
  | @take level clock takes now prior later inductionHypothesis =>
      intro bucket stored
      cases stored
      rw [(rule.take_spec level now).1]
      refine rule.refill_recent ?_
      cases level with
      | none => exact Nat.le_refl now
      | some old => exact Nat.le_trans (inductionHypothesis old rfl).1 later
  | forget prior later full inductionHypothesis => simp

end Rule

/-- The admitted takes from a time on. -/
def admittedSince (takes : List (Nat × Bool)) (first : Nat) : Nat :=
  takes.countP fun call => call.2 ∧ first ≤ call.1

/-- The takes from a time on. -/
def callsSince (takes : List (Nat × Bool)) (first : Nat) : Nat :=
  takes.countP fun call => first ≤ call.1

theorem admittedSince_snoc (takes : List (Nat × Bool)) (first now : Nat) (admitted : Bool) :
    admittedSince (takes ++ [(now, admitted)]) first =
      admittedSince takes first + if first ≤ now then admitted.toNat else 0 := by
  rw [admittedSince, List.countP_append]
  congr 1
  cases admitted <;> by_cases reached : first ≤ now <;> simp [reached]

theorem callsSince_snoc (takes : List (Nat × Bool)) (first now : Nat) (admitted : Bool) :
    callsSince (takes ++ [(now, admitted)]) first =
      callsSince takes first + if first ≤ now then 1 else 0 := by
  rw [callsSince, List.countP_append]
  congr 1
  by_cases reached : first ≤ now <;> simp [reached]

namespace Rule

variable {rule : Rule} {level : Option Level} {clock : Nat} {takes : List (Nat × Bool)}

/-- The tokens spent since a time, against the periods since then. A bucket that is
there has been filled up to its anchor. -/
structure Spent (rule : Rule) (level : Option Level) (clock : Nat) (takes : List (Nat × Bool))
    (first : Nat) : Prop where
  absent : level = none → ∀ n, clock ≤ first + n * rule.period →
    admittedSince takes first ≤ n * rule.rate
  within : ∀ bucket ∈ level, bucket.tokens ≤ rule.capacity
  present : ∀ bucket ∈ level, ∀ n, bucket.anchor ≤ first + n * rule.period →
    admittedSince takes first + bucket.tokens ≤ rule.capacity + n * rule.rate
  started : ∀ bucket ∈ level, admittedSince takes first = 0 ∨
    first < bucket.anchor + rule.period

/-- A refill keeps the balance: a period more for each addition. -/
theorem Spent.refill {bucket : Level} {first now : Nat}
    (spent : rule.Spent (some bucket) clock takes first) :
    ∀ n, (rule.refill bucket now).anchor ≤ first + n * rule.period →
      admittedSince takes first + (rule.refill bucket now).tokens ≤
        rule.capacity + n * rule.rate := by
  intro n covered
  simp only [Rule.refill] at covered ⊢
  by_cases enough : rule.periods bucket now ≤ n
  · obtain ⟨rest, rfl⟩ := Nat.exists_eq_add_of_le enough
    have balance := spent.present bucket rfl rest (by rw [Nat.add_mul] at covered; omega)
    have smaller := Nat.min_le_right rule.capacity
      (bucket.tokens + rule.periods bucket now * rule.rate)
    rw [Nat.add_mul]
    omega
  · -- The anchor was more than a period before `first`: nothing was taken since.
    have early : bucket.anchor + rule.period ≤ first := by
      obtain ⟨more, same⟩ := Nat.exists_eq_add_of_lt (Nat.lt_of_not_le enough)
      rw [same, Nat.add_mul, Nat.add_mul, Nat.one_mul] at covered
      omega
    have unused := (spent.started bucket rfl).resolve_right (Nat.not_lt.mpr early)
    have smaller := Nat.min_le_left rule.capacity
      (bucket.tokens + rule.periods bucket now * rule.rate)
    omega

theorem History.spent (history : rule.History level clock takes) (first : Nat) :
    rule.Spent level clock takes first := by
  induction history with
  | start clock =>
      exact ⟨fun _ _ _ => by simp [admittedSince], by simp, by simp, by simp⟩
  | @take level clock takes now prior later spent =>
      obtain ⟨anchor, tokens, _⟩ := rule.take_spec level now
      have recent := (History.take prior later).anchored _ rfl
      -- The balance of the bucket right before the token is taken.
      have balance : ∀ n, (rule.take level now).1.anchor ≤ first + n * rule.period →
          admittedSince takes first + ((rule.take level now).1.tokens +
            (rule.take level now).2.toNat) ≤ rule.capacity + n * rule.rate := by
        rw [anchor, tokens]
        cases level with
        | none =>
            rw [Option.getD_none, refill_fresh]
            intro n covered
            have earlier := spent.absent rfl n (Nat.le_trans later covered)
            simp only [fresh]
            omega
        | some bucket => exact spent.refill
      have bounded : (rule.take level now).1.tokens + (rule.take level now).2.toNat ≤
          rule.capacity := by
        rw [tokens]
        exact rule.refill_le _ _
      refine ⟨by simp, ?_, ?_, ?_⟩
      · intro bucket stored
        cases stored
        omega
      · intro bucket stored n covered
        cases stored
        have before := balance n covered
        rw [admittedSince_snoc]
        split <;> omega
      · intro bucket stored
        cases stored
        by_cases reached : first ≤ now
        · exact .inr (by omega)
        · left
          have none : admittedSince takes first = 0 := by
            refine List.countP_eq_zero.mpr ?_
            intro call member
            have past := prior.past call member
            simp only [decide_eq_true_eq, not_and]
            omega
          rw [admittedSince_snoc, none, if_neg reached]
  | @forget bucket clock takes now prior later full spent =>
      refine ⟨?_, by simp, by simp, by simp⟩
      intro _ n covered
      have reached : (rule.refill bucket now).anchor ≤ now :=
        (rule.refill_recent (Nat.le_trans (prior.anchored bucket rfl).1 later)).1
      have balance := spent.refill n (Nat.le_trans reached covered)
      rw [full] at balance
      omega

/-- In a window that `n` periods cover, at most `n` refills come on top of a full
bucket. -/
theorem History.admits_at_most (history : rule.History level clock takes) {first last n : Nat}
    (covers : last ≤ first + n * rule.period) :
    admittedIn takes first last ≤ rule.capacity + n * rule.rate := by
  induction history with
  | start clock => simp [admittedIn]
  | @take level clock takes now prior later inductionHypothesis =>
      by_cases within : now ≤ last
      · have history := History.take prior later
        obtain ⟨reached, _⟩ := history.anchored _ rfl
        have spent := (history.spent first).present _ rfl n (by omega)
        have since : admittedIn (takes ++ [(now, (rule.take level now).2)]) first last ≤
            admittedSince (takes ++ [(now, (rule.take level now).2)]) first := by
          refine List.countP_mono_left ?_
          simp only [decide_eq_true_eq]
          exact fun _ _ inside => ⟨inside.1, inside.2.1⟩
        omega
      · have outside : admittedIn (takes ++ [(now, (rule.take level now).2)]) first last =
            admittedIn takes first last := by
          simp [admittedIn, List.countP_append, within]
        rw [outside]
        exact inductionHypothesis
  | forget prior later full inductionHypothesis => exact inductionHypothesis

/-- The calls since the bucket was last full account for the tokens that are gone. -/
def Paced (rule : Rule) (clock : Nat) (takes : List (Nat × Bool)) (bucket : Level) : Prop :=
  ∃ since origin n, since ≤ clock ∧ origin ≤ since ∧ since < origin + rule.period ∧
    bucket.anchor = origin + n * rule.period ∧
    rule.capacity + n * rule.rate ≤ bucket.tokens + callsSince takes since

theorem Paced.fresh (takes : List (Nat × Bool)) (now : Nat) :
    rule.Paced now takes (rule.fresh now) := by
  refine ⟨now, now, 0, Nat.le_refl now, Nat.le_refl now, ?_, ?_, ?_⟩
  · exact Nat.lt_add_of_pos_right rule.positive
  · simp [Rule.fresh]
  · simp [Rule.fresh]

/-- A refill is accounted for, or it fills the bucket and starts a new account. -/
theorem Paced.refill {bucket : Level} {now : Nat} (paced : rule.Paced clock takes bucket)
    (later : clock ≤ now) (reached : bucket.anchor ≤ now) :
    rule.Paced now takes (rule.refill bucket now) := by
  by_cases room : bucket.tokens + rule.periods bucket now * rule.rate ≤ rule.capacity
  · obtain ⟨since, origin, n, past, start, recent, anchor, account⟩ := paced
    refine ⟨since, origin, n + rule.periods bucket now, Nat.le_trans past later,
      start, recent, ?_, ?_⟩
    · rw [Rule.refill, anchor, Nat.add_mul, Nat.add_assoc]
    · simp only [Rule.refill, Nat.min_eq_right room, Nat.add_mul]
      omega
  · obtain ⟨before, after⟩ := rule.refill_recent reached
    refine ⟨now, (rule.refill bucket now).anchor, 0, Nat.le_refl now, before, after, ?_, ?_⟩
    · rw [Nat.zero_mul, Nat.add_zero]
    · have full : (rule.refill bucket now).tokens = rule.capacity := by
        rw [Rule.refill]
        exact Nat.min_eq_left (Nat.le_of_not_le room)
      rw [full]
      omega

/-- The account right before a token is taken. -/
theorem History.paced_refill {now : Nat} (history : rule.History level clock takes)
    (paced : ∀ bucket ∈ level, rule.Paced clock takes bucket) (later : clock ≤ now) :
    rule.Paced now takes (rule.refill (level.getD (rule.fresh now)) now) := by
  cases level with
  | none =>
      rw [Option.getD_none, refill_fresh]
      exact Paced.fresh takes now
  | some bucket =>
      exact (paced bucket rfl).refill later (Nat.le_trans (history.anchored bucket rfl).1 later)

theorem History.paced (history : rule.History level clock takes) :
    ∀ bucket ∈ level, rule.Paced clock takes bucket := by
  induction history with
  | start clock => simp
  | @take level clock takes now prior later inductionHypothesis =>
      intro bucket stored
      cases stored
      obtain ⟨anchor, tokens, _⟩ := rule.take_spec level now
      obtain ⟨since, origin, n, past, start, recent, aligned, account⟩ :=
        prior.paced_refill inductionHypothesis later
      refine ⟨since, origin, n, past, start, recent, anchor.trans aligned, ?_⟩
      have single := Bool.toNat_le (rule.take level now).2
      rw [callsSince_snoc, if_pos past]
      omega
  | forget prior later full inductionHypothesis => simp

/-- If no window has more calls than a full bucket and the refills of its whole
periods, no call is refused. -/
theorem History.refuses_none (history : rule.History level clock takes)
    (conforms : ∀ first last n, last < first + (n + 1) * rule.period →
      callsIn takes first last ≤ rule.capacity + n * rule.rate) :
    ∀ call ∈ takes, call.2 = true := by
  induction history with
  | start clock => simp
  | @take level clock takes now prior later inductionHypothesis =>
      have earlier := inductionHypothesis fun first last n spans => by
        have more := conforms first last n spans
        rw [callsIn, List.countP_append] at more
        exact Nat.le_trans (Nat.le_add_right _ _) more
      intro call member
      rcases List.mem_append.mp member with old | new
      · exact earlier call old
      · rw [List.mem_singleton] at new
        subst new
        by_contra refused
        rw [Bool.not_eq_true] at refused
        have reached := (History.take prior later).anchored _ rfl
        obtain ⟨anchor, _, empty⟩ := rule.take_spec level now
        obtain ⟨since, origin, n, past, start, recent, aligned, account⟩ :=
          prior.paced_refill prior.paced later
        rw [empty refused] at account
        -- The calls since the bucket was full, this one among them, are too many.
        have all : callsIn (takes ++ [(now, (rule.take level now).2)]) since now =
            callsSince takes since + 1 := by
          have inside : callsIn (takes ++ [(now, (rule.take level now).2)]) since now =
              callsSince (takes ++ [(now, (rule.take level now).2)]) since := by
            refine List.countP_congr ?_
            intro call member
            have before := (History.take prior later).past call member
            simp only [decide_eq_true_eq, and_iff_left_iff_imp]
            exact fun _ => before
          rw [inside, callsSince_snoc, if_pos past]
        have spans : now < since + (n + 1) * rule.period := by
          rw [Nat.add_mul, Nat.one_mul]
          omega
        have bound := conforms since now n spans
        omega
  | forget prior later full inductionHypothesis => exact inductionHypothesis conforms

end Rule
end CofreSoberano.Std.TokenBucket
