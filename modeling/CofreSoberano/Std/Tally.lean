/-!
# Tallies of a list of tasks

A shared counter that many tasks update holds the sum of what each of them has put into
it. Replacing one task of the list moves the sum by the difference of the two credits,
and a count by whether the old and the new task were counted.
-/

namespace CofreSoberano.Std

variable {α : Type} {tasks : List α} {index : Nat} {task : α}

/-- What the tasks put into a counter. -/
def tally (credit : α → Nat) : List α → Nat
  | [] => 0
  | task :: tasks => credit task + tally credit tasks

@[simp] theorem tally_nil (credit : α → Nat) : tally credit [] = 0 := rfl

@[simp] theorem tally_cons (credit : α → Nat) (task : α) (tasks : List α) :
    tally credit (task :: tasks) = credit task + tally credit tasks := rfl

@[simp] theorem tally_append (credit : α → Nat) (first second : List α) :
    tally credit (first ++ second) = tally credit first + tally credit second := by
  induction first with
  | nil => simp
  | cons task first inductionHypothesis =>
      rw [List.cons_append, tally_cons, tally_cons, inductionHypothesis, Nat.add_assoc]

theorem tally_map {β : Type} (credit : α → Nat) (task : β → α) (items : List β) :
    tally credit (items.map task) = tally (fun item => credit (task item)) items := by
  induction items with
  | nil => rfl
  | cons item items inductionHypothesis =>
      rw [List.map_cons, tally_cons, tally_cons, inductionHypothesis]

/-- Replacing a task moves the tally by the difference of the credits. -/
theorem tally_set (credit : α → Nat) (found : tasks[index]? = some task) (next : α) :
    tally credit (tasks.set index next) + credit task = tally credit tasks + credit next := by
  induction tasks generalizing index with
  | nil => simp at found
  | cons first rest inductionHypothesis =>
      cases index with
      | zero =>
          obtain rfl : first = task := by simpa using found
          simp only [List.set_cons_zero, tally_cons]
          omega
      | succ index =>
          have moved := inductionHypothesis (by simpa using found : rest[index]? = some task)
          simp only [List.set_cons_succ, tally_cons]
          omega

/-- A count is the tally of an indicator. -/
theorem countP_eq_tally (counted : α → Bool) (tasks : List α) :
    tasks.countP counted = tally (fun task => (counted task).toNat) tasks := by
  induction tasks with
  | nil => rfl
  | cons task tasks inductionHypothesis =>
      rw [List.countP_cons, tally_cons, inductionHypothesis]
      cases counted task <;> simp [Nat.add_comm]

/-- Replacing a task moves a count by whether the two are counted. -/
theorem countP_set (counted : α → Bool) (found : tasks[index]? = some task) (next : α) :
    (tasks.set index next).countP counted + (counted task).toNat =
      tasks.countP counted + (counted next).toNat := by
  rw [countP_eq_tally, countP_eq_tally]
  exact tally_set _ found next

/-- Two tallies are the tally of what a task puts into both counters. -/
theorem tally_add (first second : α → Nat) (tasks : List α) :
    tally first tasks + tally second tasks = tally (fun task => first task + second task)
      tasks := by
  induction tasks with
  | nil => rfl
  | cons task tasks inductionHypothesis =>
      simp only [tally_cons]
      omega

/-- With the same credit for each, the tasks are counted. -/
theorem tally_const (credit : Nat) (tasks : List α) :
    tally (fun _ => credit) tasks = tasks.length * credit := by
  induction tasks with
  | nil => simp
  | cons task tasks inductionHypothesis =>
      rw [tally_cons, inductionHypothesis, List.length_cons, Nat.succ_mul, Nat.add_comm]

/-- Of the first `bound` indices, one is hit or none. -/
theorem tally_range_indicator (bound hit : Nat) :
    tally (fun index => (decide (hit = index)).toNat) (List.range bound) =
      (decide (hit < bound)).toNat := by
  induction bound with
  | zero => rfl
  | succ bound inductionHypothesis =>
      rw [List.range_succ, tally_append, inductionHypothesis]
      by_cases last : hit = bound
      · simp [last]
      · have same : (hit < bound + 1) = (hit < bound) := by
          rw [Nat.lt_succ_iff_lt_or_eq]
          simp [last]
        simp [last, same]

/-- Several counters together hold what each task puts into all of them. -/
theorem tally_swap {β : Type} (credit : β → α → Nat) (counters : List β) (tasks : List α) :
    tally (fun counter => tally (credit counter) tasks) counters =
      tally (fun task => tally (fun counter => credit counter task) counters) tasks := by
  induction counters with
  | nil => simp [tally_const]
  | cons counter counters inductionHypothesis =>
      rw [tally_cons, inductionHypothesis, tally_add]
      rfl

/-- Where acceptance carries over to the later bounds, the first accepted bound is at most at
an index when the bound there is accepted. -/
theorem findIdx_le_iff {β : Type} {accepts : β → Bool} {bounds : List β}
    (grows : bounds.Pairwise fun bound later => accepts bound = true → accepts later = true)
    (index : Nat) :
    bounds.findIdx accepts ≤ index ↔ ∀ bound, bounds[index]? = some bound →
    accepts bound = true := by
  induction bounds generalizing index with
  | nil => simp
  | cons first rest inductionHypothesis =>
      obtain ⟨head, tail⟩ := List.pairwise_cons.mp grows
      rw [List.findIdx_cons]
      cases accepted : accepts first with
      | true =>
          refine iff_of_true (Nat.zero_le _) ?_
          intro bound found
          cases index with
          | zero =>
              obtain rfl : first = bound := by simpa using found
              exact accepted
          | succ index =>
              exact head bound (List.mem_of_getElem? (by simpa using found)) accepted
      | false =>
          cases index with
          | zero => simp [accepted]
          | succ index => simpa using inductionHypothesis tail index

end CofreSoberano.Std
