/-!
# Labelled machines and their runs

A machine is a partial step function on labelled moves. All nondeterminism
lives in the labels, so a machine can be executed on a given list of labels,
while its properties quantify over every list. `Runs` carries an admission
predicate on the state before each move: a property of restricted runs and a
property of all runs are stated with the same relation.
-/

namespace CofreSoberano.Std

/-- A labelled machine: initial states and a partial, executable step. -/
structure Machine where
  State : Type
  Label : Type
  Initial : State → Prop
  step : State → Label → Option State

namespace Machine

/-- The predicate that admits every move. -/
def Free (machine : Machine) : machine.State → machine.Label → Prop :=
  fun _ _ => True

/-- Finite runs from `start` whose moves are all admitted, oldest label first. -/
inductive Runs (machine : Machine) (admits : machine.State → machine.Label → Prop)
    (start : machine.State) : List machine.Label → machine.State → Prop where
  | nil : Runs machine admits start [] start
  | snoc {labels state label next} (prior : Runs machine admits start labels state)
      (admitted : admits state label) (moved : machine.step state label = some next) :
      Runs machine admits start (labels ++ [label]) next

/-- States at the end of some admitted run from an initial state. -/
def Reachable (machine : Machine) (admits : machine.State → machine.Label → Prop)
    (state : machine.State) : Prop :=
  ∃ start labels, machine.Initial start ∧ machine.Runs admits start labels state

variable {machine : Machine} {admits : machine.State → machine.Label → Prop}

/-- The invariant rule for a property of the state and of the labels that led to it. -/
theorem Runs.labelled_invariant {start state : machine.State} {labels : List machine.Label}
    (holds : List machine.Label → machine.State → Prop) (initially : holds [] start)
    (preserved : ∀ {labels state label next}, holds labels state → admits state label →
      machine.step state label = some next → holds (labels ++ [label]) next)
    (run : machine.Runs admits start labels state) : holds labels state := by
  induction run with
  | nil => exact initially
  | snoc _ admitted moved inductionHypothesis =>
      exact preserved inductionHypothesis admitted moved

/-- A property of the start that every admitted move keeps holds at the end of
every admitted run. -/
theorem Runs.invariant {start state : machine.State} {labels : List machine.Label}
    (holds : machine.State → Prop) (initially : holds start)
    (preserved : ∀ {state label next}, holds state → admits state label →
      machine.step state label = some next → holds next)
    (run : machine.Runs admits start labels state) : holds state :=
  run.labelled_invariant (fun _ => holds) initially preserved

/-- A rank that the counted moves decrease and the others do not increase bounds how many
of them a run can have. -/
theorem Runs.countP_le {start state : machine.State} {labels : List machine.Label}
    (counted : machine.Label → Bool) (rank : machine.State → Nat)
    (holds : machine.State → Prop) (initially : holds start)
    (preserved : ∀ {state label next}, holds state → admits state label →
      machine.step state label = some next →
        holds next ∧ rank next + (counted label).toNat ≤ rank state)
    (run : machine.Runs admits start labels state) :
    holds state ∧ labels.countP counted + rank state ≤ rank start := by
  refine run.labelled_invariant
    (fun labels state => holds state ∧ labels.countP counted + rank state ≤ rank start) ?_ ?_
  · exact ⟨initially, by simp⟩
  · rintro labels state label next ⟨kept, bounded⟩ admitted moved
    obtain ⟨keptNext, decreased⟩ := preserved kept admitted moved
    refine ⟨keptNext, ?_⟩
    have one : (if counted label then 1 else 0) = (counted label).toNat := by
      cases counted label <;> rfl
    rw [List.countP_append, List.countP_singleton, one]
    omega

/-- The invariant rule for reachable states. -/
theorem Reachable.invariant {state : machine.State} (holds : machine.State → Prop)
    (initially : ∀ {start}, machine.Initial start → holds start)
    (preserved : ∀ {state label next}, holds state → admits state label →
      machine.step state label = some next → holds next)
    (reachable : machine.Reachable admits state) : holds state := by
  obtain ⟨start, labels, initial, run⟩ := reachable
  exact run.invariant holds (initially initial) preserved

/-- One more admitted move. -/
theorem Reachable.step {state next : machine.State} {label : machine.Label}
    (reachable : machine.Reachable admits state) (admitted : admits state label)
    (moved : machine.step state label = some next) : machine.Reachable admits next := by
  obtain ⟨start, labels, initial, run⟩ := reachable
  exact ⟨start, labels ++ [label], initial, run.snoc admitted moved⟩

/-- Runs that meet in one state compose. -/
theorem Runs.trans {start middle finish : machine.State} {first second : List machine.Label}
    (before : machine.Runs admits start first middle)
    (after : machine.Runs admits middle second finish) :
    machine.Runs admits start (first ++ second) finish := by
  induction after with
  | nil =>
      rw [List.append_nil]
      exact before
  | snoc _ admitted moved inductionHypothesis =>
      rw [← List.append_assoc]
      exact .snoc inductionHypothesis admitted moved

/-- A run under one predicate is a run under every weaker one. -/
theorem Runs.mono {weaker : machine.State → machine.Label → Prop} {start state : machine.State}
    {labels : List machine.Label} (covers : ∀ state label, admits state label →
      weaker state label)
    (run : machine.Runs admits start labels state) : machine.Runs weaker start labels state := by
  induction run with
  | nil => exact .nil
  | snoc _ admitted moved inductionHypothesis =>
      exact .snoc inductionHypothesis (covers _ _ admitted) moved

/-- The admission of every move of a run can use an invariant of it. -/
theorem Runs.strengthen {start state : machine.State} {labels : List machine.Label}
    (holds : machine.State → Prop) (initially : holds start)
    (preserved : ∀ {state label next}, holds state → admits state label →
      machine.step state label = some next → holds next)
    (run : machine.Runs admits start labels state) :
    machine.Runs (fun state label => holds state ∧ admits state label) start labels state := by
  induction run with
  | nil => exact .nil
  | snoc prior admitted moved inductionHypothesis =>
      exact .snoc inductionHypothesis ⟨prior.invariant holds initially preserved,
        admitted⟩ moved

/-- What is reachable under one predicate is reachable under every weaker one. -/
theorem Reachable.mono {weaker : machine.State → machine.Label → Prop} {state : machine.State}
    (covers : ∀ state label, admits state label → weaker state label)
    (reachable : machine.Reachable admits state) : machine.Reachable weaker state := by
  obtain ⟨start, labels, initial, run⟩ := reachable
  exact ⟨start, labels, initial, run.mono covers⟩

/-- A run of two lists of labels passes through a state between them. -/
theorem Runs.split {start finish : machine.State} {first second : List machine.Label}
    (run : machine.Runs admits start (first ++ second) finish) :
    ∃ middle, machine.Runs admits start first middle ∧
      machine.Runs admits middle second finish := by
  generalize whole : first ++ second = labels at run
  induction run generalizing second with
  | nil =>
      obtain ⟨rfl, rfl⟩ := List.append_eq_nil_iff.mp whole
      exact ⟨start, .nil, .nil⟩
  | snoc prior admitted moved inductionHypothesis =>
      rcases second.eq_nil_or_concat with rfl | ⟨later, label, rfl⟩
      · rw [List.append_nil] at whole
        subst whole
        exact ⟨_, .snoc prior admitted moved, .nil⟩
      · rw [List.concat_eq_append, ← List.append_assoc] at whole
        obtain ⟨earlier, last⟩ := List.append_inj' whole rfl
        obtain ⟨rfl, -⟩ := List.cons.inj last
        obtain ⟨middle, before, after⟩ := inductionHypothesis earlier
        rw [List.concat_eq_append]
        exact ⟨middle, before, .snoc after admitted moved⟩

/-- Execute a list of labels, stopping at the first refused move. -/
def exec (machine : Machine) : machine.State → List machine.Label → Option machine.State
  | state, [] => some state
  | state, label :: rest => (machine.step state label).bind fun next => machine.exec next rest

/-- Executions that meet in one state compose. -/
theorem exec_append {start middle finish : machine.State} {first second : List machine.Label}
    (before : machine.exec start first = some middle)
    (after : machine.exec middle second = some finish) :
    machine.exec start (first ++ second) = some finish := by
  induction first generalizing start with
  | nil =>
      cases before
      exact after
  | cons label rest inductionHypothesis =>
      obtain ⟨next, moved, later⟩ := Option.bind_eq_some_iff.mp before
      simp [exec, moved, inductionHypothesis later]

/-- A run executes its labels. -/
theorem Runs.exec {start state : machine.State} {labels : List machine.Label}
    (run : machine.Runs admits start labels state) : machine.exec start labels = some state := by
  induction run with
  | nil => rfl
  | snoc _ _ moved inductionHypothesis =>
      refine exec_append inductionHypothesis ?_
      rw [Machine.exec, moved]
      rfl

/-- One move in front of an admitted run. -/
theorem Runs.cons {start next state : machine.State} {label : machine.Label}
    {labels : List machine.Label} (admitted : admits start label)
    (moved : machine.step start label = some next)
    (run : machine.Runs admits next labels state) :
    machine.Runs admits start (label :: labels) state := by
  induction run with
  | nil => exact .snoc .nil admitted moved
  | snoc _ later laterMoved inductionHypothesis =>
      exact .snoc inductionHypothesis later laterMoved

/-- Every successful execution is a free run. -/
theorem Runs.of_exec {start state : machine.State} {labels : List machine.Label}
    (executed : machine.exec start labels = some state) :
    machine.Runs machine.Free start labels state := by
  induction labels generalizing start with
  | nil =>
      cases executed
      exact .nil
  | cons label rest inductionHypothesis =>
      obtain ⟨next, moved, later⟩ := Option.bind_eq_some_iff.mp executed
      exact .cons trivial moved (inductionHypothesis later)

/-- A state executed from an initial state is freely reachable. -/
theorem Reachable.of_exec {start state : machine.State} {labels : List machine.Label}
    (initial : machine.Initial start) (executed : machine.exec start labels = some state) :
    machine.Reachable machine.Free state :=
  ⟨start, labels, initial, .of_exec executed⟩

/-- Execute a list of labels as long as a check admits them. -/
def execChecked (machine : Machine) (check : machine.State → machine.Label → Bool) :
    machine.State → List machine.Label → Option machine.State
  | state, [] => some state
  | state, label :: rest =>
      if check state label then
        (machine.step state label).bind fun next => machine.execChecked check next rest
      else none

/-- Every successful checked execution is a run that the check admits. -/
theorem Runs.of_execChecked {check : machine.State → machine.Label → Bool}
    {start state : machine.State} {labels : List machine.Label}
    (executed : machine.execChecked check start labels = some state) :
    machine.Runs (fun state label => check state label = true) start labels state := by
  induction labels generalizing start with
  | nil =>
      cases executed
      exact .nil
  | cons label rest inductionHypothesis =>
      obtain ⟨checked, executed⟩ := Option.ite_none_right_eq_some.mp executed
      obtain ⟨next, moved, later⟩ := Option.bind_eq_some_iff.mp executed
      exact .cons checked moved (inductionHypothesis later)

/-- The same machine with names for its labels. A check can look into names where labels
hold functions. -/
def named (machine : Machine) {Name : Type} (label : Name → machine.Label) : Machine where
  State := machine.State
  Label := Name
  Initial := machine.Initial
  step state name := machine.step state (label name)

/-- Every successful checked execution of names is a run of their labels. -/
theorem Runs.of_execNamed {Name : Type} {label : Name → machine.Label}
    {check : machine.State → Name → Bool} {start state : machine.State} {names : List Name}
    (covers : ∀ state name, check state name = true → admits state (label name))
    (executed : (machine.named label).execChecked check start names = some state) :
    machine.Runs admits start (names.map label) state := by
  induction names generalizing start with
  | nil =>
      cases executed
      exact .nil
  | cons name rest inductionHypothesis =>
      obtain ⟨checked, executed⟩ := Option.ite_none_right_eq_some.mp executed
      obtain ⟨next, moved, later⟩ := Option.bind_eq_some_iff.mp executed
      exact .cons (covers start name checked) moved (inductionHypothesis later)

end Machine
end CofreSoberano.Std
