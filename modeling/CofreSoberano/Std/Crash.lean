/-!
# Programs that can be cut off

A program changes a state in atomic steps and may fail. What matters when it is
cut off anywhere are the states it passes through, so a program is given by
those and by how it ends. `Triple` is a Hoare triple with a condition on every
state passed through; its rules follow the structure of a program.
-/

namespace CofreSoberano.Std

/-- The states after each step of a program, and how it ended. -/
structure Passage (S F V : Type) where
  passed : List S
  outcome : Except F V

/-- A program on states `S` that fails with `F` or returns `V`. -/
def Crashable (S F V : Type) := S → Passage S F V

namespace Crashable

variable {S F V W : Type}

/-- The state a program leaves behind. -/
def final (program : Crashable S F V) (start : S) : S :=
  ((program start).passed.getLast?).getD start

/-- A program leaves behind a state that it passed through, or its start. -/
theorem final_mem (program : Crashable S F V) (start : S) :
    program.final start ∈ start :: (program start).passed := by
  simp only [final]
  cases last : (program start).passed.getLast? with
  | none => exact List.mem_cons_self
  | some state => exact List.mem_cons_of_mem _ (List.mem_of_getLast? last)

/-- End at once. -/
def ended (outcome : Except F V) : Crashable S F V := fun _ => ⟨[], outcome⟩

/-- Look at the state. -/
def query (look : S → Except F V) : Crashable S F V := fun state => ⟨[], look state⟩

/-- One atomic step. -/
def step (change : S → S) : Crashable S F Unit := fun state => ⟨[change state], .ok ()⟩

/-- Run a program and go on with its value; a failure ends the whole. -/
def andThen (program : Crashable S F V) (next : V → Crashable S F W) : Crashable S F W :=
  fun start =>
    match (program start).outcome with
    | .error failure => ⟨(program start).passed, .error failure⟩
    | .ok value =>
        let rest := next value (program.final start)
        ⟨(program start).passed ++ rest.passed, rest.outcome⟩

instance : Monad (Crashable S F) where
  pure value := ended (.ok value)
  bind := andThen

/-- What a returning program and the one after it leave behind. -/
theorem final_andThen {program : Crashable S F V} {next : V → Crashable S F W}
    {start : S} {value : V} (ended : (program start).outcome = .ok value) :
    final (program >>= next) start = (next value).final (program.final start) := by
  simp only [bind, andThen, final, ended, List.getLast?_append]
  cases (next value (((program start).passed.getLast?).getD start)).passed.getLast? with
  | none => simp
  | some state => simp

/-- A program that fails ends the whole where it stopped. -/
theorem final_andThen_error {program : Crashable S F V} {next : V → Crashable S F W} {start : S}
    {failure : F} (failed : (program start).outcome = .error failure) :
    final (program >>= next) start = program.final start := by
  simp only [bind, andThen, final, failed]

/-- After one step the rest goes on from the changed state. -/
theorem final_step_andThen {change : S → S} {next : Unit → Crashable S F W} {start : S} :
    final (step change >>= next) start = (next ()).final (change start) :=
  final_andThen (rfl : (step change start : Passage S F Unit).outcome = .ok ())

/-- A program that has ended already changes nothing. -/
theorem final_ended_andThen {value : V} {next : V → Crashable S F W} {start : S} :
    final (ended (.ok value) >>= next) start = (next value).final start :=
  final_andThen (rfl : (ended (.ok value) start : Passage S F V).outcome = .ok value)

/-- From states in `pre`, every state passed through is in `crash`, and a value
is returned only in states in `post`. -/
def Triple (pre crash : S → Prop) (post : V → S → Prop) (program : Crashable S F V) : Prop :=
  ∀ start, pre start → (∀ state ∈ (program start).passed, crash state) ∧
    ∀ value, (program start).outcome = .ok value → post value (program.final start)

namespace Triple

variable {pre crash : S → Prop}

theorem ended {post : V → S → Prop} {outcome : Except F V}
    (returns : ∀ start value, pre start → outcome = .ok value → post value start) :
    Triple pre crash post (Crashable.ended outcome) := by
  intro start holds
  exact ⟨by simp [Crashable.ended], fun value equal => returns start value holds equal⟩

theorem query {post : V → S → Prop} {look : S → Except F V}
    (returns : ∀ start value, pre start → look start = .ok value → post value start) :
    Triple pre crash post (Crashable.query look) := by
  intro start holds
  exact ⟨by simp [Crashable.query], fun value equal => returns start value holds equal⟩

theorem step {post : S → Prop} {change : S → S}
    (changes : ∀ start, pre start → crash (change start) ∧ post (change start)) :
    Triple pre crash (fun _ => post) (Crashable.step change : Crashable S F Unit) := by
  intro start holds
  refine ⟨by simpa [Crashable.step] using (changes start holds).1, ?_⟩
  intro value _
  simpa [Crashable.step, Crashable.final] using (changes start holds).2

theorem andThen (middle : V → S → Prop) {post : W → S → Prop} {program : Crashable S F V}
    {next : V → Crashable S F W} (first : Triple pre crash middle program)
    (second : ∀ value, Triple (middle value) crash post (next value)) :
    Triple pre crash post (program >>= next) := by
  intro start holds
  obtain ⟨passed, returns⟩ := first start holds
  cases ended : (program start).outcome with
  | error failure =>
      simp only [bind, Crashable.andThen, ended]
      exact ⟨passed, fun value equal => by cases equal⟩
  | ok value =>
      obtain ⟨laterPassed, laterReturns⟩ := second value _ (returns value ended)
      rw [final_andThen ended]
      simp only [bind, Crashable.andThen, ended]
      refine ⟨?_, laterReturns⟩
      intro state member
      rcases List.mem_append.mp member with early | late
      · exact passed state early
      · exact laterPassed state late

/-- The same program under a weaker condition on the states passed through. -/
theorem weaken {safe : S → Prop} {post : V → S → Prop} {program : Crashable S F V}
    (triple : Triple pre crash post program) (covers : ∀ state, crash state → safe state) :
    Triple pre safe post program := by
  intro start holds
  obtain ⟨passed, returns⟩ := triple start holds
  exact ⟨fun state member => covers state (passed state member), returns⟩

/-- The same program under a weaker condition on what it returns. -/
theorem returning {post later : V → S → Prop} {program : Crashable S F V}
    (triple : Triple pre crash post program)
    (covers : ∀ value state, post value state → later value state) :
    Triple pre crash later program := by
  intro start holds
  obtain ⟨passed, returns⟩ := triple start holds
  exact ⟨passed, fun value ended => covers value _ (returns value ended)⟩

/-- A fact that does not depend on the state can be assumed beforehand. -/
theorem assuming {fact : Prop} {post : V → S → Prop} {program : Crashable S F V}
    (triple : fact → Triple pre crash post program) :
    Triple (fun state => fact ∧ pre state) crash post program :=
  fun start holds => triple holds.1 start holds.2

end Triple

/-- From states in `pre`, a program that fails leaves a state in `post` behind. -/
def Stops (pre post : S → Prop) (program : Crashable S F V) : Prop :=
  ∀ start, pre start → ∀ failure, (program start).outcome = .error failure →
    post (program.final start)

/-- Where a program that fails leaves one of the states it passed through. -/
theorem Triple.stops {pre crash post : S → Prop} {returned : V → S → Prop}
    {program : Crashable S F V} (triple : Triple pre crash returned program)
    (untouched : ∀ state, pre state → post state)
    (covers : ∀ state, crash state → post state) : Stops pre post program := by
  intro start holds failure _
  rcases List.mem_cons.mp (final_mem program start) with same | passed
  · rw [same]
    exact untouched start holds
  · exact covers _ ((triple start holds).1 _ passed)

/-- A whole fails in its first part or, after that has returned, in its second. -/
theorem Stops.andThen {pre crash post : S → Prop} (middle : V → S → Prop)
    {program : Crashable S F V} {next : V → Crashable S F W} (stops : Stops pre post program)
    (first : Triple pre crash middle program)
    (second : ∀ value, Stops (middle value) post (next value)) :
    Stops pre post (program >>= next) := by
  intro start holds failure failed
  cases ended : (program start).outcome with
  | error early =>
      rw [final_andThen_error ended]
      exact stops start holds early ended
  | ok value =>
      rw [final_andThen ended]
      refine second value _ ((first start holds).2 value ended) failure ?_
      simpa only [bind, Crashable.andThen, ended] using failed

/-- From states in `pre` a program returns, in states in `post`. -/
def Returns (pre : S → Prop) (post : V → S → Prop) (program : Crashable S F V) : Prop :=
  ∀ start, pre start →
    ∃ value, (program start).outcome = .ok value ∧ post value (program.final start)

/-- From states in `pre` a program passes through a state in `target`. -/
def Passes (pre target : S → Prop) (program : Crashable S F V) : Prop :=
  ∀ start, pre start → ∃ state ∈ (program start).passed, target state

/-- A triple of a program that never fails. -/
theorem Triple.returns {pre crash : S → Prop} {post : V → S → Prop}
    {program : Crashable S F V} (triple : Triple pre crash post program)
    (succeeds : ∀ start, ∃ value, (program start).outcome = .ok value) :
    Returns pre post program := by
  intro start holds
  obtain ⟨value, ended⟩ := succeeds start
  exact ⟨value, ended, (triple start holds).2 value ended⟩

/-- Both parts return. -/
theorem Returns.andThen {pre : S → Prop} (middle : V → S → Prop) {post : W → S → Prop}
    {program : Crashable S F V} {next : V → Crashable S F W} (first : Returns pre middle program)
    (second : ∀ value, Returns (middle value) post (next value)) :
    Returns pre post (program >>= next) := by
  intro start holds
  obtain ⟨value, ended, between⟩ := first start holds
  obtain ⟨result, later, after⟩ := second value _ between
  refine ⟨result, ?_, ?_⟩
  · simp only [bind, Crashable.andThen, ended, later]
  · rw [final_andThen ended]
    exact after

namespace Passes

variable {pre target : S → Prop}

theorem step {change : S → S} (reached : ∀ start, pre start → target (change start)) :
    Passes pre target (Crashable.step change : Crashable S F Unit) :=
  fun start holds => ⟨change start, List.mem_singleton_self _, reached start holds⟩

/-- The first part already passes through such a state. -/
theorem first {program : Crashable S F V} {next : V → Crashable S F W}
    (passes : Passes pre target program) : Passes pre target (program >>= next) := by
  intro start holds
  obtain ⟨state, member, reached⟩ := passes start holds
  refine ⟨state, ?_, reached⟩
  simp only [bind, Crashable.andThen]
  split
  · exact member
  · exact List.mem_append_left _ member

/-- The first part returns, and the rest passes through such a state. -/
theorem later (middle : V → S → Prop) {program : Crashable S F V} {next : V → Crashable S F W}
    (returns : Returns pre middle program)
    (passes : ∀ value, Passes (middle value) target (next value)) :
    Passes pre target (program >>= next) := by
  intro start holds
  obtain ⟨value, ended, between⟩ := returns start holds
  obtain ⟨state, member, reached⟩ := passes value _ between
  refine ⟨state, ?_, reached⟩
  simp only [bind, Crashable.andThen, ended]
  exact List.mem_append_right _ member

end Passes

end Crashable
end CofreSoberano.Std
