import CofreSoberano.Std.Crash
import Mathlib.Data.Set.Basic
import Mathlib.Logic.Function.Basic

/-!
# Threads on a shared store

A thread is a program of atomic actions on a store that others change between any
two of its actions. What keeps threads from disturbing each other is ownership: each
owns some keys at which something stands, its actions change only those or claim
keys at which nothing stands, and what it relies on is at keys of its own. `Keeps`
is the proof rule for one thread, `Separated.act` the rule for all of them.
-/

namespace CofreSoberano.Std

/-- What stands at each key. -/
abbrev Store (K B : Type) := K → Option B

/-- A thread on states `S` that announces `N`, and fails with `F` or returns `V`.
An action may be impossible for the time being; what follows it depends on the state
that it finds. -/
inductive Thread (S N F V : Type) where
  | ended (outcome : Except F V)
  | act (possible : S → Bool) (change : S → S) (announces : S → List N)
      (next : S → Thread S N F V)

namespace Thread

variable {S N F V W : Type}

/-- Run a thread and go on with its value; a failure ends the whole. -/
def andThen : Thread S N F V → (V → Thread S N F W) → Thread S N F W
  | .ended (.error failure), _ => .ended (.error failure)
  | .ended (.ok value), later => later value
  | .act possible change announces next, later =>
      .act possible change announces fun state => (next state).andThen later

instance : Monad (Thread S N F) where
  pure value := .ended (.ok value)
  bind := andThen

/-- An action that is always possible and announces nothing. -/
def step (change : S → S) : Thread S N F Unit :=
  .act (fun _ => true) change (fun _ => []) fun _ => .ended (.ok ())

/-- Look at the state. -/
def query (look : S → Except F V) : Thread S N F V :=
  .act (fun _ => true) id (fun _ => []) fun state => .ended (look state)

/-- The run of a thread that nobody disturbs: the state it leaves and how it ends. -/
def alone : Thread S N F V → S → Option (S × Except F V)
  | .ended outcome, state => some (state, outcome)
  | .act possible change _ next, state =>
      if possible state then (next state).alone (change state) else none

/-- The next action of a thread: what remains of it, the changed state and what it
announces. -/
def advance : Thread S N F V → S → Option (Thread S N F V × S × List N)
  | .ended _, _ => none
  | .act possible change announces next, state =>
      if possible state then some (next state, change state, announces state) else none

@[simp] theorem alone_ended (outcome : Except F V) (state : S) :
    (ended outcome : Thread S N F V).alone state = some (state, outcome) := rfl

@[simp] theorem alone_step (change : S → S) (state : S) :
    (step change : Thread S N F Unit).alone state = some (change state, .ok ()) := rfl

@[simp] theorem alone_query (look : S → Except F V) (state : S) :
    (query look : Thread S N F V).alone state = some (state, look state) := rfl

/-- Undisturbed threads run one after the other. -/
theorem alone_bind (thread : Thread S N F V) (later : V → Thread S N F W) (state : S) :
    (thread >>= later).alone state = (thread.alone state).bind fun
      | (after, .ok value) => (later value).alone after
      | (after, .error failure) => some (after, .error failure) := by
  induction thread generalizing state with
  | ended outcome => cases outcome <;> rfl
  | act possible change announces next inductionHypothesis =>
      change (if possible state then ((next state) >>= later).alone (change state) else none) =
        (if possible state then (next state).alone (change state) else none).bind _
      split
      · exact inductionHypothesis state (change state)
      · rfl

/-- A thread that announces nothing. -/
def Silent : Thread S N F V → Prop
  | .ended _ => True
  | .act _ _ announces next => ∀ state, announces state = [] ∧ (next state).Silent

theorem Silent.andThen {thread : Thread S N F V} {later : V → Thread S N F W}
    (first : thread.Silent) (second : ∀ value, (later value).Silent) :
    (thread >>= later).Silent := by
  induction thread with
  | ended outcome =>
      cases outcome with
      | error failure => trivial
      | ok value => exact second value
  | act possible change announces next inductionHypothesis =>
      intro state
      exact ⟨(first state).1, inductionHypothesis state (first state).2⟩

theorem Silent.step (change : S → S) : (Thread.step change : Thread S N F Unit).Silent :=
  fun _ => ⟨rfl, trivial⟩

/-- Undisturbed, a thread does what a program does. -/
def Mirrors (thread : Thread S N F V) (program : Crashable S F V) (state : S) : Prop :=
  thread.alone state = some (program.final state, (program state).outcome)

theorem Mirrors.ended (outcome : Except F V) (state : S) :
    (ended outcome : Thread S N F V).Mirrors (Crashable.ended outcome) state := rfl

theorem Mirrors.step (change : S → S) (state : S) :
    (Thread.step change : Thread S N F Unit).Mirrors (Crashable.step change) state := rfl

theorem Mirrors.query (look : S → Except F V) (state : S) :
    (Thread.query look : Thread S N F V).Mirrors (Crashable.query look) state := rfl

/-- A first step that changes nothing makes no difference. -/
theorem Mirrors.idle {thread : Thread S N F V} {change : S → S} {next : Unit → Crashable S F V}
    {state : S} (same : change state = state) (later : thread.Mirrors (next ()) state) :
    thread.Mirrors (Crashable.step change >>= next) state := by
  rw [Mirrors, Crashable.final_step_andThen, same, later]
  simp [bind, Crashable.andThen, Crashable.step, Crashable.final, same]

/-- One after the other, if what follows does the same from where the first ended. -/
theorem Mirrors.andThen {thread : Thread S N F V} {program : Crashable S F V}
    {later : V → Thread S N F W} {next : V → Crashable S F W} {state : S}
    (first : thread.Mirrors program state)
    (second : ∀ value, (program state).outcome = .ok value →
      (later value).Mirrors (next value) (program.final state)) :
    (thread >>= later).Mirrors (program >>= next) state := by
  rw [Mirrors, alone_bind, first]
  cases ended : (program state).outcome with
  | error failure =>
      rw [Crashable.final_andThen_error ended]
      simp [bind, Crashable.andThen, ended]
  | ok value =>
      rw [Crashable.final_andThen ended]
      simp only [Option.bind_some, bind, Crashable.andThen, ended]
      exact second value ended

end Thread

section Ownership

variable {K B : Type}

/-- Two stores that agree at the given keys. -/
def Agree (keys : Set K) (before after : Store K B) : Prop :=
    ∀ key ∈ keys, after key = before key

/-- An action that starts and ends with the given keys of its own: it claims only
keys at which nothing stood, changes nothing at keys of others, and something stands
at its keys afterwards. -/
structure Local (owned claimed : Set K) (before after : Store K B) : Prop where
  fresh : ∀ key ∈ claimed, key ∉ owned → before key = none
  frame : ∀ key, key ∉ owned → key ∉ claimed → after key = before key
  present : ∀ key ∈ claimed, (after key).isSome

theorem Local.refl {owned : Set K} {store : Store K B}
    (present : ∀ key ∈ owned, (store key).isSome) : Local owned owned store store :=
  ⟨fun _ inside outside => absurd inside outside, fun _ _ _ => rfl, present⟩

/-- Owners `I` with keys of their own. -/
structure Separated {I : Type} (owned : I → Set K) (store : Store K B) : Prop where
  disjoint : ∀ {first second key}, key ∈ owned first → key ∈ owned second → first = second
  present : ∀ owner, ∀ key ∈ owned owner, (store key).isSome

/-- A local action of one owner keeps all owners apart, and nobody else's keys
change. -/
theorem Separated.act {I : Type} [DecidableEq I] {owned : I → Set K} {before after : Store K B}
    (separated : Separated owned before) {owner : I} {claimed : Set K}
    (acts : Local (owned owner) claimed before after) :
    Separated (Function.update owned owner claimed) after ∧
      ∀ other, other ≠ owner → Agree (owned other) before after := by
  -- Another owner's key holds something, so it was not claimed.
  have apart : ∀ {other}, other ≠ owner → ∀ key ∈ owned other, key ∉ claimed := by
    intro other different key member claimedHere
    have something := separated.present other key member
    have unowned : key ∉ owned owner := fun own => different (separated.disjoint member own)
    rw [acts.fresh key claimedHere unowned] at something
    cases something
  have frame : ∀ other, other ≠ owner → Agree (owned other) before after := by
    intro other different key member
    refine acts.frame key (fun own => different (separated.disjoint member own)) ?_
    exact apart different key member
  refine ⟨⟨?_, ?_⟩, frame⟩
  · intro first second key inFirst inSecond
    by_cases isFirst : first = owner
    · by_cases isSecond : second = owner
      · rw [isFirst, isSecond]
      · rw [isFirst, Function.update_self] at inFirst
        rw [Function.update_of_ne isSecond] at inSecond
        exact absurd inFirst (apart isSecond key inSecond)
    · rw [Function.update_of_ne isFirst] at inFirst
      by_cases isSecond : second = owner
      · rw [isSecond, Function.update_self] at inSecond
        exact absurd inSecond (apart isFirst key inFirst)
      · rw [Function.update_of_ne isSecond] at inSecond
        exact separated.disjoint inFirst inSecond
  · intro other key member
    by_cases isOwner : other = owner
    · rw [isOwner, Function.update_self] at member
      exact acts.present key member
    · rw [Function.update_of_ne isOwner] at member
      rw [frame other isOwner key member]
      exact separated.present other key member

end Ownership

namespace Thread

variable {K B N F V W : Type}

/-- A thread with the keys `owned` that has announced `announced` keeps to itself:
whatever others do at other keys in between, each of its actions is local and leads
to a state in `invariant`, and it ends in states in `post`. -/
def Keeps (invariant : List N → Set K → Store K B → Prop)
    (post : Except F V → List N → Set K → Store K B → Prop) :
    Thread (Store K B) N F V → List N → Set K → Store K B → Prop
  | .ended outcome, announced, owned, store => post outcome announced owned store
  | .act possible change announces next, announced, owned, store =>
      ∀ found, Agree owned store found → possible found = true → ∃ claimed,
        Local owned claimed found (change found) ∧
        invariant (announced ++ announces found) claimed (change found) ∧
        (next found).Keeps invariant post (announced ++ announces found) claimed (change found)

variable {invariant weaker : List N → Set K → Store K B → Prop}
  {post later : Except F V → List N → Set K → Store K B → Prop}
  {thread : Thread (Store K B) N F V} {announced : List N} {owned : Set K} {store found : Store K B}

/-- What a thread keeps does not depend on anything at keys of others. -/
theorem Keeps.stable (keeps : thread.Keeps invariant post announced owned store)
    (agree : Agree owned store found)
    (stable : ∀ outcome, post outcome announced owned store →
      post outcome announced owned found) :
    thread.Keeps invariant post announced owned found := by
  cases thread with
  | ended outcome => exact stable outcome keeps
  | act possible change announces next =>
      intro further agreeFurther
      refine keeps further fun key member => ?_
      rw [agreeFurther key member, agree key member]

/-- One action of a thread that keeps to itself. -/
theorem Keeps.advance {rest : Thread (Store K B) N F V} {after : Store K B} {notes : List N}
    (keeps : thread.Keeps invariant post announced owned store)
    (advanced : thread.advance store = some (rest, after, notes)) :
    ∃ claimed, Local owned claimed store after ∧
      invariant (announced ++ notes) claimed after ∧
      rest.Keeps invariant post (announced ++ notes) claimed after := by
  cases thread with
  | ended outcome => cases advanced
  | act possible change announces next =>
      obtain ⟨isPossible, same⟩ := Option.ite_none_right_eq_some.mp advanced
      cases same
      exact keeps store (fun _ _ => rfl) isPossible

/-- The same thread under weaker conditions. -/
theorem Keeps.mono (keeps : thread.Keeps invariant post announced owned store)
    (covers : ∀ announced owned store, invariant announced owned store →
      weaker announced owned store)
    (ends : ∀ outcome announced owned store, post outcome announced owned store →
      later outcome announced owned store) :
    thread.Keeps weaker later announced owned store := by
  induction thread generalizing announced owned store with
  | ended outcome => exact ends outcome announced owned store keeps
  | act possible change announces next inductionHypothesis =>
      intro found agree isPossible
      obtain ⟨claimed, acts, holds, continues⟩ := keeps found agree isPossible
      exact ⟨claimed, acts, covers _ _ _ holds, inductionHypothesis found continues⟩

/-- A condition for a thread that returns and one for a thread that fails. -/
def Ends (returned : V → List N → Set K → Store K B → Prop)
    (failed : List N → Set K → Store K B → Prop) :
    Except F V → List N → Set K → Store K B → Prop
  | .ok value => returned value
  | .error _ => failed

/-- A thread that goes on with its value. -/
theorem Keeps.andThen {next : V → Thread (Store K B) N F W}
    {finish : Except F W → List N → Set K → Store K B → Prop}
    (returned : V → List N → Set K → Store K B → Prop) (failed : List N →
      Set K → Store K B → Prop)
    (keeps : thread.Keeps invariant (Ends returned failed) announced owned store)
    (returns : ∀ value announced owned store, returned value announced owned store →
      (next value).Keeps invariant finish announced owned store)
    (fails : ∀ failure announced owned store, failed announced owned store →
      finish (.error failure) announced owned store) :
    (thread >>= next).Keeps invariant finish announced owned store := by
  induction thread generalizing announced owned store with
  | ended outcome =>
      cases outcome with
      | error failure => exact fails failure announced owned store keeps
      | ok value => exact returns value announced owned store keeps
  | act possible change announces following inductionHypothesis =>
      intro found agree isPossible
      obtain ⟨claimed, acts, holds, continues⟩ := keeps found agree isPossible
      exact ⟨claimed, acts, holds, inductionHypothesis found continues⟩

/-- An action that is always possible and announces nothing. -/
theorem Keeps.step {change : Store K B → Store K B}
    {finish : Except F Unit → List N → Set K → Store K B → Prop}
    (acts : ∀ found, Agree owned store found → ∃ claimed,
      Local owned claimed found (change found) ∧ invariant announced claimed (change found) ∧
        finish (.ok ()) announced claimed (change found)) :
    (Thread.step change : Thread (Store K B) N F Unit).Keeps invariant finish announced owned
      store := by
  intro found agree _
  obtain ⟨claimed, isLocal, holds, ends⟩ := acts found agree
  refine ⟨claimed, isLocal, ?_, ?_⟩
  · rw [List.append_nil]
    exact holds
  · rw [List.append_nil]
    exact ends

/-- A look at the state. -/
theorem Keeps.query {look : Store K B → Except F V}
    (present : ∀ key ∈ owned, (store key).isSome)
    (looks : ∀ found, Agree owned store found → invariant announced owned found ∧
      post (look found) announced owned found) :
    (Thread.query look : Thread (Store K B) N F V).Keeps invariant post announced owned store := by
  intro found agree _
  obtain ⟨holds, ends⟩ := looks found agree
  rw [List.append_nil]
  refine ⟨owned, .refl fun key member => ?_, holds, ends⟩
  rw [agree key member]
  exact present key member

end Thread

end CofreSoberano.Std
