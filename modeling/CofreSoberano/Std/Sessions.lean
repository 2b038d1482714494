import Mathlib.Data.List.Basic
import CofreSoberano.Std.Machine

/-!
# Interleaved sessions over a shared log

Any number of sessions run the same code side by side. They share nothing but a
log that only grows. A `Local` proof speaks about one session at a time: what it
relies on in the log, and which entries of the log are its own. `Local.reachable`
turns it into a statement about every interleaving.
-/

namespace CofreSoberano.Std

/-- The code of a session: how it begins and what it does with an input, with the
entries that it adds to the log. -/
structure Role where
  Config : Type
  Run : Type
  Input : Type
  Entry : Type
  begins : Config → Run
  turn : Run → Input → Option (Run × List Entry)

/-- The sessions begun so far, and their log, oldest first. -/
structure Pool (role : Role) where
  runs : List role.Run
  log : List role.Entry

/-- A session begins, or one of them takes a turn. -/
inductive PoolMove (role : Role) where
  | begins (config : role.Config)
  | turn (index : Nat) (input : role.Input)

namespace Pool

variable {role : Role}

/-- One move of a pool. -/
def step (pool : Pool role) : PoolMove role → Option (Pool role)
  | .begins config => some { pool with runs := pool.runs ++ [role.begins config] }
  | .turn index input => do
      let run ← pool.runs[index]?
      let (next, entries) ← role.turn run input
      return { runs := pool.runs.set index next, log := pool.log ++ entries }

/-- A turn replaces one run and adds its entries to the log. -/
theorem step_turn_eq_some {pool next : Pool role} {index : Nat} {input : role.Input}
    (moved : pool.step (.turn index input) = some next) :
    ∃ run after entries, pool.runs[index]? = some run ∧
      role.turn run input = some (after, entries) ∧
      next = { runs := pool.runs.set index after, log := pool.log ++ entries } := by
  obtain ⟨run, found, moved⟩ := Option.bind_eq_some_iff.mp moved
  obtain ⟨⟨after, entries⟩, turned, moved⟩ := Option.bind_eq_some_iff.mp moved
  cases moved
  exact ⟨run, after, entries, found, turned, rfl⟩

theorem step_turn {pool : Pool role} {index : Nat} {input : role.Input} {run after : role.Run}
    {entries : List role.Entry} (found : pool.runs[index]? = some run)
    (turned : role.turn run input = some (after, entries)) :
    pool.step (.turn index input) =
      some { runs := pool.runs.set index after, log := pool.log ++ entries } := by
  simp [step, found, turned]

end Pool

namespace Role

variable {role : Role}

/-- The machine of all interleavings. -/
def machine (role : Role) : Machine where
  State := Pool role
  Label := PoolMove role
  Initial pool := pool = ⟨[], []⟩
  step := Pool.step

/-- Admit the turns whose input is allowed to the run that takes it, at the log so
far. -/
def admits (allowed : List role.Entry → role.Run → role.Input → Prop) (pool : Pool role) :
    PoolMove role → Prop
  | .begins _ => True
  | .turn index input => ∀ run, pool.runs[index]? = some run → allowed pool.log run input

/-- A proof about single sessions. `Valid` may rely on entries of the log, which
stay; `Owns` says which entries a session answers for. -/
structure Local (role : Role) (allowed : List role.Entry → role.Run → role.Input → Prop) where
  Valid : List role.Entry → role.Run → Prop
  Owns : role.Run → role.Entry → Prop
  mono : ∀ {log run} more, Valid log run → Valid (log ++ more) run
  begins : ∀ config log, Valid log (role.begins config)
  turns : ∀ {log run input next entries}, Valid log run → allowed log run input →
    role.turn run input = some (next, entries) → Valid (log ++ entries) next
  keeps : ∀ {log run input next entries entry}, Valid log run →
    role.turn run input = some (next, entries) → Owns run entry → Owns next entry
  owns : ∀ {run input next entries entry}, role.turn run input = some (next, entries) →
    entry ∈ entries → Owns next entry

namespace Local

variable {allowed : List role.Entry → role.Run → role.Input → Prop}
    (proof : role.Local allowed)

/-- Every session is valid, and every entry of the log has an owner. -/
structure Holds (pool : Pool role) : Prop where
  valid : ∀ run ∈ pool.runs, proof.Valid pool.log run
  owned : ∀ entry ∈ pool.log, ∃ run ∈ pool.runs, proof.Owns run entry

variable {proof} {pool next : Pool role}

theorem Holds.begins (holds : proof.Holds pool) (config : role.Config) :
    proof.Holds { pool with runs := pool.runs ++ [role.begins config] } where
  valid run member := by
    rcases List.mem_append.mp member with old | new
    · exact holds.valid run old
    · rw [List.mem_singleton.mp new]
      exact proof.begins config pool.log
  owned entry member := by
    obtain ⟨run, inside, owns⟩ := holds.owned entry member
    exact ⟨run, List.mem_append_left _ inside, owns⟩

theorem Holds.turns (holds : proof.Holds pool) {index : Nat} {input : role.Input}
    (admitted : role.admits allowed pool (.turn index input))
    (moved : pool.step (.turn index input) = some next) : proof.Holds next := by
  obtain ⟨run, after, entries, found, turned, rfl⟩ := Pool.step_turn_eq_some moved
  obtain ⟨inside, _⟩ := List.getElem?_eq_some_iff.mp found
  have replaced : after ∈ pool.runs.set index after := List.mem_set inside after
  have before := holds.valid run (List.mem_of_getElem? found)
  refine ⟨fun other member => ?_, fun entry member => ?_⟩
  · rcases List.mem_or_eq_of_mem_set member with old | rfl
    · exact proof.mono entries (holds.valid other old)
    · exact proof.turns before (admitted run found) turned
  · rcases List.mem_append.mp member with old | new
    · -- The owner is another session, or the one that moved and keeps what it owns.
      obtain ⟨owner, ownerMember, owns⟩ := holds.owned entry old
      obtain ⟨position, ownerFound⟩ := List.mem_iff_getElem?.mp ownerMember
      by_cases same : index = position
      · subst position
        rw [found] at ownerFound
        cases ownerFound
        exact ⟨after, replaced, proof.keeps before turned owns⟩
      · refine ⟨owner, List.mem_iff_getElem?.mpr ⟨position, ?_⟩, owns⟩
        rw [List.getElem?_set_ne same]
        exact ownerFound
    · exact ⟨after, replaced, proof.owns turned new⟩

/-- What is proved about single sessions holds in every interleaving of them. -/
theorem reachable (reachable : role.machine.Reachable (role.admits allowed) pool) :
    proof.Holds pool := by
  refine reachable.invariant (proof.Holds) ?_ ?_
  · intro start initial
    cases initial
    exact ⟨by simp, by simp⟩
  · intro state label next holds admitted moved
    cases label with
    | begins config =>
        cases moved
        exact holds.begins config
    | turn index input => exact holds.turns admitted moved

end Local
end Role
end CofreSoberano.Std
