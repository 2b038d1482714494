/-!
# Fallible computations

How a successful `Except` computation is taken apart: a bind into its two
successes, a traversal into what every element contributed.
-/

namespace CofreSoberano.Std

variable {E V W R : Type}

/-- A bind succeeds exactly when both of its computations do. -/
theorem bind_eq_ok {first : Except E V} {next : V → Except E W} {result : W} :
    (first >>= next) = .ok result ↔ ∃ value, first = .ok value ∧ next value = .ok result := by
  cases first with
  | error message => simp [bind, Except.bind]
  | ok value => simp [bind, Except.bind]

/-- Go on only if a condition holds. -/
def ensure (condition : Prop) [Decidable condition] (failure : E) : Except E Unit :=
  if condition then .ok () else .error failure

@[simp] theorem ensure_eq_ok {condition : Prop} [Decidable condition] {failure : E} {done : Unit} :
    ensure condition failure = .ok done ↔ condition := by
  by_cases holds : condition <;> simp [ensure, holds]

@[simp] theorem mapError_ok {F : Type} (convert : E → F) (value : V) :
    (Except.ok value : Except E V).mapError convert = .ok value := rfl

@[simp] theorem mapError_error {F : Type} (convert : E → F) (failure : E) :
    (Except.error failure : Except E V).mapError convert = .error (convert failure) := rfl

/-- Converting an error changes no success. -/
@[simp] theorem mapError_eq_ok {F : Type} {convert : E → F} {outcome : Except E V} {value : V} :
    outcome.mapError convert = .ok value ↔ outcome = .ok value := by
  cases outcome <;> simp

/-- A value that came through was a success. -/
theorem eq_ok_of_toOption {outcome : Except E V} {value : V}
    (came : outcome.toOption = some value) : outcome = .ok value := by
  cases outcome with
  | error message => cases came
  | ok result =>
      cases came
      rfl

/-- Only one outcome without a value is a success. -/
theorem eq_ok_of_isOk {outcome : Except E Unit} (isOk : outcome.isOk = true) :
    outcome = .ok () := by
  cases outcome with
  | error message => cases isOk
  | ok result => rfl

/-- A successful traversal keeps every image that its function keeps. -/
theorem map_of_mapM_eq_ok {convert : V → Except E W} {image : V → R} {resultImage : W → R}
    (keeps : ∀ {value result}, convert value = .ok result → resultImage result = image value)
    {values : List V} {results : List W} (traversed : values.mapM convert = .ok results) :
    results.map resultImage = values.map image := by
  induction values generalizing results with
  | nil =>
      cases traversed
      rfl
  | cons value rest inductionHypothesis =>
      rw [List.mapM_cons] at traversed
      obtain ⟨result, converted, traversed⟩ := bind_eq_ok.mp traversed
      obtain ⟨others, later, traversed⟩ := bind_eq_ok.mp traversed
      cases traversed
      rw [List.map_cons, List.map_cons, keeps converted, inductionHypothesis later]

/-- A successful traversal has as many results as values. -/
theorem length_of_mapM_eq_ok {convert : V → Except E W} {values : List V} {results : List W}
    (traversed : values.mapM convert = .ok results) : results.length = values.length := by
  have images : results.map (fun _ => ()) = values.map fun _ => () :=
    map_of_mapM_eq_ok (fun _ => rfl) traversed
  simpa using congrArg List.length images

/-- Every result of a successful traversal comes from one of its values. -/
theorem exists_of_mem_mapM_eq_ok {convert : V → Except E W} {values : List V} {results : List W}
    (traversed : values.mapM convert = .ok results) {result : W} (member : result ∈ results) :
    ∃ value ∈ values, convert value = .ok result := by
  induction values generalizing results with
  | nil =>
      cases traversed
      cases member
  | cons value rest inductionHypothesis =>
      rw [List.mapM_cons] at traversed
      obtain ⟨first, converted, traversed⟩ := bind_eq_ok.mp traversed
      obtain ⟨others, later, traversed⟩ := bind_eq_ok.mp traversed
      cases traversed
      rcases List.mem_cons.mp member with rfl | after
      · exact ⟨value, List.mem_cons_self, converted⟩
      · obtain ⟨source, sourceMember, sourceConverted⟩ := inductionHypothesis later after
        exact ⟨source, List.mem_cons_of_mem _ sourceMember, sourceConverted⟩

/-- Every value of a successful traversal contributes a result. -/
theorem exists_mem_of_mapM_eq_ok {convert : V → Except E W} {values : List V} {results : List W}
    (traversed : values.mapM convert = .ok results) {value : V} (member : value ∈ values) :
    ∃ result ∈ results, convert value = .ok result := by
  induction values generalizing results with
  | nil => cases member
  | cons first rest inductionHypothesis =>
      rw [List.mapM_cons] at traversed
      obtain ⟨result, converted, traversed⟩ := bind_eq_ok.mp traversed
      obtain ⟨others, later, traversed⟩ := bind_eq_ok.mp traversed
      cases traversed
      rcases List.mem_cons.mp member with rfl | after
      · exact ⟨result, List.mem_cons_self, converted⟩
      · obtain ⟨found, foundMember, foundConverted⟩ := inductionHypothesis later after
        exact ⟨found, List.mem_cons_of_mem _ foundMember, foundConverted⟩

/-- A traversal whose conversions all succeed succeeds. -/
theorem mapM_ok_of_forall {convert : V → Except E W} {values : List V}
    (converts : ∀ value ∈ values, ∃ result, convert value = .ok result) :
    ∃ results, values.mapM convert = .ok results := by
  induction values with
  | nil => exact ⟨[], rfl⟩
  | cons value rest inductionHypothesis =>
      obtain ⟨result, converted⟩ := converts value List.mem_cons_self
      obtain ⟨results, others⟩ := inductionHypothesis fun other member =>
        converts other (List.mem_cons_of_mem _ member)
      refine ⟨result :: results, ?_⟩
      rw [List.mapM_cons]
      exact bind_eq_ok.mpr ⟨result, converted, bind_eq_ok.mpr ⟨results, others, rfl⟩⟩

/-- A traversal commutes with a selection by an image that its function keeps. -/
theorem filter_mapM_eq_ok [DecidableEq R] {convert : V → Except E W} {image : V → R}
    {resultImage : W → R}
    (keeps : ∀ {value result}, convert value = .ok result → resultImage result = image value)
    {values : List V} {results : List W} (traversed : values.mapM convert = .ok results)
    (wanted : R) :
    (values.filter fun value => image value = wanted).mapM convert =
      .ok (results.filter fun result => resultImage result = wanted) := by
  induction values generalizing results with
  | nil =>
      cases traversed
      rfl
  | cons value rest inductionHypothesis =>
      rw [List.mapM_cons] at traversed
      obtain ⟨result, converted, traversed⟩ := bind_eq_ok.mp traversed
      obtain ⟨others, later, traversed⟩ := bind_eq_ok.mp traversed
      cases traversed
      have kept := keeps converted
      by_cases selected : image value = wanted
      · rw [List.filter_cons_of_pos (by simpa using selected),
          List.filter_cons_of_pos (by simpa [kept] using selected), List.mapM_cons, converted,
          inductionHypothesis later]
        rfl
      · rw [List.filter_cons_of_neg (by simpa using selected),
          List.filter_cons_of_neg (by simpa [kept] using selected)]
        exact inductionHypothesis later

/-- A successful check of a list has checked every element. -/
theorem of_forM_eq_ok {check : V → Except E PUnit} {values : List V}
    (checked : values.forM check = .ok ()) {value : V} (member : value ∈ values) :
    check value = .ok () := by
  induction values with
  | nil => cases member
  | cons first rest inductionHypothesis =>
      obtain ⟨⟨⟩, now, later⟩ := bind_eq_ok.mp checked
      rcases List.mem_cons.mp member with rfl | after
      · exact now
      · exact inductionHypothesis later after

/-- The invariant rule of a successful fold: what relates the items so far to the
state and is kept by every item relates all items to the result. -/
theorem foldlM_invariant {advance : W → V → Except E W} (holds : List V → W → Prop)
    {items : List V} {start result : W} (initially : holds [] start)
    (preserved : ∀ {done item state next}, item ∈ items → holds done state →
      advance state item = .ok next → holds (done ++ [item]) next)
    (folded : items.foldlM advance start = .ok result) : holds items result := by
  have general : ∀ (rest done : List V) (state : W), (∀ item ∈ rest, item ∈ items) →
      holds done state → rest.foldlM advance state = .ok result →
      holds (done ++ rest) result := by
    intro rest
    induction rest with
    | nil =>
        intro done state _ now folded
        cases folded
        simpa using now
    | cons item rest inductionHypothesis =>
        intro done state inside now folded
        rw [List.foldlM_cons] at folded
        obtain ⟨next, advanced, folded⟩ := bind_eq_ok.mp folded
        have later := inductionHypothesis (done ++ [item]) next
          (fun other member => inside other (List.mem_cons_of_mem _ member))
          (preserved (inside item List.mem_cons_self) now advanced) folded
        rwa [List.append_assoc, List.singleton_append] at later
  simpa using general items [] start (fun _ member => member) initially folded

/-! ### Panics

A computation that may panic is an `Option`, and `none` is the panic. -/

/-- `values[i]`. -/
def index (values : List V) (i : Nat) : Option V := values[i]?

/-- `values[i] = value`. -/
def setIndex (values : List V) (i : Nat) (value : V) : Option (List V) :=
  if i < values.length then some (values.set i value) else none

/-- `&values[..count]`. -/
def sliceTo (values : List V) (count : Nat) : Option (List V) :=
  if count ≤ values.length then some (values.take count) else none

/-- `left - right` on unsigned integers. -/
def checkedSub (left right : Nat) : Option Nat :=
    if right ≤ left then some (left - right) else none

theorem drop_of_index {values : List V} {i : Nat} {value : V}
    (found : index values i = some value) : values.drop i = value :: values.drop (i + 1) := by
  obtain ⟨inside, rfl⟩ := List.getElem?_eq_some_iff.mp found
  exact List.drop_eq_getElem_cons inside

theorem isSome_sliceTo {values : List V} {count : Nat} :
    (sliceTo values count).isSome = true ↔ count ≤ values.length := by
  by_cases fits : count ≤ values.length <;> simp [sliceTo, fits]

/-- A traversal returns exactly when it does on every element. -/
theorem isSome_mapM {convert : V → Option W} {values : List V} :
    (values.mapM convert).isSome = true ↔ ∀ value ∈ values,
    (convert value).isSome = true := by
  induction values with
  | nil => simp
  | cons value values inductionHypothesis =>
      rw [List.mapM_cons, List.forall_mem_cons, ← inductionHypothesis]
      cases convert value with
      | none => simp
      | some result => cases values.mapM convert <;> simp

end CofreSoberano.Std
