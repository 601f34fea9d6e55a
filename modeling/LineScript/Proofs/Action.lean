/-
Module: LineScript.Proofs.Action
Purpose: How an action made of two actions ends.
Trusted boundary: none
Main exports: bind_apply, bind_of_ok, bind_of_error, bind_eq_ok, bind_eq_error
-/

/-!
Parsers and running programs are actions of one kind: from a state they end with a result or a
failure, and either way in a state. These inversions take a sequence of actions apart, so that the
proofs about both need not look at how sequencing is defined.
-/

namespace LineScript.Action

variable {failure state one two : Type} {action : EStateM failure state one}
  {next : one → EStateM failure state two} {start reached : state}

/-- An action made of two runs the second one where the first one has succeeded. -/
theorem bind_apply (action : EStateM failure state one) (next : one → EStateM failure state two)
    (start : state) :
    (action >>= next) start =
      match action start with
      | .ok value middle => next value middle
      | .error stop middle => .error stop middle := rfl

@[simp] theorem pure_apply (value : one) (start : state) :
    (pure value : EStateM failure state one) start = .ok value start := rfl

@[simp] theorem throw_apply (stop : failure) (start : state) :
    (throw stop : EStateM failure state one) start = .error stop start := rfl

@[simp] theorem get_apply (start : state) :
    (get : EStateM failure state state) start = .ok start start := rfl

/-- A sequence gives a result exactly when both of its actions do. -/
theorem bind_eq_ok {value : two} :
    (action >>= next) start = .ok value reached ↔
      ∃ found middle, action start = .ok found middle ∧ next found middle = .ok value reached := by
  rw [bind_apply]
  cases ending : action start with
  | ok found middle =>
    constructor
    · intro second
      exact ⟨found, middle, rfl, second⟩
    · rintro ⟨_, _, same, second⟩
      cases same
      exact second
  | error stop middle => simp

/-- A sequence fails exactly when its first action fails, or gives a result with which the second
one fails. -/
theorem bind_eq_error {stop : failure} :
    (action >>= next) start = .error stop reached ↔
      action start = .error stop reached ∨
        ∃ found middle, action start = .ok found middle ∧
          next found middle = .error stop reached := by
  rw [bind_apply]
  cases ending : action start with
  | ok found middle =>
    constructor
    · intro second
      exact .inr ⟨found, middle, rfl, second⟩
    · rintro (fails | ⟨_, _, same, second⟩)
      · cases fails
      · cases same
        exact second
  | error stop middle => simp

/-- If the first of two actions succeeds, what is left is the second one. -/
theorem bind_of_ok {found : one} {middle : state} (ending : action start = .ok found middle) :
    (action >>= next) start = next found middle := by
  rw [bind_apply, ending]

/-- If the first of two actions fails, both have failed. -/
theorem bind_of_error {stop : failure} {middle : state}
    (ending : action start = .error stop middle) :
    (action >>= next) start = .error stop middle := by
  rw [bind_apply, ending]

theorem map_eq_ok {convert : one → two} {value : two} :
    (convert <$> action) start = .ok value reached ↔
      ∃ found, action start = .ok found reached ∧ convert found = value := by
  rw [map_eq_pure_bind, bind_eq_ok]
  constructor
  · rintro ⟨found, middle, first, second⟩
    cases second
    exact ⟨found, first, rfl⟩
  · rintro ⟨found, first, rfl⟩
    exact ⟨found, reached, first, rfl⟩

/-! ### Steps that change no state -/

/-- A computation made of two fails if the first one fails, or the second one does. -/
theorem except_bind_eq_error {step : Except failure one} {following : one → Except failure two}
    {stop : failure} :
    (step >>= following) = .error stop ↔
      step = .error stop ∨ ∃ found, step = .ok found ∧ following found = .error stop := by
  cases step with
  | ok found => simp [bind, Except.bind]
  | error other => simp [bind, Except.bind]

end LineScript.Action
