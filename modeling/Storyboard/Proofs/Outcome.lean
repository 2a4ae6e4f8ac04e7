/-!
# Outcomes of computations that may fail

A computation chained from parts succeeds where all its parts do, and fails where the first of
them fails that does not succeed. Some failures only wait for something that is not known yet;
`Persists` says that an outcome which waits for nothing is also the later one, and it passes
through chains.
-/
namespace Storyboard

variable {ε δ α β : Type}

/-! ## Parts of a chain -/

/-- A chain that succeeds has a first part that does. -/
theorem bind_eq_ok {first : Except ε α} {next : α → Except ε β} {result : β}
    (done : (first >>= next) = .ok result) :
    ∃ value, first = .ok value ∧ next value = .ok result := by
  cases first with
  | error cause => cases done
  | ok value => exact ⟨value, rfl, done⟩

/-- A chain that fails does so in its first part, or behind it. -/
theorem bind_eq_error {first : Except ε α} {next : α → Except ε β} {cause : ε}
    (failed : (first >>= next) = .error cause) :
    first = .error cause ∨ ∃ value, first = .ok value ∧ next value = .error cause := by
  cases first with
  | error other => exact .inl (congrArg _ (Except.error.inj failed))
  | ok value => exact .inr ⟨value, rfl, failed⟩

/-- What is no error is a value. -/
theorem exists_eq_ok {outcome : Except ε α} (done : outcome.isOk = true) :
    ∃ value, outcome = .ok value := by
  cases outcome with
  | error cause => cases done
  | ok value => exact ⟨value, rfl⟩

/-- The image of a value fails only where the value does. -/
theorem map_eq_error {outcome : Except ε α} {f : α → β} {cause : ε}
    (failed : outcome.map f = .error cause) : outcome = .error cause := by
  cases outcome with
  | error other => exact congrArg _ (Except.error.inj failed)
  | ok value => cases failed

/-- An image is that of a value. -/
theorem map_eq_ok {outcome : Except ε α} {f : α → β} {result : β}
    (done : outcome.map f = .ok result) : ∃ value, outcome = .ok value ∧ f value = result := by
  cases outcome with
  | error cause => cases done
  | ok value => exact ⟨value, rfl, Except.ok.inj done⟩

/-- Another name of an error changes no value. -/
theorem mapError_eq_ok {outcome : Except ε α} {f : ε → δ} {result : α}
    (done : outcome.mapError f = .ok result) : outcome = .ok result := by
  cases outcome with
  | error cause => cases done
  | ok value => exact congrArg _ (Except.ok.inj done)

/-- An error under another name is that of an error. -/
theorem mapError_eq_error {outcome : Except ε α} {f : ε → δ} {cause : δ}
    (failed : outcome.mapError f = .error cause) :
    ∃ origin, outcome = .error origin ∧ f origin = cause := by
  cases outcome with
  | error origin => exact ⟨origin, rfl, Except.error.inj failed⟩
  | ok value => cases failed

/-- A list succeeds where all its members do, and holds their results in order. -/
theorem exists_mapM {values : List α} {f : α → Except ε β}
    (each : ∀ value ∈ values, ∃ result, f value = .ok result) :
    ∃ results, values.mapM f = .ok results ∧ results.length = values.length ∧
      ∀ (i : Nat) (result : β), results[i]? = some result →
        ∃ value, values[i]? = some value ∧ f value = .ok result := by
  induction values with
  | nil => exact ⟨[], rfl, rfl, nofun⟩
  | cons value rest ih =>
    obtain ⟨first, done⟩ := each value (List.mem_cons_self ..)
    obtain ⟨others, all, length, known⟩ := ih fun v member => each v (List.mem_cons_of_mem _ member)
    refine ⟨first :: others, ?_, congrArg Nat.succ length, ?_⟩
    · rw [List.mapM_cons, done, all]
      rfl
    · intro i result found
      cases i with
      | zero => exact ⟨value, rfl, Option.some.inj found ▸ done⟩
      | succ i => exact known i result found

/-! ## Outcomes that persist -/

/-- Whether a later outcome is the present one, unless the present one waits. -/
def Persists (waits : ε → Prop) (now later : Except ε α) : Prop :=
  later = now ∨ ∃ cause, waits cause ∧ now = .error cause

namespace Persists

variable {waits : ε → Prop} {now later : Except ε α}

/-- An outcome persists as itself. -/
theorem refl (outcome : Except ε α) : Persists waits outcome outcome := .inl rfl

/-- An outcome that waits may become anything. -/
theorem of_waits {cause : ε} (waiting : waits cause) : Persists waits (.error cause) later :=
  .inr ⟨cause, waiting, rfl⟩

/-- A value persists. -/
theorem of_ok (persists : Persists waits now later) {value : α} (present : now = .ok value) :
    later = .ok value := by
  rcases persists with same | ⟨cause, _, stopped⟩
  · rw [same, present]
  · rw [present] at stopped
    cases stopped

/-- An error that does not wait persists. -/
theorem of_error (persists : Persists waits now later) {cause : ε} (present : now = .error cause)
    (final : ¬ waits cause) : later = .error cause := by
  rcases persists with same | ⟨other, waiting, stopped⟩
  · rw [same, present]
  · rw [present] at stopped
    cases stopped
    exact absurd waiting final

/-- A chain of computations persists if each of them does. -/
theorem bind {next nextLater : α → Except ε β} (persists : Persists waits now later)
    (rest : ∀ value, now = .ok value → Persists waits (next value) (nextLater value)) :
    Persists waits (now >>= next) (later >>= nextLater) := by
  rcases persists with same | ⟨cause, waiting, stopped⟩
  · subst same
    cases later with
    | error cause => exact refl _
    | ok value => exact rest value rfl
  · subst stopped
    exact of_waits waiting

/-- Persistence passes to the image of a value. -/
theorem map (persists : Persists waits now later) (f : α → β) :
    Persists waits (now.map f) (later.map f) := by
  rcases persists with same | ⟨cause, waiting, stopped⟩
  · rw [same]
    exact refl _
  · rw [stopped]
    exact of_waits waiting

/-- Persistence passes to errors under another name, if those that wait still do. -/
theorem mapError {others : δ → Prop} (persists : Persists waits now later) (f : ε → δ)
    (alike : ∀ cause, waits cause → others (f cause)) :
    Persists others (now.mapError f) (later.mapError f) := by
  rcases persists with same | ⟨cause, waiting, stopped⟩
  · rw [same]
    exact refl _
  · rw [stopped]
    exact of_waits (alike cause waiting)

end Persists

/-! ## Outcomes whose errors are of a kind -/

/-- Whether an outcome ends in no error but those of a kind. -/
def FailsIn (faults : ε → Prop) (outcome : Except ε α) : Prop :=
  ∀ cause, outcome = .error cause → faults cause

namespace FailsIn

variable {faults : ε → Prop} {outcome : Except ε α}

/-- A value is no error. -/
theorem of_ok (value : α) : FailsIn faults (.ok value : Except ε α) := by
  rintro cause ⟨⟩

/-- An error is of a kind it is of. -/
theorem of_error {cause : ε} (kind : faults cause) :
    FailsIn faults (.error cause : Except ε α) := by
  rintro _ ⟨⟩
  exact kind

/-- The errors of a chain are those of its parts. -/
theorem bind {next : α → Except ε β} (first : FailsIn faults outcome)
    (rest : ∀ value, outcome = .ok value → FailsIn faults (next value)) :
    FailsIn faults (outcome >>= next) := by
  intro cause failed
  rcases bind_eq_error failed with stopped | ⟨value, done, stopped⟩
  · exact first cause stopped
  · exact rest value done cause stopped

/-- The errors of an image are those of the value. -/
theorem map (first : FailsIn faults outcome) (f : α → β) : FailsIn faults (outcome.map f) :=
  fun cause failed => first cause (map_eq_error failed)

/-- Errors of a kind are of another kind under another name if all their names are. -/
theorem mapError {others : δ → Prop} (first : FailsIn faults outcome) (f : ε → δ)
    (kind : ∀ cause, faults cause → others (f cause)) : FailsIn others (outcome.mapError f) := by
  intro cause failed
  obtain ⟨origin, found, rfl⟩ := mapError_eq_error failed
  exact kind origin (first origin found)

/-- Errors under another name are of a kind if all these names are. -/
theorem of_mapError {others : δ → Prop} (outcome : Except ε α) {f : ε → δ}
    (kind : ∀ cause, others (f cause)) : FailsIn others (outcome.mapError f) :=
  (show FailsIn (fun _ => True) outcome from fun _ _ => trivial).mapError f fun cause _ =>
    kind cause

end FailsIn

end Storyboard
