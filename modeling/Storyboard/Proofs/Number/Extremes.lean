import Storyboard.Number.Fault
import Storyboard.Proofs.Number.Units
/-!
# Larger and smaller doubles

`Number.larger` and `Number.smaller` select one of their operands: the first one unless a
comparison with the second one tells otherwise. A comparison with what is no number tells nothing,
so the first operand has to be a number for the result to be one.

Main statements: what is selected is at least, or at most, either operand (`le_larger_left`,
`le_larger_right`, `smaller_le_left`, `smaller_le_right`); of a list one element is selected
(`largest_mem`, `smallest_mem`), no number of the list is larger than the largest (`le_largest`),
and none is smaller than the smallest (`not_lt_smallest`).
-/
namespace Storyboard.Number

open Binary64

variable {a b c first : Float} {rest : List Float}

/-! ## Two numbers -/

/-- The larger of two is one of them. -/
theorem larger_eq_or (a b : Float) : larger a b = a ∨ larger a b = b := by
  unfold larger
  split
  · exact .inr rfl
  · exact .inl rfl

/-- The smaller of two is one of them. -/
theorem smaller_eq_or (a b : Float) : smaller a b = a ∨ smaller a b = b := by
  unfold smaller
  split
  · exact .inr rfl
  · exact .inl rfl

/-- The larger of two is a number exactly if the first one is. -/
theorem isNaN_larger (a b : Float) : (larger a b).isNaN = false ↔ a.isNaN = false := by
  unfold larger
  split
  · rename_i less
    have numbers := isNaN_of_le (le_of_lt less)
    exact iff_of_true numbers.2 numbers.1
  · rfl

/-- The smaller of two is a number exactly if the first one is. -/
theorem isNaN_smaller (a b : Float) : (smaller a b).isNaN = false ↔ a.isNaN = false := by
  unfold smaller
  split
  · rename_i less
    have numbers := isNaN_of_le (le_of_lt less)
    exact iff_of_true numbers.1 numbers.2
  · rfl

/-- A number is at most the larger of it and something else. -/
theorem le_larger_left (number : a.isNaN = false) : a ≤ larger a b := by
  unfold larger
  split
  · rename_i less
    exact le_of_lt less
  · exact le_refl number

/-- A number is at most the larger of another number and it. -/
theorem le_larger_right (number : a.isNaN = false) (numberOther : b.isNaN = false) :
    b ≤ larger a b := by
  unfold larger
  split
  · exact le_refl numberOther
  · rename_i notLess
    exact le_of_not_lt numberOther number notLess

/-- The smaller of a number and something else is at most that number. -/
theorem smaller_le_left (number : a.isNaN = false) : smaller a b ≤ a := by
  unfold smaller
  split
  · rename_i less
    exact le_of_lt less
  · exact le_refl number

/-- The smaller of two numbers is at most the second one. -/
theorem smaller_le_right (number : a.isNaN = false) (numberOther : b.isNaN = false) :
    smaller a b ≤ b := by
  unfold smaller
  split
  · exact le_refl numberOther
  · rename_i notLess
    exact le_of_not_lt number numberOther notLess

/-- What the larger of two is at most, the first one is at most. -/
theorem le_of_larger_le (le : larger a b ≤ c) : a ≤ c :=
  Trans.trans (le_larger_left ((isNaN_larger a b).mp (isNaN_of_le le).1)) le

/-- What the larger of two is at most, the second one is at most if it is a number. -/
theorem le_of_larger_le_right (number : b.isNaN = false) (le : larger a b ≤ c) : b ≤ c :=
  Trans.trans (le_larger_right ((isNaN_larger a b).mp (isNaN_of_le le).1) number) le

/-- What is raised to zero is not below it. -/
theorem zero_le_larger (x : Float) : 0.0 ≤ larger 0.0 x := le_larger_left isNaN_zero

/-! ## Lists -/

/-- Where one of two is selected at each step, one element of the list is selected. -/
theorem foldl_mem {select : Float → Float → Float}
    (selects : ∀ a b, select a b = a ∨ select a b = b) (first : Float) (rest : List Float) :
    rest.foldl select first ∈ first :: rest := by
  apply List.foldlRecOn (motive := (· ∈ first :: rest)) _ _ List.mem_cons_self
  intro found inside next member
  rcases selects found next with kept | taken
  · rwa [kept]
  · rw [taken]
    exact List.mem_cons_of_mem _ member

/-- The largest of a list is one of its elements. -/
theorem largest_mem (first : Float) (rest : List Float) : largest first rest ∈ first :: rest :=
  foldl_mem larger_eq_or first rest

/-- The smallest of a list is one of its elements. -/
theorem smallest_mem (first : Float) (rest : List Float) : smallest first rest ∈ first :: rest :=
  foldl_mem smaller_eq_or first rest

/-- The smallest of a list is at most the first element, and any other one that is a number. -/
theorem smallest_le (number : first.isNaN = false) (rest : List Float) :
    smallest first rest ≤ first ∧ ∀ x ∈ rest, x.isNaN = false → smallest first rest ≤ x := by
  induction rest generalizing first with
  | nil => exact ⟨le_refl number, nofun⟩
  | cons next rest ih =>
    obtain ⟨least, others⟩ := ih ((isNaN_smaller first next).mpr number)
    refine ⟨Trans.trans least (smaller_le_left number), fun x member numberOther => ?_⟩
    rcases List.mem_cons.mp member with rfl | member
    · exact Trans.trans least (smaller_le_right number numberOther)
    · exact others x member numberOther

/-- The smallest of a list is a number exactly if the first element is. -/
theorem isNaN_smallest (first : Float) (rest : List Float) :
    (smallest first rest).isNaN = false ↔ first.isNaN = false := by
  induction rest generalizing first with
  | nil => rfl
  | cons next rest ih => exact (ih (smaller first next)).trans (isNaN_smaller first next)

/-- No element of a list is smaller than the smallest, whether they are numbers or not. -/
theorem not_lt_smallest : ∀ x ∈ first :: rest, ¬ x < smallest first rest := by
  intro x member less
  obtain ⟨number, numberLeast⟩ := isNaN_of_le (le_of_lt less)
  obtain ⟨least, others⟩ := smallest_le ((isNaN_smallest first rest).mp numberLeast) rest
  refine not_lt_of_le numberLeast number ?_ less
  rcases List.mem_cons.mp member with rfl | member
  · exact least
  · exact others x member number

/-- Of numbers none is larger than the largest. -/
theorem le_largest (numbers : ∀ x ∈ first :: rest, x.isNaN = false) :
    ∀ x ∈ first :: rest, x ≤ largest first rest := by
  induction rest generalizing first with
  | nil =>
    intro x member
    rw [List.mem_singleton.mp member]
    exact le_refl (numbers first List.mem_cons_self)
  | cons next rest ih =>
    obtain ⟨number, numberNext, others⟩ : first.isNaN = false ∧ next.isNaN = false ∧
        ∀ x ∈ rest, x.isNaN = false := by simpa using numbers
    have later := ih (List.forall_mem_cons.mpr ⟨(isNaN_larger first next).mpr number, others⟩)
    have most : larger first next ≤ largest first (next :: rest) := later _ List.mem_cons_self
    intro x member
    rcases List.mem_cons.mp member with rfl | member
    · exact Trans.trans (le_larger_left number) most
    · rcases List.mem_cons.mp member with rfl | member
      · exact Trans.trans (le_larger_right number numberNext) most
      · exact later x (List.mem_cons_of_mem _ member)

end Storyboard.Number
