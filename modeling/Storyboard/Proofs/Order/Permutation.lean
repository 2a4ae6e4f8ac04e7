import Mathlib.Data.List.Perm.Basic
import Storyboard.Order.Sort
/-!
# Sorting loses nothing

A sorted list holds what the list held, each element as often (`sortBy_perm`), whether or not all
keys compare. Every step of sorting by runs has this law.
-/
namespace Storyboard.Order

variable {α : Type} {key : α → Float}

/-! ## Insertion -/

/-- What bisection finds lies between the bounds. -/
theorem bisect_le (test : Nat → Bool) (low high : Nat) (ordered : low ≤ high) :
    bisect test low high ≤ high := by
  fun_induction bisect test low high with
  | case1 low high below middle passes ih =>
    have := ih (by omega)
    omega
  | case2 low high below middle fails ih => exact ih (by omega)
  | case3 low high done => exact ordered

/-- Insertion adds an element. -/
theorem insertBy_perm (sorted : List α) (x : α) : (insertBy key sorted x).Perm (x :: sorted) :=
  List.perm_insertIdx x sorted (bisect_le _ 0 sorted.length (Nat.zero_le _))

/-- Insertions add elements. -/
theorem foldl_insertBy_perm (items sorted : List α) :
    (items.foldl (insertBy key) sorted).Perm (sorted ++ items) := by
  induction items generalizing sorted with
  | nil => simp
  | cons x rest ih =>
    refine (ih _).trans (((insertBy_perm sorted x).append_right rest).trans ?_)
    exact List.perm_middle.symm

/-- A leading run is cut off a list. -/
theorem leadingRun_perm (items : List α) :
    ((leadingRun key items).1 ++ (leadingRun key items).2).Perm items := by
  unfold leadingRun
  split
  · exact .refl _
  · exact .refl _
  · split
    · refine ((List.reverse_perm _).append_right _).trans ?_
      rw [List.take_append_drop]
    · rw [List.take_append_drop]

/-- An extended run is cut off a list. -/
theorem extendedRun_perm (least : Nat) (items : List α) :
    ((extendedRun key least items).1 ++ (extendedRun key least items).2).Perm items := by
  unfold extendedRun
  have whole : ((leadingRun key items).1 ++ (leadingRun key items).2).Perm items :=
    leadingRun_perm items
  generalize leadingRun key items = parts at whole ⊢
  obtain ⟨run, rest⟩ := parts
  dsimp only at whole ⊢
  refine ((foldl_insertBy_perm _ run).append_right _).trans ?_
  rw [List.append_assoc, List.take_append_drop]
  exact whole

/-- The runs of a list make up the list. -/
theorem cutRuns_perm (least cuts : Nat) (items : List α) :
    (cutRuns key least cuts items).flatten.Perm items := by
  induction cuts generalizing items with
  | zero => simp [cutRuns]
  | succ cuts ih =>
    have whole : ((extendedRun key least items).1 ++ (extendedRun key least items).2).Perm items :=
      extendedRun_perm least items
    rw [cutRuns]
    generalize extendedRun key least items = parts at whole ⊢
    obtain ⟨run, rest⟩ := parts
    dsimp only at whole ⊢
    split
    · rename_i ended
      rw [List.isEmpty_iff.mp ended] at whole
      simpa using whole
    · rw [List.flatten_cons]
      exact ((ih rest).append_left run).trans whole

/-! ## Merging -/

namespace Merging

variable {side : MergeEnd} {m : Merging α}

/-- Taking from the first run loses nothing. -/
theorem takeFirst_perm (m : Merging α) (count : Nat) :
    (m.takeFirst count).result.Perm m.result := by
  unfold takeFirst result
  have split := List.take_append_drop count m.first
  calc m.taken ++ m.first.take count ++ m.second ++ m.first.drop count
    _ = m.taken ++ (m.first.take count ++ m.second) ++ m.first.drop count := by
      rw [List.append_assoc m.taken]
    List.Perm _ (m.taken ++ (m.second ++ m.first.take count) ++ m.first.drop count) :=
      (List.perm_append_comm.append_left m.taken).append_right _
    _ = m.taken ++ m.second ++ m.first := by
      rw [← List.append_assoc, List.append_assoc _ (m.first.take count), split]

/-- Taking from the second run loses nothing. -/
theorem takeSecond_perm (m : Merging α) (count : Nat) :
    (m.takeSecond count).result.Perm m.result := by
  unfold takeSecond result
  rw [List.append_assoc m.taken, List.take_append_drop]

/-- Taking a stretch of the first run loses nothing. -/
theorem stretchFirst_perm : (stretchFirst side key m).1.result.Perm m.result := by
  unfold stretchFirst
  split
  · exact .refl _
  · dsimp only
    split
    · exact takeFirst_perm m _
    · exact (takeSecond_perm _ 1).trans (takeFirst_perm m _)

/-- Taking a stretch of the second run loses nothing. -/
theorem stretchSecond_perm : (stretchSecond side key m).1.result.Perm m.result := by
  unfold stretchSecond
  split
  · exact .refl _
  · dsimp only
    split
    · exact takeSecond_perm m _
    · exact (takeFirst_perm _ 1).trans (takeSecond_perm m _)

/-- Taking a stretch of each run loses nothing. -/
theorem stretchBoth_perm : (stretchBoth side key m).1.result.Perm m.result := by
  unfold stretchBoth
  cases side with
  | front =>
    dsimp only
    split
    · exact stretchFirst_perm
    · exact stretchSecond_perm.trans stretchFirst_perm
  | back =>
    dsimp only
    split
    · exact stretchSecond_perm
    · exact stretchFirst_perm.trans stretchSecond_perm

/-- Taking one element loses nothing. -/
theorem takeOne_perm : (m.takeOne side key).1.result.Perm m.result := by
  unfold takeOne
  split
  · split
    · exact takeSecond_perm m 1
    · exact takeFirst_perm m 1
  · exact .refl _

/-- Merging what is left loses nothing. -/
theorem finish_perm (turns patience : Nat) (pace : Pace) (m : Merging α) :
    (finish side key turns patience pace m).1.Perm m.result := by
  induction turns generalizing patience pace m with
  | zero => exact .refl _
  | succ turns ih =>
    unfold finish
    split
    · exact .refl _
    · split
      · exact (ih _ _ _).trans takeOne_perm
      · dsimp only
        split
        · exact stretchBoth_perm
        · split
          · exact (ih _ _ _).trans stretchBoth_perm
          · exact (ih _ _ _).trans stretchBoth_perm

/-- Merging two runs loses nothing. -/
theorem run_perm (patience : Nat) (first second : List α) :
    (run side key patience first second).1.Perm (first ++ second) := by
  refine (finish_perm _ _ _ _).trans ((takeSecond_perm _ 1).trans ?_)
  exact List.perm_append_comm

end Merging

/-- A part in the middle of two lists may be arranged anew. -/
theorem perm_of_middle {earlier later middle : List α} {low high : Nat}
    (arranged : middle.Perm (earlier.drop low ++ later.take high)) :
    (earlier.take low ++ middle ++ later.drop high).Perm (earlier ++ later) := by
  refine ((arranged.append_left _).append_right _).trans ?_
  rw [← List.append_assoc, List.take_append_drop, List.append_assoc, List.take_append_drop]

/-- Merging neighbouring runs loses nothing. -/
theorem mergeRuns_perm (patience : Nat) (earlier later : List α) :
    (mergeRuns key patience earlier later).1.Perm (earlier ++ later) := by
  unfold mergeRuns
  split
  · simp
  · dsimp only
    split
    · exact .refl _
    · split
      · exact .refl _
      · refine perm_of_middle ?_
        split
        · exact Merging.run_perm _ _ _
        · refine (List.reverse_perm _).trans ((Merging.run_perm _ _ _).trans ?_)
          refine ((List.reverse_perm _).append (List.reverse_perm _)).trans ?_
          exact List.perm_append_comm

/-! ## Runs on a stack -/

namespace RunStack

/-- All elements of a stack. -/
def contents (stack : RunStack α) : List α :=
  stack.top ++ (stack.below.map (·.items)).flatten

/-- Settling a stack loses nothing. -/
theorem settle_perm (depth patience : Nat) (top : List α) (below : List (WaitingRun α)) :
    (settle key depth patience top below).contents.Perm
      (top ++ (below.map (·.items)).flatten) := by
  induction below generalizing patience top with
  | nil => exact .refl _
  | cons waiting below ih =>
    rw [settle]
    split
    · refine (ih _ _).trans ?_
      rw [List.map_cons, List.flatten_cons, ← List.append_assoc]
      refine List.Perm.append_right _ ?_
      exact (mergeRuns_perm _ _ _).trans List.perm_append_comm
    · exact .refl _

/-- Adding a run to a stack loses nothing. -/
theorem push_perm (length : Nat) (stack : RunStack α) (next : List α) :
    (stack.push key length next).contents.Perm (stack.contents ++ next) := by
  refine ((settle_perm _ _ _ _).append_left next).trans ?_
  exact List.perm_append_comm

/-- Adding runs to a stack loses nothing. -/
theorem foldl_push_perm (length : Nat) (runs : List (List α)) (stack : RunStack α) :
    (runs.foldl (push key length) stack).contents.Perm (stack.contents ++ runs.flatten) := by
  induction runs generalizing stack with
  | nil => simp
  | cons next rest ih =>
    refine (ih _).trans (((push_perm length stack next).append_right _).trans ?_)
    rw [List.flatten_cons, List.append_assoc]

/-- Merging all runs loses nothing. -/
theorem collapse_perm (patience : Nat) (runs : List (List α)) :
    (collapse key patience runs).Perm runs.flatten := by
  fun_induction collapse key patience runs with
  | case1 => exact .refl _
  | case2 patience run => simp
  | case3 patience top next =>
    rw [List.flatten_cons, List.flatten_cons, List.flatten_nil, List.append_nil]
    exact (mergeRuns_perm _ _ _).trans List.perm_append_comm
  | case4 patience top next third rest shorter merged patience' merging ih =>
    have whole : (mergeRuns key patience third next).1.Perm (third ++ next) :=
      mergeRuns_perm patience third next
    rw [merging] at whole
    refine ih.trans ?_
    simp only [List.flatten_cons]
    refine List.Perm.append_left top ?_
    rw [← List.append_assoc]
    exact (whole.trans List.perm_append_comm).append_right _
  | case5 patience top next third rest longer merged patience' merging ih =>
    have whole : (mergeRuns key patience next top).1.Perm (next ++ top) :=
      mergeRuns_perm patience next top
    rw [merging] at whole
    refine ih.trans ?_
    simp only [List.flatten_cons]
    rw [← List.append_assoc top]
    exact (whole.trans List.perm_append_comm).append_right _

end RunStack

/-! ## Sorting -/

/-- Sorting by runs loses nothing. -/
theorem sortRuns_perm (items : List α) : (sortRuns key items).Perm items := by
  have whole : (cutRuns key (leastRun items.length false) items.length items).flatten.Perm items :=
    cutRuns_perm _ _ items
  unfold sortRuns
  split
  · rename_i none_cut
    rwa [none_cut] at whole
  · rename_i first rest cut
    rw [cut, List.flatten_cons] at whole
    refine List.Perm.trans ?_ whole
    refine (RunStack.collapse_perm _ _).trans ((RunStack.foldl_push_perm _ rest _).trans ?_)
    simp [RunStack.contents]

/-- Sorting loses nothing. -/
theorem sortBy_perm (key : α → Float) (items : List α) : (sortBy key items).Perm items := by
  unfold sortBy
  split
  · exact List.mergeSort_perm _ _
  · exact sortRuns_perm items

end Storyboard.Order
