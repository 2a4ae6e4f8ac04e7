import Storyboard.Timeline.Expand
/-!
# A mark among transitions in short form

The transition that a scene names in short form is put right behind the scene, unless a transition
stands there. So which transitions a timeline has depends on what stands behind its scenes. A mark
put into a timeline leaves them as they were (`Composition.expand_insertMark`), except where it
stands directly between a scene that names a transition and another transition
(`Composition.length_expand_of_partsHandover`).
-/
namespace Storyboard

/-! ## Expansion part by part -/

namespace Item

/-- Entities with the transitions meant by short forms, given what stands behind them. -/
def expandBefore (next : Option Item) : List Item → List Item
  | [] => []
  | item :: rest => item :: ((item.handover? (rest.head?.or next)).toList ++ expandBefore next rest)

/-- A list of entities is expanded part by part. -/
theorem expand_append (items rest : List Item) :
    expand (items ++ rest) = expandBefore rest.head? items ++ expand rest := by
  induction items with
  | nil => rfl
  | cons item items ih =>
    rw [List.cons_append, expand, expandBefore, ih, List.head?_append, List.cons_append,
      List.append_assoc]

/-- What stands behind entities matters for the last of them only. -/
theorem expandBefore_append (next : Option Item) (items : List Item) (last : Item) :
    expandBefore next (items ++ [last]) =
      expandBefore (some last) items ++ last :: (last.handover? next).toList := by
  induction items with
  | nil => simp [expandBefore]
  | cons item rest ih =>
    rw [List.cons_append, expandBefore, expandBefore, ih, List.head?_append, List.head?_cons,
      Option.or_assoc, Option.some_or, List.cons_append, List.append_assoc]

/-- Of what stands behind them, entities are expanded by what it means for the last one. -/
theorem expandBefore_congr {next other : Option Item} {items : List Item}
    (same : ∀ last, items.getLast? = some last → last.handover? next = last.handover? other) :
    expandBefore next items = expandBefore other items := by
  rcases List.eq_nil_or_concat items with rfl | ⟨front, last, rfl⟩
  · rfl
  · rw [List.concat_eq_append] at same ⊢
    rw [expandBefore_append, expandBefore_append, same last List.getLast?_concat]

/-- A mark behind an entity means the same for it as what stood there, unless that is a transition
and the entity a scene that names another one in short form. -/
theorem handover?_mark {item : Item} {next : Option Item} (m : Mark)
    (apart : ∀ s t, item = .scene s → s.transitionToNext.isSome = true →
      next ≠ some (.transition t)) :
    item.handover? next = item.handover? (some (.mark m)) := by
  cases item with
  | transition t => rfl
  | mark other => rfl
  | scene s =>
    unfold handover?
    cases short : s.transitionToNext with
    | none => simp [short]
    | some handover =>
      have free : next.any isTransition = false := by
        cases next with
        | none => rfl
        | some item =>
          cases item with
          | scene other => rfl
          | mark other => rfl
          | transition t => exact absurd rfl (apart s t rfl (by rw [short]; rfl))
      rw [free]
      rfl

end Item

/-! ## A mark in a timeline -/

namespace Composition

/-- A composition with one more mark, before the entity at a place of its timeline, or else behind
all of them. -/
def insertMark (composition : Composition) (n : Nat) (m : Mark) : Composition :=
  { composition with
    timeline := composition.timeline.take n ++ .mark m :: composition.timeline.drop n }

/-- Whether a place of a timeline lies directly between a scene that names a transition in short
form and a transition, which stands there instead of the one named. -/
def PartsHandover (composition : Composition) (n : Nat) : Prop :=
  ∃ j s t, n = j + 1 ∧ composition.timeline[j]? = some (.scene s) ∧
    s.transitionToNext.isSome = true ∧ composition.timeline[n]? = some (.transition t)

/-- Elsewhere a mark stands among the entities with all transitions written out, and changes none of
them. -/
theorem expand_insertMark {composition : Composition} {n : Nat} (m : Mark)
    (apart : ¬ composition.PartsHandover n) : ∃ first rest,
      Item.expand composition.timeline = first ++ rest ∧
      Item.expand (composition.insertMark n m).timeline = first ++ .mark m :: rest := by
  have same : Item.expandBefore (composition.timeline.drop n).head? (composition.timeline.take n) =
      Item.expandBefore (some (.mark m)) (composition.timeline.take n) := by
    refine Item.expandBefore_congr fun last final => Item.handover?_mark m ?_
    rintro s t rfl short behind
    rw [List.head?_drop] at behind
    have inside := (List.getElem?_eq_some_iff.mp behind).1
    cases n with
    | zero => cases final
    | succ j =>
      refine apart ⟨j, s, t, rfl, ?_, short, behind⟩
      rw [List.getLast?_take] at final
      simpa [List.getElem?_eq_getElem (show j < composition.timeline.length by omega)] using final
  have whole := Item.expand_append (composition.timeline.take n) (composition.timeline.drop n)
  rw [List.take_append_drop, same] at whole
  exact ⟨_, _, whole, Item.expand_append _ _⟩

/-- At such a place a mark brings back the transition that the scene names. -/
theorem length_expand_of_partsHandover {composition : Composition} {n : Nat} (m : Mark)
    (parts : composition.PartsHandover n) :
    (Item.expand (composition.insertMark n m).timeline).length =
      (Item.expand composition.timeline).length + 2 := by
  obtain ⟨j, s, t, rfl, scene, short, behind⟩ := parts
  obtain ⟨handover, named⟩ := Option.isSome_iff_exists.mp short
  have before : composition.timeline.take (j + 1) =
      composition.timeline.take j ++ [.scene s] := by
    rw [List.take_add_one, scene]
    rfl
  have narrow := Item.expand_append (composition.timeline.take (j + 1))
    (composition.timeline.drop (j + 1))
  have wide := Item.expand_append (composition.timeline.take (j + 1))
    (.mark m :: composition.timeline.drop (j + 1))
  rw [List.take_append_drop, List.head?_drop, behind, before, Item.expandBefore_append] at narrow
  rw [List.head?_cons, before, Item.expandBefore_append] at wide
  have instead : (Item.scene s).handover? (some (.transition t)) = none := rfl
  have again : (Item.scene s).handover? (some (.mark m)) =
      some (.transition (handover.toTransition s.id)) := by
    change s.transitionToNext.map _ = _
    rw [named]
    rfl
  rw [insertMark, before, wide, narrow, instead, again, Item.expand]
  simp only [List.length_append, List.length_cons, Option.toList_none, Option.toList_some,
    List.length_nil, Item.handover?]
  omega

end Composition

end Storyboard
