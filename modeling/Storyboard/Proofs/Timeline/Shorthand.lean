import Storyboard.Proofs.Timeline.Ending
import Storyboard.Proofs.Timeline.Essence
/-!
# Short forms are a way of writing

To write out the transitions that scenes name in short form keeps the entities of the author in
order and adds nothing but these transitions, each directly behind its scene
(`Item.writesOut_expand`). Behind every scene that names one there is a transition then
(`Item.handsOver_expand`), so a second time nothing is left to write out (`Item.expand_expand`).
A resolution looks at a timeline only with all transitions written out, and comes to the same end
whichever way the timeline is written (`Composition.resolve_expand`).
-/
namespace Storyboard

/-- Whether a transition is the one that a short form means behind the scene of a name. -/
structure Handover.Means (handover : Handover) (sceneId : String) (t : Transition) : Prop where
  /-- It is named for the scene. -/
  id : t.id = sceneId ++ "__to_next"
  /-- It has the effect. -/
  effect : t.effect = handover.effect
  /-- It has the length. -/
  duration : t.duration = handover.duration
  /-- It has the easing. -/
  ease : t.ease = handover.ease
  /-- It has the settings of the effect. -/
  props : t.props = handover.props
  /-- It has no timing besides. -/
  time : t.time = none
  /-- It leaves open how it claims time. -/
  mode : t.mode = none

namespace Item

/-! ## What is written out -/

/-- Whether a list of entities is another one with transitions written out: whatever the author has
put there is kept in order, and what is added is meant by the short form of the scene directly
before it, behind which the author has put no transition. -/
inductive WritesOut : List Item → List Item → Prop where
  /-- Nothing is written out as nothing. -/
  | nil : WritesOut [] []
  /-- An entity is kept. -/
  | kept {item : Item} {rest full : List Item} (others : WritesOut rest full) :
    WritesOut (item :: rest) (item :: full)
  /-- A scene is kept, and the transition it names is added behind it. -/
  | added {s : Scene} {handover : Handover} {t : Transition} {rest full : List Item}
    (named : s.transitionToNext = some handover) (meant : handover.Means s.id t)
    (free : ∀ other, rest.head? ≠ some (.transition other)) (others : WritesOut rest full) :
    WritesOut (.scene s :: rest) (.scene s :: .transition t :: full)

/-- What is kept in order is a subsequence. -/
theorem WritesOut.sublist {items full : List Item} (writes : WritesOut items full) :
    items.Sublist full := by
  induction writes with
  | nil => exact .slnil
  | kept others ih => exact ih.cons_cons _
  | added named meant free others ih => exact (ih.cons _).cons_cons _

/-- Whether behind every scene that names a transition in short form there is a transition. -/
def HandsOver (items : List Item) : Prop :=
  ∀ index s, items[index]? = some (.scene s) → s.transitionToNext.isSome = true →
    ∃ t, items[index + 1]? = some (.transition t)

/-- Nothing names no transition. -/
theorem handsOver_nil : HandsOver [] := by
  intro index s present
  cases present

/-- The first of some entities and the others hand over by themselves. -/
theorem handsOver_cons {item : Item} {rest : List Item} :
    HandsOver (item :: rest) ↔
      (∀ s, item = .scene s → s.transitionToNext.isSome = true →
        ∃ t, rest.head? = some (.transition t)) ∧ HandsOver rest := by
  rw [List.head?_eq_getElem?]
  constructor
  · intro hands
    refine ⟨?_, fun index s present => hands (index + 1) s present⟩
    rintro s rfl named
    exact hands 0 s rfl named
  · rintro ⟨first, others⟩ (_ | index) s present named
    · exact first s (Option.some.inj present) named
    · exact others index s present named

/-- What stands behind an entity by its short form: the transition that a scene means, where the
author has put none. -/
theorem handover?_eq_some {item added : Item} {next : Option Item} :
    item.handover? next = some added ↔ ∃ s handover, item = .scene s ∧
      s.transitionToNext = some handover ∧ (∀ t, next ≠ some (.transition t)) ∧
      added = .transition (handover.toTransition s.id) := by
  cases item with
  | transition t => simp [handover?]
  | mark m => simp [handover?]
  | scene s =>
    rcases next with _ | ⟨other⟩ | ⟨t⟩ | ⟨m⟩ <;>
      simp [handover?, isTransition, transition?, eq_comm (a := added)]

/-- Only a transition of the author stands in the way of one that is named in short form. -/
theorem exists_transition_of_handover? {s : Scene} {next : Option Item}
    (named : s.transitionToNext.isSome = true) (nothing : (Item.scene s).handover? next = none) :
    ∃ t, next = some (.transition t) := by
  obtain ⟨handover, same⟩ := Option.isSome_iff_exists.mp named
  by_contra absent
  have meant := handover?_eq_some.mpr ⟨s, handover, rfl, same, not_exists.mp absent, rfl⟩
  rw [nothing] at meant
  cases meant

/-- The first entity stays the first. -/
theorem head?_expand (items : List Item) : (expand items).head? = items.head? := by
  cases items <;> rfl

/-- Expansion writes out transitions, and does nothing else. -/
theorem writesOut_expand (items : List Item) : WritesOut items (expand items) := by
  induction items with
  | nil => exact .nil
  | cons item rest ih =>
    rw [expand]
    cases behind : item.handover? rest.head? with
    | none => exact .kept ih
    | some added =>
      obtain ⟨s, handover, rfl, named, free, rfl⟩ := handover?_eq_some.mp behind
      exact .added named ⟨rfl, rfl, rfl, rfl, rfl, rfl, rfl⟩ free ih

/-- After expansion there is a transition behind every scene that names one. -/
theorem handsOver_expand (items : List Item) : HandsOver (expand items) := by
  induction items with
  | nil => exact handsOver_nil
  | cons item rest ih =>
    rw [expand]
    cases behind : item.handover? rest.head? with
    | none =>
      refine handsOver_cons.mpr ⟨?_, ih⟩
      rintro s rfl named
      rw [Option.toList_none, List.nil_append, head?_expand]
      exact exists_transition_of_handover? named behind
    | some added =>
      obtain ⟨s, handover, rfl, _, _, rfl⟩ := handover?_eq_some.mp behind
      refine handsOver_cons.mpr ⟨fun _ _ _ => ⟨_, rfl⟩, handsOver_cons.mpr ⟨?_, ih⟩⟩
      rintro other same
      cases same

/-- Where a transition stands behind every scene that names one nothing is written out. -/
theorem expand_of_handsOver {items : List Item} (hands : HandsOver items) :
    expand items = items := by
  induction items with
  | nil => rfl
  | cons item rest ih =>
    obtain ⟨first, others⟩ := handsOver_cons.mp hands
    have nothing : item.handover? rest.head? = none := by
      refine Option.eq_none_iff_forall_ne_some.mpr fun added behind => ?_
      obtain ⟨s, handover, rfl, named, free, _⟩ := handover?_eq_some.mp behind
      obtain ⟨t, stands⟩ := first s rfl (by rw [named]; rfl)
      exact free t stands
    rw [expand, nothing, ih others]
    rfl

/-- To expand twice is to expand once. -/
theorem expand_expand (items : List Item) : expand (expand items) = expand items :=
  expand_of_handsOver (handsOver_expand items)

end Item

/-! ## The timeline that is written down -/

namespace Plan

/-- A plan whose composition has another timeline written down; its entities stay. -/
def withTimeline (plan : Plan) (items : List Item) : Plan :=
  { plan with composition := { plan.composition with timeline := items } }

variable (plan : Plan) (items : List Item)

/-- No run looks at the timeline that is written down. -/
theorem runDrawn_withTimeline (drawn : List (List DrawnItem)) (placed : Placed) :
    (plan.withTimeline items).runDrawn drawn placed = plan.runDrawn drawn placed := by
  have same : (plan.withTimeline items).essence = plan.essence := rfl
  exact runDrawn_congr same drawn placed

end Plan

namespace Composition

/-- A composition with another timeline. -/
def withTimeline (composition : Composition) (items : List Item) : Composition :=
  { composition with timeline := items }

/-- With all transitions written out a composition is made ready as before. -/
theorem ofComposition_expand (composition : Composition) (items : List Item) (seed : Option Int)
    (estimate : Option (String → Float)) :
    Plan.ofComposition (composition.withTimeline (Item.expand items)) seed estimate =
      (Plan.ofComposition (composition.withTimeline items) seed estimate).map
        (·.withTimeline (Item.expand items)) := by
  unfold Plan.ofComposition withTimeline
  dsimp only
  rw [Item.expand_expand]
  split
  · rfl
  · split <;> rfl

/-- Short forms are a way of writing. For every list of entities, expansion keeps them in order and
adds only transitions that scenes name in short form, each directly behind its scene; behind every
scene that names one there is a transition then; and to expand again changes nothing. So a
composition with this timeline, and one with all its transitions written out, resolve to the same
timeline or the same error, with every seed and also with any lengths of the pauses. -/
theorem resolve_expand (items : List Item) :
    items.Sublist (Item.expand items) ∧ Item.WritesOut items (Item.expand items) ∧
      Item.HandsOver (Item.expand items) ∧ Item.expand (Item.expand items) = Item.expand items ∧
      ∀ (composition : Composition) (seed : Option Int) (estimate : Option (String → Float)),
        (composition.withTimeline (Item.expand items)).resolve seed estimate =
          (composition.withTimeline items).resolve seed estimate ∧
        ∀ drawn, (Plan.ofComposition (composition.withTimeline (Item.expand items)) seed
            estimate).map (fun plan => plan.runDrawn drawn []) =
          (Plan.ofComposition (composition.withTimeline items) seed estimate).map
            fun plan => plan.runDrawn drawn [] := by
  have writes := Item.writesOut_expand items
  refine ⟨writes.sublist, writes, Item.handsOver_expand items, Item.expand_expand items, ?_⟩
  intro composition seed estimate
  have ready := composition.ofComposition_expand items seed estimate
  cases authored : Plan.ofComposition (composition.withTimeline items) seed estimate with
  | error cause =>
    rw [authored] at ready
    refine ⟨?_, fun drawn => by rw [ready]; rfl⟩
    rw [resolve, resolve, authored, ready]
    rfl
  | ok plan =>
    rw [authored] at ready
    refine ⟨?_, fun drawn => ?_⟩
    · rw [resolve_of_ready ready, resolve_of_ready authored, Plan.runDrawn_withTimeline]
      rfl
    · rw [ready]
      exact congrArg Except.ok (plan.runDrawn_withTimeline _ drawn [])

end Composition
end Storyboard
