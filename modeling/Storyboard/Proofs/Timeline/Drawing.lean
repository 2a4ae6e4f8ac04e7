import Mathlib.Data.List.Forall2
import Storyboard.Timeline.Plan
/-!
# Drawings

A drawing puts a length at every place of a plan where a pause stands, and leaves the rest as it
was authored. What a seed draws is a drawing (`isDrawing_drawn`). The laws of placement hold for
every drawing, so they do not depend on where the lengths come from.
-/
namespace Storyboard

namespace Beat

/-- Whether a drawn part of a cue is that of an authored one. -/
def IsOf : Beat → Segment → Prop
  | .text speech, .text other => speech = other
  | .pause _, .pause _ => True
  | _, _ => False

end Beat

namespace Content

/-- Whether a drawn part of a scene is that of an authored one. -/
def IsOf : Content → SceneItem → Prop
  | .cue c beats, .cue d => c = d ∧ List.Forall₂ Beat.IsOf beats d.segments
  | .pause _, .pause _ => True
  | _, _ => False

end Content

namespace SceneItem

/-- Whether the pause between parts stands before a part of a scene, if one is set: before the first
part there is none, and none before a cue with a start of its own. -/
def FollowsPause (isFirst : Bool) : SceneItem → Prop
  | .cue c => isFirst = false ∧ (c.time.bind (·.start)).isNone = true
  | .pause _ => isFirst = false

instance decidableFollowsPause (isFirst : Bool) : DecidablePred (FollowsPause isFirst)
  | .cue _ => inferInstanceAs (Decidable (_ = false ∧ _ = true))
  | .pause _ => inferInstanceAs (Decidable (_ = false))

/-- The pause that stands before a part of a scene. -/
def pauseBefore? (between : Option Pause) (isFirst : Bool) (item : SceneItem) : Option Pause :=
  if item.FollowsPause isFirst then between else none

/-- The pause that is drawn before a part of a scene is the one that stands there. -/
theorem gap?_eq_pauseBefore? (between : Option Pause) (isFirst : Bool) (item : SceneItem) :
    item.gap? between isFirst = item.pauseBefore? between isFirst := by
  cases item with
  | cue c =>
    cases isFirst <;> cases start : c.time.bind (·.start) <;>
      simp [gap?, pauseBefore?, FollowsPause, Cue.hasExplicitStart, start]
  | pause p => cases isFirst <;> simp [gap?, pauseBefore?, FollowsPause]

/-- Whether drawn parts are those of authored parts of a scene, each with a length for the pause
before it exactly if there is one. -/
def AreDrawn (between : Option Pause) : (isFirst : Bool) → List DrawnItem → List SceneItem → Prop
  | _, [], [] => True
  | isFirst, part :: parts, item :: items =>
    part.gap.isSome = (item.pauseBefore? between isFirst).isSome ∧ part.content.IsOf item ∧
      AreDrawn between false parts items
  | _, _, _ => False

/-- The cues of authored parts. -/
def cuesOf (items : List SceneItem) : List Cue :=
  items.filterMap fun
    | .cue c => some c
    | .pause _ => none

end SceneItem

namespace DrawnItem

/-- The cues of drawn parts. -/
def cuesOf (parts : List DrawnItem) : List Cue :=
  parts.filterMap fun part =>
    match part.content with
    | .cue c _ => some c
    | .pause _ => none

/-- The cues of drawn parts are those authored. -/
theorem cuesOf_eq {between : Option Pause} {isFirst : Bool} {parts : List DrawnItem}
    {items : List SceneItem} (areDrawn : SceneItem.AreDrawn between isFirst parts items) :
    cuesOf parts = SceneItem.cuesOf items := by
  induction parts generalizing isFirst items with
  | nil =>
    cases items with
    | nil => rfl
    | cons item items => exact areDrawn.elim
  | cons part parts ih =>
    cases items with
    | nil => exact areDrawn.elim
    | cons item items =>
      obtain ⟨_, same, rest⟩ := areDrawn
      have later := ih rest
      rcases part with ⟨gap, content⟩
      cases content with
      | cue c beats =>
        cases item with
        | cue d =>
          change c :: cuesOf parts = d :: SceneItem.cuesOf items
          rw [same.1, later]
        | pause p => exact same.elim
      | pause seconds =>
        cases item with
        | cue d => exact same.elim
        | pause p => exact later

end DrawnItem

namespace Plan

/-- Whether what is drawn is a drawing of a plan: for every entity its parts with a length for
each of their pauses. -/
def IsDrawing (plan : Plan) (drawn : List (List DrawnItem)) : Prop :=
  List.Forall₂ (fun parts item => SceneItem.AreDrawn plan.between true parts item.sceneItems)
    drawn plan.items

end Plan

/-! ## What a seed draws -/

/-- What is drawn for the parts of a cue is of these parts. -/
theorem Segment.drawAll_isOf : ∀ (g : Mulberry) (segments : List Segment),
    List.Forall₂ Beat.IsOf (Segment.drawAll g segments).1 segments
  | _, [] => .nil
  | g, .text _ :: rest => .cons rfl (drawAll_isOf g rest)
  | g, .pause p :: rest => .cons trivial (drawAll_isOf (p.sample g).2 rest)

/-- What is drawn for the parts of a scene is of these parts. -/
theorem SceneItem.drawAll_areDrawn (between : Option Pause) :
    ∀ (isFirst : Bool) (g : Mulberry) (items : List SceneItem),
      AreDrawn between isFirst (drawAll between isFirst g items).1 items
  | _, _, [] => trivial
  | isFirst, g, item :: rest => by
    refine ⟨?_, ?_, drawAll_areDrawn between false _ rest⟩
    · rw [← gap?_eq_pauseBefore?]
      change (drawGap g (item.gap? between isFirst)).1.isSome = _
      cases item.gap? between isFirst <;> rfl
    · cases item with
      | cue c => exact ⟨rfl, Segment.drawAll_isOf _ _⟩
      | pause p => exact trivial

/-- What is drawn for two lists of entities is drawn for the one and then for the other. -/
theorem Item.draw_append (between : Option Pause) (g : Mulberry) (first rest : List Item) :
    (Item.draw between g (first ++ rest)).1 =
      (Item.draw between g first).1 ++
        (Item.draw between (Item.draw between g first).2 rest).1 := by
  induction first generalizing g with
  | nil => rfl
  | cons item first ih => exact congrArg (_ :: ·) (ih _)

/-- What is drawn for entities is of these entities. -/
theorem Item.draw_areDrawn (between : Option Pause) : ∀ (g : Mulberry) (items : List Item),
    List.Forall₂ (fun parts item => SceneItem.AreDrawn between true parts item.sceneItems)
      (Item.draw between g items).1 items
  | _, [] => .nil
  | g, item :: rest =>
    .cons (SceneItem.drawAll_areDrawn between true g item.sceneItems) (draw_areDrawn between _ rest)

namespace Plan

/-- What the seed of a plan draws is a drawing. -/
theorem isDrawing_drawn (plan : Plan) : plan.IsDrawing plan.drawn :=
  Item.draw_areDrawn plan.between plan.generator plan.items

/-- The parts drawn for a scene are its parts. -/
theorem IsDrawing.parts {plan : Plan} {drawn : List (List DrawnItem)}
    (drawing : plan.IsDrawing drawn) {index : Nat} {item : Item}
    (present : plan.items[index]? = some item) :
    SceneItem.AreDrawn plan.between true (drawn[index]?.getD []) item.sceneItems := by
  obtain ⟨inside, rfl⟩ := List.getElem?_eq_some_iff.mp present
  have drawnInside : index < drawn.length := by rwa [List.Forall₂.length_eq drawing]
  rw [List.getElem?_eq_getElem drawnInside]
  exact List.forall₂_iff_get.mp drawing |>.2 index drawnInside inside

/-- The cues drawn for a scene are its cues. -/
theorem IsDrawing.cuesOf {plan : Plan} {drawn : List (List DrawnItem)}
    (drawing : plan.IsDrawing drawn) {index : Nat} {s : Scene}
    (present : plan.items[index]? = some (.scene s)) :
    DrawnItem.cuesOf (drawn[index]?.getD []) = s.cues :=
  DrawnItem.cuesOf_eq (drawing.parts present)

end Plan
end Storyboard
