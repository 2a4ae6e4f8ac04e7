import Mathlib.Data.List.Forall2
import Storyboard.Proofs.Order.Stability
import Storyboard.Proofs.Timeline.Ending
import Storyboard.Proofs.Timeline.Shown
/-!
# All that is authored is shown once

A timeline has one row for each entity, of its kind and name, and lists its scenes in the order of
the author, each with its own cues in order and each cue with its own parts
(`Timeline.TakesStock`). The rows are in the order of their starts, and in that of the author where
starts are equal.
-/
namespace Storyboard

/-! ## What is shown of an author -/

/-- Whether a part of a cue is shown for an authored one: text for text that is the same, and for a
pause a part without text. -/
def SegmentWindow.IsOf (window : SegmentWindow) : Segment → Prop
  | .text speech => window.text = some speech.text
  | .pause _ => window.text = none

/-- Whether the window of a cue in the scene of a name is that of an authored cue. -/
structure CueWindow.IsOf (sceneId : String) (window : CueWindow) (c : Cue) : Prop where
  /-- It has the name of the cue. -/
  id : window.id = c.id
  /-- It belongs to the scene. -/
  scene : window.sceneId = sceneId
  /-- It says what the cue says. -/
  text : window.text = c.text
  /-- It has the lines to show. -/
  bullets : window.bullets = c.bullets
  /-- It has the parts of the cue, in order. -/
  segments : List.Forall₂ SegmentWindow.IsOf window.segments c.segments

/-- Whether the window of a scene is that of an authored scene. -/
structure SceneWindow.IsOf (window : SceneWindow) (s : Scene) : Prop where
  /-- It has the name of the scene. -/
  id : window.id = s.id
  /-- It has the title. -/
  title : window.title = s.title
  /-- It has the cues of the scene, in order. -/
  cues : List.Forall₂ (CueWindow.IsOf s.id) window.cues s.cues

/-- Whether a row is that of an entity. -/
structure Entry.IsOf (entry : Entry) (item : Item) : Prop where
  /-- It has the kind of the entity. -/
  kind : entry.kind = item.kind
  /-- It has the name of the entity. -/
  id : entry.id = item.id

/-- Whether the rows of a timeline, with the places that they have in a list, are in the order of
their starts, and where starts are equal in the order of their places. -/
def Timeline.Orders (timeline : Timeline) (rows : List Entry) : Prop :=
  ∃ listed : List (Entry × Nat), listed.Perm rows.zipIdx ∧ listed.map (·.1) = timeline.entries ∧
    listed.Pairwise fun a b =>
      a.1.start ≤ b.1.start ∧ ((a.1.start == b.1.start) = true → a.2 < b.2)

/-- Whether a timeline shows some entities, each once, given the row of each. -/
structure Timeline.TakesStock (timeline : Timeline) (items : List Item) (rows : List Entry) :
    Prop where
  /-- Each entity has its row. -/
  each : List.Forall₂ Entry.IsOf rows items
  /-- The timeline has these rows and no other. -/
  all : timeline.entries.Perm rows
  /-- If all starts are numbers the rows are ordered by them, and else as the entities are. -/
  ordered : (∀ entry ∈ timeline.entries, entry.start.isNaN = false) → timeline.Orders rows
  /-- The scenes are those of the author, in order. -/
  scenes : List.Forall₂ SceneWindow.IsOf timeline.scenes (items.filterMap Item.scene?)

namespace Plan

variable {plan : Plan} {drawn : List (List DrawnItem)} {placed : Placed} {timeline : Timeline}
  {index : Nat}

/-! ## The parts of a scene -/

/-- The parts of a cue are placed for those it has. -/
theorem placeBeats_isOf {beats : List Beat} {segments : List Segment}
    (drawn : List.Forall₂ Beat.IsOf beats segments) (now : Float) :
    List.Forall₂ SegmentWindow.IsOf (plan.placeBeats now beats).1 segments := by
  induction drawn generalizing now with
  | nil => exact .nil
  | @cons beat segment beats segments own others ih =>
    refine .cons ?_ (ih _)
    cases beat with
    | text speech =>
      cases segment with
      | text other =>
        cases own
        rfl
      | pause p => exact own.elim
    | pause seconds =>
      cases segment with
      | text other => exact own.elim
      | pause p => rfl

/-- The cues of a scene are laid out for those it has. -/
theorem layOut_isOf {sceneId : String} {ctx : Context} {now : Float} {between : Option Pause}
    {isFirst : Bool} {parts : List DrawnItem} {items : List SceneItem} {layout : SceneLayout}
    (areDrawn : SceneItem.AreDrawn between isFirst parts items)
    (done : plan.layOut sceneId ctx now parts = .ok layout) :
    List.Forall₂ (CueWindow.IsOf sceneId) layout.cues (SceneItem.cuesOf items) := by
  induction parts generalizing ctx now isFirst items layout with
  | nil =>
    cases done
    cases items with
    | nil => exact .nil
    | cons item items => exact areDrawn.elim
  | cons part parts ih =>
    cases items with
    | nil => exact areDrawn.elim
    | cons item items =>
      obtain ⟨_, same, rest⟩ := areDrawn
      rcases part with ⟨gap, ⟨c, beats⟩ | seconds⟩
      · cases item with
        | pause p => exact same.elim
        | cue d =>
          obtain ⟨rfl, drawn⟩ := same
          obtain ⟨window, others, foundWindow, foundOthers, rfl⟩ := layOut_cue_eq_ok done
          obtain ⟨_, _, _, _, _, rfl⟩ := placeCue_eq_ok foundWindow
          exact .cons ⟨rfl, rfl, rfl, rfl, placeBeats_isOf drawn _⟩ (ih rest foundOthers)
      · cases item with
        | cue d => exact same.elim
        | pause p =>
          obtain ⟨others, foundOthers, rfl⟩ := layOut_pause_eq_ok done
          have later := ih rest foundOthers
          exact later

/-! ## Entities and their placements -/

/-- A placement has the row of its entity, and for a scene its window. -/
theorem placeItem_isOf (drawing : plan.IsDrawing drawn) {item : Item} {p : Placement}
    (present : plan.items[index]? = some item)
    (done : plan.placeItem placed index (drawn[index]?.getD []) item = .ok p) :
    p.entry.IsOf item ∧ Option.Rel SceneWindow.IsOf p.scene item.scene? := by
  cases item with
  | scene s =>
    obtain ⟨_, _, _, layout, _, _, _, foundLayout, rfl⟩ := placeScene_eq_ok done
    exact ⟨⟨rfl, rfl⟩, .some ⟨rfl, rfl, layOut_isOf (drawing.parts present) foundLayout⟩⟩
  | transition t =>
    obtain ⟨_, _, _, _, _, _, _, _, _, rfl⟩ := placeTransition_eq_ok done
    exact ⟨⟨rfl, rfl⟩, .none⟩
  | mark m =>
    obtain ⟨_, _, rfl⟩ := placeMark_eq_ok done
    exact ⟨⟨rfl, rfl⟩, .none⟩

/-- What is found at the index of each element of a list is, in order, related to the elements. -/
theorem forall₂_filterMap_range {α β : Type} {R : β → α → Prop} {items : List α}
    {f : Nat → Option β}
    (found : ∀ index x, items[index]? = some x → ∃ y, f index = some y ∧ R y x) :
    List.Forall₂ R ((List.range items.length).filterMap f) items := by
  induction items generalizing f with
  | nil => exact .nil
  | cons x rest ih =>
    obtain ⟨y, here, related⟩ := found 0 x rfl
    rw [List.length_cons, List.range_succ_eq_map, List.filterMap_cons_some here,
      List.filterMap_map]
    exact .cons related (ih fun index x present => found (index + 1) x present)

/-- The placements of a settled table are those of the entities, in order. -/
theorem Settled.forall₂_placements (settled : plan.Settled drawn placed timeline)
    (drawing : plan.IsDrawing drawn) :
    List.Forall₂ (fun p item => p.entry.IsOf item ∧ Option.Rel SceneWindow.IsOf p.scene item.scene?)
      (plan.placements placed) plan.items := by
  refine forall₂_filterMap_range fun index item present => ?_
  obtain ⟨p, held, _, again⟩ := settled.again index item present
  exact ⟨p, held, placeItem_isOf drawing present again⟩

/-- Nothing is lost, doubled or put out of order. Every timeline that a resolution gives has one row
for each entity, written out transitions among them, of its kind and name, and lists the scenes of
the author in order, each with its cues in order and each cue with its parts in order; and if all
starts are numbers the rows are ordered by their starts, and where these are equal as the entities
are. -/
theorem runDrawn_takesStock {composition : Composition} {seed : Option Int}
    {estimate : Option (String → Float)}
    (ready : Plan.ofComposition composition seed estimate = .ok plan)
    (drawing : plan.IsDrawing drawn) {events : List Event}
    (run : plan.runDrawn drawn [] = (placed, events, .ok timeline)) :
    ∃ rows, timeline.TakesStock (Item.expand composition.timeline) rows := by
  have settled := settled_of_run (hasUniqueNames_of_ready ready) drawing run
  have each := settled.forall₂_placements drawing
  have entries := entries_of_timeline (runDrawn_eq_ok run).2.2.2
  rw [← items_of_ready ready]
  refine ⟨(plan.placements placed).map (·.entry), ?_, settled.writes.entries, ?_, ?_⟩
  · exact List.forall₂_map_left_iff.mpr (each.imp fun _ _ both => both.1)
  · intro numbers
    have defined : ∀ entry ∈ (plan.placements placed).map (·.entry), entry.start.isNaN = false :=
      fun entry member => numbers entry (settled.writes.entries.mem_iff.mpr member)
    rw [Timeline.Orders, entries]
    exact Order.sortBy_places defined
  · rw [settled.writes.scenes]
    exact List.rel_filterMap (fun _ _ both => both.2) each

/-- The timeline of a composition whose mark looks ahead has the rows of its entities, in order. -/
theorem peek_takesStock : ∃ placed events timeline rows,
    peekPlan.runDrawn peekPlan.drawn [] = (placed, events, .ok timeline) ∧
      timeline.TakesStock (Item.expand peek.timeline) rows ∧ timeline.Orders rows := by
  have done : (peekPlan.runDrawn peekPlan.drawn []).2.2.isOk = true := by decide +kernel
  obtain ⟨timeline, run⟩ := runDrawn_of_isOk done
  obtain ⟨rows, stock⟩ := runDrawn_takesStock peek_ready (isDrawing_drawn _) run
  have writes := writes_of_run (hasUniqueNames_of_ready peek_ready) (isDrawing_drawn _) run
  have numbers : ∀ entry ∈ timeline.entries, entry.start.isNaN = false :=
    writes.forall_entries.mpr (by decide +kernel)
  exact ⟨_, _, timeline, rows, run, stock, stock.ordered numbers⟩

end Plan
end Storyboard
