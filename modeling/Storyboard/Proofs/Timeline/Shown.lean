import Storyboard.Proofs.Timeline.Solution
/-!
# What a timeline shows

Once a run has ended in a timeline, an attempt at any entity gives the placement again that it has
(`Plan.Settled`). Whatever the timeline shows belongs to one of the entities, a silence before all
of them apart (`Plan.Settled.exists_item`, `Plan.Settled.exists_scene`,
`Plan.Settled.exists_silence`), so a law of all entities is one of all that is shown.
-/
namespace Storyboard

namespace Timeline

variable {timeline : Timeline}

/-- The row of an entity is one of the rows. -/
theorem mem_of_entryAt {plan : Plan} {index : Nat} {entry : Entry}
    (row : timeline.entryAt plan index = some entry) : entry ∈ timeline.entries := by
  obtain ⟨item, _, found⟩ := Option.bind_eq_some_iff.mp row
  exact List.mem_of_find?_eq_some found

/-- The scene of a name is one of the scenes and has that name. -/
theorem of_scene? {id : String} {window : SceneWindow} (found : timeline.scene? id = some window) :
    window ∈ timeline.scenes ∧ window.id = id := by
  have named := List.find?_some found
  exact ⟨List.mem_of_find?_eq_some found, beq_iff_eq.mp named⟩

end Timeline

namespace Plan

variable {plan : Plan} {drawn : List (List DrawnItem)} {placed : Placed} {timeline : Timeline}
  {index : Nat}

/-- What is known of a table and of the timeline that is written down from it when a run ends. -/
structure Settled (plan : Plan) (drawn : List (List DrawnItem)) (placed : Placed)
    (timeline : Timeline) : Prop where
  /-- The timeline is written down from the table. -/
  writes : plan.Writes placed timeline
  /-- All entities are placed. -/
  complete : plan.IsComplete placed
  /-- An attempt at an entity gives its placement again. -/
  again : ∀ index item, plan.items[index]? = some item → ∃ p, placed.lookup index = some p ∧
    item.Fits p ∧ plan.placeItem placed index (drawn[index]?.getD []) item = .ok p

/-- A run that ends in a timeline leaves a settled table. -/
theorem settled_of_run (unique : plan.HasUniqueNames) (drawing : plan.IsDrawing drawn)
    {events : List Event} (run : plan.runDrawn drawn [] = (placed, events, .ok timeline)) :
    plan.Settled drawn placed timeline := by
  obtain ⟨reached, complete, _, _⟩ := runDrawn_eq_ok run
  have writes := writes_of_run unique drawing run
  refine ⟨writes, complete, fun index item present => ?_⟩
  obtain ⟨p, held, again⟩ := reached.place_of_complete drawing unique complete
    (List.getElem?_eq_some_iff.mp present).1
  rw [place, present] at again
  exact ⟨p, held, writes.faithful.fits_of_lookup held present, again⟩

namespace Settled

/-- The row of an entity that is placed. -/
theorem row (settled : plan.Settled drawn placed timeline) {p : Placement}
    (held : placed.lookup index = some p) : timeline.entryAt plan index = some p.entry := by
  rw [settled.writes.entryAt_eq, held, Option.map_some]

/-- What is placed belongs to an entity, and an attempt at it gives its placement again. -/
theorem item_of_lookup (settled : plan.Settled drawn placed timeline) {p : Placement}
    (held : placed.lookup index = some p) : ∃ item, plan.items[index]? = some item ∧ item.Fits p ∧
      plan.placeItem placed index (drawn[index]?.getD []) item = .ok p := by
  obtain ⟨item, present, fits⟩ :=
    settled.writes.faithful.fits index p (settled.writes.faithful.lookup_eq_some.mp held)
  obtain ⟨q, heldToo, _, again⟩ := settled.again index item present
  rw [held] at heldToo
  cases heldToo
  exact ⟨item, present, fits, again⟩

/-- A scene satisfies its equations. -/
theorem scene_solves (settled : plan.Settled drawn placed timeline) {s : Scene}
    (present : plan.items[index]? = some (.scene s)) :
    ∃ entry window cursor timing contentEnd,
      timeline.SceneSolves plan index s (drawn[index]?.getD []) entry window cursor timing
        contentEnd := by
  obtain ⟨p, held, _, again⟩ := settled.again index _ present
  exact settled.writes.scene_solves settled.complete present held again

/-- Each row belongs to an entity, and an attempt at it gives that row again. -/
theorem exists_item (settled : plan.Settled drawn placed timeline) {entry : Entry}
    (member : entry ∈ timeline.entries) :
    ∃ index item p, plan.items[index]? = some item ∧ timeline.entryAt plan index = some entry ∧
      plan.placeItem placed index (drawn[index]?.getD []) item = .ok p ∧ p.entry = entry := by
  obtain ⟨index, p, held, rfl⟩ := settled.writes.mem_entries.mp member
  obtain ⟨item, present, _, again⟩ := settled.item_of_lookup held
  exact ⟨index, item, p, present, settled.row held, again, rfl⟩

/-- Each window of a scene belongs to a scene, and satisfies its equations. -/
theorem exists_scene (settled : plan.Settled drawn placed timeline) {window : SceneWindow}
    (member : window ∈ timeline.scenes) :
    ∃ index s entry cursor timing contentEnd, plan.items[index]? = some (.scene s) ∧
      timeline.SceneSolves plan index s (drawn[index]?.getD []) entry window cursor timing
        contentEnd := by
  obtain ⟨index, p, s, present, held, _, shown⟩ :=
    settled.writes.faithful.mem_scenes.mp (settled.writes.mem_scenes.mp member)
  obtain ⟨entry, other, cursor, timing, contentEnd, solves⟩ := settled.scene_solves present
  have same := solves.shown
  rw [settled.writes.scene?_eq present held, shown] at same
  cases same
  exact ⟨index, s, entry, cursor, timing, contentEnd, present, solves⟩

/-- Each silence stands before everything or belongs to a scene. -/
theorem exists_silence (settled : plan.Settled drawn placed timeline) {silence : Silence}
    (member : silence ∈ timeline.pauses) :
    silence ∈ plan.leadInSilence ∨ ∃ (index : Nat) (s : Scene),
      plan.items[index]? = some (.scene s) ∧
      silence ∈ timeline.pauses.filter fun other => other.sceneId == some s.id := by
  have listed := member
  rw [settled.writes.pauses] at member
  refine (List.mem_append.mp member).imp_right fun member => ?_
  obtain ⟨p, among, inside⟩ := List.mem_flatMap.mp member
  obtain ⟨index, held⟩ := settled.writes.faithful.mem_placements.mp among
  obtain ⟨item, present, fits, again⟩ := settled.item_of_lookup held
  cases item with
  | scene s =>
    refine ⟨index, s, present, List.mem_filter.mpr ⟨listed, ?_⟩⟩
    rw [fits.pauses silence inside]
    exact beq_self_eq_true _
  | transition t =>
    obtain ⟨_, _, _, _, _, _, _, _, _, rfl⟩ := placeTransition_eq_ok again
    cases inside
  | mark m =>
    obtain ⟨_, _, rfl⟩ := placeMark_eq_ok again
    cases inside

end Settled

end Plan
end Storyboard
