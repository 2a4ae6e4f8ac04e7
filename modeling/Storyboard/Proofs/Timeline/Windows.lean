import Storyboard.Proofs.Timeline.Layout
import Storyboard.Proofs.Timeline.Shown
/-!
# Windows are well ordered

Only cues and transitions are checked not to end before they start. Everything else lies in order
because the lengths of parts and pauses are not below zero, so the cursor within a scene never goes
back, and because a scene is only ever pulled to an earlier start and held to a later end.

Main statement: no window of a timeline ends before it starts, whatever is authored
(`runDrawn_windows_ordered`).
-/
namespace Storyboard

open Binary64

namespace Timeline

/-- The windows of the rows, the scenes, the cues and the silences. -/
def outline (timeline : Timeline) : List (Float × Float) :=
  timeline.entries.map (fun entry => (entry.start, entry.finish)) ++
    timeline.scenes.map (fun scene => (scene.start, scene.finish)) ++
    (timeline.scenes.flatMap (·.cues)).map (fun cue => (cue.start, cue.finish)) ++
    timeline.pauses.map fun silence => (silence.start, silence.finish)

/-- All windows: the outline, and the windows of the parts of cues. -/
def windows (timeline : Timeline) : List (Float × Float) :=
  timeline.outline ++ ((timeline.scenes.flatMap (·.cues)).flatMap (·.segments)).map
    fun segment => (segment.start, segment.finish)

/-- What holds of the outline is what holds of the window of each row, scene, cue and silence. -/
theorem forall_outline {timeline : Timeline} {P : Float × Float → Prop} :
    (∀ window ∈ timeline.outline, P window) ↔
      (∀ entry ∈ timeline.entries, P (entry.start, entry.finish)) ∧
        (∀ scene ∈ timeline.scenes, P (scene.start, scene.finish) ∧
          ∀ cue ∈ scene.cues, P (cue.start, cue.finish)) ∧
        ∀ silence ∈ timeline.pauses, P (silence.start, silence.finish) := by
  simp only [outline, List.forall_mem_append, List.forall_mem_map, List.forall_mem_flatMap,
    imp_and, forall_and, and_assoc]

/-- What holds of the outline and of the parts of all cues holds of all windows. -/
theorem forall_windows {timeline : Timeline} {P : Float × Float → Prop}
    (outline : ∀ window ∈ timeline.outline, P window)
    (segments : ∀ scene ∈ timeline.scenes, ∀ cue ∈ scene.cues, ∀ segment ∈ cue.segments,
      P (segment.start, segment.finish)) :
    ∀ window ∈ timeline.windows, P window := by
  simp only [windows, List.forall_mem_append, List.forall_mem_map, List.forall_mem_flatMap]
  exact ⟨outline, fun scene member cue inside => segments scene member cue inside⟩

/-- What holds of the window of each row and of all other windows holds of all windows. -/
theorem forall_windows_of_entries {timeline : Timeline} {P : Float × Float → Prop}
    (entries : ∀ entry ∈ timeline.entries, P (entry.start, entry.finish))
    (others : ∀ window ∈ ({ timeline with entries := [] } : Timeline).windows, P window) :
    ∀ window ∈ timeline.windows, P window := by
  simp only [windows, outline, List.map_nil, List.nil_append, List.append_assoc] at others ⊢
  exact List.forall_mem_append.mpr ⟨List.forall_mem_map.mpr entries, others⟩

end Timeline

/-- Whether a window does not end before it starts, if both are numbers. -/
def IsOrdered (window : Float × Float) : Prop :=
  window.1.isNaN = false → window.2.isNaN = false → window.1 ≤ window.2

namespace Plan

variable {plan : Plan} {drawn : List (List DrawnItem)} {placed : Placed} {timeline : Timeline}

/-- A cue and its parts do not end before they start. -/
theorem CueSolves.isOrdered {sceneId : String} {c : Cue} {beats : List Beat} {ctx : Context}
    {now : Float} {window : CueWindow} (solves : plan.CueSolves sceneId c beats ctx now window)
    (nonneg : ∀ length ∈ beats.filterMap Beat.length?, 0.0 ≤ length) :
    IsOrdered (window.start, window.finish) ∧
      ∀ segment ∈ window.segments, IsOrdered (segment.start, segment.finish) := by
  obtain ⟨_, _, _, _, strung, _⟩ := solves.timed
  constructor
  · intro number numberOther
    exact le_of_not_lt number numberOther solves.ordered
  · intro segment member _ number
    exact strung.segment_le nonneg segment member number

/-- A scene does not end before it starts, and neither do its cues and their parts. -/
theorem Settled.scene_isOrdered (settled : plan.Settled drawn placed timeline)
    (sampling : plan.IsSampling drawn) {scene : SceneWindow} (member : scene ∈ timeline.scenes) :
    IsOrdered (scene.start, scene.finish) ∧ ∀ cue ∈ scene.cues,
      IsOrdered (cue.start, cue.finish) ∧
        ∀ segment ∈ cue.segments, IsOrdered (segment.start, segment.finish) := by
  obtain ⟨index, s, entry, cursor, timing, contentEnd, _, solves⟩ := settled.exists_scene member
  have nonneg := sampling.nonneg index
  constructor
  · intro number numberOther
    have ends := solves.contentEnd_le numberOther
    calc scene.start
      _ ≤ timing.start.getD cursor := solves.start_le number
      _ ≤ contentEnd := solves.laid.le nonneg (isNaN_of_le ends).1
      _ ≤ scene.finish := ends
  · intro cue inside
    obtain ⟨gap, c, beats, _, listed, solves, _⟩ := solves.laid.cue_bounds nonneg cue inside
    exact solves.isOrdered fun length found =>
      nonneg _ listed length (List.mem_append_right _ found)

/-- A row does not end before it starts. -/
theorem Settled.entry_isOrdered (settled : plan.Settled drawn placed timeline)
    (sampling : plan.IsSampling drawn) {entry : Entry} (member : entry ∈ timeline.entries) :
    IsOrdered (entry.start, entry.finish) := by
  obtain ⟨index, item, p, present, row, again, rfl⟩ := settled.exists_item member
  cases item with
  | scene s =>
    obtain ⟨_, scene, _, _, _, solves⟩ := settled.scene_solves present
    cases row.symm.trans solves.row
    have shown := (settled.scene_isOrdered sampling (Timeline.of_scene? solves.shown).1).1
    rwa [solves.bounds.1, solves.bounds.2] at shown
  | transition t =>
    obtain ⟨_, _, _, _, _, _, _, _, ordered, rfl⟩ := placeTransition_eq_ok again
    intro number numberOther
    exact le_of_not_lt number numberOther ordered
  | mark m =>
    obtain ⟨_, _, rfl⟩ := placeMark_eq_ok again
    intro number _
    exact le_refl number

/-- The silence before everything begins at zero and lasts up to the lead-in. -/
theorem mem_leadInSilence {silence : Silence} (member : silence ∈ plan.leadInSilence) :
    0.0 ≤ plan.leadIn ∧ silence = ⟨none, 0.0, plan.leadIn, plan.leadIn⟩ := by
  unfold leadInSilence at member
  split at member
  · rename_i positive
    exact ⟨le_of_lt positive, List.mem_singleton.mp member⟩
  · cases member

/-- A silence does not end before it starts. -/
theorem Settled.silence_isOrdered (settled : plan.Settled drawn placed timeline)
    (sampling : plan.IsSampling drawn) {silence : Silence} (member : silence ∈ timeline.pauses) :
    IsOrdered (silence.start, silence.finish) := by
  intro _ number
  rcases settled.exists_silence member with opening | ⟨index, s, present, inside⟩
  · obtain ⟨nonneg, rfl⟩ := mem_leadInSilence opening
    exact nonneg
  · obtain ⟨_, _, _, _, _, solves⟩ := settled.scene_solves present
    have lasts := (solves.laid.silence_bounds (sampling.nonneg index) silence inside).1
    exact lasts.le number

/-- In every timeline that a resolution gives no window ends before it starts, whatever the signs
of the authored times. -/
theorem runDrawn_windows_ordered {composition : Composition} {seed : Option Int}
    {estimate : Option (String → Float)}
    (ready : Plan.ofComposition composition seed estimate = .ok plan)
    (sampling : plan.IsSampling drawn) {events : List Event}
    (run : plan.runDrawn drawn [] = (placed, events, .ok timeline)) :
    ∀ window ∈ timeline.windows, IsOrdered window := by
  have settled := settled_of_run (hasUniqueNames_of_ready ready) sampling.drawing run
  have scenes := fun scene (member : scene ∈ timeline.scenes) =>
    settled.scene_isOrdered sampling member
  refine Timeline.forall_windows (Timeline.forall_outline.mpr ⟨?_, ?_, ?_⟩) ?_
  · intro entry member
    exact settled.entry_isOrdered sampling member
  · intro scene member
    exact ⟨(scenes scene member).1, fun cue inside => ((scenes scene member).2 cue inside).1⟩
  · intro silence member
    exact settled.silence_isOrdered sampling member
  · intro scene member cue inside
    exact ((scenes scene member).2 cue inside).2

/-- Scenes with lengths, a trim and an authored start below zero, and a transition that pulls the
second scene to the start of the first one. -/
def backwards : Composition where
  voiceover := { leadInSeconds := 0.5, pauseBetweenItems := some (.seconds 0.25) }
  timeline := [
    .scene { id := "first", items := [
      .pause (.fixed (-1.0)),
      .cue { id := "hello", segments := [
        .text { text := "hello", durationSec := some 2.0, trimEndSec := 3.0 },
        .pause (.fixed 1.0)] },
      .cue { id := "before", time := some {
        start := some (.seconds (-4.0)), finish := some (.seconds (-3.0)) } }] },
    .mark { id := "early", position := .seconds (-1.0) },
    .transition { id := "fade", duration := some (.seconds 3.0) },
    .scene { id := "last", items := [.cue { id := "bye", duration := some (.seconds 2.0) }] }]

/-- The composition made ready. -/
def backwardsPlan : Plan := untimed backwards

/-- The plan is that of the composition. -/
theorem backwards_ready :
    Plan.ofComposition backwards none (some fun _ => 0.0) = .ok backwardsPlan := rfl

/-- The composition resolves, and all times are numbers. -/
theorem backwards_resolves : ∃ placed events timeline,
    backwardsPlan.runDrawn backwardsPlan.drawn [] = (placed, events, .ok timeline) ∧
      ∀ window ∈ timeline.windows, window.1.isNaN = false ∧ window.2.isNaN = false := by
  obtain ⟨timeline, run, others⟩ := runDrawn_of_checked backwardsPlan backwardsPlan.drawn
    (fun timeline => ∀ window ∈ ({ timeline with entries := [] } : Timeline).windows,
      window.1.isNaN = false ∧ window.2.isNaN = false) (by decide +kernel)
  have writes := writes_of_run (hasUniqueNames_of_ready backwards_ready) (isDrawing_drawn _) run
  exact ⟨_, _, timeline, run,
    Timeline.forall_windows_of_entries (writes.forall_entries.mpr (by decide +kernel)) others⟩

/-- All windows of its timeline are ordered. -/
theorem backwards_windows_ordered : ∃ placed events timeline,
    Plan.ofComposition backwards none (some fun _ => 0.0) = .ok backwardsPlan ∧
      backwardsPlan.IsSampling backwardsPlan.drawn ∧
      backwardsPlan.runDrawn backwardsPlan.drawn [] = (placed, events, .ok timeline) ∧
      (∀ window ∈ timeline.windows, window.1.isNaN = false ∧ window.2.isNaN = false) ∧
      ∀ window ∈ timeline.windows, IsOrdered window := by
  obtain ⟨placed, events, timeline, run, numbers⟩ := backwards_resolves
  exact ⟨placed, events, timeline, backwards_ready, isSampling_drawn _, run, numbers,
    runDrawn_windows_ordered backwards_ready (isSampling_drawn _) run⟩

end Plan
end Storyboard
