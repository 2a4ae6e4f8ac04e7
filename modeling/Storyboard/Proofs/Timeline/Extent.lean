import Storyboard.Proofs.Timeline.Ending
import Storyboard.Proofs.Timeline.Windows
/-!
# A timeline lasts as long as its content

Without an authored duration a timeline lasts up to the largest end of its rows, or up to the
lead-in if that is later. No more than rows is asked for, but the cues and the silences of a scene
end by the end of its layout, and so by the end of its row.

Main statement: nothing that is shown ends after the timeline does (`runDrawn_lasts`).
-/
namespace Storyboard

open Binary64 Number

namespace Plan

variable {plan : Plan} {drawn : List (List DrawnItem)} {placed : Placed} {timeline : Timeline}

/-- Without an authored duration it is the largest of the lead-in and the ends of the rows. -/
theorem duration_of_timeline (done : plan.timeline placed = .ok timeline)
    (unauthored : plan.composition.duration = none) :
    timeline.duration = largest plan.leadIn (timeline.entries.map (·.finish)) := by
  obtain ⟨authored, found, done⟩ := bind_eq_ok done
  obtain ⟨poster, _, done⟩ := bind_eq_ok done
  rw [unauthored] at found
  cases found
  cases done
  rfl

/-- What neither the lead-in nor a row ends after, nothing that is shown ends after. -/
theorem Settled.outline_le (settled : plan.Settled drawn placed timeline)
    (sampling : plan.IsSampling drawn)
    (numbers : ∀ window ∈ timeline.outline, window.2.isNaN = false) {last : Float}
    (opening : plan.leadIn ≤ last)
    (rows : ∀ entry ∈ timeline.entries, entry.finish ≤ last) :
    ∀ window ∈ timeline.outline, window.2 ≤ last := by
  obtain ⟨_, scenes, _⟩ := Timeline.forall_outline.mp numbers
  -- The window of a scene ends with its row.
  have scene_le : ∀ {index s entry scene cursor timing contentEnd},
      timeline.SceneSolves plan index s (drawn[index]?.getD []) entry scene cursor timing
        contentEnd → scene.finish ≤ last := by
    intro index s entry scene cursor timing contentEnd solves
    rw [solves.bounds.2]
    exact rows entry (Timeline.mem_of_entryAt solves.row)
  refine Timeline.forall_outline.mpr ⟨rows, ?_, ?_⟩
  · intro scene member
    obtain ⟨index, _, _, _, _, _, _, solves⟩ := settled.exists_scene member
    obtain ⟨number, numbersOfCues⟩ := scenes scene member
    refine ⟨scene_le solves, fun cue inside => ?_⟩
    exact Trans.trans (solves.cue_finish_le (sampling.nonneg index) number inside
      (numbersOfCues cue inside)) (scene_le solves)
  · intro silence member
    rcases settled.exists_silence member with before | ⟨index, s, present, inside⟩
    · rwa [(mem_leadInSilence before).2]
    · obtain ⟨_, scene, _, _, _, solves⟩ := settled.scene_solves present
      have number := (scenes scene (Timeline.of_scene? solves.shown).1).1
      exact Trans.trans (solves.silence_finish_le (sampling.nonneg index) number inside)
        (scene_le solves)

/-- Without an authored duration nothing that a timeline shows ends after the timeline does, and
the timeline ends with the lead-in or with one of its rows. -/
theorem runDrawn_lasts {composition : Composition} {seed : Option Int}
    {estimate : Option (String → Float)}
    (ready : Plan.ofComposition composition seed estimate = .ok plan)
    (sampling : plan.IsSampling drawn) {events : List Event}
    (run : plan.runDrawn drawn [] = (placed, events, .ok timeline))
    (unauthored : composition.duration = none) (opening : plan.leadIn.isNaN = false)
    (numbers : ∀ window ∈ timeline.outline, window.2.isNaN = false) :
    plan.leadIn ≤ timeline.duration ∧
      (∀ window ∈ timeline.outline, window.2 ≤ timeline.duration) ∧
      (timeline.duration = plan.leadIn ∨
        ∃ entry ∈ timeline.entries, timeline.duration = entry.finish) := by
  have settled := settled_of_run (hasUniqueNames_of_ready ready) sampling.drawing run
  have none_declared : plan.composition.duration = none := by
    rwa [composition_of_ready ready]
  have lasts := duration_of_timeline (runDrawn_eq_ok run).2.2.2 none_declared
  have most := le_largest (List.forall_mem_cons.mpr
    ⟨opening, List.forall_mem_map.mpr (Timeline.forall_outline.mp numbers).1⟩)
  rw [← lasts] at most
  obtain ⟨first, ends⟩ := List.forall_mem_cons.mp most
  refine ⟨first, settled.outline_le sampling numbers first (List.forall_mem_map.mp ends), ?_⟩
  have one := largest_mem plan.leadIn (timeline.entries.map (·.finish))
  rw [← lasts] at one
  refine (List.mem_cons.mp one).imp_right fun row => ?_
  obtain ⟨entry, member, same⟩ := List.mem_map.mp row
  exact ⟨entry, member, same.symm⟩

/-- A timeline with a lead-in and a scene that starts before it lasts as long as its content. -/
theorem backwards_lasts : ∃ placed events timeline,
    Plan.ofComposition backwards none (some fun _ => 0.0) = .ok backwardsPlan ∧
      backwardsPlan.IsSampling backwardsPlan.drawn ∧
      backwardsPlan.runDrawn backwardsPlan.drawn [] = (placed, events, .ok timeline) ∧
      backwards.duration = none ∧ backwardsPlan.leadIn.isNaN = false ∧
      (∀ window ∈ timeline.outline, window.2.isNaN = false) ∧
      backwardsPlan.leadIn ≤ timeline.duration ∧
      (∀ window ∈ timeline.outline, window.2 ≤ timeline.duration) ∧
      (timeline.duration = backwardsPlan.leadIn ∨
        ∃ entry ∈ timeline.entries, timeline.duration = entry.finish) := by
  obtain ⟨placed, events, timeline, run, numbers⟩ := backwards_resolves
  have ends : ∀ window ∈ timeline.outline, window.2.isNaN = false :=
    fun window member => (numbers window (List.mem_append_left _ member)).2
  have opening : backwardsPlan.leadIn.isNaN = false := by decide +kernel
  exact ⟨placed, events, timeline, backwards_ready, isSampling_drawn _, run, rfl, opening, ends,
    runDrawn_lasts backwards_ready (isSampling_drawn _) run rfl opening ends⟩

end Plan
end Storyboard
