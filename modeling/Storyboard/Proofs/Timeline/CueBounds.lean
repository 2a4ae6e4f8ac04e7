import Storyboard.Proofs.Timeline.Windows
/-!
# Cues of a scene lie within it

A cue ends by the end of its scene, wherever it stands. It starts within the scene too, unless its
authored start leads out of it: an absolute one may lie before the scene, and a relative one may
count back from the cursor. No other way out is open, as the cursor within a scene never goes back
and a scene is only ever pulled to an earlier start.

Main statement: the bounds of the cues of all scenes (`runDrawn_cues_within`).
-/
namespace Storyboard

open Binary64

/-- Whether the authored start of a cue leads out of a scene that starts at a moment: it counts from
the cursor by less than nothing, or it is absolute and lies before that moment. -/
def Cue.LeadsOut (c : Cue) (ctx : Context) (opening : Float) : Prop :=
  ∃ value seconds, c.time.bind (·.start) = some value ∧ value.evaluate ctx = .ok seconds ∧
    seconds < if c.time.any (·.startIsRelative) then 0.0 else opening

/-- An authored start is the position of a value. -/
theorem TimeRange.Solves.exists_value {time : Option TimeRange} {ctx : Context} {cursor : Float}
    {timing : Timing} (solves : TimeRange.Solves time ctx cursor timing) {start : Float}
    (authored : timing.start = some start) :
    ∃ value seconds, time.bind (·.start) = some value ∧ value.evaluate ctx = .ok seconds ∧
      start = if time.any (·.startIsRelative) then seconds + cursor else seconds := by
  have found := solves.start
  rw [authored] at found
  cases given : time.bind (·.start) with
  | none =>
    rw [given] at found
    cases found.eq_none
  | some value =>
    rw [given] at found
    obtain ⟨seconds, evaluated, same⟩ := found.exists_seconds
    exact ⟨value, seconds, rfl, evaluated, Option.some.inj same⟩

namespace Plan

variable {plan : Plan} {drawn : List (List DrawnItem)} {placed : Placed} {timeline : Timeline}

/-- A cue whose cursor is not before a moment starts at that moment or later, unless its authored
start leads out. -/
theorem CueSolves.start_within {sceneId : String} {c : Cue} {beats : List Beat} {ctx : Context}
    {cursor opening : Float} {window : CueWindow}
    (solves : plan.CueSolves sceneId c beats ctx cursor window) (within : opening ≤ cursor)
    (number : window.start.isNaN = false) :
    opening ≤ window.start ∨ c.LeadsOut ctx opening := by
  obtain ⟨timing, _, timed, start, _⟩ := solves.timed
  cases authored : timing.start with
  | none =>
    rw [start, authored]
    exact .inl within
  | some moment =>
    obtain ⟨value, seconds, given, evaluated, same⟩ := timed.exists_value authored
    rw [start, authored, Option.getD_some, same] at number ⊢
    cases relative : c.time.any (·.startIsRelative) with
    | true =>
      rw [relative, if_pos rfl] at number
      by_cases back : seconds < 0.0
      · exact .inr ⟨value, seconds, given, evaluated, by rwa [relative, if_pos rfl]⟩
      · have onward := le_of_not_lt (by decide +kernel) (isNaN_of_isNaN_add number) back
        exact .inl (Trans.trans within (le_add_left number onward))
    | false =>
      rw [relative, if_neg Bool.false_ne_true] at number
      by_cases early : seconds < opening
      · exact .inr ⟨value, seconds, given, evaluated, by
          rwa [relative, if_neg Bool.false_ne_true]⟩
      · exact .inl (le_of_not_lt (isNaN_of_le within).1 number early)

/-- In every timeline of numbers that a resolution gives each cue ends by the end of its scene, and
starts no earlier than its scene unless its authored start leads out of it. -/
theorem runDrawn_cues_within {composition : Composition} {seed : Option Int}
    {estimate : Option (String → Float)}
    (ready : Plan.ofComposition composition seed estimate = .ok plan)
    (sampling : plan.IsSampling drawn) {events : List Event}
    (run : plan.runDrawn drawn [] = (placed, events, .ok timeline))
    (numbers : ∀ window ∈ timeline.outline, window.1.isNaN = false ∧ window.2.isNaN = false) :
    ∀ scene ∈ timeline.scenes, ∃ (index : Nat) (s : Scene),
      plan.items[index]? = some (.scene s) ∧ scene.id = s.id ∧
        ∀ cue ∈ scene.cues, cue.finish ≤ scene.finish ∧
          ∃ c ∈ s.cues, cue.id = c.id ∧
            (scene.start ≤ cue.start ∨ c.LeadsOut (timeline.context plan index) scene.start) := by
  have settled := settled_of_run (hasUniqueNames_of_ready ready) sampling.drawing run
  obtain ⟨_, scenes, _⟩ := Timeline.forall_outline.mp numbers
  intro scene member
  obtain ⟨index, s, entry, cursor, timing, contentEnd, present, solves⟩ :=
    settled.exists_scene member
  obtain ⟨number, cues⟩ := scenes scene member
  have nonneg := sampling.nonneg index
  refine ⟨index, s, present, (Timeline.of_scene? solves.shown).2, fun cue inside => ?_⟩
  obtain ⟨numberStart, numberFinish⟩ := cues cue inside
  refine ⟨solves.cue_finish_le nonneg number.2 inside numberFinish, ?_⟩
  obtain ⟨gap, c, beats, position, listed, stands, bounds⟩ :=
    solves.laid.cue_bounds nonneg cue inside
  have authored : c ∈ s.cues := by
    rw [← sampling.drawing.cuesOf present]
    exact List.mem_filterMap.mpr ⟨_, listed, rfl⟩
  have within := (bounds (isNaN_of_le (solves.contentEnd_le number.2)).1).1
  have starts := stands.start_within (Trans.trans (solves.start_le number.1) within) numberStart
  exact ⟨c, authored, stands.id, starts⟩

/-- The cues of two scenes lie within them, except for one with an authored start before them. -/
theorem backwards_cues_within : ∃ placed events timeline,
    Plan.ofComposition backwards none (some fun _ => 0.0) = .ok backwardsPlan ∧
      backwardsPlan.IsSampling backwardsPlan.drawn ∧
      backwardsPlan.runDrawn backwardsPlan.drawn [] = (placed, events, .ok timeline) ∧
      (∀ window ∈ timeline.outline, window.1.isNaN = false ∧ window.2.isNaN = false) ∧
      ∀ scene ∈ timeline.scenes, ∃ (index : Nat) (s : Scene),
        backwardsPlan.items[index]? = some (.scene s) ∧ scene.id = s.id ∧
          ∀ cue ∈ scene.cues, cue.finish ≤ scene.finish ∧
            ∃ c ∈ s.cues, cue.id = c.id ∧ (scene.start ≤ cue.start ∨
              c.LeadsOut (timeline.context backwardsPlan index) scene.start) := by
  obtain ⟨placed, events, timeline, run, numbers⟩ := backwards_resolves
  have shown : ∀ window ∈ timeline.outline, window.1.isNaN = false ∧ window.2.isNaN = false :=
    fun window member => numbers window (List.mem_append_left _ member)
  exact ⟨placed, events, timeline, backwards_ready, isSampling_drawn _, run, shown,
    runDrawn_cues_within backwards_ready (isSampling_drawn _) run shown⟩

/-- Two scenes, where the cue of the second one is authored to lie within the first one. -/
def astray : Composition where
  timeline := [
    .scene { id := "a", items := [.cue { id := "c", duration := some (.seconds 5.0) }] },
    .scene { id := "b", items := [
      .cue { id := "d", time := some {
        start := some (.seconds 1.0), duration := some (.seconds 1.0) } }] }]

/-- The composition made ready. -/
def astrayPlan : Plan := untimed astray

/-- The cue of the second scene does not lie within that scene. -/
theorem astray_leads_out : ∃ placed events timeline,
    Plan.ofComposition astray none (some fun _ => 0.0) = .ok astrayPlan ∧
      astrayPlan.runDrawn astrayPlan.drawn [] = (placed, events, .ok timeline) ∧
      (∀ window ∈ timeline.windows, window.1.isFinite = true ∧ window.2.isFinite = true) ∧
      ¬ ∀ scene ∈ timeline.scenes, ∀ cue ∈ scene.cues,
        scene.start ≤ cue.start ∧ cue.finish ≤ scene.finish := by
  obtain ⟨timeline, run, others, outside⟩ := runDrawn_of_checked astrayPlan astrayPlan.drawn
    (fun timeline => (∀ window ∈ ({ timeline with entries := [] } : Timeline).windows,
      window.1.isFinite = true ∧ window.2.isFinite = true) ∧
      ¬ ∀ scene ∈ timeline.scenes, ∀ cue ∈ scene.cues,
        scene.start ≤ cue.start ∧ cue.finish ≤ scene.finish) (by decide +kernel)
  have ready : Plan.ofComposition astray none (some fun _ => 0.0) = .ok astrayPlan := rfl
  have writes := writes_of_run (hasUniqueNames_of_ready ready) (isDrawing_drawn _) run
  exact ⟨_, _, timeline, ready, run,
    Timeline.forall_windows_of_entries (writes.forall_entries.mpr (by decide +kernel)) others,
    outside⟩

end Plan
end Storyboard
