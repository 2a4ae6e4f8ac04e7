import Storyboard.Proofs.Timeline.Windows
/-!
# Crossfades

A transition that lies over the end of a scene and has no authored start begins as long before that
end as it lasts, but not before zero. So it begins within the scene that it leaves if it takes no
longer than that scene does; a longer one begins before it.

Main statement: where crossfades begin, and what a scene that they lead into is pulled to
(`runDrawn_keepsCrossfades`).
-/
namespace Storyboard

open Binary64 Number

/-- The authored length of a transition: that of its timing, its own, or else the default. -/
def Transition.lasting (t : Transition) : TimeValue :=
  (t.time.bind (·.duration) <|> t.duration).getD (.seconds Defaults.transitionSeconds)

/-- Whether the transition at a place lies over the end of the scene at another one, and its start
is not authored. -/
structure Plan.Crossfades (plan : Plan) (index : Nat) (t : Transition) (j : Nat) : Prop where
  /-- The transition stands at the place. -/
  present : plan.items[index]? = some (.transition t)
  /-- It lies over the end of a scene. -/
  overlaps : plan.mode index t = .overlap
  /-- The scene is the nearest one before it. -/
  leaves : ∃ s, plan.prevScene? index = some (s, j)
  /-- Its start is not authored. -/
  unpinned : t.time.bind (·.start) = none

/-- Whether all times of the rows of a timeline are finite. -/
def Timeline.IsFinite (timeline : Timeline) : Prop :=
  ∀ entry ∈ timeline.entries, entry.start.isFinite = true ∧ entry.finish.isFinite = true

/-- Whether a row has room for a transition over its end: it starts at zero or before, or it lasts
as long as the transition, taken exactly. -/
def Timeline.HasRoom (timeline : Timeline) (plan : Plan) (index : Nat) (t : Transition)
    (before : Entry) : Prop :=
  before.start ≤ 0.0 ∨ ∃ seconds, t.lasting.evaluate (timeline.context plan index) = .ok seconds ∧
    units before.start + units seconds ≤ units before.finish

/-- Whether the crossfades of a timeline begin where they should. -/
structure Timeline.KeepsCrossfades (timeline : Timeline) (plan : Plan) : Prop where
  /-- A crossfade does not begin before zero, nor before the scene that it leaves if there is room
  for it. -/
  transition : ∀ index t j, plan.Crossfades index t j →
    ∃ entry before, timeline.entryAt plan index = some entry ∧
      timeline.entryAt plan j = some before ∧ 0.0 ≤ entry.start ∧
      (timeline.HasRoom plan index t before → before.start ≤ entry.start)
  /-- A scene into which only crossfades lead that have room starts with its parts, or not before
  the scene that it follows. -/
  scene : ∀ index s j previous, plan.items[index]? = some (.scene s) →
    plan.prevScene? index = some (previous, j) →
    ∃ entry before cursor timing, timeline.entryAt plan index = some entry ∧
      timeline.entryAt plan j = some before ∧ timeline.CursorAt plan index cursor ∧
      TimeRange.Solves s.time (timeline.context plan index) cursor timing ∧
      ((∀ t i, (t, i) ∈ plan.incoming index → t.time.bind (·.start) = none ∧
          timeline.HasRoom plan i t before) →
        entry.start = timing.start.getD cursor ∨ before.start ≤ entry.start)

namespace Plan

variable {plan : Plan} {drawn : List (List DrawnItem)} {placed : Placed} {timeline : Timeline}
  {index j : Nat} {t : Transition}

/-- A transition without an authored start takes its authored length. -/
theorem lasting_of_transitionSeconds {ctx : Context} {cursor seconds : Float} {timing : Timing}
    (timed : TimeRange.Solves t.time ctx cursor timing) (unstarted : timing.start = none)
    (unended : timing.finish = none) (lasts : transitionSeconds t ctx timing = .ok seconds) :
    t.lasting.evaluate ctx = .ok seconds := by
  have length := timed.duration
  unfold transitionSeconds at lasts
  unfold Transition.lasting
  rw [unstarted, unended] at lasts
  cases written : t.time.bind (·.duration) with
  | some value =>
    rw [written] at length
    obtain ⟨found, evaluated, same⟩ := length.exists_seconds
    rw [same] at lasts
    cases lasts
    exact evaluated
  | none =>
    rw [written] at length
    rw [length.eq_none] at lasts
    cases own : t.duration with
    | some value =>
      rw [own] at lasts
      exact mapError_eq_ok lasts
    | none =>
      rw [own] at lasts
      cases lasts
      rfl

/-- A crossfade begins as long before the end of the scene that it leaves as it lasts, but not
before zero. -/
theorem placeTransition_crossfade {p : Placement} (crossfades : plan.Crossfades index t j)
    (done : plan.placeTransition placed index t = .ok p) :
    ∃ seconds finish, t.lasting.evaluate (placed.context plan.fps index) = .ok seconds ∧
      placed.finish? j = some finish ∧ p.entry.start = larger 0.0 (finish - seconds) ∧
      p.entry.finish = p.entry.start + seconds := by
  obtain ⟨s, leaves⟩ := crossfades.leaves
  obtain ⟨cursor, _, done⟩ := bind_eq_ok done
  obtain ⟨timing, evaluated, done⟩ := bind_eq_ok done
  obtain ⟨seconds, lasts, done⟩ := bind_eq_ok done
  obtain ⟨start, starts, done⟩ := bind_eq_ok done
  have timed := TimeRange.solves_of_evaluate? evaluated
  have unended := TimeRange.finish_of_evaluate? evaluated crossfades.unpinned
  have unstarted : timing.start = none := timed.start_eq_none crossfades.unpinned
  unfold transitionStart at starts
  rw [unstarted, crossfades.overlaps, leaves] at starts
  dsimp only at starts
  cases known : placed.finish? j with
  | none =>
    rw [known] at starts
    cases starts
  | some finish =>
    rw [known] at starts
    cases starts
    dsimp only at done
    rw [unended, Option.getD_none] at done
    refine ⟨seconds, finish, lasting_of_transitionSeconds timed unstarted unended lasts, rfl, ?_⟩
    split at done
    · cases done
    · cases done
      exact ⟨rfl, rfl⟩

/-- A crossfade begins so in a finished timeline, and takes its authored length. -/
theorem Settled.crossfade (settled : plan.Settled drawn placed timeline)
    (crossfades : plan.Crossfades index t j) :
    ∃ entry before seconds, timeline.entryAt plan index = some entry ∧
      timeline.entryAt plan j = some before ∧
      t.lasting.evaluate (timeline.context plan index) = .ok seconds ∧
      entry.start = larger 0.0 (before.finish - seconds) ∧ entry.finish = entry.start + seconds := by
  obtain ⟨p, held, _, again⟩ := settled.again index _ crossfades.present
  obtain ⟨seconds, finish, lasts, ends, start, length⟩ := placeTransition_crossfade crossfades again
  obtain ⟨q, known, rfl⟩ := Option.map_eq_some_iff.mp ends
  have persists := t.lasting.evaluate_persists (settled.writes.context_extendedBy index)
  exact ⟨p.entry, q.entry, seconds, settled.row held, settled.row known, persists.of_ok lasts,
    start, length⟩

/-- A crossfade does not begin before zero, nor before the scene that it leaves if there is room
for it. -/
theorem Settled.crossfade_start (settled : plan.Settled drawn placed timeline)
    (finite : timeline.IsFinite) (crossfades : plan.Crossfades index t j) :
    ∃ entry before, timeline.entryAt plan index = some entry ∧
      timeline.entryAt plan j = some before ∧ 0.0 ≤ entry.start ∧
      (timeline.HasRoom plan index t before → before.start ≤ entry.start) := by
  obtain ⟨entry, before, seconds, row, rowBefore, lasts, start, length⟩ :=
    settled.crossfade crossfades
  have above : 0.0 ≤ entry.start := by
    rw [start]
    exact zero_le_larger _
  refine ⟨entry, before, row, rowBefore, above, ?_⟩
  rintro (early | ⟨other, same, fits⟩)
  · exact Trans.trans early above
  · rw [lasts] at same
    cases same
    obtain ⟨begins, ends⟩ := finite before (Timeline.mem_of_entryAt rowBefore)
    have takes := (finite entry (Timeline.mem_of_entryAt row)).2
    rw [length, add_comm] at takes
    have room := le_sub_of_units_le begins ends (isFinite_of_isFinite_add takes) fits
    rw [start]
    exact Trans.trans room (le_larger_right (by decide +kernel) (isNaN_of_le room).2)

/-- A scene into which only crossfades lead that have room starts with its parts, or not before the
scene that they leave. -/
theorem Settled.scene_start (settled : plan.Settled drawn placed timeline)
    (finite : timeline.IsFinite) {s previous : Scene}
    (present : plan.items[index]? = some (.scene s))
    (follows : plan.prevScene? index = some (previous, j)) :
    ∃ entry before cursor timing, timeline.entryAt plan index = some entry ∧
      timeline.entryAt plan j = some before ∧ timeline.CursorAt plan index cursor ∧
      TimeRange.Solves s.time (timeline.context plan index) cursor timing ∧
      ((∀ t i, (t, i) ∈ plan.incoming index → t.time.bind (·.start) = none ∧
          timeline.HasRoom plan i t before) →
        entry.start = timing.start.getD cursor ∨ before.start ≤ entry.start) := by
  obtain ⟨below, presentBefore, _⟩ := prevScene?_eq_some follows
  obtain ⟨before, _, _, _, _, solvesBefore⟩ := settled.scene_solves presentBefore
  obtain ⟨entry, window, cursor, timing, contentEnd, solves⟩ := settled.scene_solves present
  refine ⟨entry, before, cursor, timing, solves.row, solvesBefore.row, solves.counted,
    solves.authored, fun leads => ?_⟩
  rcases solves.start with ⟨_, start⟩ | ⟨pull, ⟨⟨i, t, row, into, shown, rfl⟩, _⟩, start⟩
  · exact .inl start
  · split at start
    · -- The scene is pulled to the start of a transition that leads into it.
      have member := mem_incoming.mpr into
      obtain ⟨unpinned, room⟩ := leads t i member
      have leaves := (prevScene?_of_mem_incoming member).trans follows
      obtain ⟨own, left, rowOwn, rowLeft, _, within⟩ := settled.crossfade_start finite
        ⟨into.stands, mode_eq_overlap.mpr into.overlaps, ⟨previous, leaves⟩, unpinned⟩
      cases rowOwn.symm.trans shown
      cases rowLeft.symm.trans solvesBefore.row
      rw [start]
      exact .inr (within room)
    · exact .inl start

/-- In every finite timeline that a resolution gives crossfades begin neither before zero nor, where
there is room for them, before the scene that they leave. -/
theorem runDrawn_keepsCrossfades {composition : Composition} {seed : Option Int}
    {estimate : Option (String → Float)}
    (ready : Plan.ofComposition composition seed estimate = .ok plan)
    (drawing : plan.IsDrawing drawn) {events : List Event}
    (run : plan.runDrawn drawn [] = (placed, events, .ok timeline)) (finite : timeline.IsFinite) :
    timeline.KeepsCrossfades plan := by
  have settled := settled_of_run (hasUniqueNames_of_ready ready) drawing run
  constructor
  · intro index t j crossfades
    exact settled.crossfade_start finite crossfades
  · intro index s j previous present follows
    exact settled.scene_start finite present follows

/-- Three scenes, the second of which takes longer than the transition over its end. -/
def dissolve : Composition where
  timeline := [
    .scene { id := "a", items := [.cue { id := "c", duration := some (.seconds 1.0) }] },
    .scene { id := "b", items := [.cue { id := "d", duration := some (.seconds 5.0) }] },
    .transition { id := "fade", duration := some (.seconds 3.0) },
    .scene { id := "e", items := [.cue { id := "f", duration := some (.seconds 2.0) }] }]

/-- The composition made ready. -/
def dissolvePlan : Plan := untimed dissolve

/-- The transition crossfades out of the second scene, which has room for it. -/
theorem dissolve_keepsCrossfades : ∃ placed events timeline,
    Plan.ofComposition dissolve none (some fun _ => 0.0) = .ok dissolvePlan ∧
      dissolvePlan.IsDrawing dissolvePlan.drawn ∧
      dissolvePlan.runDrawn dissolvePlan.drawn [] = (placed, events, .ok timeline) ∧
      timeline.IsFinite ∧
      (∃ t before, dissolvePlan.Crossfades 2 t 1 ∧
        timeline.entryAt dissolvePlan 1 = some before ∧ 0.0 < before.start ∧
        timeline.HasRoom dissolvePlan 2 t before) ∧
      timeline.KeepsCrossfades dissolvePlan := by
  have done : (dissolvePlan.runDrawn dissolvePlan.drawn []).2.2.isOk = true := by decide +kernel
  obtain ⟨timeline, run⟩ := runDrawn_of_isOk done
  have ready : Plan.ofComposition dissolve none (some fun _ => 0.0) = .ok dissolvePlan := rfl
  have drawing := isDrawing_drawn dissolvePlan
  have writes := writes_of_run (hasUniqueNames_of_ready ready) drawing run
  have finite : timeline.IsFinite := writes.forall_entries.mpr (by decide +kernel)
  refine ⟨_, _, timeline, ready, drawing, run, finite, ?_,
    runDrawn_keepsCrossfades ready drawing run finite⟩
  obtain ⟨before, row, same⟩ := writes.exists_row 1
    (fun entry => (entry.start, entry.finish)) (1.0, 6.0) (by decide +kernel)
  obtain ⟨start, finish⟩ := Prod.mk.inj same
  refine ⟨_, before, ⟨rfl, rfl, ⟨_, rfl⟩, rfl⟩, row, ?_, .inr ⟨3.0, rfl, ?_⟩⟩
  · rw [start]
    decide +kernel
  · rw [start, finish]
    decide +kernel

/-- Three scenes, the second of which takes less time than the transition over its end. -/
def smother : Composition where
  timeline := [
    .scene { id := "a", items := [.cue { id := "c", duration := some (.seconds 5.0) }] },
    .scene { id := "b", items := [.cue { id := "d", duration := some (.seconds 1.0) }] },
    .transition { id := "fade", duration := some (.seconds 3.0) },
    .scene { id := "e", items := [.cue { id := "f", duration := some (.seconds 2.0) }] }]

/-- The composition made ready. -/
def smotherPlan : Plan := untimed smother

/-- The transition begins before the scene that it leaves, and pulls the next scene with it. -/
theorem smother_begins_early : ∃ placed events timeline,
    Plan.ofComposition smother none (some fun _ => 0.0) = .ok smotherPlan ∧
      smotherPlan.runDrawn smotherPlan.drawn [] = (placed, events, .ok timeline) ∧
      (∀ window ∈ timeline.windows, window.1.isFinite = true ∧ window.2.isFinite = true) ∧
      ∃ t entry before next, smotherPlan.Crossfades 2 t 1 ∧
        timeline.entryAt smotherPlan 2 = some entry ∧
        timeline.entryAt smotherPlan 1 = some before ∧
        timeline.entryAt smotherPlan 3 = some next ∧
        ¬ before.start ≤ entry.start ∧ ¬ before.start ≤ next.start := by
  obtain ⟨timeline, run, others⟩ := runDrawn_of_checked smotherPlan smotherPlan.drawn
    (fun timeline => ∀ window ∈ ({ timeline with entries := [] } : Timeline).windows,
      window.1.isFinite = true ∧ window.2.isFinite = true) (by decide +kernel)
  have ready : Plan.ofComposition smother none (some fun _ => 0.0) = .ok smotherPlan := rfl
  have writes := writes_of_run (hasUniqueNames_of_ready ready) (isDrawing_drawn _) run
  refine ⟨_, _, timeline, ready, run,
    Timeline.forall_windows_of_entries (writes.forall_entries.mpr (by decide +kernel)) others, ?_⟩
  obtain ⟨before, rowBefore, startBefore⟩ := writes.exists_row 1 Entry.start 5.0
    (by decide +kernel)
  obtain ⟨entry, row, start⟩ := writes.exists_row 2 Entry.start 3.0
    (by decide +kernel)
  obtain ⟨next, rowNext, startNext⟩ := writes.exists_row 3 Entry.start 3.0
    (by decide +kernel)
  refine ⟨_, entry, before, next, ⟨rfl, rfl, ⟨_, rfl⟩, rfl⟩, row, rowBefore, rowNext, ?_⟩
  rw [startBefore, start, startNext]
  decide +kernel

end Plan
end Storyboard
