import Storyboard.Proofs.Number.Sum
import Storyboard.Proofs.Timeline.Solution
/-!
# Parts of a scene lie one behind the other

The parts of a scene are laid out along a cursor that never goes back: a part moves it by a length
that is not below zero, or to the end of a cue if that is later. So whatever the authored times of
the cues are, all parts end by the end of the layout, and the layout does not end before it begins.

Main statements: the bounds of a layout (`Plan.LaidOut.le`), of its cues (`Plan.LaidOut.cue_bounds`)
and of its silences (`Plan.LaidOut.silence_bounds`).
-/
namespace Storyboard

open Binary64 Number

/-- Whether a silence lasts its length, which is not below zero. -/
def Silence.Lasts (silence : Silence) : Prop :=
  0.0 ≤ silence.seconds ∧ silence.finish = silence.start + silence.seconds

/-- A silence that lasts its length does not end before it starts. -/
theorem Silence.Lasts.le {silence : Silence} (lasts : silence.Lasts)
    (number : silence.finish.isNaN = false) : silence.start ≤ silence.finish := by
  rw [lasts.2] at number ⊢
  exact le_add_right number lasts.1

/-- No part of a cue lasts less than nothing, if no pause in it does. -/
theorem Beat.seconds_nonneg {plan : Plan} {beat : Beat} {rest : List Beat}
    (nonneg : ∀ length ∈ (beat :: rest).filterMap Beat.length?, 0.0 ≤ length) :
    0.0 ≤ beat.seconds plan := by
  cases beat with
  | text speech => exact zero_le_larger _
  | pause seconds => exact (List.forall_mem_cons.mp nonneg).1

namespace GapLies

variable {sceneId : String} {now next : Float} {gap : Option Float} {opening : List Silence}

/-- What the end of a pause before a part is at most, its start is at most. -/
theorem le_of_le (lies : GapLies sceneId now gap opening next) {last : Float}
    (le : next ≤ last) : now ≤ last := by
  cases lies with
  | absent => exact le
  | silent lasts => exact le_of_add_le (le_of_lt lasts) le
  | brief _ => exact le

/-- A silence before a part lasts its length, from where the part before it ends. -/
theorem of_mem (lies : GapLies sceneId now gap opening next) {silence : Silence}
    (member : silence ∈ opening) :
    silence.Lasts ∧ silence.start = now ∧ silence.finish = next := by
  cases lies with
  | absent => cases member
  | silent lasts =>
    rw [List.mem_singleton.mp member]
    exact ⟨⟨le_of_lt lasts, rfl⟩, rfl, rfl⟩
  | brief _ => cases member

end GapLies

namespace Plan

variable {plan : Plan} {sceneId : String} {ctx : Context} {now finish next : Float}
  {parts : List DrawnItem} {cues : List CueWindow} {pauses : List Silence}

/-- The parts of a cue do not end before they start. -/
theorem Strung.segment_le {beats : List Beat} {windows : List SegmentWindow}
    (strung : plan.Strung now beats windows finish)
    (nonneg : ∀ length ∈ beats.filterMap Beat.length?, 0.0 ≤ length) :
    ∀ segment ∈ windows, segment.finish.isNaN = false → segment.start ≤ segment.finish := by
  induction strung with
  | nil now =>
    intro segment member
    cases member
  | @cons now finish beat rest windows others ih =>
    intro segment member number
    rcases List.mem_cons.mp member with rfl | member
    · exact le_add_right number (Beat.seconds_nonneg nonneg)
    · refine ih (fun length inside => nonneg length ?_) segment member number
      exact ((List.sublist_cons_self beat rest).filterMap _).subset inside

/-- The length of a part that is a pause is not below zero. -/
theorem nonneg_of_pause {gap : Option Float} {seconds : Float}
    (nonneg : ∀ length ∈ (⟨gap, .pause seconds⟩ : DrawnItem).lengths, 0.0 ≤ length) :
    0.0 ≤ seconds :=
  nonneg seconds (List.mem_append_right _ (List.mem_singleton.mpr rfl))

/-- A layout does not end before it begins. -/
theorem LaidOut.le (laid : plan.LaidOut sceneId ctx now parts cues pauses finish)
    (nonneg : ∀ part ∈ parts, ∀ length ∈ part.lengths, 0.0 ≤ length)
    (number : finish.isNaN = false) : now ≤ finish := by
  induction laid with
  | nil now => exact le_refl number
  | cue before stands others ih =>
    have behind := ih (List.forall_mem_cons.mp nonneg).2 number
    exact before.le_of_le (le_of_larger_le behind)
  | pause before others ih =>
    obtain ⟨own, rest⟩ := List.forall_mem_cons.mp nonneg
    have behind := ih rest number
    exact before.le_of_le (le_of_add_le (nonneg_of_pause own) behind)

/-- Each cue of a layout is placed from a cursor within it, and ends by the end of the layout. -/
theorem LaidOut.cue_bounds (laid : plan.LaidOut sceneId ctx now parts cues pauses finish)
    (nonneg : ∀ part ∈ parts, ∀ length ∈ part.lengths, 0.0 ≤ length) :
    ∀ window ∈ cues, ∃ gap c beats cursor, ⟨gap, .cue c beats⟩ ∈ parts ∧
      plan.CueSolves sceneId c beats ctx cursor window ∧
      (finish.isNaN = false → now ≤ cursor ∧ larger cursor window.finish ≤ finish) := by
  induction laid with
  | nil now =>
    intro window member
    cases member
  | @cue now next finish gap c beats first rest cues _ pauses before stands others ih =>
    have nonnegRest := (List.forall_mem_cons.mp nonneg).2
    intro window member
    rcases List.mem_cons.mp member with rfl | member
    · refine ⟨gap, c, beats, next, List.mem_cons_self, stands, fun number => ?_⟩
      have behind : larger next window.finish ≤ finish := others.le nonnegRest number
      have defined := (isNaN_larger _ _).mp (isNaN_of_le behind).1
      exact ⟨before.le_of_le (le_refl defined), behind⟩
    · obtain ⟨g, d, parts, cursor, listed, solves, bounds⟩ := ih nonnegRest window member
      refine ⟨g, d, parts, cursor, List.mem_cons_of_mem _ listed, solves, fun number => ?_⟩
      obtain ⟨above, below⟩ := bounds number
      exact ⟨before.le_of_le (le_of_larger_le above), below⟩
  | pause before others ih =>
    obtain ⟨own, nonnegRest⟩ := List.forall_mem_cons.mp nonneg
    intro window member
    obtain ⟨g, d, parts, cursor, listed, solves, bounds⟩ := ih nonnegRest window member
    refine ⟨g, d, parts, cursor, List.mem_cons_of_mem _ listed, solves, fun number => ?_⟩
    obtain ⟨above, below⟩ := bounds number
    exact ⟨before.le_of_le (le_of_add_le (nonneg_of_pause own) above), below⟩

/-- Each silence of a layout lasts its length, within the layout. -/
theorem LaidOut.silence_bounds (laid : plan.LaidOut sceneId ctx now parts cues pauses finish)
    (nonneg : ∀ part ∈ parts, ∀ length ∈ part.lengths, 0.0 ≤ length) :
    ∀ silence ∈ pauses, silence.Lasts ∧
      (finish.isNaN = false → now ≤ silence.start ∧ silence.finish ≤ finish) := by
  induction laid with
  | nil now =>
    intro silence member
    cases member
  | @cue now next finish gap c beats first rest cues opening pauses before stands others ih =>
    -- A silence is the gap in front of the cue, or lies behind the cue.
    have nonnegRest := (List.forall_mem_cons.mp nonneg).2
    intro silence member
    rcases List.mem_append.mp member with inGap | member
    · obtain ⟨lasts, start, ends⟩ := before.of_mem inGap
      refine ⟨lasts, fun number => ?_⟩
      have behind : next ≤ finish := le_of_larger_le (others.le nonnegRest number)
      rw [start, ends]
      exact ⟨le_refl (isNaN_of_le (before.le_of_le behind)).1, behind⟩
    · obtain ⟨lasts, bounds⟩ := ih nonnegRest silence member
      refine ⟨lasts, fun number => ?_⟩
      obtain ⟨above, below⟩ := bounds number
      exact ⟨before.le_of_le (le_of_larger_le above), below⟩
  | @pause now next finish seconds gap rest cues opening pauses before others ih =>
    obtain ⟨own, nonnegRest⟩ := List.forall_mem_cons.mp nonneg
    have length := nonneg_of_pause own
    intro silence member
    rcases List.mem_append.mp member with inGap | member
    · obtain ⟨lasts, start, ends⟩ := before.of_mem inGap
      refine ⟨lasts, fun number => ?_⟩
      have behind := le_of_add_le length (others.le nonnegRest number)
      rw [start, ends]
      exact ⟨le_refl (isNaN_of_le (before.le_of_le behind)).1, behind⟩
    · rcases List.mem_cons.mp member with rfl | member
      · refine ⟨⟨length, rfl⟩, fun number => ?_⟩
        have behind := others.le nonnegRest number
        have defined := (isNaN_of_le (le_of_add_le length behind)).1
        exact ⟨before.le_of_le (le_refl defined), behind⟩
      · obtain ⟨lasts, bounds⟩ := ih nonnegRest silence member
        refine ⟨lasts, fun number => ?_⟩
        obtain ⟨above, below⟩ := bounds number
        exact ⟨before.le_of_le (le_of_add_le length above), below⟩

/-! ## The bounds of a scene -/

end Plan

namespace Timeline.SceneSolves

variable {timeline : Timeline} {plan : Plan} {index : Nat} {s : Scene} {parts : List DrawnItem}
  {entry : Entry} {window : SceneWindow} {cursor contentEnd : Float} {timing : Timing}

/-- A scene does not start after its parts begin. -/
theorem start_le (solves : timeline.SceneSolves plan index s parts entry window cursor timing
    contentEnd) (number : window.start.isNaN = false) :
    window.start ≤ timing.start.getD cursor := by
  rw [solves.bounds.1] at number ⊢
  rcases solves.start with ⟨_, start⟩ | ⟨pull, _, start⟩
  · rw [start] at number ⊢
    exact le_refl number
  · have pulled : entry.start = smaller (timing.start.getD cursor) pull := start
    rw [pulled] at number ⊢
    exact smaller_le_left ((isNaN_smaller _ _).mp number)

/-- A scene does not end before its parts do. -/
theorem contentEnd_le (solves : timeline.SceneSolves plan index s parts entry window cursor timing
    contentEnd) (number : window.finish.isNaN = false) : contentEnd ≤ window.finish := by
  rw [solves.bounds.2] at number ⊢
  rcases solves.finish with ⟨_, finish⟩ | ⟨held, _, finish⟩
  · rw [finish] at number ⊢
    exact le_refl number
  · have later : entry.finish = larger contentEnd held := finish
    rw [later] at number ⊢
    exact le_larger_left ((isNaN_larger _ _).mp number)

/-- The cues of a scene end by the end of the scene. -/
theorem cue_finish_le (solves : timeline.SceneSolves plan index s parts entry window cursor timing
    contentEnd) (nonneg : ∀ part ∈ parts, ∀ length ∈ part.lengths, 0.0 ≤ length)
    (number : window.finish.isNaN = false) {cue : CueWindow} (member : cue ∈ window.cues)
    (numberCue : cue.finish.isNaN = false) : cue.finish ≤ window.finish := by
  have ends := solves.contentEnd_le number
  obtain ⟨_, _, _, _, _, _, bounds⟩ := solves.laid.cue_bounds nonneg cue member
  have behind := (bounds (isNaN_of_le ends).1).2
  exact Trans.trans (le_of_larger_le_right numberCue behind) ends

/-- The silences of a scene end by the end of the scene. -/
theorem silence_finish_le (solves : timeline.SceneSolves plan index s parts entry window cursor
    timing contentEnd) (nonneg : ∀ part ∈ parts, ∀ length ∈ part.lengths, 0.0 ≤ length)
    (number : window.finish.isNaN = false) {silence : Silence}
    (member : silence ∈ timeline.pauses.filter fun other => other.sceneId == some s.id) :
    silence.finish ≤ window.finish := by
  have ends := solves.contentEnd_le number
  obtain ⟨_, bounds⟩ := solves.laid.silence_bounds nonneg silence member
  exact Trans.trans (bounds (isNaN_of_le ends).1).2 ends

end Timeline.SceneSolves
end Storyboard
