import Storyboard.Proofs.Expr.References
import Storyboard.Proofs.Timeline.Inputs
/-!
# What an attempt reads of its context

An attempt sees its context only through the positions of the anchors that its entity names. So two
contexts that agree on these give one outcome. Each step of an attempt that reads a context has this
law; a layout has it although it adds the starts of cues to both contexts as it goes. Of the plan a
layout reads only how long texts take, so it is also the same in two plans that agree on that.
-/
namespace Storyboard

/-! ## Contexts that agree -/

namespace Context

/-- Whether two contexts agree on some anchors: in each of them the anchor has the same position, or
none. -/
structure AgreesOn (anchors : List Anchor) (ctx other : Context) : Prop where
  /-- Frames take as long. -/
  fps : ctx.fps = other.fps
  /-- The positions are the same. -/
  same : ∀ anchor ∈ anchors, ctx.lookup? anchor = other.lookup? anchor

namespace AgreesOn

variable {anchors fewer : List Anchor} {ctx other : Context}

/-- Contexts that agree on some anchors agree on fewer. -/
theorem mono (agree : AgreesOn anchors ctx other) (part : fewer ⊆ anchors) :
    AgreesOn fewer ctx other :=
  ⟨agree.fps, fun anchor member => agree.same anchor (part member)⟩

/-- The start of one more cue may be added to contexts that agree. -/
theorem withCue (agree : AgreesOn anchors ctx other) (id : String) (start : Float) :
    AgreesOn anchors (ctx.withCue id start) (other.withCue id start) := by
  refine ⟨agree.fps, fun anchor member => ?_⟩
  rw [lookup?_withCue, lookup?_withCue, agree.same anchor member]

end AgreesOn

end Context

/-! ## Steps that read a context -/

section Steps

variable {ctx other : Context}

/-- Contexts that agree on what a value names give it one position. -/
theorem TimeValue.evaluate_congr {value : TimeValue}
    (agree : Context.AgreesOn value.reads ctx other) :
    value.evaluate ctx = value.evaluate other := by
  cases value with
  | seconds seconds => rfl
  | expression text =>
    unfold evaluate
    dsimp only
    cases parsed : TimeExpression.parse text with
    | error cause => rfl
    | ok expression =>
      have named : ∀ anchor ∈ expression.tree.reads, ctx.lookup? anchor = other.lookup? anchor := by
        intro anchor member
        refine agree.same anchor ?_
        rwa [reads, parsed]
      change expression.evaluate ctx = expression.evaluate other
      unfold TimeExpression.evaluate
      rw [Expr.eval_congr agree.fps expression.tree named]

/-- Contexts that agree on what a value names give it one number of seconds in an attempt. -/
theorem TimeValue.seconds?_congr {value : TimeValue}
    (agree : Context.AgreesOn value.reads ctx other) :
    value.seconds? ctx = value.seconds? other := by
  rw [seconds?, evaluate_congr agree, seconds?]

/-- Contexts that agree on what a value names give it one position, counted from the cursor or
not. -/
theorem TimeRange.position_congr (cursor : Float) (isRelative : Bool) {value : Option TimeValue}
    (agree : Context.AgreesOn (TimeValue.readsOf value) ctx other) :
    position ctx cursor isRelative value = position other cursor isRelative value := by
  cases value with
  | none => rfl
  | some value => rw [position, TimeValue.evaluate_congr agree, position]

/-- Contexts that agree on what a timing names give it the same parts. -/
theorem TimeRange.evaluate?_congr {time : Option TimeRange} {cursor : Float} {label : String}
    (agree : Context.AgreesOn (readsOf time) ctx other) :
    evaluate? time ctx cursor label = evaluate? time other cursor label := by
  cases time with
  | none => rfl
  | some range =>
    have bounds := agree.mono (List.subset_append_left _ _)
    have start := position_congr cursor range.startIsRelative
      (bounds.mono (List.subset_append_left _ _))
    have finish := position_congr cursor range.finishIsRelative
      (bounds.mono (List.subset_append_right _ _))
    have duration := position_congr cursor false
      (agree.mono (List.subset_append_right _ _))
    simp only [Option.bind_some] at start finish duration
    simp only [evaluate?, evaluate, start, finish, duration]

namespace Plan

/-- The length of a transition is the same in contexts that agree on what its duration names. -/
theorem transitionSeconds_congr {t : Transition} {timing : Timing}
    (agree : Context.AgreesOn (TimeValue.readsOf t.duration) ctx other) :
    transitionSeconds t ctx timing = transitionSeconds t other timing := by
  unfold transitionSeconds
  split
  · rfl
  · rfl
  · rename_i duration _ authored _
    have named : Context.AgreesOn duration.reads ctx other := by rwa [authored] at agree
    exact TimeValue.seconds?_congr named
  · rfl

variable {plan wide : Plan} (alike : wide.estimate = plan.estimate)

include alike

/-- The parts of a cue are the same where texts take as long. -/
theorem placeBeats_congr (now : Float) (beats : List Beat) :
    wide.placeBeats now beats = plan.placeBeats now beats := by
  induction beats generalizing now with
  | nil => rfl
  | cons beat rest ih => simp only [placeBeats, ih, alike]

/-- The end of a cue is the same in contexts that agree on what its duration names. -/
theorem cueFinish_congr {c : Cue} {timing : Timing} {start segmentsEnd : Float}
    (agree : Context.AgreesOn (TimeValue.readsOf c.duration) ctx other) :
    wide.cueFinish c ctx timing start segmentsEnd =
      plan.cueFinish c other timing start segmentsEnd := by
  unfold cueFinish
  rw [alike]
  cases timing.finishFrom start with
  | some finish => rfl
  | none =>
    cases authored : c.duration with
    | none => rfl
    | some duration =>
      have named : Context.AgreesOn duration.reads ctx other := by rwa [authored] at agree
      exact congrArg (Except.map (start + ·)) (TimeValue.seconds?_congr named)

/-- The window of a cue is the same in contexts that agree on what the cue names. -/
theorem placeCue_congr {sceneId : String} {c : Cue} {beats : List Beat} {now : Float}
    (agree : Context.AgreesOn c.reads ctx other) :
    wide.placeCue sceneId c beats ctx now = plan.placeCue sceneId c beats other now := by
  have time := agree.mono (List.subset_append_left _ _)
  have duration := agree.mono (List.subset_append_right _ _)
  unfold placeCue
  simp only [TimeRange.evaluate?_congr time, placeBeats_congr alike,
    cueFinish_congr alike duration]

/-- The layout of some parts is the same in contexts that agree on what their cues name. -/
theorem layOut_congr {sceneId : String} {now : Float} {parts : List DrawnItem}
    (agree : Context.AgreesOn ((DrawnItem.cuesOf parts).flatMap Cue.reads) ctx other) :
    wide.layOut sceneId ctx now parts = plan.layOut sceneId other now parts := by
  induction parts generalizing ctx other now with
  | nil => rfl
  | cons part rest ih =>
    rcases part with ⟨gap, ⟨c, beats⟩ | seconds⟩
    · have here := agree.mono (List.subset_append_left c.reads _)
      have behind := agree.mono (List.subset_append_right c.reads _)
      rw [layOut_cue, layOut_cue, placeCue_congr alike here]
      refine congrArg _ (funext fun window => ?_)
      rw [ih (behind.withCue window.id window.start)]
    · rw [layOut_pause, layOut_pause, ih agree]

end Plan

end Steps
end Storyboard
