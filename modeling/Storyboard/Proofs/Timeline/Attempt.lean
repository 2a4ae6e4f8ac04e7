import Storyboard.Proofs.Expr.Dependence
import Storyboard.Proofs.Timeline.Drawing
import Storyboard.Timeline.Resolve
/-!
# What an attempt gives

For every step of placing an entity, what holds when the step succeeds. Each law says all that a
success tells, so that later proofs do not open the definitions.
-/
namespace Storyboard

namespace TimeRange

/-- Whether a position is that of a value which may be absent, where relative values are counted
from an origin. -/
inductive IsPosition (ctx : Context) (origin : Float) (isRelative : Bool) :
    Option TimeValue → Option Float → Prop where
  /-- An absent value has no position. -/
  | absent : IsPosition ctx origin isRelative none none
  /-- An absolute value stands where it is evaluated to. -/
  | absolute {value : TimeValue} {seconds : Float} (evaluated : value.evaluate ctx = .ok seconds)
    (free : isRelative = false) : IsPosition ctx origin isRelative (some value) (some seconds)
  /-- A relative value stands that far from the origin. -/
  | relative {value : TimeValue} {seconds : Float} (evaluated : value.evaluate ctx = .ok seconds)
    (counted : isRelative = true) :
    IsPosition ctx origin isRelative (some value) (some (seconds + origin))

/-- The parts of an authored timing are the positions of its values. -/
structure Solves (time : Option TimeRange) (ctx : Context) (cursor : Float) (timing : Timing) :
    Prop where
  /-- The start, counted from the cursor if it is relative. -/
  start : IsPosition ctx cursor (time.any (·.startIsRelative)) (time.bind (·.start)) timing.start
  /-- The end, counted from the cursor if it is relative. -/
  finish : IsPosition ctx cursor (time.any (·.finishIsRelative)) (time.bind (·.finish))
    timing.finish
  /-- The duration. -/
  duration : IsPosition ctx cursor false (time.bind (·.duration)) timing.duration

section Position

variable {ctx : Context} {origin : Float} {isRelative : Bool} {found : Option Float}

/-- An absent value has no position. -/
theorem IsPosition.eq_none (is : IsPosition ctx origin isRelative none found) : found = none := by
  cases is
  rfl

/-- A value that has a position is evaluated. -/
theorem IsPosition.exists_seconds {value : TimeValue}
    (is : IsPosition ctx origin isRelative (some value) found) :
    ∃ seconds, value.evaluate ctx = .ok seconds ∧
      found = some (if isRelative then seconds + origin else seconds) := by
  cases is with
  | absolute evaluated free => exact ⟨_, evaluated, by rw [free]; rfl⟩
  | relative evaluated counted => exact ⟨_, evaluated, by rw [counted]; rfl⟩

/-- The position that is evaluated is the one that a value has. -/
theorem isPosition_iff {value : Option TimeValue} :
    IsPosition ctx origin isRelative value found ↔
      position ctx origin isRelative value = .ok found := by
  constructor
  · intro is
    cases is with
    | absent => rfl
    | absolute evaluated free => rw [position, evaluated, free]; rfl
    | relative evaluated counted => rw [position, evaluated, counted]; rfl
  · intro known
    cases value with
    | none =>
      cases known
      exact .absent
    | some value =>
      obtain ⟨seconds, evaluated, rfl⟩ := map_eq_ok known
      cases isRelative with
      | false => exact .absolute evaluated rfl
      | true => exact .relative evaluated rfl

/-- A value has one position. -/
theorem IsPosition.eq {value : Option TimeValue} {other : Option Float}
    (is : IsPosition ctx origin isRelative value found)
    (isToo : IsPosition ctx origin isRelative value other) : found = other := by
  rw [isPosition_iff] at is isToo
  exact Except.ok.inj (is.symm.trans isToo)

end Position

variable {time : Option TimeRange} {ctx : Context} {cursor : Float} {label : String}
  {timing : Timing}

/-- The parts of a timing are evaluated one after another. -/
theorem evaluate_eq (range : TimeRange) (covered : ¬ (range.start.isNone && range.finish.isSome)) :
    range.evaluate ctx cursor label =
      (position ctx cursor range.startIsRelative range.start >>= fun start =>
        position ctx cursor range.finishIsRelative range.finish >>= fun finish =>
          (position ctx cursor false range.duration).map fun duration =>
            ⟨start, finish, duration⟩) := by
  unfold evaluate
  rw [if_neg covered]
  cases position ctx cursor range.startIsRelative range.start with
  | error cause => rfl
  | ok start =>
    cases position ctx cursor range.finishIsRelative range.finish with
    | error cause => rfl
    | ok finish => cases position ctx cursor false range.duration <;> rfl

/-- What is evaluated of a timing are the positions of its values. -/
theorem solves_of_evaluate? (done : evaluate? time ctx cursor label = .ok timing) :
    Solves time ctx cursor timing := by
  cases time with
  | none =>
    cases done
    exact ⟨.absent, .absent, .absent⟩
  | some range =>
    have done := mapError_eq_ok done
    by_cases uncovered : (range.start.isNone && range.finish.isSome) = true
    · rw [evaluate, if_pos uncovered] at done
      cases done
    · rw [evaluate_eq range uncovered] at done
      obtain ⟨start, foundStart, done⟩ := bind_eq_ok done
      obtain ⟨finish, foundFinish, done⟩ := bind_eq_ok done
      obtain ⟨duration, foundDuration, rfl⟩ := map_eq_ok done
      exact ⟨isPosition_iff.mpr foundStart, isPosition_iff.mpr foundFinish,
        isPosition_iff.mpr foundDuration⟩

/-- A timing without a start has no end. -/
theorem finish_of_evaluate? (done : evaluate? time ctx cursor label = .ok timing)
    (unstarted : time.bind (·.start) = none) : timing.finish = none := by
  cases time with
  | none =>
    cases done
    rfl
  | some range =>
    have ends := (solves_of_evaluate? done).finish
    rw [Option.bind_some] at unstarted ends
    have done := mapError_eq_ok done
    cases written : range.finish with
    | none =>
      rw [written] at ends
      exact ends.eq_none
    | some value =>
      rw [evaluate, if_pos (by rw [unstarted, written]; rfl)] at done
      cases done

/-- Without an authored start there is none. -/
theorem Solves.start_eq_none (solves : Solves time ctx cursor timing)
    (unstarted : time.bind (·.start) = none) : timing.start = none := by
  have found := solves.start
  rw [unstarted] at found
  exact found.eq_none

/-- A timing that does not read the cursor has an authored start. -/
theorem Solves.start_isSome (solves : Solves time ctx cursor timing)
    (free : needsCursor time = false) : timing.start.isSome = true := by
  cases time with
  | none => cases free
  | some range =>
    simp only [needsCursor, Bool.or_eq_false_iff] at free
    have found := solves.start
    cases value : range.start with
    | none =>
      rw [value] at free
      cases free.1.1
    | some value' =>
      rw [Option.bind_some, value] at found
      obtain ⟨seconds, _, same⟩ := found.exists_seconds
      rw [same]
      rfl

/-- A timing that does not read the cursor is the same at any cursor. -/
theorem Solves.of_free (solves : Solves time ctx cursor timing)
    (free : needsCursor time = false) (other : Float) : Solves time ctx other timing := by
  cases time with
  | none => cases free
  | some range =>
    simp only [needsCursor, Bool.or_eq_false_iff] at free
    have unread : ∀ {value found}, IsPosition ctx cursor false value found →
        IsPosition ctx other false value found := by
      intro value found is
      cases is with
      | absent => exact .absent
      | absolute evaluated free => exact .absolute evaluated free
      | relative evaluated counted => cases counted
    have start := solves.start
    have finish := solves.finish
    rw [Option.any_some, free.1.2] at start
    rw [Option.any_some, free.2] at finish
    refine ⟨?_, ?_, unread solves.duration⟩
    · rw [Option.any_some, free.1.2]
      exact unread start
    · rw [Option.any_some, free.2]
      exact unread finish

end TimeRange

namespace Plan

variable {plan : Plan} {placed : Placed} {index : Nat}

/-- What is placed is an entity. -/
theorem place_eq_ok {drawn : List (List DrawnItem)} {p : Placement}
    (done : plan.place drawn placed index = .ok p) :
    ∃ item, plan.items[index]? = some item ∧
      plan.placeItem placed index (drawn[index]?.getD []) item = .ok p := by
  unfold place at done
  split at done
  · rename_i item present
    exact ⟨item, present, done⟩
  · cases done

/-- A scene is placed where its parts are laid out from its start. -/
theorem placeScene_eq_ok {s : Scene} {parts : List DrawnItem} {p : Placement}
    (done : plan.placeScene placed index s parts = .ok p) :
    ∃ cursor timing pull layout,
      plan.cursorFor placed index s.time = .ok cursor ∧
      TimeRange.Solves s.time (placed.context plan.fps index) cursor timing ∧
      earliest placed none (plan.incoming index) = .ok pull ∧
      plan.layOut s.id (placed.context plan.fps index) (timing.start.getD cursor) parts =
        .ok layout ∧
      p = scenePlacement s (timing.start.getD cursor) timing pull layout := by
  obtain ⟨cursor, foundCursor, done⟩ := bind_eq_ok done
  obtain ⟨timing, foundTiming, done⟩ := bind_eq_ok done
  obtain ⟨pull, foundPull, done⟩ := bind_eq_ok done
  obtain ⟨layout, foundLayout, done⟩ := bind_eq_ok done
  refine ⟨cursor, timing, pull, layout, foundCursor, TimeRange.solves_of_evaluate? foundTiming,
    mapError_eq_ok foundPull, foundLayout, ?_⟩
  split at done
  · cases done
  · exact (Except.ok.inj done).symm

/-- A transition is placed at its start, with its length, and does not end before it starts. -/
theorem placeTransition_eq_ok {t : Transition} {p : Placement}
    (done : plan.placeTransition placed index t = .ok p) :
    ∃ cursor timing seconds start,
      plan.cursorFor placed index t.time = .ok cursor ∧
      TimeRange.Solves t.time (placed.context plan.fps index) cursor timing ∧
      transitionSeconds t (placed.context plan.fps index) timing = .ok seconds ∧
      plan.transitionStart placed index (plan.mode index t) timing cursor seconds = .ok start ∧
      ¬ timing.finish.getD (start + seconds) < start ∧
      p = { entry := {
              kind := .transition, id := t.id, start
              finish := timing.finish.getD (start + seconds)
              fromScene := (plan.prevScene? index).map (·.1.id)
              toScene := (plan.nextScene? index).map (·.1.id)
              effect := some t.effect, ease := t.ease, mode := some (plan.mode index t)
              props := t.props } } := by
  obtain ⟨cursor, foundCursor, done⟩ := bind_eq_ok done
  obtain ⟨timing, foundTiming, done⟩ := bind_eq_ok done
  obtain ⟨seconds, foundSeconds, done⟩ := bind_eq_ok done
  obtain ⟨start, foundStart, done⟩ := bind_eq_ok done
  refine ⟨cursor, timing, seconds, start, foundCursor, TimeRange.solves_of_evaluate? foundTiming,
    foundSeconds, foundStart, ?_⟩
  dsimp only at done
  split at done
  · cases done
  · rename_i ordered
    exact ⟨ordered, (Except.ok.inj done).symm⟩

/-- A mark is placed at its position. -/
theorem placeMark_eq_ok {m : Mark} {p : Placement}
    (done : plan.placeMark placed index m = .ok p) :
    ∃ position, m.position.evaluate (placed.context plan.fps index) = .ok position ∧
      p = { entry := { kind := .mark, id := m.id, start := position, finish := position } } := by
  obtain ⟨position, found, done⟩ := bind_eq_ok done
  exact ⟨position, mapError_eq_ok found, (Except.ok.inj done).symm⟩

/-- A cue is placed from its start to its end. -/
theorem placeCue_eq_ok {sceneId : String} {c : Cue} {beats : List Beat} {ctx : Context}
    {now : Float} {window : CueWindow}
    (done : plan.placeCue sceneId c beats ctx now = .ok window) :
    ∃ timing finish,
      TimeRange.Solves c.time ctx now timing ∧
      plan.cueFinish c ctx timing (timing.start.getD now)
        (plan.placeBeats (timing.start.getD now) beats).2 = .ok finish ∧
      ¬ finish < timing.start.getD now ∧
      window = ⟨c.id, sceneId, timing.start.getD now, finish, c.text,
        (plan.placeBeats (timing.start.getD now) beats).1, c.bullets⟩ := by
  obtain ⟨timing, foundTiming, done⟩ := bind_eq_ok done
  dsimp only at done
  obtain ⟨finish, foundFinish, done⟩ := bind_eq_ok done
  refine ⟨timing, finish, TimeRange.solves_of_evaluate? foundTiming, foundFinish, ?_⟩
  split at done
  · cases done
  · rename_i ordered
    exact ⟨ordered, (Except.ok.inj done).symm⟩

/-! ## The parts of a scene -/

section Layout

variable {sceneId : String} {ctx : Context} {now : Float} {gap : Option Float}
  {rest : List DrawnItem}

/-- A cue is placed behind the pause before it, and what follows may read its start. -/
theorem layOut_cue (c : Cue) (beats : List Beat) :
    plan.layOut sceneId ctx now (⟨gap, .cue c beats⟩ :: rest) =
      (plan.placeCue sceneId c beats ctx (placeGap sceneId now gap).2 >>= fun window =>
        plan.layOut sceneId (ctx.withCue window.id window.start)
            (Number.larger (placeGap sceneId now gap).2 window.finish) rest >>= fun others =>
          .ok ⟨window :: others.cues, (placeGap sceneId now gap).1 ++ others.pauses,
            others.finish⟩) := rfl

/-- A pause takes its length behind the pause before it. -/
theorem layOut_pause (seconds : Float) :
    plan.layOut sceneId ctx now (⟨gap, .pause seconds⟩ :: rest) =
      (plan.layOut sceneId ctx ((placeGap sceneId now gap).2 + seconds) rest >>= fun others =>
        .ok ⟨others.cues,
          (placeGap sceneId now gap).1 ++
            ⟨some sceneId, (placeGap sceneId now gap).2, (placeGap sceneId now gap).2 + seconds,
              seconds⟩ :: others.pauses,
          others.finish⟩) := rfl

/-- A layout that starts with a cue is that of the cue and that of what follows. -/
theorem layOut_cue_eq_ok {c : Cue} {beats : List Beat} {layout : SceneLayout}
    (done : plan.layOut sceneId ctx now (⟨gap, .cue c beats⟩ :: rest) = .ok layout) :
    ∃ window others,
      plan.placeCue sceneId c beats ctx (placeGap sceneId now gap).2 = .ok window ∧
      plan.layOut sceneId (ctx.withCue window.id window.start)
        (Number.larger (placeGap sceneId now gap).2 window.finish) rest = .ok others ∧
      layout = ⟨window :: others.cues, (placeGap sceneId now gap).1 ++ others.pauses,
        others.finish⟩ := by
  rw [layOut_cue] at done
  obtain ⟨window, foundWindow, done⟩ := bind_eq_ok done
  obtain ⟨others, foundOthers, done⟩ := bind_eq_ok done
  exact ⟨window, others, foundWindow, foundOthers, (Except.ok.inj done).symm⟩

/-- A layout that starts with a pause is that of the pause and that of what follows. -/
theorem layOut_pause_eq_ok {seconds : Float} {layout : SceneLayout}
    (done : plan.layOut sceneId ctx now (⟨gap, .pause seconds⟩ :: rest) = .ok layout) :
    ∃ others,
      plan.layOut sceneId ctx ((placeGap sceneId now gap).2 + seconds) rest = .ok others ∧
      layout = ⟨others.cues,
        (placeGap sceneId now gap).1 ++
          ⟨some sceneId, (placeGap sceneId now gap).2, (placeGap sceneId now gap).2 + seconds,
            seconds⟩ :: others.pauses,
        others.finish⟩ := by
  rw [layOut_pause] at done
  obtain ⟨others, foundOthers, done⟩ := bind_eq_ok done
  exact ⟨others, foundOthers, (Except.ok.inj done).symm⟩

/-- The silence before a part belongs to its scene. -/
theorem sceneId_of_mem_placeGap {silence : Silence}
    (member : silence ∈ (placeGap sceneId now gap).1) : silence.sceneId = some sceneId := by
  unfold placeGap at member
  dsimp only at member
  split at member
  · rw [List.mem_singleton.mp member]
  · cases member

/-- The cues of a layout are those drawn, in order. -/
theorem layOut_ids {parts : List DrawnItem} {layout : SceneLayout}
    (done : plan.layOut sceneId ctx now parts = .ok layout) :
    layout.cues.map (·.id) = (DrawnItem.cuesOf parts).map (·.id) := by
  induction parts generalizing ctx now layout with
  | nil =>
    cases done
    rfl
  | cons part parts ih =>
    rcases part with ⟨gap, ⟨c, beats⟩ | seconds⟩
    · obtain ⟨window, others, foundWindow, foundOthers, rfl⟩ := layOut_cue_eq_ok done
      obtain ⟨_, _, _, _, _, rfl⟩ := placeCue_eq_ok foundWindow
      exact congrArg (c.id :: ·) (ih foundOthers)
    · obtain ⟨others, foundOthers, rfl⟩ := layOut_pause_eq_ok done
      have later := ih foundOthers
      exact later

/-- The silences of a layout belong to its scene. -/
theorem layOut_sceneId {parts : List DrawnItem} {layout : SceneLayout}
    (done : plan.layOut sceneId ctx now parts = .ok layout) :
    ∀ silence ∈ layout.pauses, silence.sceneId = some sceneId := by
  induction parts generalizing ctx now layout with
  | nil =>
    cases done
    simp
  | cons part parts ih =>
    rcases part with ⟨gap, ⟨c, beats⟩ | seconds⟩
    · obtain ⟨_, others, _, foundOthers, rfl⟩ := layOut_cue_eq_ok done
      intro silence member
      rcases List.mem_append.mp member with before | later
      · exact sceneId_of_mem_placeGap before
      · exact ih foundOthers silence later
    · obtain ⟨others, foundOthers, rfl⟩ := layOut_pause_eq_ok done
      intro silence member
      rcases List.mem_append.mp member with before | later
      · exact sceneId_of_mem_placeGap before
      · rcases List.mem_cons.mp later with rfl | later
        · rfl
        · exact ih foundOthers silence later

end Layout

end Plan
end Storyboard
