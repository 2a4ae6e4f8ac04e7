import Storyboard.Motion.Interpolation
import Storyboard.Motion.Principles
import Storyboard.Proofs.Number.HalfUp
import Storyboard.Timeline.Basic
/-!
# Whole frames

Positions in seconds, milliseconds and beats, and the windows of a timeline, are told in whole
frames. Each is a double that is computed first and then rounded half up, so that they share what
rounding half up does well and what it does not.

Main statement: whole frames are the nearest ones, but for doubles that are misrounded
(`frames_nearest`).
-/
namespace Storyboard.Motion

open Binary64

variable {x : Float}

/-- Whether an outcome is the one nearest whole number to a double, or the next one if the double is
misrounded. -/
def TellsNearest (outcome : Except Fault Int) (x : Float) : Prop :=
  ∃ n : Int, (∀ k : Int, IsNearestUp k (value x) ↔ k = n) ∧
    (¬ IsMisrounded (value x) → outcome = .ok n) ∧
    (IsMisrounded (value x) → outcome = .ok (n + 1))

/-- Rounding half up tells the nearest whole number to what is finite. -/
theorem tellsNearest_roundHalfUp (finite : x.isFinite = true) :
    TellsNearest (Number.roundHalfUp x) x := by
  obtain ⟨n, nearest, right, wrong⟩ := exists_roundHalfUp finite
  refine ⟨n, fun k => ⟨fun other => other.unique nearest, ?_⟩, right, wrong⟩
  rintro rfl
  exact nearest

/-- What tells the nearest whole number does tell one. -/
theorem TellsNearest.exists_ok {outcome : Except Fault Int} (tells : TellsNearest outcome x) :
    ∃ n, outcome = .ok n := by
  obtain ⟨n, _, right, wrong⟩ := tells
  by_cases missed : IsMisrounded (value x)
  · exact ⟨n + 1, wrong missed⟩
  · exact ⟨n, right missed⟩

/-- A double that is a whole number is rounded to itself, or to the next one if it is misrounded. -/
theorem TellsNearest.of_whole {outcome : Except Fault Int} {k : Int}
    (tells : TellsNearest outcome x) (same : value x = k) :
    (¬ IsMisrounded (value x) → outcome = .ok k) ∧
      (IsMisrounded (value x) → outcome = .ok (k + 1)) := by
  obtain ⟨n, nearest, right, wrong⟩ := tells
  have itself : IsNearestUp k (value x) := by
    rw [same]
    constructor <;> linarith
  rw [(nearest k).mp itself]
  exact ⟨right, wrong⟩

/-- A position in beats is divided by the beats of a second, which are not none. -/
theorem beatsToFrames_eq {beats fps beatsPerSecond : Float} (some_beats : ¬ beatsPerSecond == 0.0) :
    beatsToFrames beats fps beatsPerSecond = Number.roundHalfUp (beats / beatsPerSecond * fps) := by
  rw [beatsToFrames, Number.divide, if_neg some_beats]
  rfl

/-- The whole frames of a window are those of its ends. -/
theorem framesOfWindow_eq {timeline : Timeline} {window : Float × Float} {first last : Int}
    (left : Number.roundHalfUp (window.1 * timeline.fps) = .ok first)
    (right : Number.roundHalfUp (window.2 * timeline.fps) = .ok last) :
    timeline.framesOfWindow window = .ok (first, last) := by
  rw [Timeline.framesOfWindow, Number.framesOfEnds, Number.framesOf, Number.framesOf, left, right]
  rfl

/-- Rounding half up gives the one nearest whole number to every finite double that is not
misrounded, whatever its size and sign, and to a misrounded one the number behind it; a double that
is a whole number stays so if it is not misrounded. So do the whole frames of a position in seconds,
milliseconds or beats, of a window and of a whole timeline, for the double that is computed. -/
theorem frames_nearest (x seconds milliseconds beats fps beatsPerSecond : Float)
    (timeline : Timeline) (window : Float × Float) :
    (x.isFinite = true → TellsNearest (Number.roundHalfUp x) x ∧
      ∀ k : Int, value x = k → ¬ IsMisrounded (value x) → Number.roundHalfUp x = .ok k) ∧
    ((seconds * fps).isFinite = true →
      TellsNearest (secondsToFrames seconds fps) (seconds * fps)) ∧
    ((milliseconds / 1000.0 * fps).isFinite = true →
      TellsNearest (millisecondsToFrames milliseconds fps) (milliseconds / 1000.0 * fps)) ∧
    ((beatsPerSecond == 0.0) = false → (beats / beatsPerSecond * fps).isFinite = true →
      TellsNearest (beatsToFrames beats fps beatsPerSecond) (beats / beatsPerSecond * fps)) ∧
    ((window.1 * timeline.fps).isFinite = true → (window.2 * timeline.fps).isFinite = true →
      ∃ first last, timeline.framesOfWindow window = .ok (first, last) ∧
        TellsNearest (.ok first) (window.1 * timeline.fps) ∧
        TellsNearest (.ok last) (window.2 * timeline.fps)) ∧
    ((timeline.duration * timeline.fps).isFinite = true →
      TellsNearest timeline.durationFrames (timeline.duration * timeline.fps)) := by
  refine ⟨fun finite => ?_, tellsNearest_roundHalfUp, tellsNearest_roundHalfUp,
    fun nonzero finite => ?_, fun finite finiteOther => ?_, tellsNearest_roundHalfUp⟩
  · have tells := tellsNearest_roundHalfUp finite
    exact ⟨tells, fun k same => (tells.of_whole same).1⟩
  · rw [beatsToFrames_eq (by rw [nonzero]; exact Bool.false_ne_true)]
    exact tellsNearest_roundHalfUp finite
  · have left := tellsNearest_roundHalfUp finite
    have right := tellsNearest_roundHalfUp finiteOther
    obtain ⟨first, sameFirst⟩ := left.exists_ok
    obtain ⟨last, sameLast⟩ := right.exists_ok
    refine ⟨first, last, framesOfWindow_eq sameFirst sameLast, ?_, ?_⟩
    · rwa [sameFirst] at left
    · rwa [sameLast] at right

/-- Three is not misrounded. -/
theorem not_isMisrounded_three : ¬ IsMisrounded 3 := by
  rintro (last | ⟨k, _, large, _, same⟩)
  · norm_num at last
  · have three : 3 = k := by exact_mod_cast same
    omega

/-- A timeline of two seconds and a half. -/
def film : Timeline := ⟨"film", 25.0, 640, 360, 2.5, none, [], [], []⟩

/-- Three, half a second, half a thousand milliseconds, two beats, and the film with a window that
ends with it. -/
theorem frames_nearest_halves :
    Number.roundHalfUp (3.0 : Float) = .ok 3 ∧
      TellsNearest (secondsToFrames 0.5 30.0) (0.5 * 30.0) ∧
      TellsNearest (millisecondsToFrames 500.0 30.0) (500.0 / 1000.0 * 30.0) ∧
      TellsNearest (beatsToFrames 2.0 30.0 4.0) (2.0 / 4.0 * 30.0) ∧
      (∃ first last, film.framesOfWindow (0.5, 2.5) = .ok (first, last) ∧
        TellsNearest (.ok first) (0.5 * 25.0) ∧ TellsNearest (.ok last) (2.5 * 25.0)) ∧
      TellsNearest film.durationFrames (2.5 * 25.0) := by
  obtain ⟨rounds, seconds, milliseconds, beats, window, whole⟩ :=
    frames_nearest 3.0 0.5 500.0 2.0 30.0 4.0 film (0.5, 2.5)
  have three : value 3.0 = (3 : Int) := value_eq_intCast.mpr (by decide +kernel)
  have right : ¬ IsMisrounded (value 3.0) := by
    rw [three]
    exact_mod_cast not_isMisrounded_three
  exact ⟨(rounds (by decide)).2 3 three right, seconds (by decide), milliseconds (by decide),
    beats (by decide) (by decide), window (by decide) (by decide), whole (by decide)⟩

/-- The last double below a half is nearest to zero and is rounded to one; an odd number of
fifty-three bits is nearest to itself and is rounded to the next one. -/
theorem roundHalfUp_misses :
    Float.isFinite 0.49999999999999994 = true ∧ IsNearestUp 0 (value 0.49999999999999994) ∧
      Number.roundHalfUp (0.49999999999999994 : Float) = .ok 1 ∧
      Float.isFinite 4503599627370497.0 = true ∧
      value 4503599627370497.0 = (4503599627370497 : Int) ∧
      Number.roundHalfUp (4503599627370497.0 : Float) = .ok 4503599627370498 := by
  have below : value 0.49999999999999994 = 1 / 2 - 1 / 2 ^ 54 :=
    value_eq_last.mpr (by decide +kernel)
  refine ⟨by decide, ⟨?_, ?_⟩, by decide, by decide,
    value_eq_intCast.mpr (by decide +kernel), by decide +kernel⟩
  · rw [below]
    norm_num
  · rw [below]
    norm_num

end Storyboard.Motion
