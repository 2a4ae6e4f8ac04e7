import Storyboard.Proofs.Timeline.Stream
import Storyboard.Proofs.Timeline.Windows
/-!
# Where the lengths of pauses go

A timeline spends lengths on its scenes: on the pause before each part, on the part itself if it is
a pause, and on the pauses within a cue, one behind the other in the order of the authors. The
relations below walk what is authored and take each length where it stands in the windows and
silences that are shown. A resolution spends exactly the stream of its pauses
(`Plan.run_spends_stream`), so what a timeline shows of its pauses depends on the list of pauses and
the seed alone.
-/
namespace Storyboard

/-! ## Lengths in scenes -/

/-- Whether a pause before a part, if there is one, spends its length from `now` up to `later`: on a
silence, unless it takes no time. -/
inductive GapSpends (scene : String) (now : Float) :
    Option Pause → List Float → List Silence → (later : Float) → Prop where
  /-- Without a pause nothing is spent. -/
  | absent : GapSpends scene now none [] [] now
  /-- A pause that takes time is a silence. -/
  | silent {p : Pause} {seconds : Float} (lasts : 0.0 < seconds) :
    GapSpends scene now (some p) [seconds] [⟨some scene, now, now + seconds, seconds⟩]
      (now + seconds)
  /-- Any other pause leaves no trace. -/
  | brief {p : Pause} {seconds : Float} (brief : ¬ 0.0 < seconds) :
    GapSpends scene now (some p) [seconds] [] now

/-- Whether the pauses within a cue spend lengths on its windows, the first of which starts at
`now`. -/
inductive SegmentsSpend : (now : Float) → List Segment → List Float → List SegmentWindow → Prop where
  /-- Nothing spends nothing. -/
  | nil (now : Float) : SegmentsSpend now [] [] []
  /-- A text takes no length of a pause. -/
  | text {now finish : Float} {speech : Speech} {rest : List Segment} {lengths : List Float}
    {windows : List SegmentWindow} (others : SegmentsSpend finish rest lengths windows) :
    SegmentsSpend now (.text speech :: rest) lengths (⟨some speech.text, now, finish⟩ :: windows)
  /-- A pause lasts its length. -/
  | pause {now seconds : Float} {p : Pause} {rest : List Segment} {lengths : List Float}
    {windows : List SegmentWindow} (others : SegmentsSpend (now + seconds) rest lengths windows) :
    SegmentsSpend now (.pause p :: rest) (seconds :: lengths)
      (⟨none, now, now + seconds⟩ :: windows)

/-- Whether the pauses of the parts of a scene spend lengths on its cues and silences, when the
cursor is `now`. -/
inductive PartsSpend (between : Option Pause) (scene : String) :
    (isFirst : Bool) → (now : Float) → List SceneItem → List Float → List CueWindow →
      List Silence → Prop where
  /-- Nothing spends nothing. -/
  | nil (isFirst : Bool) (now : Float) : PartsSpend between scene isFirst now [] [] [] []
  /-- A cue spends the pause before it, behind which it starts unless its author says otherwise, and
  then the pauses within it. -/
  | cue {isFirst : Bool} {now later : Float} {c : Cue} {window : CueWindow}
    {rest : List SceneItem} {gap inside lengths : List Float} {cues : List CueWindow}
    {opening silences : List Silence}
    (before : GapSpends scene now ((SceneItem.cue c).pauseBefore? between isFirst) gap opening
      later)
    (named : window.id = c.id)
    (starts : c.hasExplicitStart = false → window.start = later)
    (within : SegmentsSpend window.start c.segments inside window.segments)
    (others : PartsSpend between scene false (Number.larger later window.finish) rest lengths cues
      silences) :
    PartsSpend between scene isFirst now (.cue c :: rest) (gap ++ inside ++ lengths)
      (window :: cues) (opening ++ silences)
  /-- A pause spends the pause before it, and then its own length. -/
  | pause {isFirst : Bool} {now later seconds : Float} {p : Pause} {rest : List SceneItem}
    {gap lengths : List Float} {cues : List CueWindow} {opening silences : List Silence}
    (before : GapSpends scene now ((SceneItem.pause p).pauseBefore? between isFirst) gap opening
      later)
    (others : PartsSpend between scene false (later + seconds) rest lengths cues silences) :
    PartsSpend between scene isFirst now (.pause p :: rest) (gap ++ [seconds] ++ lengths) cues
      (opening ++ ⟨some scene, later, later + seconds, seconds⟩ :: silences)

namespace Timeline

/-- Whether an entity spends lengths in a timeline: a scene on its window and its silences, and any
other entity none. -/
def ItemSpends (timeline : Timeline) (plan : Plan) (item : Item) (lengths : List Float) : Prop :=
  match item with
  | .scene s => ∃ window now, timeline.scene? s.id = some window ∧
      PartsSpend plan.between s.id true now s.items lengths window.cues
        (timeline.pauses.filter fun silence => silence.sceneId == some s.id)
  | _ => lengths = []

/-- Whether the entities of a plan spend lengths in a timeline, one entity behind the other. -/
def Spends (timeline : Timeline) (plan : Plan) (lengths : List Float) : Prop :=
  ∃ shares, shares.flatten = lengths ∧ List.Forall₂ (timeline.ItemSpends plan) plan.items shares

end Timeline

/-! ## What is laid out spends what is drawn -/

/-- The silence before a part spends the length that is drawn for it. -/
theorem GapLies.spends {scene : String} {now next : Float} {gap : Option Float}
    {opening : List Silence} (lies : GapLies scene now gap opening next) {pause : Option Pause}
    (drawn : gap.isSome = pause.isSome) : GapSpends scene now pause gap.toList opening next := by
  cases pause with
  | none =>
    cases lies with
    | absent => exact .absent
    | silent lasts => cases drawn
    | brief brief => cases drawn
  | some p =>
    cases lies with
    | absent => cases drawn
    | silent lasts => exact .silent lasts
    | brief brief => exact .brief brief

/-- The windows of the parts of a cue spend the lengths that are drawn for them. -/
theorem Plan.Strung.spends {plan : Plan} {now finish : Float} {beats : List Beat}
    {windows : List SegmentWindow} (strung : plan.Strung now beats windows finish)
    {segments : List Segment} (drawn : List.Forall₂ Beat.IsOf beats segments) :
    SegmentsSpend now segments (beats.filterMap Beat.length?) windows := by
  induction drawn generalizing now windows with
  | nil =>
    cases strung
    exact .nil _
  | @cons beat segment _ _ isOf _ ih =>
    cases strung with
    | cons others =>
      cases beat with
      | text speech =>
        cases segment with
        | text other =>
          cases isOf
          exact .text (ih others)
        | pause p => exact isOf.elim
      | pause seconds =>
        cases segment with
        | text other => exact isOf.elim
        | pause p => exact .pause (ih others)

/-- The parts of a scene that lie one behind the other spend the lengths that are drawn for them. -/
theorem partsSpend_of_laidOut {plan : Plan} {scene : String} {ctx : Context}
    {now finish : Float} {parts : List DrawnItem} {cues : List CueWindow} {silences : List Silence}
    (laid : plan.LaidOut scene ctx now parts cues silences finish) {isFirst : Bool}
    {items : List SceneItem} (drawn : SceneItem.AreDrawn plan.between isFirst parts items) :
    PartsSpend plan.between scene isFirst now items (parts.flatMap DrawnItem.lengths) cues
      silences := by
  induction laid generalizing isFirst items with
  | nil now =>
    cases items with
    | nil => exact .nil isFirst now
    | cons item rest => exact drawn.elim
  | cue before stands _ ih =>
    cases items with
    | nil => exact drawn.elim
    | cons item rest =>
      obtain ⟨gap, isOf, later⟩ := drawn
      cases item with
      | cue c =>
        obtain ⟨rfl, beats⟩ := isOf
        obtain ⟨timing, _, solves, start, strung, _⟩ := stands.timed
        refine .cue (before.spends gap) stands.id (fun free => ?_) (strung.spends beats) (ih later)
        have unstarted : timing.start = none :=
          solves.start_eq_none (Option.isNone_iff_eq_none.mp (Option.isSome_eq_false_iff.mp free))
        rw [start, unstarted, Option.getD_none]
      | pause p => exact isOf.elim
  | pause before _ ih =>
    cases items with
    | nil => exact drawn.elim
    | cons item rest =>
      obtain ⟨gap, isOf, later⟩ := drawn
      cases item with
      | cue c => exact isOf.elim
      | pause p => exact .pause (before.spends gap) (ih later)

namespace Plan

/-- What is laid out in a timeline spends the lengths that are drawn, each scene those of its
parts. -/
theorem Settled.spends {plan : Plan} {drawn : List (List DrawnItem)} {placed : Placed}
    {timeline : Timeline} (settled : plan.Settled drawn placed timeline)
    (drawing : plan.IsDrawing drawn) :
    timeline.Spends plan (drawn.flatMap (·.flatMap DrawnItem.lengths)) := by
  refine ⟨drawn.map (·.flatMap DrawnItem.lengths), rfl, List.forall₂_map_right_iff.mpr ?_⟩
  have sameLength : drawn.length = plan.items.length := List.Forall₂.length_eq drawing
  refine List.forall₂_iff_get.mpr ⟨sameLength.symm, fun index inside drawnInside => ?_⟩
  have present : plan.items[index]? = some plan.items[index] := List.getElem?_eq_getElem inside
  have parts := drawing.parts present
  rw [List.getElem?_eq_getElem drawnInside, Option.getD_some] at parts
  rw [List.get_eq_getElem, List.get_eq_getElem]
  cases item : plan.items[index] with
  | scene s =>
    rw [item] at present parts
    obtain ⟨_, window, cursor, timing, _, solves⟩ := settled.scene_solves present
    have laid := solves.laid
    rw [List.getElem?_eq_getElem drawnInside, Option.getD_some] at laid
    exact ⟨window, _, solves.shown, partsSpend_of_laidOut laid parts⟩
  | transition t | mark m =>
    rw [item] at parts
    cases only : drawn[index] with
    | nil => rfl
    | cons part rest =>
      rw [only] at parts
      exact parts.elim

/-- Whether lengths are those of all pauses of a plan, in the order of their authors: in the table
of samples, beside the parts that are laid out, and in whatever timeline a resolution ends. -/
structure Streams (plan : Plan) (lengths : List Float) : Prop where
  /-- Each length is the sample under the place of its pause. -/
  table : plan.samples = (plan.occurrences.map (·.1)).zip lengths
  /-- There is a length for each pause. -/
  all : lengths.length = plan.occurrences.length
  /-- No two pauses have one place. -/
  places : (plan.occurrences.map (·.1)).Nodup
  /-- Reading the table by place gives every scene what is laid out for it. -/
  recalled : plan.Recalls plan.samples plan.drawn
  /-- Each length is the one that is used where its pause stands. -/
  spent : ∀ placed events timeline, plan.run [] = (placed, events, .ok timeline) →
    timeline.Spends plan lengths

/-- The pauses of a plan are drawn one after another in the order of their authors, from one
generator of the seed, and so are those of every other plan of that seed; where the pauses of both
begin alike, so do their samples. -/
theorem run_spends_stream {composition : Composition} {given : Option Int}
    {estimate : Option (String → Float)} {plan : Plan} {seed : Int}
    (ready : ofComposition composition given estimate = .ok plan)
    (seeded : plan.seed = some seed) :
    plan.Streams (Pause.drawAll (Mulberry.ofSeed seed) (plan.occurrences.map (·.2))).1 ∧
      ∀ (other : Plan) (common : List Pause), other.seed = some seed →
        common <+: plan.occurrences.map (·.2) → common <+: other.occurrences.map (·.2) →
          (other.samples.map (·.2)).take common.length =
            (plan.samples.map (·.2)).take common.length := by
  have unique := hasUniqueNames_of_ready ready
  have same : (Pause.drawAll (Mulberry.ofSeed seed) (plan.occurrences.map (·.2))).1 =
      plan.stream := by
    rw [← generator_of_seed seeded]
    rfl
  rw [same]
  refine
    ⟨⟨plan.samples_eq, plan.length_stream, nodup_places unique, recalls_samples unique, ?_⟩, ?_⟩
  · intro placed events timeline run
    rw [← plan.lengths_drawn]
    exact (settled_of_run unique plan.isDrawing_drawn run).spends plan.isDrawing_drawn
  · intro other common seededToo shared sharedToo
    rw [map_snd_samples, map_snd_samples, stream, stream, generator_of_seed seeded,
      generator_of_seed seededToo, Pause.take_drawAll _ shared, Pause.take_drawAll _ sharedToo]

/-- The composition with trims and pauses, from a seed. -/
def backwardsSeeded : Plan := { backwardsPlan with seed := some 7 }

/-- The composition resolves, and spends the lengths of its pauses in order: that of the first part,
raised to zero, that before the first cue, and that within it. -/
theorem backwardsSeeded_spends : ∃ placed events timeline,
    backwardsSeeded.run [] = (placed, events, .ok timeline) ∧
      timeline.Spends backwardsSeeded [0.0, 0.25, 1.0] := by
  have ready : ofComposition backwards (some 7) (some fun _ => 0.0) = .ok backwardsSeeded := rfl
  have done : (backwardsSeeded.runDrawn backwardsSeeded.drawn []).2.2.isOk = true := by
    decide +kernel
  obtain ⟨timeline, run⟩ := runDrawn_of_isOk done
  have spent := (run_spends_stream ready rfl).1.spent _ _ timeline run
  have lengths : (Pause.drawAll (Mulberry.ofSeed 7) (backwardsSeeded.occurrences.map (·.2))).1 =
      [0.0, 0.25, 1.0] := by decide +kernel
  rw [lengths] at spent
  exact ⟨_, _, timeline, run, spent⟩

end Plan
end Storyboard
