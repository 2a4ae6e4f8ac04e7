import Storyboard.Proofs.Timeline.Identity
import Storyboard.Proofs.Timeline.Stream
import Storyboard.Proofs.Timeline.Windows
/-!
# The parts of a cue

The parts of a cue are laid out along a running time that begins where the cue starts. So the first
part starts with the cue, each other one where the one before it ends, and each lasts as long as its
source says: speech as it is measured or estimated, a pause as the sample under its place. Where no
length and no end is authored the running time that is left at the last part is the end of the cue.

Main statement: this holds of every cue of every timeline (`Plan.runDrawn_links_segments`).
-/
namespace Storyboard

namespace Segment

/-- The text that a part of a cue speaks. -/
def text? : Segment → Option String
  | .text speech => some speech.text
  | .pause _ => none

/-- How long a part of a cue lasts: speech its length, a pause its sample, if there is one under its
place. -/
def seconds? (plan : Plan) (samples : Samples) (place : PausePlace) : Segment → Option Float
  | .text speech => some (speech.seconds plan)
  | .pause _ => samples.lookup place

end Segment

/-- Whether the authored timing and length of a cue leave open when it ends. -/
def Cue.IsOpenEnded (c : Cue) : Prop :=
  c.duration = none ∧ c.time.bind (·.finish) = none ∧ c.time.bind (·.duration) = none

/-- Whether the window of a cue, which is a part of a scene, links its own parts: each of them
begins where the one before it ends. -/
structure CueWindow.Links (window : CueWindow) (plan : Plan) (samples : Samples) (scene : String)
    (part : Nat) (c : Cue) : Prop where
  /-- There is a window for each part. -/
  count : window.segments.length = c.segments.length
  /-- The first part starts with the cue. -/
  opens : c.segments ≠ [] → window.segments.head?.map (·.start) = some window.start
  /-- Each later part starts at the end of the one before it. -/
  follows : window.segments.IsChain fun before after => after.start = before.finish
  /-- Each part has its text, and lasts as long as its source says. -/
  lasts : ∀ (n : Nat) (segment : Segment), c.segments[n]? = some segment →
    ∃ shown seconds, window.segments[n]? = some shown ∧ shown.text = segment.text? ∧
      segment.seconds? plan samples (.within scene part n) = some seconds ∧
      shown.finish = shown.start + seconds
  /-- A cue that is left open ends with its last part. -/
  ends : c.IsOpenEnded → c.segments ≠ [] →
    window.segments.getLast?.map (·.finish) = some window.finish

/-! ## The running time -/

namespace Plan

variable {plan : Plan} {samples : Samples} {scene : String} {part : Nat}

namespace Strung

variable {now finish : Float} {beats : List Beat} {windows : List SegmentWindow}

/-- There is a window for each part. -/
theorem length (strung : plan.Strung now beats windows finish) :
    windows.length = beats.length := by
  induction strung with
  | nil => rfl
  | cons _ ih => rw [List.length_cons, List.length_cons, ih]

/-- The first of the parts starts at the running time. -/
theorem opens (strung : plan.Strung now beats windows finish) (some_part : beats ≠ []) :
    windows.head?.map (·.start) = some now := by
  cases strung with
  | nil => exact absurd rfl some_part
  | cons _ => rfl

/-- Each of the parts starts at the end of the one before it. -/
theorem follows (strung : plan.Strung now beats windows finish) :
    windows.IsChain fun before after => after.start = before.finish := by
  induction strung with
  | nil => exact .nil
  | cons others ih =>
    refine List.isChain_cons.mpr ⟨fun after next => ?_, ih⟩
    cases others with
    | nil => cases next
    | cons _ =>
      cases next
      rfl

/-- The last of the parts ends at the running time that is left. -/
theorem closes (strung : plan.Strung now beats windows finish) (some_part : beats ≠ []) :
    windows.getLast?.map (·.finish) = some finish := by
  induction strung with
  | nil => exact absurd rfl some_part
  | cons others ih =>
    cases others with
    | nil => rfl
    | cons _ =>
      rw [List.getLast?_cons_cons]
      exact ih (List.cons_ne_nil _ _)

/-- Each of the parts has its text and lasts its length. -/
theorem lasts (strung : plan.Strung now beats windows finish) {n : Nat} {beat : Beat}
    (present : beats[n]? = some beat) :
    ∃ start, windows[n]? = some ⟨beat.text?, start, start + beat.seconds plan⟩ := by
  induction strung generalizing n with
  | nil => cases present
  | cons others ih =>
    cases n with
    | zero =>
      cases present
      exact ⟨_, rfl⟩
    | succ n => exact ih present

end Strung

/-! ## Samples beside the parts -/

/-- There is a drawn part for each part that the samples are put beside. -/
theorem length_recallAll {m : Nat} {segments : List Segment} {beats : List Beat}
    (found : Segment.recallAll samples scene part m segments = .ok beats) :
    beats.length = segments.length := by
  induction segments generalizing m beats with
  | nil =>
    cases found
    rfl
  | cons segment rest ih =>
    cases segment with
    | text speech =>
      obtain ⟨others, foundOthers, same⟩ := bind_eq_ok found
      cases same
      rw [List.length_cons, List.length_cons, ih foundOthers]
    | pause p =>
      obtain ⟨seconds, _, found⟩ := bind_eq_ok found
      obtain ⟨others, foundOthers, same⟩ := bind_eq_ok found
      cases same
      rw [List.length_cons, List.length_cons, ih foundOthers]

/-- A sample that is read is there. -/
theorem lookup_of_read {place : PausePlace} {seconds : Float}
    (found : samples.read place = .ok seconds) : samples.lookup place = some seconds := by
  unfold Samples.read at found
  cases held : samples.lookup place with
  | none =>
    rw [held] at found
    cases found
  | some other =>
    rw [held] at found
    cases found
    rfl

/-- Each part that the samples are put beside keeps its text, and lasts as long as its source
says. -/
theorem getElem?_recallAll (plan : Plan) {m n : Nat} {segments : List Segment}
    {beats : List Beat} {segment : Segment}
    (found : Segment.recallAll samples scene part m segments = .ok beats)
    (present : segments[n]? = some segment) : ∃ beat, beats[n]? = some beat ∧
      beat.text? = segment.text? ∧
      segment.seconds? plan samples (.within scene part (m + n)) = some (beat.seconds plan) := by
  induction segments generalizing m n beats with
  | nil => cases present
  | cons first rest ih =>
    -- Behind the first part the places are numbered from the next number.
    have behind : ∀ {others : List Beat} (n : Nat),
        Segment.recallAll samples scene part (m + 1) rest = .ok others →
          rest[n]? = some segment → ∃ beat, others[n]? = some beat ∧
            beat.text? = segment.text? ∧ segment.seconds? plan samples
              (.within scene part (m + (n + 1))) = some (beat.seconds plan) := by
      intro others n foundOthers present
      have later := ih foundOthers present
      rwa [Nat.add_right_comm] at later
    cases first with
    | text speech =>
      obtain ⟨others, foundOthers, same⟩ := bind_eq_ok found
      cases same
      cases n with
      | zero =>
        cases present
        exact ⟨.text speech, rfl, rfl, rfl⟩
      | succ n => exact behind n foundOthers present
    | pause p =>
      obtain ⟨seconds, read, found⟩ := bind_eq_ok found
      obtain ⟨others, foundOthers, same⟩ := bind_eq_ok found
      cases same
      cases n with
      | zero =>
        cases present
        exact ⟨.pause seconds, rfl, rfl, lookup_of_read read⟩
      | succ n => exact behind n foundOthers present

/-! ## Cues -/

/-- A cue that is left open and has parts ends where its last part does. -/
theorem finish_of_isOpenEnded {c : Cue} {ctx : Context} {cursor start partsEnd finish : Float}
    {timing : Timing} (timed : TimeRange.Solves c.time ctx cursor timing)
    (ends : c.EndsAt plan ctx timing start partsEnd finish) (open_ended : c.IsOpenEnded)
    (some_part : c.segments ≠ []) : finish = partsEnd := by
  obtain ⟨duration, unfinished, untimed⟩ := open_ended
  have none_finish : timing.finish = none := (unfinished ▸ timed.finish).eq_none
  have none_duration : timing.duration = none := (untimed ▸ timed.duration).eq_none
  cases ends with
  | timed given =>
    rcases given with given | ⟨_, _, given, _⟩
    · rw [none_finish] at given
      cases given
    · rw [none_duration] at given
      cases given
  | lasting _ own _ =>
    rw [duration] at own
    cases own
  | parts _ _ _ => rfl
  | spoken _ _ whole _ _ => exact absurd whole some_part
  | silent _ _ whole _ => exact absurd whole some_part

/-- A cue that is placed beside its samples links its parts. -/
theorem CueSolves.links {c : Cue} {beats : List Beat} {ctx : Context} {now : Float}
    {window : CueWindow} (solves : plan.CueSolves scene c beats ctx now window)
    (found : Segment.recallAll samples scene part 0 c.segments = .ok beats) :
    window.Links plan samples scene part c := by
  obtain ⟨timing, partsEnd, timed, _, strung, ends⟩ := solves.timed
  have count := length_recallAll found
  have parts : c.segments ≠ [] → beats ≠ [] := by
    rintro some_part rfl
    exact some_part (List.length_eq_zero_iff.mp count.symm)
  refine ⟨strung.length.trans count, fun some_part => strung.opens (parts some_part),
    strung.follows, ?_, ?_⟩
  · intro n segment present
    obtain ⟨beat, drawn, text, seconds⟩ := getElem?_recallAll plan found present
    obtain ⟨start, shown⟩ := strung.lasts drawn
    rw [Nat.zero_add] at seconds
    exact ⟨_, _, shown, text, seconds, rfl⟩
  · intro open_ended some_part
    rw [finish_of_isOpenEnded timed ends open_ended some_part]
    exact strung.closes (parts some_part)

/-- Each cue of a layout that is laid out beside its samples links its parts. -/
theorem LaidOut.links {ctx : Context} {now finish : Float} {parts : List DrawnItem}
    {cues : List CueWindow} {pauses : List Silence} {items : List SceneItem} {m n : Nat} {c : Cue}
    (laid : plan.LaidOut scene ctx now parts cues pauses finish)
    (found : SceneItem.recallAll samples scene m items = .ok parts)
    (present : items[n]? = some (.cue c)) :
    ∃ window ∈ cues, window.id = c.id ∧ window.Links plan samples scene (m + n) c := by
  induction items generalizing m n now parts cues pauses with
  | nil => cases present
  | cons item rest ih =>
    obtain ⟨content, foundContent, found⟩ := bind_eq_ok found
    obtain ⟨others, foundOthers, same⟩ := bind_eq_ok found
    cases same
    -- Behind the first part the places are numbered from the next number.
    have behind : ∀ {now : Float} {cues : List CueWindow} {pauses : List Silence} (n : Nat),
        plan.LaidOut scene ctx now others cues pauses finish → rest[n]? = some (.cue c) →
          ∃ window ∈ cues, window.id = c.id ∧
            window.Links plan samples scene (m + (n + 1)) c := by
      intro now cues pauses n laid present
      have later := ih laid foundOthers present
      rwa [Nat.add_right_comm] at later
    cases laid with
    | cue _ stands laidOthers =>
      cases n with
      | zero =>
        cases present
        obtain ⟨beats, foundBeats, same⟩ := map_eq_ok foundContent
        cases same
        exact ⟨_, List.mem_cons_self, stands.id, stands.links foundBeats⟩
      | succ n =>
        obtain ⟨window, member, linked⟩ := behind n laidOthers present
        exact ⟨window, List.mem_cons_of_mem _ member, linked⟩
    | pause _ laidOthers =>
      cases n with
      | zero =>
        cases present
        obtain ⟨beats, _, same⟩ := map_eq_ok foundContent
        cases same
      | succ n => exact behind n laidOthers present

variable {drawn : List (List DrawnItem)} {placed : Placed} {timeline : Timeline} {index : Nat}

/-- In a settled timeline the name of a cue leads to a window that links its parts. -/
theorem Settled.links (settled : plan.Settled drawn placed timeline)
    (drawing : plan.IsDrawing drawn) (recalls : plan.Recalls samples drawn) {s : Scene} {c : Cue}
    (present : plan.items[index]? = some (.scene s)) (member : s.items[part]? = some (.cue c)) :
    ∃ scene window, timeline.scene? s.id = some scene ∧ window ∈ scene.cues ∧
      timeline.cue? c.id = some window ∧ window.Links plan samples s.id part c := by
  obtain ⟨_, scene, _, _, _, solves⟩ := settled.scene_solves present
  obtain ⟨window, inside, named, linked⟩ := solves.laid.links (recalls index s present) member
  rw [Nat.zero_add] at linked
  have authored : c ∈ s.cues :=
    List.mem_filterMap.mpr ⟨.cue c, List.mem_of_getElem? member, rfl⟩
  obtain ⟨other, cue, shown, insideOther, found, isOf⟩ :=
    settled.cue?_isOf drawing present authored
  rw [solves.shown] at shown
  cases shown
  have listed := (Timeline.of_scene? solves.shown).1
  -- The cue that is found is the one that is laid out, as no two have one name.
  have same : cue = window := settled.cue_eq drawing
    (List.mem_flatMap.mpr ⟨scene, listed, inside⟩)
    (List.mem_flatMap.mpr ⟨scene, listed, insideOther⟩) (isOf.id.trans named.symm)
  rw [same] at found
  exact ⟨scene, window, solves.shown, inside, found, linked⟩

/-- The parts of every cue follow one another. In every timeline that a composition resolves to,
whatever the lengths drawn for its pauses are, the first part of a cue starts with the cue, each
later one at the end of the one before it, and each ends behind its start by the length that is
measured, estimated or sampled for it; and a cue that is left open ends with its last part. The
lengths that the seed draws stand under the places of all pauses. -/
theorem runDrawn_links_segments {composition : Composition} {seed : Option Int}
    {estimate : Option (String → Float)}
    (ready : Plan.ofComposition composition seed estimate = .ok plan) :
    plan.IsDrawing plan.drawn ∧ plan.Recalls plan.samples plan.drawn ∧
    ∀ samples drawn placed events timeline, plan.IsDrawing drawn → plan.Recalls samples drawn →
      plan.runDrawn drawn [] = (placed, events, .ok timeline) →
      ∀ s part c, .scene s ∈ Item.expand composition.timeline → s.items[part]? = some (.cue c) →
        ∃ scene window, timeline.scene? s.id = some scene ∧ window ∈ scene.cues ∧
          timeline.cue? c.id = some window ∧ window.Links plan samples s.id part c := by
  have unique := hasUniqueNames_of_ready ready
  refine ⟨isDrawing_drawn plan, recalls_samples unique, ?_⟩
  intro samples drawn placed events timeline drawing recalls run s part c member present
  rw [← items_of_ready ready] at member
  obtain ⟨index, inside⟩ := List.mem_iff_getElem?.mp member
  exact (settled_of_run unique drawing run).links drawing recalls inside present

/-- A cue with speech that is trimmed to nothing and a pause links them, and ends with the
pause. -/
theorem backwards_links_segments : ∃ placed events timeline,
    Plan.ofComposition backwards none (some fun _ => 0.0) = .ok backwardsPlan ∧
      backwardsPlan.runDrawn backwardsPlan.drawn [] = (placed, events, .ok timeline) ∧
      ∃ s c scene window, .scene s ∈ backwards.timeline ∧ s.items[1]? = some (.cue c) ∧
        c.segments.length = 2 ∧ c.IsOpenEnded ∧ timeline.scene? s.id = some scene ∧
        window ∈ scene.cues ∧ timeline.cue? c.id = some window ∧
        window.Links backwardsPlan backwardsPlan.samples s.id 1 c := by
  obtain ⟨placed, events, timeline, run, _⟩ := backwards_resolves
  obtain ⟨drawing, recalls, links⟩ := runDrawn_links_segments backwards_ready
  obtain ⟨scene, window, shown, inside, found, linked⟩ :=
    links _ _ _ _ _ drawing recalls run _ 1 _ List.mem_cons_self rfl
  exact ⟨placed, events, timeline, backwards_ready, run, _, _, scene, window, List.mem_cons_self,
    rfl, rfl, ⟨rfl, rfl, rfl⟩, shown, inside, found, linked⟩

end Plan
end Storyboard
