import Storyboard.Proofs.Number.Extremes
import Storyboard.Proofs.Timeline.Equations
import Storyboard.Proofs.Timeline.Lengths
/-!
# Timelines solve what is authored

Entities are placed one after another from what is known at the time. In the end all placements
hold at once: in a finished timeline every authored value has, read again, the position that its
entity was given (`Plan.runDrawn_solves`). Each function that places a part comes to what the
equation of that part asks for; the equations themselves do not mention these functions.
-/
namespace Storyboard

/-! ## Placements solve their equations -/

namespace Context

/-- What knows the start of a cue extends what knows it besides the rest. -/
theorem ExtendedBy.withCue_of_known {ctx final : Context} (grows : ctx.ExtendedBy final)
    {id : String} {start : Float} (known : final.lookup? ⟨.cueStart, some id⟩ = some start) :
    (ctx.withCue id start).ExtendedBy final := by
  refine ⟨grows.fps, fun anchor position found => ?_⟩
  rw [lookup?_withCue] at found
  split at found
  · rename_i own
    rcases anchor with ⟨kind, ref⟩
    obtain ⟨rfl, rfl⟩ := own
    rw [known, found]
  · exact grows.known anchor position found

end Context

namespace Plan

variable {plan : Plan} {drawn : List (List DrawnItem)} {placed : Placed} {timeline : Timeline}
  {index : Nat}

/-! ## Parts of scenes -/

/-- A timing gives no end exactly if it leaves it open. -/
theorem finishFrom_eq_none {timing : Timing} {start : Float} :
    timing.finishFrom start = none ↔ timing.IsOpen := by
  rcases timing with ⟨_, _ | finish, _ | seconds⟩ <;> simp [Timing.finishFrom, Timing.IsOpen]

/-- The end that a timing gives is the one that it asks for. -/
theorem finishFrom_eq_some {timing : Timing} {start finish : Float} :
    timing.finishFrom start = some finish ↔ timing.EndsAt start finish := by
  rcases timing with ⟨_, _ | own, _ | seconds⟩ <;>
    simp [Timing.finishFrom, Timing.EndsAt, eq_comm]

/-- The windows of the parts of a cue lie one behind the other. -/
theorem strung_placeBeats (plan : Plan) (now : Float) (beats : List Beat) :
    plan.Strung now beats (plan.placeBeats now beats).1 (plan.placeBeats now beats).2 := by
  induction beats generalizing now with
  | nil => exact .nil now
  | cons beat rest ih =>
    cases beat with
    | text speech => exact .cons (ih _)
    | pause seconds => exact .cons (ih _)

/-- The silence before a part of a scene lies behind what is before it. -/
theorem gapLies_placeGap (sceneId : String) (now : Float) (gap : Option Float) :
    GapLies sceneId now gap (placeGap sceneId now gap).1 (placeGap sceneId now gap).2 := by
  cases gap with
  | none => exact .absent
  | some seconds =>
    rw [placeGap, Option.getD_some]
    split
    · rename_i lasts
      exact .silent lasts
    · rename_i brief
      exact .brief brief

/-- A cue ends where it is authored to. -/
theorem endsAt_of_cueFinish {c : Cue} {ctx : Context} {timing : Timing}
    {start partsEnd finish : Float}
    (found : plan.cueFinish c ctx timing start partsEnd = .ok finish) :
    c.EndsAt plan ctx timing start partsEnd finish := by
  unfold cueFinish at found
  split at found
  · rename_i held
    cases found
    exact .timed (finishFrom_eq_some.mp held)
  · rename_i untimed own
    obtain ⟨seconds, evaluated, rfl⟩ := map_eq_ok found
    exact .lasting (finishFrom_eq_none.mp untimed) own (mapError_eq_ok evaluated)
  · rename_i untimed unmeasured
    rw [finishFrom_eq_none] at untimed
    split at found
    · rename_i composed
      cases found
      exact .parts untimed unmeasured (by simpa using composed)
    · rename_i whole
      have whole : c.segments = [] := by simpa using whole
      split at found
      · rename_i said
        cases found
        exact .silent untimed unmeasured whole (.inl said)
      · rename_i text said
        cases found
        split
        · rename_i silent
          exact .silent untimed unmeasured whole
            (.inr (said.trans (congrArg some (String.isEmpty_iff.mp silent))))
        · rename_i audible
          exact .spoken untimed unmeasured whole said (mt String.isEmpty_iff.mpr audible)

/-- A cue that is placed solves its equations. -/
theorem cueSolves_of_placeCue {sceneId : String} {c : Cue} {beats : List Beat} {ctx : Context}
    {now : Float} {window : CueWindow}
    (done : plan.placeCue sceneId c beats ctx now = .ok window) :
    plan.CueSolves sceneId c beats ctx now window := by
  obtain ⟨timing, finish, solves, foundFinish, ordered, rfl⟩ := placeCue_eq_ok done
  exact ⟨rfl, rfl, rfl, rfl, ⟨timing, _, solves, rfl, strung_placeBeats plan _ beats,
    endsAt_of_cueFinish foundFinish⟩, ordered⟩

/-- A layout solves its equations in a context that extends the one it was made in and knows where
its cues start. -/
theorem laidOut_of_layOut {sceneId : String} {ctx final : Context} {now : Float}
    {parts : List DrawnItem} {layout : SceneLayout} (grows : ctx.ExtendedBy final)
    (done : plan.layOut sceneId ctx now parts = .ok layout)
    (known : ∀ window ∈ layout.cues,
      final.lookup? ⟨.cueStart, some window.id⟩ = some window.start) :
    plan.LaidOut sceneId final now parts layout.cues layout.pauses layout.finish := by
  induction parts generalizing ctx now layout with
  | nil =>
    cases done
    exact .nil now
  | cons part rest ih =>
    rcases part with ⟨gap, ⟨c, beats⟩ | seconds⟩
    · obtain ⟨window, others, foundWindow, foundOthers, rfl⟩ := layOut_cue_eq_ok done
      have stands := (placeCue_persists grows sceneId c beats _).of_ok foundWindow
      have next := grows.withCue_of_known (known window List.mem_cons_self)
      exact .cue (gapLies_placeGap sceneId now gap) (cueSolves_of_placeCue stands)
        (ih next foundOthers fun other member => known other (List.mem_cons_of_mem _ member))
    · obtain ⟨others, foundOthers, rfl⟩ := layOut_pause_eq_ok done
      exact .pause (gapLies_placeGap sceneId now gap) (ih grows foundOthers known)

/-! ## Entities -/

/-- A timing that is solved at the cursor it was given is solved at the cursor before its place,
with the same start. -/
theorem solves_at_cursor {time : Option TimeRange} {ctx : Context} {given cursor : Float}
    {timing : Timing} (found : plan.cursorFor placed index time = .ok given)
    (solves : TimeRange.Solves time ctx given timing)
    (here : plan.cursor placed index = .ok cursor) :
    TimeRange.Solves time ctx cursor timing ∧
      timing.start.getD given = timing.start.getD cursor ∧
      (timing.start = none → given = cursor) := by
  unfold cursorFor at found
  cases reads : TimeRange.needsCursor time with
  | true =>
    rw [if_pos reads, here] at found
    cases found
    exact ⟨solves, rfl, fun _ => rfl⟩
  | false =>
    have started := solves.start_isSome reads
    obtain ⟨start, same⟩ := Option.isSome_iff_exists.mp started
    refine ⟨solves.of_free reads cursor, ?_, fun absent => ?_⟩
    · rw [same]
      rfl
    · rw [absent] at same
      cases same

/-- In a complete table the cursor before a place is known, and it is the one that the timeline
shows. -/
theorem Writes.exists_cursor (writes : plan.Writes placed timeline)
    (complete : plan.IsComplete placed) (inside : index < plan.items.length) :
    ∃ cursor, plan.cursor placed index = .ok cursor ∧ timeline.CursorAt plan index cursor := by
  rcases plan.cursor_cases index with ⟨unmoved, cursor⟩ | ⟨j, anchor, source, _, cursor⟩
  · exact ⟨plan.leadIn, cursor placed, .inl ⟨unmoved, rfl⟩⟩
  · obtain ⟨p, found⟩ := complete j (Nat.lt_trans source.before inside)
    refine ⟨p.entry.finish, ?_, .inr ⟨j, p.entry, source, ?_, rfl⟩⟩
    · rw [cursor, Placed.finish?, found]
      rfl
    · rw [writes.entryAt_eq, found]
      rfl

/-- The earliest start among transitions is the smallest of their starts in the timeline. -/
theorem Writes.exists_starts_of_earliest (writes : plan.Writes placed timeline)
    {transitions : List (Transition × Nat)} {found pull : Option Float}
    (done : earliest placed found transitions = .ok pull) :
    ∃ starts : List Float,
      List.Forall₂ (fun transition start =>
        (timeline.entryAt plan transition.2).map (·.start) = some start) transitions starts ∧
      pull = found.elim (starts.head?.map (Number.smallest · starts.tail)) fun other =>
        some (Number.smallest other starts) := by
  induction transitions generalizing found with
  | nil =>
    cases done
    refine ⟨[], .nil, ?_⟩
    cases pull <;> rfl
  | cons first rest ih =>
    obtain ⟨t, j⟩ := first
    rw [earliest] at done
    cases known : placed.start? j with
    | none =>
      rw [known] at done
      cases done
    | some start =>
      rw [known] at done
      obtain ⟨starts, listed, same⟩ := ih done
      refine ⟨start :: starts, .cons ?_ listed, ?_⟩
      · rw [writes.entryAt_eq, Option.map_map]
        exact known
      · cases found <;> exact same

/-- What pulls a scene is the earliest start of the transitions that lead into it. -/
theorem Writes.pull_cases (writes : plan.Writes placed timeline) {pull : Option Float}
    (done : earliest placed none (plan.incoming index) = .ok pull) :
    pull = none ∧ (∀ j t, ¬ plan.LeadsInto index j t) ∨
      ∃ start, pull = some start ∧ IsEarliest (timeline.LeadsAt plan index) start := by
  obtain ⟨starts, listed, smallest⟩ := writes.exists_starts_of_earliest done
  -- The starts that are compared are those of the transitions that lead into the place.
  have leads : ∀ moment, timeline.LeadsAt plan index moment ↔ moment ∈ starts := by
    intro moment
    constructor
    · rintro ⟨j, t, entry, into, row, rfl⟩
      obtain ⟨start, member, same⟩ :=
        exists_mem_of_forall₂ listed.flip (mem_incoming.mpr into)
      rw [row] at same
      cases same
      exact member
    · intro member
      obtain ⟨⟨t, j⟩, inside, same⟩ := exists_mem_of_forall₂ listed member
      obtain ⟨entry, row, rfl⟩ := Option.map_eq_some_iff.mp same
      exact ⟨j, t, entry, mem_incoming.mp inside, row, rfl⟩
  cases starts with
  | nil =>
    refine .inl ⟨smallest, fun j t into => ?_⟩
    have member := mem_incoming.mpr into
    rw [List.forall₂_nil_right_iff.mp listed] at member
    cases member
  | cons first rest =>
    refine .inr ⟨_, smallest, (leads _).mpr (Number.smallest_mem first rest), ?_⟩
    intro other led
    exact Number.not_lt_smallest other ((leads other).mp led)

/-- The length of a transition is as authored. -/
theorem lasts_of_transitionSeconds {t : Transition} {ctx : Context} {timing : Timing}
    {seconds : Float} (found : transitionSeconds t ctx timing = .ok seconds) :
    t.Lasts ctx timing seconds := by
  -- Past the first case one of the two ends is not authored.
  have unbound : (∀ start finish, timing.start = some start → timing.finish = some finish → False) →
      timing.start = none ∨ timing.finish = none := by
    cases timing.start <;> cases timing.finish <;> simp
  unfold transitionSeconds at found
  split at found
  · rename_i start finish starts ends
    cases found
    exact .between starts ends
  · rename_i timed other
    cases found
    exact .timed (unbound other) timed
  · rename_i untimed own other
    exact .lasting (unbound other) untimed own (mapError_eq_ok found)
  · rename_i untimed unmeasured other
    cases found
    exact .usual (unbound other) untimed unmeasured

/-- The cues of a scene that is placed are known in the timeline. -/
theorem Writes.cue_known (writes : plan.Writes placed timeline) {s : Scene} {p : Placement}
    {window : SceneWindow} (present : plan.items[index]? = some (.scene s))
    (found : placed.lookup index = some p) (held : p.scene = some window) :
    ∀ cue ∈ window.cues,
      (timeline.context plan index).lookup? ⟨.cueStart, some cue.id⟩ = some cue.start := by
  intro cue member
  have fits := writes.faithful.fits_of_lookup found present
  have inside := writes.faithful.mem_scenes.mpr ⟨index, p, s, present, found, fits, held⟩
  rw [writes.lookup?_context, writes.faithful.lookup?_context writes.unique]
  refine .inr ((writes.faithful.mem_cueStarts writes.unique cue.id cue.start).mp ?_)
  exact List.mem_map.mpr ⟨cue, List.mem_flatMap.mpr ⟨window, inside, member⟩, rfl⟩

/-- A mark that is placed stands at its position. -/
theorem Writes.mark_solves (writes : plan.Writes placed timeline) {m : Mark} {p : Placement}
    (held : placed.lookup index = some p) (done : plan.placeMark placed index m = .ok p) :
    ∃ entry, timeline.entryAt plan index = some entry ∧
      m.position.evaluate (timeline.context plan index) = .ok entry.start ∧
      entry.finish = entry.start := by
  obtain ⟨position, found, rfl⟩ := placeMark_eq_ok done
  refine ⟨_, by rw [writes.entryAt_eq, held]; rfl, ?_, rfl⟩
  exact (m.position.evaluate_persists (writes.context_extendedBy index)).of_ok found

section Starts

variable {t : Transition} {timing : Timing} {cursor seconds start : Float}

/-- A transition starts where it is authored to. -/
theorem transitionStart_authored {mode : TransitionMode} {authored : Float}
    (found : plan.transitionStart placed index mode timing cursor seconds = .ok start)
    (own : timing.start = some authored) : start = authored := by
  unfold transitionStart at found
  rw [own] at found
  exact (Except.ok.inj found).symm

/-- Without an authored start a transition that overlaps ends with the scene before it, but does not
start before zero. -/
theorem Writes.transitionStart_over (writes : plan.Writes placed timeline)
    (found : plan.transitionStart placed index (plan.mode index t) timing cursor seconds =
      .ok start)
    (unstarted : timing.start = none) (overlaps : plan.Overlaps index t) {j : Nat}
    (prev : plan.IsPrevScene index j) :
    ∃ before, timeline.entryAt plan j = some before ∧
      start = if 0.0 < before.finish - seconds then before.finish - seconds else 0.0 := by
  obtain ⟨s, nearest⟩ := prev.found
  unfold transitionStart at found
  rw [unstarted, mode_eq_overlap.mpr overlaps, nearest] at found
  dsimp only at found
  cases finished : placed.finish? j with
  | none =>
    rw [finished] at found
    cases found
  | some finish =>
    rw [finished] at found
    cases found
    obtain ⟨p, held, rfl⟩ := Option.map_eq_some_iff.mp finished
    refine ⟨p.entry, ?_, rfl⟩
    rw [writes.entryAt_eq, held]
    rfl

/-- Any other transition without an authored start starts at the cursor. -/
theorem transitionStart_cursor
    (found : plan.transitionStart placed index (plan.mode index t) timing cursor seconds =
      .ok start)
    (unstarted : timing.start = none)
    (free : ¬ plan.Overlaps index t ∨ ∀ j < index, ¬ plan.HasScene j) : start = cursor := by
  unfold transitionStart at found
  rcases free with inserted | first
  · rw [unstarted, mode_eq_insert.mpr inserted] at found
    exact (Except.ok.inj found).symm
  · rw [unstarted, prevScene?_eq_none.mpr first] at found
    cases mode : plan.mode index t <;> rw [mode] at found <;> exact (Except.ok.inj found).symm

end Starts

/-- A transition that is placed solves its equations. -/
theorem Writes.transition_solves (writes : plan.Writes placed timeline)
    (complete : plan.IsComplete placed) (inside : index < plan.items.length) {t : Transition}
    {p : Placement} (held : placed.lookup index = some p)
    (done : plan.placeTransition placed index t = .ok p) :
    ∃ entry cursor timing seconds,
      timeline.TransitionSolves plan index t entry cursor timing seconds := by
  have row : timeline.entryAt plan index = some p.entry := by
    rw [writes.entryAt_eq, held]
    rfl
  obtain ⟨given, timing, seconds, start, foundCursor, solves, lasts, foundStart, _, rfl⟩ :=
    placeTransition_eq_ok done
  obtain ⟨cursor, here, counted⟩ := writes.exists_cursor complete inside
  have extended := writes.context_extendedBy index
  obtain ⟨solved, _, sameCursor⟩ := solves_at_cursor foundCursor solves here
  refine ⟨_, cursor, timing, seconds, row, counted, solved.of_extendedBy extended,
    lasts_of_transitionSeconds ((transitionSeconds_persists extended t timing).of_ok lasts),
    ?_, ?_, ?_, rfl⟩
  · intro authored own
    exact transitionStart_authored foundStart own
  · intro unstarted overlaps j prev
    exact writes.transitionStart_over foundStart unstarted overlaps prev
  · intro unstarted free
    rw [← sameCursor unstarted]
    exact transitionStart_cursor foundStart unstarted free

/-- A scene that is placed solves its equations. -/
theorem Writes.scene_solves (writes : plan.Writes placed timeline)
    (complete : plan.IsComplete placed) {s : Scene} (present : plan.items[index]? = some (.scene s))
    {parts : List DrawnItem} {p : Placement} (held : placed.lookup index = some p)
    (done : plan.placeScene placed index s parts = .ok p) :
    ∃ entry window cursor timing contentEnd,
      timeline.SceneSolves plan index s parts entry window cursor timing contentEnd := by
  have row : timeline.entryAt plan index = some p.entry := by
    rw [writes.entryAt_eq, held]
    rfl
  have shown := writes.scene?_eq present held
  have silences := writes.pauses_of present held
  have inside := (List.getElem?_eq_some_iff.mp present).1
  obtain ⟨given, timing, pull, layout, foundCursor, solves, foundPull, foundLayout, rfl⟩ :=
    placeScene_eq_ok done
  obtain ⟨cursor, here, counted⟩ := writes.exists_cursor complete inside
  have extended := writes.context_extendedBy index
  have known := writes.cue_known present held rfl
  obtain ⟨solved, sameStart, _⟩ := solves_at_cursor foundCursor solves here
  have laid := laidOut_of_layOut extended foundLayout known
  rw [sameStart] at laid
  refine ⟨_, _, cursor, timing, layout.finish, row, shown, ⟨rfl, rfl⟩, counted,
    solved.of_extendedBy extended, ?_, ?_, ?_⟩
  · rw [show s.id = (Item.scene s).id from rfl, silences]
    exact laid
  · rw [← sameStart]
    refine (writes.pull_cases foundPull).imp ?_ ?_
    · rintro ⟨rfl, none_leads⟩
      exact ⟨none_leads, rfl⟩
    · rintro ⟨start, rfl, first⟩
      exact ⟨start, first, rfl⟩
  · rw [← sameStart]
    cases held : timing.finishFrom (timing.start.getD given) with
    | none => exact .inl ⟨finishFrom_eq_none.mp held, by rw [scenePlacement, held]; rfl⟩
    | some finish =>
      exact .inr ⟨finish, finishFrom_eq_some.mp held, by rw [scenePlacement, held]; rfl⟩

/-- In every timeline that a resolution gives all that is authored holds at once: each value, read
again in the finished timeline, has the position that its entity was given. -/
theorem runDrawn_solves {composition : Composition} {seed : Option Int}
    {estimate : Option (String → Float)}
    (ready : Plan.ofComposition composition seed estimate = .ok plan)
    (drawing : plan.IsDrawing drawn) {events : List Event}
    (run : plan.runDrawn drawn [] = (placed, events, .ok timeline)) :
    timeline.Solves plan drawn := by
  have unique := hasUniqueNames_of_ready ready
  obtain ⟨reached, complete, _, done⟩ := runDrawn_eq_ok run
  have writes := writes_of_timeline unique (reached.faithful drawing) done
  -- In a complete table an attempt at an entity gives the placement that it has.
  have settled : ∀ {index item}, plan.items[index]? = some item →
      ∃ p, placed.lookup index = some p ∧
        plan.placeItem placed index (drawn[index]?.getD []) item = .ok p := by
    intro index item present
    have inside := (List.getElem?_eq_some_iff.mp present).1
    obtain ⟨p, held, again⟩ := reached.place_of_complete drawing unique complete inside
    rw [place, present] at again
    exact ⟨p, held, again⟩
  refine ⟨?_, ?_, ?_⟩
  · intro index m present
    obtain ⟨p, held, again⟩ := settled present
    exact writes.mark_solves held again
  · intro index s present
    obtain ⟨p, held, again⟩ := settled present
    exact writes.scene_solves complete present held again
  · intro index t present
    obtain ⟨p, held, again⟩ := settled present
    exact writes.transition_solves complete (List.getElem?_eq_some_iff.mp present).1 held again

/-- A scene with an end behind that of its cues and a pause between these, a transition over that
end, and a scene that it pulls, with a start counted from the cursor. The mark before them looks
ahead. -/
def weave : Composition where
  voiceover := { pauseBetweenItems := some (.seconds 0.25) }
  timeline := [
    .mark { id := "early", position := .expression "scene(last).start - 1" },
    .scene {
      id := "first"
      time := some { start := some (.seconds 1.0), finish := some (.seconds 6.0) }
      items := [
        .cue { id := "hello", duration := some (.seconds 2.0) },
        .cue { id := "there", segments := [
          .text { text := "there", durationSec := some 1.0 }, .pause (.fixed 0.125)] }] },
    .transition { id := "fade", duration := some (.seconds 2.0) },
    .scene {
      id := "last"
      time := some { start := some (.seconds 0.5), startIsRelative := true }
      items := [.cue { id := "bye", duration := some (.seconds 2.0) }] }]

/-- The composition made ready. -/
def weavePlan : Plan := untimed weave

/-- The timeline of the composition solves it: the first scene lasts up to its authored end,
the parts of the last one begin half a second behind it, and the transition over it pulls the last
one. -/
theorem weave_solves : ∃ placed events timeline,
    Plan.ofComposition weave none (some fun _ => 0.0) = .ok weavePlan ∧
      weavePlan.IsDrawing weavePlan.drawn ∧
      weavePlan.runDrawn weavePlan.drawn [] = (placed, events, .ok timeline) ∧
      timeline.Solves weavePlan weavePlan.drawn ∧
      (List.range 4).map (fun index =>
          (timeline.entryAt weavePlan index).map fun entry => (entry.start, entry.finish)) =
        [some (3.0, 3.0), some (1.0, 6.0), some (4.0, 6.0), some (4.0, 8.5)] ∧
      (timeline.scenes.flatMap (·.cues)).map (fun cue => (cue.id, cue.start, cue.finish)) =
        [("hello", 1.0, 3.0), ("there", 3.25, 4.375), ("bye", 6.5, 8.5)] ∧
      (timeline.scenes.flatMap fun scene => scene.cues.flatMap (·.segments)).map
          (fun segment => (segment.start, segment.finish)) = [(3.25, 4.25), (4.25, 4.375)] ∧
      timeline.pauses.map (fun silence => (silence.sceneId, silence.start, silence.finish)) =
        [(some "first", 3.0, 3.25)] := by
  have ready : Plan.ofComposition weave none (some fun _ => 0.0) = .ok weavePlan := rfl
  have drawing := isDrawing_drawn weavePlan
  have done : (weavePlan.runDrawn weavePlan.drawn []).2.2.isOk = true := by decide +kernel
  obtain ⟨timeline, run⟩ := runDrawn_of_isOk done
  have writes := writes_of_run (hasUniqueNames_of_ready ready) drawing run
  refine ⟨_, _, timeline, ready, drawing, run, runDrawn_solves ready drawing run, ?_, ?_, ?_, ?_⟩
  · simp only [writes.entryAt_eq, Option.map_map]
    decide +kernel
  · rw [writes.scenes]
    decide +kernel
  · rw [writes.scenes]
    decide +kernel
  · rw [writes.pauses]
    decide +kernel

end Plan
end Storyboard
