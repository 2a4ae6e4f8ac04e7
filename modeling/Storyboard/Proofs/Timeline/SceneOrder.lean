import Storyboard.Proofs.Number.Difference
import Storyboard.Proofs.Timeline.Shown
/-!
# Scenes follow one another

A scene with an authored start is checked against the cursor, that is against the end of the
nearest entity before it that moves the cursor. A transition with an authored start is not, and
one that stands between two scenes may take the cursor back over the first of them.

Main statement: without transitions that lie over the end of a scene, and with none that takes the
cursor back, no scene starts before the one before it ends (`runDrawn_inOrder`). The cursor is
followed entity by entity (`Plan.InOrder`).
-/
namespace Storyboard

/-- Whether a scene does not start before another one ends, up to the tolerance. -/
def SceneWindow.Precedes (first second : SceneWindow) : Prop :=
  ¬ second.start < first.finish - Plan.tolerance

instance : DecidableRel SceneWindow.Precedes := fun _ _ => inferInstanceAs (Decidable (¬ _))

namespace Timeline

/-- Whether all times of the rows of a timeline are numbers. -/
def HasNumbers (timeline : Timeline) : Prop :=
  ∀ entry ∈ timeline.entries, entry.start.isNaN = false ∧ entry.finish.isNaN = false

/-- Whether no transition of a timeline lies over the end of a scene. -/
def HasNoOverlap (timeline : Timeline) : Prop :=
  ∀ entry ∈ timeline.entries, entry.mode ≠ some .overlap

/-- Whether no transition with an authored start takes the cursor back: none ends before the
nearest entity before it that moves the cursor does. -/
def KeepsCursor (timeline : Timeline) (plan : Plan) : Prop :=
  ∀ index t j entry before, plan.items[index]? = some (.transition t) →
    (t.time.bind (·.start)).isSome = true → plan.IsCursorSource index j →
    timeline.entryAt plan index = some entry → timeline.entryAt plan j = some before →
    ¬ entry.finish < before.finish

end Timeline

namespace Plan

variable {plan : Plan} {drawn : List (List DrawnItem)} {placed : Placed} {timeline : Timeline}
  {index : Nat}

/-! ## The cursor from one place to the next -/

/-- Behind an entity that moves the cursor it is the nearest one that does. -/
theorem MovesCursor.source_succ (moves : plan.MovesCursor index) :
    plan.IsCursorSource (index + 1) index :=
  ⟨Nat.lt_succ_self index, moves, fun k after before => absurd before (by omega)⟩

/-- Behind any other entity the nearest one that moves the cursor stays the same. -/
theorem IsCursorSource.succ {j : Nat} (source : plan.IsCursorSource index j)
    (unmoved : ¬ plan.MovesCursor index) : plan.IsCursorSource (index + 1) j := by
  refine ⟨Nat.lt_succ_of_lt source.before, source.moves, fun k after before => ?_⟩
  rcases Nat.lt_succ_iff_lt_or_eq.mp before with nearer | rfl
  · exact source.nearest k after nearer
  · exact unmoved

/-- The cursor is the end of its source. -/
theorem IsCursorSource.cursor_eq {j : Nat} (source : plan.IsCursorSource index j) {p : Placement}
    (held : placed.lookup j = some p) : plan.cursor placed index = .ok p.entry.finish := by
  rcases plan.cursor_cases index with ⟨unmoved, _⟩ | ⟨k, anchor, other, _, cursor⟩
  · exact absurd source.moves (unmoved j source.before)
  · cases source.eq other
    rw [cursor, Placed.finish?, held]
    rfl

/-- Where all starts are checked each of them is. -/
theorem checkStart_of_checkStarts {indices : List Nat}
    (checked : plan.checkStarts placed indices = .ok ()) (member : index ∈ indices) :
    plan.checkStart placed index = .ok () := by
  induction indices with
  | nil => cases member
  | cons first rest ih =>
    rw [checkStarts_cons] at checked
    obtain ⟨_, here, checked⟩ := bind_eq_ok checked
    rcases List.mem_cons.mp member with rfl | behind
    · exact here
    · exact ih checked behind

/-- Where each start passes the check all of them do. -/
theorem checkStarts_of_forall {indices : List Nat}
    (checked : ∀ index ∈ indices, plan.checkStart placed index = .ok ()) :
    plan.checkStarts placed indices = .ok () := by
  induction indices with
  | nil => rfl
  | cons first rest ih =>
    rw [checkStarts, checked first List.mem_cons_self]
    exact ih fun index member => checked index (List.mem_cons_of_mem _ member)

/-- A checked authored start does not lie before the cursor. -/
theorem not_lt_of_checkStart {p : Placement} {start cursor : Float}
    (held : placed.lookup index = some p) (pinned : p.pinned = some start)
    (here : plan.cursor placed index = .ok cursor)
    (checked : plan.checkStart placed index = .ok ()) : ¬ start < cursor - tolerance := by
  rw [checkStart, held, Option.bind_some, pinned, here] at checked
  dsimp only at checked
  split at checked
  · cases checked
  · assumption

/-- The tolerance is finite and not below zero. -/
theorem tolerance_nonneg : tolerance.isFinite = true ∧ 0.0 ≤ tolerance := by
  decide +kernel

/-! ## One entity -/

/-- Without transitions that lie over the end of a scene none leads into a place. -/
theorem not_leadsInto (inserted : ∀ j t, plan.items[j]? = some (.transition t) →
    plan.mode j t = .insert) (index j : Nat) (t : Transition) : ¬ plan.LeadsInto index j t :=
  fun leads => mode_eq_insert.mp (inserted j t leads.stands) leads.overlaps

/-- Without transitions that lie over the end of a scene nothing leads into a place. -/
theorem incoming_eq_nil (inserted : ∀ j t, plan.items[j]? = some (.transition t) →
    plan.mode j t = .insert) (index : Nat) : plan.incoming index = [] :=
  List.eq_nil_iff_forall_not_mem.mpr fun ⟨t, j⟩ member =>
    not_leadsInto inserted index j t (mem_incoming.mp member)

/-- A scene into which nothing leads does not start before the cursor, up to the tolerance. -/
theorem scene_not_before_cursor {s : Scene} {parts : List DrawnItem} {p : Placement}
    {cursor : Float} (free : plan.incoming index = []) (held : placed.lookup index = some p)
    (done : plan.placeScene placed index s parts = .ok p)
    (checked : plan.checkStart placed index = .ok ())
    (here : plan.cursor placed index = .ok cursor) (number : cursor.isNaN = false) :
    ¬ p.entry.start < cursor - tolerance := by
  obtain ⟨given, timing, pull, layout, foundCursor, solves, foundPull, _, same⟩ :=
    placeScene_eq_ok done
  rw [free] at foundPull
  cases foundPull
  have start : p.entry.start = timing.start.getD given := by rw [same]; rfl
  have pinned : p.pinned = timing.start := by rw [same]; rfl
  cases authored : timing.start with
  | some moment =>
    rw [start, authored]
    exact not_lt_of_checkStart held (pinned.trans authored) here checked
  | none =>
    have unread := (solves_at_cursor foundCursor solves here).2.2 authored
    rw [start, authored, Option.getD_none, unread]
    have finite := tolerance_nonneg.1
    exact Binary64.not_lt_of_le (Binary64.isNaN_sub number finite) number
      (Binary64.sub_le_self number finite tolerance_nonneg.2)

/-- A transition that stands between scenes does not end before the cursor, except with an
authored start. -/
theorem cursor_le_transition {t : Transition} {p : Placement} {cursor : Float}
    (inserted : plan.mode index t = .insert)
    (done : plan.placeTransition placed index t = .ok p)
    (here : plan.cursor placed index = .ok cursor) (number : cursor.isNaN = false)
    (numbers : p.entry.start.isNaN = false ∧ p.entry.finish.isNaN = false)
    (keeps : (t.time.bind (·.start)).isSome = true → ¬ p.entry.finish < cursor) :
    cursor ≤ p.entry.finish := by
  obtain ⟨given, timing, seconds, start, foundCursor, solves, _, foundStart, ordered, rfl⟩ :=
    placeTransition_eq_ok done
  cases authored : timing.start with
  | some moment =>
    have written := solves.start
    rw [authored] at written
    refine Binary64.le_of_not_lt number numbers.2 (keeps ?_)
    cases absent : t.time.bind (·.start) with
    | none =>
      rw [absent] at written
      cases written.eq_none
    | some value => rfl
  | none =>
    -- Without an authored start it starts at the cursor.
    unfold transitionStart at foundStart
    rw [authored, inserted] at foundStart
    have unread := (solves_at_cursor foundCursor solves here).2.2 authored
    have start_eq : cursor = start := by rw [← Except.ok.inj foundStart, unread]
    rw [start_eq]
    exact Binary64.le_of_not_lt numbers.1 numbers.2 ordered

/-! ## All entities -/

/-- The windows of the scenes among the first entities, in order. -/
def scenesBefore (placed : Placed) (count : Nat) : List SceneWindow :=
  ((List.range count).filterMap fun index => placed.lookup index).filterMap (·.scene)

/-- One more entity adds the window that it has. -/
theorem scenesBefore_succ {p : Placement} (held : placed.lookup index = some p) :
    scenesBefore placed (index + 1) = scenesBefore placed index ++ p.scene.toList := by
  unfold scenesBefore
  rw [List.range_succ, List.filterMap_append, List.filterMap_append, List.filterMap_cons, held]
  cases shown : p.scene <;> simp [shown]

/-- An entity without a window adds none. -/
theorem scenesBefore_succ_of_none {p : Placement} (held : placed.lookup index = some p)
    (unshown : p.scene = none) : scenesBefore placed (index + 1) = scenesBefore placed index := by
  rw [scenesBefore_succ held, unshown, Option.toList_none, List.append_nil]

/-- Whether the scenes among the first entities follow one another, and the cursor behind them
does not lie before the end of the last one. -/
structure InOrder (plan : Plan) (placed : Placed) (count : Nat) : Prop where
  /-- Each scene follows the one before it. -/
  chain : (scenesBefore placed count).IsChain SceneWindow.Precedes
  /-- The last scene ends at the cursor or before it. -/
  last : ∀ window ∈ (scenesBefore placed count).getLast?, window.finish.isNaN = false ∧
    ∃ j p, plan.IsCursorSource count j ∧ placed.lookup j = some p ∧
      window.finish ≤ p.entry.finish

/-- What is known of a finished table without transitions that lie over the end of a scene, where
each transition keeps the cursor. -/
structure Sequential (plan : Plan) (drawn : List (List DrawnItem)) (placed : Placed) : Prop where
  /-- An attempt at an entity gives its placement again. -/
  settled : ∀ index item, plan.items[index]? = some item → ∃ p, placed.lookup index = some p ∧
    item.Fits p ∧ plan.placeItem placed index (drawn[index]?.getD []) item = .ok p
  /-- The authored starts of scenes are checked. -/
  checked : ∀ index < plan.items.length, plan.checkStart placed index = .ok ()
  /-- All times are numbers. -/
  numbers : ∀ index p, placed.lookup index = some p →
    p.entry.start.isNaN = false ∧ p.entry.finish.isNaN = false
  /-- All transitions stand between scenes. -/
  inserted : ∀ index t, plan.items[index]? = some (.transition t) → plan.mode index t = .insert
  /-- None with an authored start takes the cursor back. -/
  keeps : ∀ index t j p before, plan.items[index]? = some (.transition t) →
    (t.time.bind (·.start)).isSome = true → plan.IsCursorSource index j →
    placed.lookup index = some p → placed.lookup j = some before →
    ¬ p.entry.finish < before.entry.finish

/-- A scene whose start is not before the cursor follows one that ends at the cursor or before
it. -/
theorem precedes_of_cursor {first second : SceneWindow} {cursor : Float}
    (numbers : first.finish.isNaN = false ∧ second.start.isNaN = false)
    (number : cursor.isNaN = false) (ends : first.finish ≤ cursor)
    (follows : ¬ second.start < cursor - tolerance) : first.Precedes second := by
  have finite := tolerance_nonneg.1
  have left := Binary64.isNaN_sub numbers.1 finite
  have right := Binary64.isNaN_sub number finite
  exact Binary64.not_lt_of_le left numbers.2 (Binary64.le_trans left right numbers.2
    (Binary64.sub_le_sub numbers.1 number finite ends)
    (Binary64.le_of_not_lt right numbers.2 follows))

/-- One more entity keeps the scenes in order. -/
theorem InOrder.succ {item : Item} (sequential : plan.Sequential drawn placed)
    (present : plan.items[index]? = some item) (order : plan.InOrder placed index) :
    plan.InOrder placed (index + 1) := by
  obtain ⟨p, held, fits, done⟩ := sequential.settled index item present
  have inside := (List.getElem?_eq_some_iff.mp present).1
  have numbers := sequential.numbers index p held
  cases item with
  | mark m =>
    -- A mark has no window and leaves the cursor where it is.
    have unshown : p.scene = none := fits.window
    have unmoved := not_movesCursor_of_mark present
    have same := scenesBefore_succ_of_none held unshown
    refine ⟨same ▸ order.chain, fun window final => ?_⟩
    obtain ⟨defined, j, before, source, known, ends⟩ := order.last window (same ▸ final)
    exact ⟨defined, j, before, source.succ unmoved, known, ends⟩
  | transition t =>
    -- The cursor goes on to the end of the transition, which does not lie before the cursor.
    have unshown : p.scene = none := fits.window
    have inserted := sequential.inserted index t present
    have moves := (movesCursor_iff_of_transition present).mpr inserted
    have same := scenesBefore_succ_of_none held unshown
    refine ⟨same ▸ order.chain, fun window final => ?_⟩
    obtain ⟨defined, j, before, source, known, ends⟩ := order.last window (same ▸ final)
    have number := (sequential.numbers j before known).2
    have onward := cursor_le_transition inserted done (source.cursor_eq known) number numbers
      fun authored => sequential.keeps index t j p before present authored source held known
    exact ⟨defined, index, p, moves.source_succ, held,
      Binary64.le_trans defined number numbers.2 ends onward⟩
  | scene s =>
    -- The window starts at the cursor or later, and moves the cursor to its own end.
    obtain ⟨window, shown, _, start, finish, _⟩ := fits.window
    have moves := movesCursor_of_scene present
    have more : scenesBefore placed (index + 1) = scenesBefore placed index ++ [window] := by
      rw [scenesBefore_succ held, shown, Option.toList_some]
    rw [← start, ← finish] at numbers
    constructor
    · rw [more, List.isChain_append]
      refine ⟨order.chain, .singleton _, fun first final second here => ?_⟩
      obtain rfl := Option.some.inj here
      obtain ⟨defined, j, before, source, known, ends⟩ := order.last first final
      have number := (sequential.numbers j before known).2
      have follows := scene_not_before_cursor (incoming_eq_nil sequential.inserted index) held done
        (sequential.checked index inside) (source.cursor_eq known) number
      exact precedes_of_cursor ⟨defined, numbers.1⟩ number ends (start ▸ follows)
    · intro last final
      rw [more, List.getLast?_concat] at final
      obtain rfl := Option.some.inj final
      exact ⟨numbers.2, index, p, moves.source_succ, held, finish ▸ Binary64.le_refl numbers.2⟩

/-- Among the first entities the scenes are in order, however many they are. -/
theorem Sequential.inOrder (sequential : plan.Sequential drawn placed) {count : Nat}
    (inside : count ≤ plan.items.length) : plan.InOrder placed count := by
  induction count with
  | zero => exact ⟨.nil, fun window final => by cases final⟩
  | succ index ih =>
    exact (ih (by omega)).succ sequential (List.getElem?_eq_getElem (by omega))

/-- A table whose timeline has no transition over the end of a scene, and in which each transition
keeps the cursor. -/
theorem sequential_of_run (unique : plan.HasUniqueNames) (drawing : plan.IsDrawing drawn)
    {events : List Event} (run : plan.runDrawn drawn [] = (placed, events, .ok timeline))
    (numbers : timeline.HasNumbers) (free : timeline.HasNoOverlap)
    (keeps : timeline.KeepsCursor plan) : plan.Sequential drawn placed := by
  obtain ⟨_, _, checked, _⟩ := runDrawn_eq_ok run
  have settled := settled_of_run unique drawing run
  refine ⟨settled.again, ?_, ?_, ?_, ?_⟩
  · intro index inside
    exact checkStart_of_checkStarts checked (List.mem_range.mpr inside)
  · intro index p held
    exact numbers p.entry (settled.writes.mem_entries.mpr ⟨index, p, held, rfl⟩)
  · intro index t present
    obtain ⟨p, held, _, again⟩ := settled.again index _ present
    have shown := free p.entry (settled.writes.mem_entries.mpr ⟨index, p, held, rfl⟩)
    obtain ⟨_, _, _, _, _, _, _, _, _, same⟩ := placeTransition_eq_ok again
    cases mode : plan.mode index t with
    | insert => rfl
    | overlap =>
      rw [same] at shown
      exact absurd (congrArg some mode) shown
  · intro index t j p before present authored source held known
    exact keeps index t j p.entry before.entry present authored source (settled.row held)
      (settled.row known)

/-- In a timeline of numbers without transitions over the end of a scene each scene follows the one
before it, if no transition takes the cursor back: no scene starts earlier than the tolerance
before the one before it ends. -/
theorem runDrawn_inOrder {composition : Composition} {seed : Option Int}
    {estimate : Option (String → Float)}
    (ready : Plan.ofComposition composition seed estimate = .ok plan)
    (drawing : plan.IsDrawing drawn) {events : List Event}
    (run : plan.runDrawn drawn [] = (placed, events, .ok timeline))
    (numbers : timeline.HasNumbers) (free : timeline.HasNoOverlap)
    (keeps : timeline.KeepsCursor plan) :
    timeline.scenes.IsChain SceneWindow.Precedes := by
  have unique := hasUniqueNames_of_ready ready
  rw [(writes_of_run unique drawing run).scenes]
  exact ((sequential_of_run unique drawing run numbers free keeps).inOrder (Nat.le_refl _)).chain

/-- Two scenes with a mark and a transition between them, which starts half a second after the
first scene. -/
def wait : Composition where
  timeline := [
    .scene { id := "first", items := [.cue { id := "hello", duration := some (.seconds 5.0) }] },
    .mark { id := "early", position := .seconds 1.0 },
    .transition {
      id := "wait", mode := some .insert
      time := some {
        start := some (.seconds 0.5), startIsRelative := true, duration := some (.seconds 1.0) } },
    .scene {
      id := "last", time := some { start := some (.expression "scene(first).end + 1.5") }
      items := [.cue { id := "goodbye", duration := some (.seconds 2.0) }] }]

/-- The composition made ready, where no text takes time. -/
def waitPlan : Plan where
  composition := wait
  items := wait.timeline
  seed := none
  estimate := fun _ => 0.0

/-- The scenes with a wait between them follow one another. -/
theorem wait_inOrder : ∃ placed events timeline,
    Plan.ofComposition wait none (some fun _ => 0.0) = .ok waitPlan ∧
      waitPlan.IsDrawing waitPlan.drawn ∧
      waitPlan.runDrawn waitPlan.drawn [] = (placed, events, .ok timeline) ∧
      timeline.HasNumbers ∧ timeline.HasNoOverlap ∧ timeline.KeepsCursor waitPlan ∧
      timeline.scenes.IsChain SceneWindow.Precedes := by
  have done : (waitPlan.runDrawn waitPlan.drawn []).2.2.isOk = true := by decide +kernel
  obtain ⟨timeline, run⟩ := runDrawn_of_isOk done
  have ready : Plan.ofComposition wait none (some fun _ => 0.0) = .ok waitPlan := rfl
  have drawing := isDrawing_drawn waitPlan
  have writes := writes_of_run (hasUniqueNames_of_ready ready) drawing run
  have numbers : timeline.HasNumbers := writes.forall_entries.mpr (by decide +kernel)
  have free : timeline.HasNoOverlap := writes.forall_entries.mpr (by decide +kernel)
  have keeps : timeline.KeepsCursor waitPlan := by
    intro index t j entry before present authored source here there
    -- The only transition stands at the third place, and the first scene gives the cursor there.
    obtain rfl : index = 2 := by
      rcases index with _ | _ | _ | _ | index <;> simp [waitPlan, wait] at present ⊢
    have scene : waitPlan.IsCursorSource 2 0 := by
      refine ⟨by decide, movesCursor_of_scene rfl, fun k after below => ?_⟩
      obtain rfl : k = 1 := by omega
      exact not_movesCursor_of_mark rfl
    cases source.eq scene
    rw [writes.entryAt_eq] at here there
    have later : ((waitPlan.runDrawn waitPlan.drawn []).1.lookup 2).map (·.entry.finish) =
        some 6.5 := by decide +kernel
    have sooner : ((waitPlan.runDrawn waitPlan.drawn []).1.lookup 0).map (·.entry.finish) =
        some 5.0 := by decide +kernel
    obtain ⟨p, found, rfl⟩ := Option.map_eq_some_iff.mp here
    obtain ⟨before, known, rfl⟩ := Option.map_eq_some_iff.mp there
    rw [found, Option.map_some, Option.some_inj] at later
    rw [known, Option.map_some, Option.some_inj] at sooner
    rw [later, sooner]
    decide +kernel
  exact ⟨_, _, timeline, ready, drawing, run, numbers, free, keeps,
    runDrawn_inOrder ready drawing run numbers free keeps⟩

/-- Two scenes with a transition between them that lies at the start of the first one. -/
def rewind : Composition where
  timeline := [
    .scene { id := "a", items := [.cue { id := "c", duration := some (.seconds 5.0) }] },
    .transition {
      id := "t", mode := some .insert
      time := some { start := some (.seconds 0.0), finish := some (.seconds 1.0) } },
    .scene { id := "b", items := [.cue { id := "d", duration := some (.seconds 2.0) }] }]

/-- The composition made ready, where no text takes time. -/
def rewindPlan : Plan where
  composition := rewind
  items := rewind.timeline
  seed := none
  estimate := fun _ => 0.0

/-- The transition takes the cursor back, and the second scene starts before the first one
ends. -/
theorem rewind_overlaps : ∃ placed events timeline,
    Plan.ofComposition rewind none (some fun _ => 0.0) = .ok rewindPlan ∧
      rewindPlan.runDrawn rewindPlan.drawn [] = (placed, events, .ok timeline) ∧
      timeline.HasNumbers ∧ timeline.HasNoOverlap ∧
      ¬ timeline.scenes.IsChain SceneWindow.Precedes := by
  have done : (rewindPlan.runDrawn rewindPlan.drawn []).2.2.isOk = true := by decide +kernel
  obtain ⟨timeline, run⟩ := runDrawn_of_isOk done
  have ready : Plan.ofComposition rewind none (some fun _ => 0.0) = .ok rewindPlan := rfl
  have writes := writes_of_run (hasUniqueNames_of_ready ready) (isDrawing_drawn _) run
  refine ⟨_, _, timeline, ready, run, writes.forall_entries.mpr (by decide +kernel),
    writes.forall_entries.mpr (by decide +kernel), ?_⟩
  rw [writes.scenes]
  decide +kernel

end Plan
end Storyboard
