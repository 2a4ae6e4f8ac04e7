import Storyboard.Proofs.Timeline.Crossfade
import Storyboard.Proofs.Timeline.Inputs
import Storyboard.Proofs.Timeline.SceneOrder
/-!
# Consecutive entities tile the timeline

Where no scene or transition has an authored start and no transition lies over the end of a scene,
each of them starts at the cursor, and leaves the cursor at its end. So their rows abut, from the
lead-in on, whatever marks stand between them and whatever their cues are authored to
(`Plan.Settled.tiledTo`); and rows that abut cover every moment up to their end once
(`Entry.Tile.exists_active`). Main statement: `Plan.runDrawn_tiles`.
-/
namespace Storyboard

open Binary64

/-! ## Rows that abut -/

/-- Whether an entity is a scene or a transition. -/
def Item.takesTurn (item : Item) : Bool := item.kind != .mark

namespace Entry

/-- Whether a row is that of a scene or of a transition. -/
def takesTurn (row : Entry) : Bool := row.kind != .mark

/-- Whether a row has a length. -/
def hasLength (row : Entry) : Bool := !(row.duration == 0.0)

/-- Whether a row with a length covers a moment. -/
def covers (time : Float) (row : Entry) : Bool := row.isActiveAt time && row.hasLength

/-- Whether rows abut from one moment to another: the first starts at the one, each other exactly
where the one before it ends, and the last ends at the other. -/
def Tile : (opening : Float) → List Entry → (closing : Float) → Prop
  | opening, [], closing => opening = closing
  | opening, row :: rest, closing => row.start = opening ∧ Tile row.finish rest closing

variable {opening closing time : Float} {row : Entry} {rows : List Entry}

/-- One more row abuts if it starts where the others end. -/
theorem Tile.concat (tile : Tile opening rows closing) (starts : row.start = closing) :
    Tile opening (rows ++ [row]) row.finish := by
  induction rows generalizing opening with
  | nil => exact ⟨starts.trans tile.symm, rfl⟩
  | cons first rest ih => exact ⟨tile.1, ih tile.2⟩

/-- Rows that abut and do not end before they start do not start before the opening. -/
theorem Tile.le_start (tile : Tile opening rows closing)
    (ordered : ∀ row ∈ rows, row.start ≤ row.finish) : ∀ row ∈ rows, opening ≤ row.start := by
  induction rows generalizing opening with
  | nil => simp
  | cons first rest ih =>
    obtain ⟨rfl, later⟩ := tile
    have lasts := ordered first List.mem_cons_self
    rintro row (_ | ⟨_, behind⟩)
    · exact le_refl (isNaN_of_le lasts).1
    · calc first.start
        _ ≤ first.finish := lasts
        _ ≤ row.start :=
          ih later (fun other inside => ordered other (List.mem_cons_of_mem _ inside)) row behind

/-- A row of finite times has a length exactly if its start and end differ. -/
theorem hasLength_iff (finite : row.start.isFinite = true ∧ row.finish.isFinite = true) :
    row.hasLength = true ↔ units row.start ≠ units row.finish := by
  have zero := sub_eq_zero_iff finite.2 finite.1
  rw [hasLength, duration, Bool.not_eq_true', ← Bool.not_eq_true, zero, ne_comm]

/-- A row with a length covers what is between its start, included, and its end, excluded. -/
theorem covers_iff (finite : row.start.isFinite = true ∧ row.finish.isFinite = true) :
    row.covers time = true ↔ row.start ≤ time ∧ time < row.finish := by
  have number := isNaN_of_isFinite finite.1
  have numberOther := isNaN_of_isFinite finite.2
  rw [covers, Bool.and_eq_true, hasLength_iff finite, isActiveAt, Bool.or_eq_true, Bool.and_eq_true,
    Bool.and_eq_true, decide_eq_true_eq, decide_eq_true_eq, beq_iff_units number numberOther]
  constructor
  · rintro ⟨between | point, lasts⟩
    · exact between
    · exact absurd point.1 lasts
  · intro between
    have first := between.1
    have second := between.2
    have moment := (isNaN_of_le first).2
    rw [le_iff_units number moment] at first
    rw [lt_iff_units moment numberOther] at second
    exact ⟨.inl between, by omega⟩

/-- Of rows that abut exactly one with a length covers a moment between both ends. -/
theorem Tile.exists_active (tile : Tile opening rows closing)
    (finite : ∀ row ∈ rows, row.start.isFinite = true ∧ row.finish.isFinite = true)
    (ordered : ∀ row ∈ rows, row.start ≤ row.finish) (begun : opening ≤ time)
    (unfinished : time < closing) :
    ∃ row ∈ rows, rows.filter (covers time) = [row] := by
  induction rows generalizing opening with
  | nil =>
    obtain rfl : opening = closing := tile
    have numbers := isNaN_of_le begun
    exact absurd unfinished (not_lt_of_le numbers.1 numbers.2 begun)
  | cons first rest ih =>
    obtain ⟨rfl, later⟩ := tile
    have finiteRest := fun row inside => finite row (List.mem_cons_of_mem first inside)
    have orderedRest := fun row inside => ordered row (List.mem_cons_of_mem first inside)
    have moment := (isNaN_of_le begun).2
    have number := isNaN_of_isFinite (finite first List.mem_cons_self).2
    by_cases ends : time < first.finish
    · -- The first row covers the moment, and all others start after it.
      have none_later : rest.filter (covers time) = [] := by
        refine List.filter_eq_nil_iff.mpr fun row inside active => ?_
        have begins := ((covers_iff (finiteRest row inside)).mp active).1
        have behind := later.le_start orderedRest row inside
        have back : first.finish ≤ time :=
          le_trans number (isNaN_of_le begins).1 moment behind begins
        exact not_lt_of_le number moment back ends
      have active := (covers_iff (finite first List.mem_cons_self)).mpr ⟨begun, ends⟩
      exact ⟨first, List.mem_cons_self, by rw [List.filter_cons_of_pos active, none_later]⟩
    · -- The first row has ended, so the moment lies within the others.
      have past : first.finish ≤ time := le_of_not_lt number moment ends
      obtain ⟨row, inside, only⟩ := ih later finiteRest orderedRest past
      have passed : ¬ first.covers time = true := fun active =>
        ends ((covers_iff (finite first List.mem_cons_self)).mp active).2
      exact ⟨row, List.mem_cons_of_mem _ inside, by rw [List.filter_cons_of_neg passed, only]⟩

end Entry
/-! ## Consecutive entities -/

/-- Whether the scenes and transitions of a plan stand one behind the other: none has an authored
start, and all transitions stand between scenes. -/
structure Plan.IsConsecutive (plan : Plan) : Prop where
  /-- No entity has an authored start. -/
  unpinned : ∀ item ∈ plan.items, item.start? = none
  /-- No transition lies over the end of a scene. -/
  inserted : ∀ index t, plan.items[index]? = some (.transition t) → plan.mode index t = .insert

namespace Timeline

variable {timeline : Timeline} {plan : Plan} {index : Nat} {cursor other : Float}

/-- Before a place there is one cursor. -/
theorem CursorAt.eq (here : timeline.CursorAt plan index cursor)
    (there : timeline.CursorAt plan index other) : cursor = other := by
  rcases here with ⟨unmoved, rfl⟩ | ⟨j, entry, source, row, rfl⟩
  · rcases there with ⟨_, rfl⟩ | ⟨k, _, source, _, _⟩
    · rfl
    · exact absurd source.moves (unmoved k source.before)
  · rcases there with ⟨unmoved, _⟩ | ⟨k, entryToo, sourceToo, rowToo, rfl⟩
    · exact absurd source.moves (unmoved j source.before)
    · cases source.eq sourceToo
      cases row.symm.trans rowToo
      rfl

/-- The cursor before the first place is the lead-in. -/
theorem cursorAt_zero (timeline : Timeline) (plan : Plan) : timeline.CursorAt plan 0 plan.leadIn :=
  .inl ⟨fun j below => absurd below (Nat.not_lt_zero j), rfl⟩

/-- An entity that does not move the cursor leaves it where it was. -/
theorem CursorAt.succ (here : timeline.CursorAt plan index cursor)
    (unmoved : ¬ plan.MovesCursor index) : timeline.CursorAt plan (index + 1) cursor := by
  rcases here with ⟨none_before, rfl⟩ | ⟨j, entry, source, row, rfl⟩
  · refine .inl ⟨fun j below => ?_, rfl⟩
    rcases Nat.lt_succ_iff_lt_or_eq.mp below with earlier | rfl
    · exact none_before j earlier
    · exact unmoved
  · exact .inr ⟨j, entry, source.succ unmoved, row, rfl⟩

end Timeline

namespace Plan

variable {plan : Plan} {drawn : List (List DrawnItem)} {placed : Placed} {timeline : Timeline}
  {index : Nat}

/-- A scene or transition of a plan of consecutive entities moves the cursor, and its row starts at
the cursor before it. -/
theorem Settled.starts_at_cursor (settled : plan.Settled drawn placed timeline)
    (consecutive : plan.IsConsecutive) {item : Item} (present : plan.items[index]? = some item)
    (turn : item.takesTurn = true) :
    ∃ entry, timeline.entryAt plan index = some entry ∧ plan.MovesCursor index ∧
      timeline.CursorAt plan index entry.start := by
  have unpinned := consecutive.unpinned item (List.mem_of_getElem? present)
  cases item with
  | mark m => cases turn
  | scene s =>
    obtain ⟨entry, _, cursor, timing, _, solves⟩ := settled.scene_solves present
    have unstarted : timing.start = none := solves.authored.start_eq_none unpinned
    rcases solves.start with ⟨_, start⟩ | ⟨_, ⟨⟨j, t, _, leads, _⟩, _⟩, _⟩
    · rw [unstarted, Option.getD_none] at start
      exact ⟨entry, solves.row, movesCursor_of_scene present, start ▸ solves.counted⟩
    · exact absurd leads (not_leadsInto consecutive.inserted index j t)
  | transition t =>
    obtain ⟨p, held, _, again⟩ := settled.again index _ present
    obtain ⟨entry, cursor, timing, _, solves⟩ := settled.writes.transition_solves settled.complete
      (List.getElem?_eq_some_iff.mp present).1 held again
    have unstarted : timing.start = none := solves.authored.start_eq_none unpinned
    have inserted := consecutive.inserted index t present
    have same := solves.start_cursor unstarted (.inl (mode_eq_insert.mp inserted))
    exact ⟨entry, solves.row, (movesCursor_iff_of_transition present).mpr inserted,
      same ▸ solves.counted⟩

/-- Whether rows are those of the scenes and transitions among the first entities, and abut from the
lead-in to the cursor. -/
structure TiledTo (plan : Plan) (placed : Placed) (timeline : Timeline) (count : Nat)
    (rows : List Entry) : Prop where
  /-- Each scene and each transition has its row, in the order of the authors. -/
  shown : ((plan.items.take count).filter (·.takesTurn)).map
    (fun item => timeline.entry? item.id) = rows.map some
  /-- The rows are those in the table. -/
  listed : (((List.range count).filterMap fun index => placed.lookup index).map (·.entry)).filter
    (·.takesTurn) = rows
  /-- The rows abut. -/
  tile : ∃ cursor, timeline.CursorAt plan count cursor ∧ Entry.Tile plan.leadIn rows cursor

/-- One more entity abuts, or is a mark. -/
theorem TiledTo.succ (settled : plan.Settled drawn placed timeline)
    (consecutive : plan.IsConsecutive) {item : Item} (present : plan.items[index]? = some item)
    {rows : List Entry} (tiled : plan.TiledTo placed timeline index rows) :
    ∃ more, plan.TiledTo placed timeline (index + 1) more := by
  obtain ⟨p, held, fits, _⟩ := settled.again index item present
  obtain ⟨cursor, counted, tile⟩ := tiled.tile
  have taken : plan.items.take (index + 1) = plan.items.take index ++ [item] := by
    rw [List.take_add_one, present, Option.toList_some]
  have found : ((List.range (index + 1)).filterMap fun index => placed.lookup index) =
      ((List.range index).filterMap fun index => placed.lookup index) ++ [p] := by
    rw [List.range_succ, List.filterMap_append, List.filterMap_cons, held, List.filterMap_nil]
  have kind : p.entry.takesTurn = item.takesTurn := by
    rw [Entry.takesTurn, Item.takesTurn, fits.kind]
  cases turn : item.takesTurn with
  | false =>
    -- A mark is not among the rows and leaves the cursor where it is.
    refine ⟨rows, ?_, ?_, cursor, counted.succ fun moves => ?_, tile⟩
    · rw [taken, List.filter_append, List.filter_cons_of_neg (by rw [turn]; decide),
        List.filter_nil, List.append_nil, tiled.shown]
    · rw [found, List.map_append, List.filter_append, List.map_singleton,
        List.filter_cons_of_neg (by rw [kind, turn]; decide), List.filter_nil, List.append_nil,
        tiled.listed]
    · cases item with
      | mark m => exact not_movesCursor_of_mark present moves
      | scene s | transition t => cases turn
  | true =>
    -- Its row starts at the cursor, where the rows before it end.
    obtain ⟨entry, row, moves, starts⟩ := settled.starts_at_cursor consecutive present turn
    have own := row
    rw [settled.row held] at own
    obtain rfl := Option.some.inj own
    refine ⟨rows ++ [p.entry], ?_, ?_, p.entry.finish,
      .inr ⟨index, p.entry, moves.source_succ, row, rfl⟩, tile.concat (starts.eq counted)⟩
    · have shown : timeline.entry? item.id = some p.entry := by
        rw [← row, Timeline.entryAt, present, Option.bind_some]
      rw [taken, List.filter_append, List.filter_cons_of_pos turn, List.filter_nil,
        List.map_append, List.map_append, tiled.shown, List.map_singleton, List.map_singleton,
        shown]
    · rw [found, List.map_append, List.filter_append, List.map_singleton,
        List.filter_cons_of_pos (kind.trans turn), List.filter_nil, tiled.listed]

/-- Among the first entities the rows abut, however many they are. -/
theorem Settled.tiledTo (settled : plan.Settled drawn placed timeline)
    (consecutive : plan.IsConsecutive) {count : Nat} (inside : count ≤ plan.items.length) :
    ∃ rows, plan.TiledTo placed timeline count rows := by
  induction count with
  | zero => exact ⟨[], rfl, rfl, plan.leadIn, timeline.cursorAt_zero plan, rfl⟩
  | succ index ih =>
    obtain ⟨rows, tiled⟩ := ih (by omega)
    exact tiled.succ settled consecutive (List.getElem?_eq_getElem (by omega))

end Plan

/-! ## Timelines -/

/-- Whether rows tile a timeline from one moment to another. -/
structure Timeline.IsTiledBy (timeline : Timeline) (plan : Plan) (rows : List Entry)
    (closing : Float) : Prop where
  /-- They are the rows of all scenes and transitions, in the order of their authors. -/
  shown : (plan.items.filter (·.takesTurn)).map (fun item => timeline.entry? item.id) =
    rows.map some
  /-- They abut from the lead-in on. -/
  tile : Entry.Tile plan.leadIn rows closing
  /-- At every moment of theirs exactly one scene or transition with a length is active. -/
  covered : ∀ time, plan.leadIn ≤ time → time < closing → ∃ row ∈ rows,
    (timeline.activeAt time).filter (fun entry => entry.takesTurn && entry.hasLength) = [row]

/-- The scenes and transitions of a resolved composition of consecutive entities, with finite times,
tile its timeline: each starts exactly where the one before it ends, the first at the lead-in, and
at every moment up to the end of the last exactly one of those with a length is active. -/
theorem Plan.runDrawn_tiles {composition : Composition} {seed : Option Int}
    {estimate : Option (String → Float)} {plan : Plan} {drawn : List (List DrawnItem)}
    {placed : Placed} {events : List Event} {timeline : Timeline}
    (ready : Plan.ofComposition composition seed estimate = .ok plan)
    (sampling : plan.IsSampling drawn)
    (run : plan.runDrawn drawn [] = (placed, events, .ok timeline))
    (finite : timeline.IsFinite) (consecutive : plan.IsConsecutive) :
    ∃ rows closing, timeline.IsTiledBy plan rows closing := by
  have settled := settled_of_run (hasUniqueNames_of_ready ready) sampling.drawing run
  obtain ⟨rows, tiled⟩ := settled.tiledTo consecutive (Nat.le_refl _)
  obtain ⟨closing, _, tile⟩ := tiled.tile
  have shown := tiled.shown
  rw [List.take_length] at shown
  have same : (timeline.entries.filter (·.takesTurn)).Perm rows := by
    rw [← tiled.listed]
    exact settled.writes.entries.filter _
  have member : ∀ row ∈ rows, row ∈ timeline.entries := fun row inside =>
    List.mem_of_mem_filter (same.mem_iff.mpr inside)
  have finiteRows := fun row inside => finite row (member row inside)
  have ordered : ∀ row ∈ rows, row.start ≤ row.finish := fun row inside =>
    settled.entry_isOrdered sampling (member row inside)
      (isNaN_of_isFinite (finiteRows row inside).1) (isNaN_of_isFinite (finiteRows row inside).2)
  refine ⟨rows, closing, shown, tile, fun time begun unfinished => ?_⟩
  obtain ⟨row, inside, only⟩ := tile.exists_active finiteRows ordered begun unfinished
  refine ⟨row, inside, List.perm_singleton.mp ?_⟩
  have active : (timeline.activeAt time).filter (fun entry => entry.takesTurn && entry.hasLength) =
      (timeline.entries.filter (·.takesTurn)).filter (Entry.covers time) := by
    rw [Timeline.activeAt, List.filter_filter, List.filter_filter]
    exact List.filter_congr fun entry _ => by
      rw [Entry.covers]
      ac_rfl
  rw [active, ← only]
  exact same.filter _

namespace Plan

/-- Scenes one behind the other, one of them of no length and one with a cue that waits for a mark
further on, and a transition between scenes. -/
def stroll : Composition where
  voiceover := { leadInSeconds := 0.5 }
  timeline := [
    .scene { id := "first", items := [.cue {
      id := "hello", duration := some (.seconds 2.0)
      time := some { start := some (.expression "mark(beat)") } }] },
    .scene { id := "still", items := [.cue { id := "blank" }] },
    .mark { id := "beat", position := .expression "1 + 500ms" },
    .transition { id := "cut", mode := some .insert, duration := some (.seconds 0.25) },
    .scene { id := "last", items := [.pause (.fixed 1.0), .cue { id := "bye" }] }]

/-- The composition made ready. -/
def strollPlan : Plan := untimed stroll

/-- The entities of the composition are consecutive. -/
theorem stroll_consecutive : strollPlan.IsConsecutive := by
  constructor
  · intro item member
    rcases member with _ | ⟨_, _ | ⟨_, _ | ⟨_, _ | ⟨_, _ | ⟨_, ⟨⟩⟩⟩⟩⟩⟩ <;> rfl
  · intro index t present
    rcases index with _ | _ | _ | _ | _ | _ <;> simp [strollPlan, untimed, stroll] at present
    subst present
    rfl

/-- The composition resolves, and its four scenes and transitions tile the timeline. -/
theorem stroll_tiles : ∃ placed events timeline rows closing,
    strollPlan.runDrawn strollPlan.drawn [] = (placed, events, .ok timeline) ∧
      timeline.IsFinite ∧ rows.length = 4 ∧ timeline.IsTiledBy strollPlan rows closing := by
  have ready : Plan.ofComposition stroll none (some fun _ => 0.0) = .ok strollPlan := rfl
  have done : (strollPlan.runDrawn strollPlan.drawn []).2.2.isOk = true := by decide +kernel
  obtain ⟨timeline, run⟩ := runDrawn_of_isOk done
  have writes := writes_of_run (hasUniqueNames_of_ready ready) (isDrawing_drawn _) run
  have finite : timeline.IsFinite := writes.forall_entries.mpr (by decide +kernel)
  obtain ⟨rows, closing, tiled⟩ :=
    runDrawn_tiles ready (isSampling_drawn _) run finite stroll_consecutive
  have count : rows.length = 4 := by
    have same := congrArg List.length tiled.shown
    rwa [List.length_map, List.length_map, eq_comm] at same
  exact ⟨_, _, timeline, rows, closing, run, finite, count, tiled⟩

end Plan
end Storyboard
