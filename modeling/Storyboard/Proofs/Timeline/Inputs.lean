import Storyboard.Proofs.Expr.References
import Storyboard.Proofs.Timeline.Retry
/-!
# What entities wait for

The inputs of an entity are the owners of the anchors that its expressions name, and the entities
that it stands behind: the one that moves its cursor, if its timing reads the cursor, the scene
before a transition that overlaps and has no authored start, and the transitions that lead into a
scene. An attempt waits only for an input that is not placed (`place_waits`).
-/
namespace Storyboard

/-! ## The anchors that an entity names -/

/-- The anchors that a value names, if there is one. -/
def TimeValue.readsOf (value : Option TimeValue) : List Anchor := (value.map reads).getD []

/-- The anchors that a timing names, if there is one. -/
def TimeRange.readsOf (time : Option TimeRange) : List Anchor :=
  TimeValue.readsOf (time.bind (·.start)) ++ TimeValue.readsOf (time.bind (·.finish)) ++
    TimeValue.readsOf (time.bind (·.duration))

/-- The anchors that a cue names. -/
def Cue.reads (c : Cue) : List Anchor :=
  TimeRange.readsOf c.time ++ TimeValue.readsOf c.duration

/-- Every anchor that a value names can be written. -/
theorem TimeValue.writable_of_readsOf {value : Option TimeValue} {anchor : Anchor}
    (member : anchor ∈ readsOf value) : anchor.IsWritable := by
  cases value with
  | none => cases member
  | some value =>
    cases value with
    | seconds seconds => cases member
    | expression text =>
      simp only [readsOf, Option.map_some, Option.getD_some, reads] at member
      cases parsed : TimeExpression.parse text with
      | error cause => simp [parsed] at member
      | ok expression =>
        rw [parsed] at member
        exact Expr.writable_of_reads expression.tree member

/-- Every anchor that a timing names can be written. -/
theorem TimeRange.writable_of_readsOf {time : Option TimeRange} {anchor : Anchor}
    (member : anchor ∈ readsOf time) : anchor.IsWritable := by
  rcases List.mem_append.mp member with bounds | duration
  · rcases List.mem_append.mp bounds with start | finish
    · exact TimeValue.writable_of_readsOf start
    · exact TimeValue.writable_of_readsOf finish
  · exact TimeValue.writable_of_readsOf duration

/-- Every anchor that a cue names can be written. -/
theorem Cue.writable_of_reads {c : Cue} {anchor : Anchor} (member : anchor ∈ c.reads) :
    anchor.IsWritable := by
  rcases List.mem_append.mp member with time | duration
  · exact TimeRange.writable_of_readsOf time
  · exact TimeValue.writable_of_readsOf duration

namespace Item

/-- The anchors that an entity names. -/
def reads : Item → List Anchor
  | .scene s => TimeRange.readsOf s.time ++ s.cues.flatMap Cue.reads
  | .transition t => TimeRange.readsOf t.time ++ TimeValue.readsOf t.duration
  | .mark m => m.position.reads

/-- The authored timing of an entity. -/
def time? : Item → Option TimeRange
  | .scene s => s.time
  | .transition t => t.time
  | .mark _ => none

/-- The authored start of an entity. -/
def start? (item : Item) : Option TimeValue := item.time?.bind (·.start)

/-- Whether the authored start or end of an entity counts from the cursor. -/
def isRelative (item : Item) : Bool :=
  item.time?.any fun range => range.startIsRelative || range.finishIsRelative

/-- Every anchor that an entity names can be written. -/
theorem writable_of_reads {item : Item} {anchor : Anchor} (member : anchor ∈ item.reads) :
    anchor.IsWritable := by
  cases item with
  | scene s =>
    rcases List.mem_append.mp member with own | inside
    · exact TimeRange.writable_of_readsOf own
    · obtain ⟨c, _, named⟩ := List.mem_flatMap.mp inside
      exact Cue.writable_of_reads named
  | transition t =>
    rcases List.mem_append.mp member with time | duration
    · exact TimeRange.writable_of_readsOf time
    · exact TimeValue.writable_of_readsOf duration
  | mark m =>
    have named : anchor ∈ TimeValue.readsOf (some m.position) := member
    exact TimeValue.writable_of_readsOf named

end Item

/-! ## Steps that wait -/

section Context

variable {ctx : Context} {anchor : Anchor}

/-- An attempt that waits for the anchor of an expression has met a missing one. -/
theorem Stop.missing_of_ofTime {α : Type} {outcome : Except TimeError α}
    (waits : outcome.mapError Stop.ofTime = .error (.waits anchor)) :
    outcome = .error (.missing anchor) := by
  obtain ⟨cause, failed, same⟩ := mapError_eq_error waits
  cases cause with
  | missing other =>
    cases same
    exact failed
  | defect _ _ => cases same
  | arithmetic _ => cases same

/-- A value in an attempt waits for an anchor that it names. -/
theorem TimeValue.seconds?_waits {value : TimeValue}
    (waits : value.seconds? ctx = .error (.waits anchor)) :
    anchor ∈ value.reads ∧ ctx.lookup? anchor = none :=
  evaluate_missing (Stop.missing_of_ofTime waits)

/-- A position waits for an anchor that its value names. -/
theorem TimeRange.position_missing {cursor : Float} {isRelative : Bool}
    {value : Option TimeValue}
    (waits : position ctx cursor isRelative value = .error (.missing anchor)) :
    anchor ∈ TimeValue.readsOf value ∧ ctx.lookup? anchor = none := by
  cases value with
  | none => cases waits
  | some value => exact TimeValue.evaluate_missing (map_eq_error waits)

/-- A timing waits for an anchor that it names. -/
theorem TimeRange.evaluate?_waits {time : Option TimeRange} {cursor : Float} {label : String}
    (waits : evaluate? time ctx cursor label = .error (.waits anchor)) :
    anchor ∈ readsOf time ∧ ctx.lookup? anchor = none := by
  cases time with
  | none => cases waits
  | some range =>
    have waits := Stop.missing_of_ofTime waits
    by_cases uncovered : (range.start.isNone && range.finish.isSome) = true
    · rw [evaluate, if_pos uncovered] at waits
      cases waits
    · rw [evaluate_eq range uncovered] at waits
      simp only [readsOf, Option.bind_some, List.mem_append]
      rcases bind_eq_error waits with inStart | ⟨start, _, later⟩
      · have found := position_missing inStart
        exact ⟨.inl (.inl found.1), found.2⟩
      · rcases bind_eq_error later with inFinish | ⟨finish, _, last⟩
        · have found := position_missing inFinish
          exact ⟨.inl (.inr found.1), found.2⟩
        · have found := position_missing (map_eq_error last)
          exact ⟨.inr found.1, found.2⟩

namespace Plan

variable {plan : Plan}

/-- The end of a cue waits for an anchor that its duration names. -/
theorem cueFinish_waits {c : Cue} {timing : Timing} {start segmentsEnd : Float}
    (waits : plan.cueFinish c ctx timing start segmentsEnd = .error (.waits anchor)) :
    anchor ∈ TimeValue.readsOf c.duration ∧ ctx.lookup? anchor = none := by
  unfold cueFinish at waits
  cases authored : timing.finishFrom start with
  | some finish => simp [authored] at waits
  | none =>
    cases own : c.duration with
    | some duration =>
      rw [authored, own] at waits
      exact TimeValue.seconds?_waits (map_eq_error waits)
    | none =>
      rw [authored, own] at waits
      dsimp only at waits
      split at waits
      · cases waits
      · split at waits <;> cases waits

/-- A cue waits for an anchor that it names. -/
theorem placeCue_waits {sceneId : String} {c : Cue} {beats : List Beat} {now : Float}
    (waits : plan.placeCue sceneId c beats ctx now = .error (.waits anchor)) :
    anchor ∈ c.reads ∧ ctx.lookup? anchor = none := by
  rw [Cue.reads, List.mem_append]
  rcases bind_eq_error waits with inTime | ⟨timing, _, later⟩
  · have found := TimeRange.evaluate?_waits inTime
    exact ⟨.inl found.1, found.2⟩
  · rcases bind_eq_error later with inFinish | ⟨finish, _, last⟩
    · have found := cueFinish_waits inFinish
      exact ⟨.inr found.1, found.2⟩
    · split at last <;> cases last

/-- A layout waits for an anchor that one of its cues names. The starts of the cues before it are
known besides what the context knows. -/
theorem layOut_waits {sceneId : String} {now : Float} {parts : List DrawnItem}
    (waits : plan.layOut sceneId ctx now parts = .error (.waits anchor)) :
    (∃ c ∈ DrawnItem.cuesOf parts, anchor ∈ c.reads) ∧ ctx.lookup? anchor = none := by
  induction parts generalizing ctx now with
  | nil => cases waits
  | cons part rest ih =>
    rcases part with ⟨gap, ⟨c, beats⟩ | seconds⟩
    · rw [layOut_cue] at waits
      rcases bind_eq_error waits with here | ⟨window, _, later⟩
      · have found := placeCue_waits here
        exact ⟨⟨c, List.mem_cons_self, found.1⟩, found.2⟩
      · rcases bind_eq_error later with behind | ⟨others, _, last⟩
        · obtain ⟨⟨d, member, named⟩, unknown⟩ := ih behind
          refine ⟨⟨d, List.mem_cons_of_mem _ member, named⟩, ?_⟩
          rw [Context.lookup?_withCue] at unknown
          split at unknown
          · cases unknown
          · exact unknown
        · cases last
    · rw [layOut_pause] at waits
      rcases bind_eq_error waits with behind | ⟨others, _, last⟩
      · exact ih behind
      · cases last

/-- The length of a transition waits for an anchor that its duration names. -/
theorem transitionSeconds_waits {t : Transition} {timing : Timing}
    (waits : transitionSeconds t ctx timing = .error (.waits anchor)) :
    anchor ∈ TimeValue.readsOf t.duration ∧ ctx.lookup? anchor = none := by
  unfold transitionSeconds at waits
  cases own : t.duration with
  | none =>
    rw [own] at waits
    split at waits <;> simp_all
  | some duration =>
    rw [own] at waits
    split at waits
    · cases waits
    · cases waits
    · rename_i same _
      cases same
      exact TimeValue.seconds?_waits waits
    · simp_all

end Plan

end Context

/-! ## Inputs -/

namespace Plan

variable {plan : Plan} {placed : Placed} {index : Nat} {anchor : Anchor}

/-- Whether placing an entity reads the cursor: one that is no mark does, if its start is not
authored, or its start or end counts from the cursor. -/
def ReadsCursor (plan : Plan) (index : Nat) : Prop :=
  ∃ item, plan.items[index]? = some item ∧ item.kind ≠ .mark ∧
    (item.start? = none ∨ item.isRelative = true)

/-- Whether the entity at an index lies over the end of the scene at `j`: a transition that
overlaps, without an authored start, with that scene the one before it. -/
def LiesOver (plan : Plan) (index j : Nat) : Prop :=
  ∃ t s, plan.items[index]? = some (.transition t) ∧ plan.mode index t = .overlap ∧
    (Item.transition t).start? = none ∧ plan.prevScene? index = some (s, j)

/-- Whether the entity at an index is a scene that the transition at `j` leads into. -/
def IsLedIntoBy (plan : Plan) (index j : Nat) : Prop :=
  plan.HasScene index ∧ ∃ t, (t, j) ∈ plan.incoming index

/-- Whether the entity at an index stands behind the one at `j` and takes a position from it. -/
def Follows (plan : Plan) (index j : Nat) : Prop :=
  (plan.ReadsCursor index ∧ plan.IsCursorSource index j) ∨ plan.LiesOver index j ∨
    plan.IsLedIntoBy index j

/-- Whether the entity at an index names an anchor in an expression. -/
def Names (plan : Plan) (index : Nat) (anchor : Anchor) : Prop :=
  ∃ item, plan.items[index]? = some item ∧ anchor ∈ item.reads

/-- Whether the entity at `j` is an input of the one at an index. -/
def Needs (plan : Plan) (index j : Nat) : Prop :=
  (∃ anchor, plan.Names index anchor ∧ plan.Owns j anchor index) ∨ plan.Follows index j

/-- A timing reads the cursor if its start is not authored, or its start or end counts from the
cursor. -/
theorem needsCursor_iff {item : Item} :
    TimeRange.needsCursor item.time? = true ↔ item.start? = none ∨ item.isRelative = true := by
  unfold TimeRange.needsCursor Item.start? Item.isRelative
  cases item.time? with
  | none => simp
  | some range => simp [or_assoc]

/-- The cursor for a timing is waited for only where it is read, under an anchor of the entity
that moves it. -/
theorem cursorFor_waits {item : Item} (present : plan.items[index]? = some item)
    (moves : item.kind ≠ .mark)
    (waits : plan.cursorFor placed index item.time? = .error (.waits anchor)) :
    ∃ j, plan.Follows index j ∧ plan.Owns j anchor index ∧ placed.lookup j = none := by
  unfold cursorFor at waits
  split at waits
  · rename_i reads
    obtain ⟨origin, stopped, same⟩ := mapError_eq_error waits
    cases same
    rcases plan.cursor_cases index with ⟨_, cursor⟩ | ⟨j, own, source, owns, cursor⟩
    · rw [cursor] at stopped
      cases stopped
    · rw [cursor] at stopped
      cases found : placed.finish? j with
      | some finish =>
        rw [found] at stopped
        cases stopped
      | none =>
        rw [found] at stopped
        cases stopped
        exact ⟨j, .inl ⟨⟨item, present, moves, needsCursor_iff.mp reads⟩, source⟩, owns,
          Option.map_eq_none_iff.mp found⟩
  · cases waits

/-- The earliest of some transitions waits for one of them that is not placed. -/
theorem earliest_waits {found : Option Float} {transitions : List (Transition × Nat)}
    (waits : earliest placed found transitions = .error anchor) :
    ∃ t j, (t, j) ∈ transitions ∧ anchor = .transition t.id ∧ placed.lookup j = none := by
  induction transitions generalizing found with
  | nil => cases waits
  | cons first rest ih =>
    obtain ⟨t, j⟩ := first
    rw [earliest] at waits
    cases known : placed.start? j with
    | none =>
      rw [known] at waits
      cases waits
      exact ⟨t, j, List.mem_cons_self, rfl, Option.map_eq_none_iff.mp known⟩
    | some start =>
      rw [known] at waits
      obtain ⟨u, k, member, same, free⟩ := ih waits
      exact ⟨u, k, List.mem_cons_of_mem _ member, same, free⟩

/-- The start of a transition waits for the scene before it, over whose end it lies. -/
theorem transitionStart_waits {t : Transition} {timing : Timing} {cursor seconds : Float}
    (present : plan.items[index]? = some (.transition t))
    (solves : TimeRange.Solves t.time (placed.context plan.fps index) cursor timing)
    (waits : plan.transitionStart placed index (plan.mode index t) timing cursor seconds =
      .error (.waits anchor)) :
    ∃ j, plan.Follows index j ∧ plan.Owns j anchor index ∧ placed.lookup j = none := by
  unfold transitionStart at waits
  split at waits
  · cases waits
  · rename_i s j unstarted overlaps before
    cases found : placed.finish? j with
    | some finish =>
      rw [found] at waits
      cases waits
    | none =>
      rw [found] at waits
      cases waits
      refine ⟨j, .inr (.inl ⟨t, s, present, overlaps, ?_, before⟩), ?_,
        Option.map_eq_none_iff.mp found⟩
      · have start := solves.start
        rw [unstarted] at start
        cases authored : t.time.bind (·.start) with
        | none => exact authored
        | some value =>
          rw [authored] at start
          obtain ⟨_, _, same⟩ := start.exists_seconds
          cases same
      · exact ⟨s, (prevScene?_eq_some before).2.1, rfl⟩
  · cases waits

/-- Whether the entity at an index lacks what an anchor stands for: it names the anchor and its
position is not known, or the anchor is that of an entity that it follows and that is not
placed. -/
def Lacks (plan : Plan) (placed : Placed) (index : Nat) (anchor : Anchor) : Prop :=
  (plan.Names index anchor ∧ (placed.context plan.fps index).lookup? anchor = none) ∨
    ∃ j, plan.Follows index j ∧ plan.Owns j anchor index ∧ placed.lookup j = none

/-- An attempt at a scene waits for what the scene lacks. -/
theorem placeScene_waits {s : Scene} {parts : List DrawnItem}
    (present : plan.items[index]? = some (.scene s)) (authored : DrawnItem.cuesOf parts = s.cues)
    (waits : plan.placeScene placed index s parts = .error (.waits anchor)) :
    plan.Lacks placed index anchor := by
  rcases bind_eq_error waits with atCursor | ⟨cursor, _, waits⟩
  · exact .inr (cursorFor_waits present (by simp [Item.kind]) atCursor)
  rcases bind_eq_error waits with atTiming | ⟨timing, _, waits⟩
  · have found := TimeRange.evaluate?_waits atTiming
    have named : anchor ∈ (Item.scene s).reads := List.mem_append_left _ found.1
    exact .inl ⟨⟨_, present, named⟩, found.2⟩
  rcases bind_eq_error waits with atPull | ⟨pull, _, waits⟩
  · obtain ⟨origin, stopped, same⟩ := mapError_eq_error atPull
    cases same
    obtain ⟨t, j, member, rfl, free⟩ := earliest_waits stopped
    have stands := (mem_incoming.mp member).stands
    exact .inr ⟨j, .inr (.inr ⟨⟨s, present⟩, t, member⟩), ⟨t, stands, rfl⟩, free⟩
  rcases bind_eq_error waits with atLayout | ⟨layout, _, waits⟩
  · obtain ⟨⟨c, member, inCue⟩, unknown⟩ := layOut_waits atLayout
    rw [authored] at member
    have named : anchor ∈ (Item.scene s).reads :=
      List.mem_append_right _ (List.mem_flatMap.mpr ⟨c, member, inCue⟩)
    exact .inl ⟨⟨_, present, named⟩, unknown⟩
  · split at waits <;> cases waits

/-- An attempt at a transition waits for what the transition lacks. -/
theorem placeTransition_waits {t : Transition}
    (present : plan.items[index]? = some (.transition t))
    (waits : plan.placeTransition placed index t = .error (.waits anchor)) :
    plan.Lacks placed index anchor := by
  rcases bind_eq_error waits with atCursor | ⟨cursor, _, waits⟩
  · exact .inr (cursorFor_waits present (by simp [Item.kind]) atCursor)
  rcases bind_eq_error waits with atTiming | ⟨timing, foundTiming, waits⟩
  · have found := TimeRange.evaluate?_waits atTiming
    have named : anchor ∈ (Item.transition t).reads := List.mem_append_left _ found.1
    exact .inl ⟨⟨_, present, named⟩, found.2⟩
  have solves := TimeRange.solves_of_evaluate? foundTiming
  rcases bind_eq_error waits with atSeconds | ⟨seconds, _, waits⟩
  · have found := transitionSeconds_waits atSeconds
    have named : anchor ∈ (Item.transition t).reads := List.mem_append_right _ found.1
    exact .inl ⟨⟨_, present, named⟩, found.2⟩
  rcases bind_eq_error waits with atStart | ⟨start, _, waits⟩
  · exact .inr (transitionStart_waits present solves atStart)
  · dsimp only at waits
    split at waits <;> cases waits

/-- An attempt at a mark waits for what the mark lacks. -/
theorem placeMark_waits {m : Mark} (present : plan.items[index]? = some (.mark m))
    (waits : plan.placeMark placed index m = .error (.waits anchor)) :
    plan.Lacks placed index anchor := by
  rcases bind_eq_error waits with atPosition | ⟨position, _, waits⟩
  · have found := TimeValue.seconds?_waits atPosition
    exact .inl ⟨⟨_, present, found.1⟩, found.2⟩
  · cases waits

/-- An attempt waits for what its entity lacks. -/
theorem place_waits {drawn : List (List DrawnItem)} (drawing : plan.IsDrawing drawn)
    (waits : plan.place drawn placed index = .error (.waits anchor)) :
    plan.Lacks placed index anchor := by
  unfold place at waits
  cases present : plan.items[index]? with
  | none =>
    rw [present] at waits
    cases waits
  | some item =>
    rw [present] at waits
    cases item with
    | scene s => exact placeScene_waits present (drawing.cuesOf present) waits
    | transition t => exact placeTransition_waits present waits
    | mark m => exact placeMark_waits present waits

/-- An attempt waits for an anchor that nothing placed owns. -/
theorem place_waits_unplaced {drawn : List (List DrawnItem)} (drawing : plan.IsDrawing drawn)
    (unique : plan.HasUniqueNames) (faithful : plan.Faithful placed)
    (waits : plan.place drawn placed index = .error (.waits anchor)) {j : Nat}
    (owns : plan.Owns j anchor index) : placed.lookup j = none := by
  rcases place_waits drawing waits with ⟨⟨item, _, named⟩, unknown⟩ | ⟨k, _, ownsToo, free⟩
  · exact (faithful.unplaced_of_lookup?_eq_none unique (Item.writable_of_reads named) unknown).2
      j owns
  · cases unique.owner_eq owns ownsToo
    exact free

/-- An attempt waits for an anchor of an input of its entity, or for one that the entity names and
that is neither the origin nor owned. -/
theorem place_waits_needs {drawn : List (List DrawnItem)} (drawing : plan.IsDrawing drawn)
    (unique : plan.HasUniqueNames) (faithful : plan.Faithful placed)
    (waits : plan.place drawn placed index = .error (.waits anchor)) :
    (∃ j, plan.Needs index j ∧ plan.Owns j anchor index) ∨
      plan.Names index anchor ∧ ¬ IsOrigin anchor index ∧ ∀ j, ¬ plan.Owns j anchor index := by
  rcases place_waits drawing waits with ⟨named, unknown⟩ | ⟨j, follows, owns, _⟩
  · by_cases owned : ∃ j, plan.Owns j anchor index
    · obtain ⟨j, owns⟩ := owned
      exact .inl ⟨j, .inl ⟨anchor, named, owns⟩, owns⟩
    · obtain ⟨item, present, member⟩ := named
      have written := Item.writable_of_reads member
      exact .inr ⟨⟨item, present, member⟩,
        (faithful.unplaced_of_lookup?_eq_none unique written unknown).1, not_exists.mp owned⟩
  · exact .inl ⟨j, .inr follows, owns⟩

end Plan
end Storyboard
