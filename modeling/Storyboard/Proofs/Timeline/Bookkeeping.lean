import Storyboard.Proofs.Timeline.Publishing
import Storyboard.Proofs.Timeline.Course
/-!
# Attempts on a ledger

An attempt on a ledger that holds what is placed ends as the attempt does that only reads
(`attempt_eq`): it writes the placement down, or it leaves the tables alone; and either way it has
noted down the authored start that it found. The ledger then holds what is placed then
(`Keeps.publish`, `Keeps.pin`).
-/
namespace Storyboard

/-! ## Programs over a ledger -/

namespace Attempt

variable {α β : Type} {f : Ledger → Except Stop α} {next : α → Attempt β} {ledger : Ledger}

/-- A program goes on with what it has read. -/
theorem run_read_bind_ok {value : α} (found : f ledger = .ok value) :
    (read f >>= next).run ledger = (next value).run ledger := by
  rw [EStateM.run_bind, EStateM.run, read, found]

/-- A program that cannot read stops, and the ledger stays as it is. -/
theorem run_read_bind_error {stop : Stop} (failed : f ledger = .error stop) :
    (read f >>= next).run ledger = .error stop ledger := by
  rw [EStateM.run_bind, EStateM.run, read, failed]

/-- A program goes on with what it looks up. -/
theorem run_look_bind (g : Ledger → α) :
    (look g >>= next).run ledger = (next (g ledger)).run ledger := rfl

/-- A program goes on with what it has written. -/
theorem run_modify_bind (g : Ledger → Ledger) (next : PUnit → Attempt β) :
    ((modify g : Attempt PUnit) >>= next).run ledger = (next ⟨⟩).run (g ledger) := rfl

end Attempt

namespace Plan

variable {plan : Plan} {drawn : List (List DrawnItem)} {placed : Placed} {ledger : Ledger}
  {index : Nat}

/-- The authored start that an attempt at the scene at a place finds. -/
def sceneStart? (plan : Plan) (placed : Placed) (index : Nat) (s : Scene) : Option Float :=
  match plan.cursorFor placed index s.time with
  | .error _ => none
  | .ok cursor =>
    match TimeRange.evaluate? s.time (placed.context plan.fps index) cursor
      ("Scene \"" ++ s.id ++ "\"") with
    | .error _ => none
    | .ok timing => timing.start

/-- The authored start that an attempt at the entity at an index finds, if that is a scene. -/
def authoredStart? (plan : Plan) (placed : Placed) (index : Nat) : Option Float :=
  match plan.items[index]? with
  | some (.scene s) => plan.sceneStart? placed index s
  | _ => none

end Plan

namespace Ledger

/-- How an attempt ends on a ledger where it finds an authored start: that start is noted down, and
so is a placement. -/
def settle (ledger : Ledger) (index : Nat) (start : Option Float) :
    Except Stop Placement → EStateM.Result Stop Ledger Unit
  | .ok p => .ok () ((ledger.pin index start).publish index p)
  | .error stop => .error stop (ledger.pin index start)

/-- Authored starts are no part of the tables. -/
@[simp] theorem tables_pin (ledger : Ledger) (index : Nat) (start : Option Float) :
    (ledger.pin index start).tables = ledger.tables := by
  cases start <;> rfl

end Ledger

/-! ## Attempts -/

namespace Plan

variable {plan : Plan} {drawn : List (List DrawnItem)} {placed : Placed} {ledger : Ledger}
  {index : Nat}

/-- An attempt at a scene ends alike on a ledger. -/
theorem attemptScene_eq (held : ledger.tables = placed.tables) (s : Scene)
    (parts : List DrawnItem) :
    (plan.attemptScene index s parts).run ledger =
      ledger.settle index (plan.sceneStart? placed index s)
        (plan.placeScene placed index s parts) := by
  have cursors : ledger.tables.cursorFor plan index s.time =
      plan.cursorFor placed index s.time := by
    rw [held, Placed.cursorFor_tables]
  have contexts : ledger.tables.context plan.fps index = placed.context plan.fps index := by
    rw [held, Placed.context_tables]
  unfold attemptScene placeScene sceneStart?
  cases foundCursor : plan.cursorFor placed index s.time with
  | error stop => exact Attempt.run_read_bind_error (cursors.trans foundCursor)
  | ok cursor =>
    rw [Attempt.run_read_bind_ok (cursors.trans foundCursor), Attempt.run_look_bind, contexts]
    dsimp only [bind, Except.bind]
    cases TimeRange.evaluate? s.time (placed.context plan.fps index) cursor
      ("Scene \"" ++ s.id ++ "\"") with
    | error stop => rfl
    | ok timing =>
      -- the authored start is noted down by now, which no read of the tables can tell
      have pulls : ((ledger.pin index timing.start).tables.earliest none
          (plan.incoming index)).mapError Stop.waits =
            (earliest placed none (plan.incoming index)).mapError .waits := by
        rw [Ledger.tables_pin, held, Placed.earliest_tables]
      refine (Attempt.run_read_bind_ok rfl).trans ((Attempt.run_modify_bind _ _).trans ?_)
      dsimp only
      cases foundPull : (earliest placed none (plan.incoming index)).mapError Stop.waits with
      | error stop => exact Attempt.run_read_bind_error (pulls.trans foundPull)
      | ok pull =>
        refine (Attempt.run_read_bind_ok (pulls.trans foundPull)).trans ?_
        dsimp only
        cases plan.layOut s.id (placed.context plan.fps index) (timing.start.getD cursor) parts with
        | error stop => rfl
        | ok layout =>
          refine (Attempt.run_read_bind_ok rfl).trans ?_
          dsimp only
          split <;> rfl

/-- An attempt at a transition ends alike on a ledger. -/
theorem attemptTransition_eq (held : ledger.tables = placed.tables) (t : Transition) :
    (plan.attemptTransition index t).run ledger =
      ledger.settle index none (plan.placeTransition placed index t) := by
  have cursors : ledger.tables.cursorFor plan index t.time =
      plan.cursorFor placed index t.time := by
    rw [held, Placed.cursorFor_tables]
  have contexts : ledger.tables.context plan.fps index = placed.context plan.fps index := by
    rw [held, Placed.context_tables]
  unfold attemptTransition placeTransition
  cases foundCursor : plan.cursorFor placed index t.time with
  | error stop => exact Attempt.run_read_bind_error (cursors.trans foundCursor)
  | ok cursor =>
    rw [Attempt.run_read_bind_ok (cursors.trans foundCursor), Attempt.run_look_bind, contexts]
    dsimp only [bind, Except.bind]
    cases TimeRange.evaluate? t.time (placed.context plan.fps index) cursor
      ("Transition \"" ++ t.id ++ "\"") with
    | error stop => rfl
    | ok timing =>
      refine (Attempt.run_read_bind_ok rfl).trans ?_
      dsimp only
      cases transitionSeconds t (placed.context plan.fps index) timing with
      | error stop => rfl
      | ok seconds =>
        have starts : ledger.tables.transitionStart plan index (plan.mode index t) timing cursor
            seconds = plan.transitionStart placed index (plan.mode index t) timing cursor
              seconds := by
          rw [held, Placed.transitionStart_tables]
        refine (Attempt.run_read_bind_ok rfl).trans ?_
        dsimp only
        cases foundStart : plan.transitionStart placed index (plan.mode index t) timing cursor
          seconds with
        | error stop => exact Attempt.run_read_bind_error (starts.trans foundStart)
        | ok start =>
          refine (Attempt.run_read_bind_ok (starts.trans foundStart)).trans ?_
          dsimp only
          split <;> rfl

/-- An attempt at a mark ends alike on a ledger. -/
theorem attemptMark_eq (held : ledger.tables = placed.tables) (m : Mark) :
    (plan.attemptMark index m).run ledger =
      ledger.settle index none (plan.placeMark placed index m) := by
  have positions : m.position.seconds? (ledger.tables.context plan.fps index) =
      m.position.seconds? (placed.context plan.fps index) := by
    rw [held, Placed.context_tables]
  unfold attemptMark placeMark
  cases found : m.position.seconds? (placed.context plan.fps index) with
  | error stop => exact Attempt.run_read_bind_error (positions.trans found)
  | ok position => exact Attempt.run_read_bind_ok (positions.trans found)

/-- An attempt ends alike on a ledger. -/
theorem attempt_eq (drawn : List (List DrawnItem)) (held : ledger.tables = placed.tables)
    (index : Nat) :
    (plan.attempt drawn index).run ledger =
      ledger.settle index (plan.authoredStart? placed index) (plan.place drawn placed index) := by
  unfold attempt place authoredStart?
  cases plan.items[index]? with
  | none => rfl
  | some item =>
    cases item with
    | scene s => exact attemptScene_eq held s _
    | transition t => exact attemptTransition_eq held t
    | mark m => exact attemptMark_eq held m

/-! ## Authored starts -/

/-- An authored start is found where the cursor is known and the timing has one. -/
theorem authoredStart?_eq_some {start : Float} :
    plan.authoredStart? placed index = some start ↔ ∃ s cursor timing,
      plan.items[index]? = some (.scene s) ∧ plan.cursorFor placed index s.time = .ok cursor ∧
      TimeRange.evaluate? s.time (placed.context plan.fps index) cursor
        ("Scene \"" ++ s.id ++ "\"") = .ok timing ∧ timing.start = some start := by
  constructor
  · intro found
    unfold authoredStart? at found
    split at found
    · rename_i s present
      unfold sceneStart? at found
      split at found
      · cases found
      · rename_i cursor foundCursor
        split at found
        · cases found
        · rename_i timing foundTiming
          exact ⟨s, cursor, timing, present, foundCursor, foundTiming, found⟩
    · cases found
  · rintro ⟨s, cursor, timing, present, foundCursor, foundTiming, same⟩
    rw [authoredStart?, present]
    dsimp only
    rw [sceneStart?, foundCursor]
    dsimp only
    rw [foundTiming]
    exact same

/-- An authored start that is found is found again when more is placed. -/
theorem authoredStart?_of_le {more : Placed} (grows : placed.Le more)
    (known : (placed.context plan.fps index).ExtendedBy (more.context plan.fps index))
    {start : Float} (found : plan.authoredStart? placed index = some start) :
    plan.authoredStart? more index = some start := by
  obtain ⟨s, cursor, timing, present, foundCursor, foundTiming, same⟩ :=
    authoredStart?_eq_some.mp found
  exact authoredStart?_eq_some.mpr ⟨s, cursor, timing, present,
    (cursorFor_persists grows index s.time).of_ok foundCursor,
    (TimeRange.evaluate?_persists known s.time cursor _).of_ok foundTiming, same⟩

/-- The authored start of a placement is the one that the attempt has found. -/
theorem pinned_of_place {p : Placement} (done : plan.place drawn placed index = .ok p) :
    p.pinned = plan.authoredStart? placed index := by
  obtain ⟨item, present, done⟩ := place_eq_ok done
  rw [authoredStart?, present]
  cases item with
  | scene s =>
    obtain ⟨cursor, foundCursor, done⟩ := bind_eq_ok done
    obtain ⟨timing, foundTiming, done⟩ := bind_eq_ok done
    obtain ⟨pull, _, done⟩ := bind_eq_ok done
    obtain ⟨layout, _, done⟩ := bind_eq_ok done
    dsimp only
    rw [sceneStart?, foundCursor]
    dsimp only
    rw [foundTiming]
    split at done
    · cases done
    · cases done
      rfl
  | transition t =>
    obtain ⟨_, _, _, _, _, _, _, _, _, rfl⟩ := placeTransition_eq_ok done
    rfl
  | mark m =>
    obtain ⟨_, _, rfl⟩ := placeMark_eq_ok done
    rfl

end Plan

/-! ## Ledgers that hold what is placed -/

namespace Ledger

/-- What is noted down of authored starts with one more of them, if there is one. -/
theorem lookup_pin (ledger : Ledger) (index : Nat) (start : Option Float) (j : Nat) :
    (ledger.pin index start).pinned.lookup j =
      if j = index then start.or (ledger.pinned.lookup j) else ledger.pinned.lookup j := by
  cases start with
  | none => simp [pin]
  | some value =>
    by_cases same : j = index
    · rw [if_pos same, same]
      exact Table.lookup_put_self _ _ _
    · rw [if_neg same]
      exact Table.lookup_put_of_ne _ same _

/-- Whether a ledger holds what is placed. What it notes down of authored starts is what attempts
find, and at least that of the scenes placed. -/
structure Keeps (ledger : Ledger) (plan : Plan) (placed : Placed) : Prop where
  /-- The tables are those of what is placed. -/
  tables : ledger.tables = placed.tables
  /-- An authored start that is noted down is the one that an attempt finds. -/
  found : ∀ index start, ledger.pinned.lookup index = some start →
    plan.authoredStart? placed index = some start
  /-- The authored start of a placement is noted down. -/
  noted : ∀ index p start, placed.lookup index = some p → p.pinned = some start →
    ledger.pinned.lookup index = some start

/-- An empty ledger holds nothing placed. -/
theorem keeps_nil (plan : Plan) : Ledger.Keeps {} plan [] :=
  ⟨rfl, fun _ _ found => (nomatch found), fun _ _ _ found => (nomatch found)⟩

namespace Keeps

variable {plan : Plan} {drawn : List (List DrawnItem)} {placed : Placed} {ledger : Ledger}
  {index : Nat}

/-- A ledger holds the same after an attempt that stops. -/
theorem pin (keeps : ledger.Keeps plan placed) (pending : placed.lookup index = none) :
    (ledger.pin index (plan.authoredStart? placed index)).Keeps plan placed := by
  refine ⟨(ledger.tables_pin _ _).trans keeps.tables, fun j start found => ?_,
    fun j p start held noted => ?_⟩
  · rw [lookup_pin] at found
    split at found
    · rename_i same
      rcases Option.or_eq_some_iff.mp found with here | ⟨_, before⟩
      · rw [same]
        exact here
      · exact keeps.found j start before
    · exact keeps.found j start found
  · have apart : j ≠ index := by
      rintro rfl
      rw [pending] at held
      cases held
    rw [lookup_pin, if_neg apart]
    exact keeps.noted j p start held noted

/-- A ledger holds one more placement after an attempt that gives it. -/
theorem publish (keeps : ledger.Keeps plan placed) (drawing : plan.IsDrawing drawn)
    (unique : plan.HasUniqueNames) (reached : plan.Reaches drawn placed)
    (pending : placed.lookup index = none) {p : Placement}
    (done : plan.place drawn placed index = .ok p) :
    ((ledger.pin index (plan.authoredStart? placed index)).publish index p).Keeps plan
      (placed ++ [(index, p)]) := by
  obtain ⟨item, present, fits⟩ := Plan.place_fits drawing done
  have faithful := reached.faithful drawing
  have later := Plan.Reaches.faithful drawing (.placed reached pending done)
  have grows := Plan.le_append_of_pending (p := p) pending
  refine ⟨?_, fun j start found => ?_, fun j q start held noted => ?_⟩
  · rw [← faithful.publish_eq unique pending present fits, ← keeps.tables]
    rw [Ledger.publish, tables_pin]
  · -- a start that was found before the placement is found with it too
    exact Plan.authoredStart?_of_le grows (faithful.context_extendedBy unique later grows j)
      ((keeps.pin pending).found j start found)
  · change (ledger.pin index _).pinned.lookup j = some start
    rw [Plan.lookup_append_of_pending pending] at held
    split at held
    · rename_i same
      cases held
      rw [lookup_pin, if_pos same, ← Plan.pinned_of_place done, noted, Option.some_or]
    · exact (keeps.pin pending).noted j q start held noted

/-- The authored start of a placement that an attempt gives again is noted down. -/
theorem lookup_pinned (keeps : ledger.Keeps plan placed) {p : Placement}
    (held : placed.lookup index = some p) (again : plan.place drawn placed index = .ok p) :
    ledger.pinned.lookup index = p.pinned := by
  cases noted : p.pinned with
  | some start => exact keeps.noted index p start held noted
  | none =>
    cases found : ledger.pinned.lookup index with
    | none => rfl
    | some start =>
      have same := keeps.found index start found
      rw [← Plan.pinned_of_place again, noted] at same
      cases same

end Keeps

end Ledger

end Storyboard
