import Storyboard.Proofs.Timeline.Retry
/-!
# The course of a resolution

A table is reached by attempts at entities not placed yet, in any order and as often as one likes
(`Reaches`). A reached table is faithful, and every placement of it is what an attempt would give
again (`Reaches.settled`). Of two reached tables one is part of the other, unless the other can be
continued (`Reaches.le_or_continues`); so all orders end in one table.

The passes are one such order. They end in one of three ways (`Ends`): all is placed, an attempt
fails for good, or all that is left waits.
-/
namespace Storyboard

/-- Whether an event tells of a pass that placed nothing. -/
def Event.IsIdle : Event → Prop
  | .pass _ placed _ => placed = 0
  | .resolved _ _ _ => False

namespace Plan

/-! ## Tables that are reached -/

/-- Whether a table is reached from nothing by attempts at entities that are not placed. -/
inductive Reaches (plan : Plan) (drawn : List (List DrawnItem)) : Placed → Prop where
  /-- Nothing is placed. -/
  | start : Reaches plan drawn []
  /-- An attempt places an entity. -/
  | placed {placed : Placed} {index : Nat} {p : Placement} (earlier : Reaches plan drawn placed)
    (pending : placed.lookup index = none) (done : plan.place drawn placed index = .ok p) :
    Reaches plan drawn (placed ++ [(index, p)])
  /-- An attempt waits. -/
  | deferred {placed : Placed} {index : Nat} {anchor : Anchor}
    (earlier : Reaches plan drawn placed) (pending : placed.lookup index = none)
    (waits : plan.place drawn placed index = .error (.waits anchor)) : Reaches plan drawn placed

variable {plan : Plan} {drawn : List (List DrawnItem)} {placed other : Placed}

/-- What is found in a table with one more placement: what was there, and else that placement. -/
theorem lookup_append_of_pending {index : Nat} {p : Placement}
    (pending : placed.lookup index = none) (j : Nat) :
    (placed ++ [(index, p)]).lookup j = if j = index then some p else placed.lookup j := by
  rw [List.lookup_append, List.lookup_cons]
  by_cases same : j = index
  · subst same
    simp [pending]
  · simp [same, beq_eq_false_iff_ne.mpr same]

/-- A table is part of what it becomes with one more placement. -/
theorem le_append_of_pending {index : Nat} {p : Placement}
    (pending : placed.lookup index = none) : placed.Le (placed ++ [(index, p)]) := by
  intro j q found
  rw [lookup_append_of_pending pending]
  split
  · rename_i same
    rw [same, pending] at found
    cases found
  · exact found

/-- Other entities that are not placed stay so when one is placed. -/
theorem pending_append {index : Nat} {p : Placement} {others : List Nat}
    (pending : placed.lookup index = none) (apart : index ∉ others)
    (free : ∀ j ∈ others, placed.lookup j = none) :
    ∀ j ∈ others, (placed ++ [(index, p)]).lookup j = none := by
  intro j member
  have other : j ≠ index := fun same => apart (same ▸ member)
  rw [lookup_append_of_pending pending, if_neg other]
  exact free j member

/-- A reached table is faithful. -/
theorem Reaches.faithful (drawing : plan.IsDrawing drawn) (reached : plan.Reaches drawn placed) :
    plan.Faithful placed := by
  induction reached with
  | start => exact plan.faithful_nil
  | placed earlier pending done ih =>
    obtain ⟨item, present, fits⟩ := place_fits drawing done
    exact ih.append pending present fits
  | deferred earlier pending waits ih => exact ih

/-- Every placement of a reached table is what an attempt there gives again. -/
theorem Reaches.settled (drawing : plan.IsDrawing drawn) (unique : plan.HasUniqueNames)
    (reached : plan.Reaches drawn placed) {index : Nat} {p : Placement}
    (found : placed.lookup index = some p) : plan.place drawn placed index = .ok p := by
  induction reached generalizing index p with
  | start => cases found
  | deferred earlier pending waits ih => exact ih found
  | placed earlier pending done ih =>
    have faithful := earlier.faithful drawing
    have later := Reaches.faithful drawing (.placed earlier pending done)
    have persists := place_persists drawn unique faithful later
      (le_append_of_pending pending)
    rw [lookup_append_of_pending pending] at found
    split at found
    · rename_i same
      cases found
      rw [same]
      exact (persists _).of_ok done
    · exact (persists index).of_ok (ih found)

/-- Whether some entity that is not placed can be placed next. -/
def Continues (plan : Plan) (drawn : List (List DrawnItem)) (placed : Placed) : Prop :=
  ∃ index p, placed.lookup index = none ∧ plan.place drawn placed index = .ok p

/-- A reached table is part of every other one, unless the other one can be continued. -/
theorem Reaches.le_or_continues (drawing : plan.IsDrawing drawn) (unique : plan.HasUniqueNames)
    (reached : plan.Reaches drawn placed) (reachedOther : plan.Reaches drawn other) :
    placed.Le other ∨ plan.Continues drawn other := by
  induction reached with
  | start =>
    refine .inl fun index p found => ?_
    cases found
  | deferred earlier pending waits ih => exact ih
  | @placed before index p earlier pending done ih =>
    rcases ih with grows | continues
    · have faithful := earlier.faithful drawing
      have faithfulOther := reachedOther.faithful drawing
      have again := (place_persists drawn unique faithful faithfulOther grows index).of_ok done
      cases held : other.lookup index with
      | none => exact .inr ⟨index, p, held, again⟩
      | some q =>
        have settled := reachedOther.settled drawing unique held
        rw [again] at settled
        cases settled
        refine .inl fun j r found => ?_
        rw [lookup_append_of_pending pending] at found
        split at found
        · rename_i same
          cases found
          rw [same, held]
        · exact grows j r found
    · exact .inr continues

/-- Whether every entity is placed. -/
def IsComplete (plan : Plan) (placed : Placed) : Prop :=
  ∀ index < plan.items.length, ∃ p, placed.lookup index = some p

/-- Only an index of an entity can be placed. -/
theorem lt_length_of_place {index : Nat} {p : Placement} (drawing : plan.IsDrawing drawn)
    (done : plan.place drawn placed index = .ok p) : index < plan.items.length := by
  obtain ⟨item, present, _⟩ := place_fits drawing done
  exact (List.getElem?_eq_some_iff.mp present).1

/-- What is complete cannot be continued. -/
theorem IsComplete.not_continues (drawing : plan.IsDrawing drawn)
    (complete : plan.IsComplete placed) : ¬ plan.Continues drawn placed := by
  rintro ⟨index, p, pending, done⟩
  obtain ⟨q, held⟩ := complete index (lt_length_of_place drawing done)
  rw [pending] at held
  cases held

/-- All reached tables are part of one that is complete. -/
theorem Reaches.le_of_complete (drawing : plan.IsDrawing drawn) (unique : plan.HasUniqueNames)
    (reached : plan.Reaches drawn placed) (reachedOther : plan.Reaches drawn other)
    (complete : plan.IsComplete other) : placed.Le other :=
  (reached.le_or_continues drawing unique reachedOther).resolve_right
    (complete.not_continues drawing)

/-- In a complete table every attempt gives its placement again. -/
theorem Reaches.place_of_complete (drawing : plan.IsDrawing drawn)
    (unique : plan.HasUniqueNames) (reached : plan.Reaches drawn placed)
    (complete : plan.IsComplete placed) {index : Nat} (inside : index < plan.items.length) :
    ∃ p, placed.lookup index = some p ∧ plan.place drawn placed index = .ok p := by
  obtain ⟨p, held⟩ := complete index inside
  exact ⟨p, held, reached.settled drawing unique held⟩

/-! ## One pass -/

/-- Whether some indices are those of all entities that are not placed, each once. -/
structure ArePending (plan : Plan) (placed : Placed) (pending : List Nat) : Prop where
  /-- No index occurs twice. -/
  distinct : pending.Nodup
  /-- They are the indices of the entities that are not placed. -/
  mem_iff : ∀ index, index ∈ pending ↔
    index < plan.items.length ∧ placed.lookup index = none

/-- At first every entity is pending. -/
theorem arePending_indices (plan : Plan) : plan.ArePending [] plan.indices :=
  ⟨List.nodup_range, fun index => by simp [indices]⟩

/-- What one pass over some entities does: it goes on reaching, places none but these, and ends
early only with an attempt that fails for good. Those left are the ones not placed; where all are
left nothing has happened, and each of them waits. -/
structure Passes (plan : Plan) (drawn : List (List DrawnItem)) (placed : Placed)
    (pending : List Nat) (after : Placed) (outcome : Except ResolveError Waiting) : Prop where
  /-- The table after the pass is reached. -/
  reached : plan.Reaches drawn after
  /-- Nothing placed is lost. -/
  grows : placed.Le after
  /-- Nothing else is placed. -/
  others : ∀ index, index ∉ pending → after.lookup index = placed.lookup index
  /-- What ends a pass early is an attempt that fails for good. -/
  failed : ∀ cause, outcome = .error cause → ∃ index ∈ pending, after.lookup index = none ∧
    plan.place drawn after index = .error (.fails cause)
  /-- Those left are in order. -/
  ordered : ∀ waiting, outcome = .ok waiting → (waiting.map (·.1)).Sublist pending
  /-- Those left are the ones not placed. -/
  left : ∀ waiting, outcome = .ok waiting →
    ∀ index ∈ pending, after.lookup index = none ↔ index ∈ waiting.map (·.1)
  /-- Where all are left nothing has happened, and each of them waits. -/
  idle : ∀ waiting, outcome = .ok waiting → waiting.length = pending.length →
    after = placed ∧ ∀ edge ∈ waiting,
      plan.place drawn placed edge.1 = .error (.waits edge.2)

namespace Passes

variable {after : Placed} {outcome : Except ResolveError Waiting} {index : Nat} {rest : List Nat}

/-- A pass without entities changes nothing. -/
theorem nil (reached : plan.Reaches drawn placed) :
    plan.Passes drawn placed [] placed (.ok []) := by
  refine ⟨reached, .refl _, fun _ _ => rfl, ?_, ?_, ?_, ?_⟩
  · intro cause stopped
    cases stopped
  · intro waiting done
    cases done
    exact List.Sublist.refl _
  · intro waiting _ j member
    cases member
  · intro waiting done _
    cases done
    exact ⟨rfl, by simp⟩

/-- A pass whose first attempt fails for good ends there. -/
theorem cons_failed {cause : ResolveError} (reached : plan.Reaches drawn placed)
    (here : placed.lookup index = none)
    (fails : plan.place drawn placed index = .error (.fails cause)) :
    plan.Passes drawn placed (index :: rest) placed (.error cause) := by
  refine ⟨reached, .refl _, fun _ _ => rfl, ?_, ?_, ?_, ?_⟩
  · intro other stopped
    cases stopped
    exact ⟨index, List.mem_cons_self, here, fails⟩
  all_goals
    intro waiting done
    cases done

/-- A pass whose first attempt gives a placement goes on with that placement. -/
theorem cons_placed {p : Placement} (here : placed.lookup index = none) (fresh : index ∉ rest)
    (next : plan.Passes drawn (placed ++ [(index, p)]) rest after outcome) :
    plan.Passes drawn placed (index :: rest) after outcome := by
  have kept : after.lookup index = some p := by
    apply next.grows
    rw [lookup_append_of_pending here, if_pos rfl]
  refine ⟨next.reached, (le_append_of_pending here).trans next.grows, ?_, ?_, ?_, ?_, ?_⟩
  · intro j apart
    rw [List.mem_cons, not_or] at apart
    rw [next.others j apart.2, lookup_append_of_pending here, if_neg apart.1]
  · intro cause stopped
    obtain ⟨j, member, found⟩ := next.failed cause stopped
    exact ⟨j, List.mem_cons_of_mem _ member, found⟩
  · intro waiting done
    exact (next.ordered waiting done).cons _
  · intro waiting done j member
    rcases List.mem_cons.mp member with rfl | behind
    · have gone : j ∉ waiting.map (·.1) := fun inside =>
        fresh ((next.ordered waiting done).subset inside)
      simp [kept, gone]
    · exact next.left waiting done j behind
  · intro waiting done same
    have shorter := (next.ordered waiting done).length_le
    rw [List.length_map, same, List.length_cons] at shorter
    omega

/-- A pass whose first attempt waits goes on as if the entity were not there, and keeps it. -/
theorem cons_deferred {anchor : Anchor} (here : placed.lookup index = none) (fresh : index ∉ rest)
    (waits : plan.place drawn placed index = .error (.waits anchor))
    (next : plan.Passes drawn placed rest after outcome) :
    plan.Passes drawn placed (index :: rest) after (outcome.map ((index, anchor) :: ·)) := by
  have kept : after.lookup index = none := (next.others index fresh).trans here
  refine ⟨next.reached, next.grows, ?_, ?_, ?_, ?_, ?_⟩
  · intro j apart
    exact next.others j (List.not_mem_of_not_mem_cons apart)
  · intro cause stopped
    obtain ⟨j, member, found⟩ := next.failed cause (map_eq_error stopped)
    exact ⟨j, List.mem_cons_of_mem _ member, found⟩
  · intro waiting done
    obtain ⟨others, found, rfl⟩ := map_eq_ok done
    exact (next.ordered others found).cons_cons _
  · intro waiting done j member
    obtain ⟨others, found, rfl⟩ := map_eq_ok done
    rw [List.map_cons, List.mem_cons]
    rcases List.mem_cons.mp member with rfl | behind
    · simp [kept]
    · have apart : j ≠ index := fun same => fresh (same ▸ behind)
      rw [next.left others found j behind]
      simp [apart]
  · intro waiting done same
    obtain ⟨others, found, rfl⟩ := map_eq_ok done
    obtain ⟨unchanged, waitsToo⟩ := next.idle others found (by simpa using same)
    refine ⟨unchanged, fun edge member => ?_⟩
    rcases List.mem_cons.mp member with rfl | behind
    · exact waits
    · exact waitsToo edge behind

end Passes

/-- A pass does what it should. -/
theorem pass_passes (reached : plan.Reaches drawn placed) {pending : List Nat}
    (distinct : pending.Nodup) (free : ∀ index ∈ pending, placed.lookup index = none) :
    plan.Passes drawn placed pending (plan.pass drawn placed pending).1
      (plan.pass drawn placed pending).2 := by
  induction pending generalizing placed with
  | nil => exact .nil reached
  | cons index rest ih =>
    obtain ⟨fresh, distinct⟩ := List.nodup_cons.mp distinct
    have here : placed.lookup index = none := free index List.mem_cons_self
    have later : ∀ j ∈ rest, placed.lookup j = none := fun j member =>
      free j (List.mem_cons_of_mem _ member)
    rw [pass]
    cases attempt : plan.place drawn placed index with
    | ok p =>
      exact .cons_placed here fresh
        (ih (reached.placed here attempt) distinct (pending_append here fresh later))
    | error stop =>
      cases stop with
      | fails cause => exact .cons_failed reached here attempt
      | waits anchor => exact .cons_deferred here fresh attempt (ih reached distinct later)

/-! ## All passes -/

/-- Whether some entities, each with an anchor, are those not placed and wait for these. -/
structure IsStuck (plan : Plan) (drawn : List (List DrawnItem)) (placed : Placed)
    (waiting : Waiting) : Prop where
  /-- There are some. -/
  nonempty : waiting ≠ []
  /-- They are the entities that are not placed. -/
  pending : plan.ArePending placed (waiting.map (·.1))
  /-- Each waits for its anchor. -/
  waits : ∀ edge ∈ waiting, plan.place drawn placed edge.1 = .error (.waits edge.2)

/-- How passes end: all is placed, an attempt fails for good, or a last pass places nothing and
what is left is diagnosed. Of all passes only such a last one places nothing. -/
inductive Ends (plan : Plan) (drawn : List (List DrawnItem)) (placed : Placed) :
    List Event → Except ResolveError Unit → Prop where
  /-- All is placed. -/
  | complete {events : List Event} (active : ∀ event ∈ events, ¬ event.IsIdle)
    (all : plan.IsComplete placed) : Ends plan drawn placed events (.ok ())
  /-- An attempt fails for good. -/
  | failed {events : List Event} {index : Nat} {cause : ResolveError}
    (active : ∀ event ∈ events, ¬ event.IsIdle) (inside : index < plan.items.length)
    (pending : placed.lookup index = none)
    (fails : plan.place drawn placed index = .error (.fails cause)) :
    Ends plan drawn placed events (.error cause)
  /-- All that is left waits. -/
  | stuck {events : List Event} {number : Nat} {waiting : Waiting}
    (active : ∀ event ∈ events, ¬ event.IsIdle) (waits : plan.IsStuck drawn placed waiting) :
    Ends plan drawn placed (events ++ [.pass number 0 waiting.length])
      (.error (plan.diagnose waiting))

/-- Passes that end after a pass that placed something end likewise with it. -/
theorem Ends.cons {events : List Event} {outcome : Except ResolveError Unit} {event : Event}
    (ends : plan.Ends drawn placed events outcome) (active : ¬ event.IsIdle) :
    plan.Ends drawn placed (event :: events) outcome := by
  have first : ∀ {events : List Event}, (∀ event ∈ events, ¬ event.IsIdle) →
      ∀ other ∈ event :: events, ¬ other.IsIdle := by
    intro events rest other member
    rcases List.mem_cons.mp member with rfl | behind
    · exact active
    · exact rest other behind
  cases ends with
  | complete rest all => exact .complete (first rest) all
  | failed rest inside pending fails => exact .failed (first rest) inside pending fails
  | stuck rest waits => exact .stuck (first rest) waits

/-- Where nothing is pending all is placed. -/
theorem ArePending.isComplete (pending : plan.ArePending placed []) : plan.IsComplete placed := by
  intro index inside
  cases found : placed.lookup index with
  | none => cases (pending.mem_iff index).mpr ⟨inside, found⟩
  | some p => exact ⟨p, rfl⟩

/-- After a pass over all pending entities those left are pending. -/
theorem Passes.arePending {pending : List Nat} {after : Placed}
    {outcome : Except ResolveError Waiting} {waiting : Waiting}
    (passes : plan.Passes drawn placed pending after outcome)
    (exact_pending : plan.ArePending placed pending) (done : outcome = .ok waiting) :
    plan.ArePending after (waiting.map (·.1)) := by
  have ordered := passes.ordered waiting done
  refine ⟨ordered.nodup exact_pending.distinct, fun index => ⟨fun member => ?_, ?_⟩⟩
  · have pending := ordered.subset member
    exact ⟨((exact_pending.mem_iff index).mp pending).1,
      (passes.left waiting done index pending).mpr member⟩
  · rintro ⟨inside, absent⟩
    have pending : index ∈ pending := by
      refine (exact_pending.mem_iff index).mpr ⟨inside, ?_⟩
      cases found : placed.lookup index with
      | none => rfl
      | some p =>
        rw [passes.grows index p found] at absent
        cases absent
    exact (passes.left waiting done index pending).mp absent

/-- The passes reach a table, and come to one of three ends, if as many are allowed as entities
are pending. -/
theorem passes_ends {allowed : Nat} (number : Nat) {pending : List Nat}
    (reached : plan.Reaches drawn placed) (exact_pending : plan.ArePending placed pending)
    (enough : pending.length ≤ allowed) :
    plan.Reaches drawn (plan.passes drawn allowed number placed pending).1 ∧
      plan.Ends drawn (plan.passes drawn allowed number placed pending).1
        (plan.passes drawn allowed number placed pending).2.1
        (plan.passes drawn allowed number placed pending).2.2 := by
  induction allowed generalizing number placed pending with
  | zero =>
    cases List.length_eq_zero_iff.mp (Nat.le_zero.mp enough)
    exact ⟨reached, .complete (by simp [passes]) exact_pending.isComplete⟩
  | succ allowed ih =>
    cases pending with
    | nil => exact ⟨reached, .complete (by simp [passes]) exact_pending.isComplete⟩
    | cons index rest =>
      have spec := pass_passes reached exact_pending.distinct
        fun j member => ((exact_pending.mem_iff j).mp member).2
      rw [passes]
      generalize plan.pass drawn placed (index :: rest) = result at spec
      obtain ⟨after, outcome⟩ := result
      cases outcome with
      | error cause =>
        obtain ⟨j, member, pending, fails⟩ := spec.failed cause rfl
        have inside := ((exact_pending.mem_iff j).mp member).1
        exact ⟨spec.reached, .failed (by simp) inside pending fails⟩
      | ok waiting =>
        have shorter := (spec.ordered waiting rfl).length_le
        rw [List.length_map, List.length_cons] at shorter
        dsimp only at spec ⊢
        -- A pass that places nothing is the last one; after any other fewer entities are pending.
        split
        · rename_i same
          obtain ⟨rfl, waits⟩ := spec.idle waiting rfl same
          refine ⟨reached, ?_⟩
          rw [same, Nat.sub_self, ← same]
          change plan.Ends drawn after ([] ++ [_]) _
          refine .stuck (by simp) ⟨?_, ?_, waits⟩
          · rintro rfl
            cases same
          · exact spec.arePending exact_pending rfl
        · rename_i fewer
          have next := ih (number + 1) spec.reached
            (spec.arePending exact_pending rfl) (by
              rw [List.length_map]
              rw [List.length_cons] at enough
              omega)
          refine ⟨next.1, next.2.cons ?_⟩
          simp only [Event.IsIdle]
          omega

/-- The passes of a resolution reach a table and come to one of three ends. -/
theorem passes_ends_of_start (plan : Plan) (drawn : List (List DrawnItem)) :
    plan.Reaches drawn (plan.passes drawn (plan.items.length + 2) 1 [] plan.indices).1 ∧
      plan.Ends drawn (plan.passes drawn (plan.items.length + 2) 1 [] plan.indices).1
        (plan.passes drawn (plan.items.length + 2) 1 [] plan.indices).2.1
        (plan.passes drawn (plan.items.length + 2) 1 [] plan.indices).2.2 :=
  passes_ends 1 .start plan.arePending_indices (by simp [indices])

/-- Starts are checked one after another. -/
theorem checkStarts_cons (plan : Plan) (placed : Placed) (index : Nat) (rest : List Nat) :
    plan.checkStarts placed (index :: rest) =
      (plan.checkStart placed index >>= fun _ => plan.checkStarts placed rest) := by
  rw [checkStarts]
  cases plan.checkStart placed index <;> rfl

/-- The check of some starts fails as that of one of them does. -/
theorem checkStarts_failsIn {faults : ResolveError → Prop} {indices : List Nat}
    (each : ∀ index ∈ indices, FailsIn faults (plan.checkStart placed index)) :
    FailsIn faults (plan.checkStarts placed indices) := by
  induction indices with
  | nil => exact .of_ok _
  | cons index rest ih =>
    rw [checkStarts_cons]
    exact (each index List.mem_cons_self).bind fun _ _ =>
      ih fun j member => each j (List.mem_cons_of_mem _ member)

/-- What a complete table comes to: a timeline, if no scene starts early and the values of the
whole composition have positions. -/
def conclusion (plan : Plan) (placed : Placed) : Except ResolveError Timeline :=
  plan.checkStarts placed plan.indices >>= fun _ => plan.timeline placed

/-- The events behind the passes: one if there is a timeline. -/
def closing : Except ResolveError Timeline → List Event
  | .ok result => [.resolved result.id result.entries.length result.duration]
  | .error _ => []

/-- A resolution reaches a table; its passes end in an error, or else it comes to the conclusion of
a complete table. -/
theorem runDrawn_course {events : List Event} {outcome : Except ResolveError Timeline}
    (run : plan.runDrawn drawn [] = (placed, events, outcome)) :
    plan.Reaches drawn placed ∧
      ((∃ cause, plan.Ends drawn placed events (.error cause) ∧ outcome = .error cause) ∨
        ∃ earlier, plan.Ends drawn placed earlier (.ok ()) ∧
          outcome = plan.conclusion placed ∧ events = earlier ++ closing outcome) := by
  obtain ⟨reached, ends⟩ := plan.passes_ends_of_start drawn
  unfold runDrawn at run
  generalize plan.passes drawn (plan.items.length + 2) 1 [] plan.indices = result at *
  obtain ⟨after, earlier, ending⟩ := result
  dsimp only at reached ends run
  cases ending with
  | error cause =>
    cases run
    exact ⟨reached, .inl ⟨cause, ends, rfl⟩⟩
  | ok done =>
    have same : (after, earlier ++ closing (plan.conclusion after), plan.conclusion after) =
        (placed, events, outcome) := by
      rw [← run]
      unfold conclusion
      cases plan.checkStarts after plan.indices with
      | error cause => simp [closing, bind, Except.bind]
      | ok checked => cases plan.timeline after <;> simp [closing, bind, Except.bind]
    cases same
    exact ⟨reached, .inr ⟨earlier, ends, rfl, rfl⟩⟩

/-- A resolution that gives a timeline has reached a complete table, and no scene of it starts
early. -/
theorem runDrawn_eq_ok {events : List Event} {timeline : Timeline}
    (run : plan.runDrawn drawn [] = (placed, events, .ok timeline)) :
    plan.Reaches drawn placed ∧ plan.IsComplete placed ∧
      plan.checkStarts placed plan.indices = .ok () ∧ plan.timeline placed = .ok timeline := by
  obtain ⟨reached, ⟨cause, _, failed⟩ | ⟨earlier, ends, done, _⟩⟩ := runDrawn_course run
  · cases failed
  · obtain ⟨checked, starts, done⟩ := bind_eq_ok done.symm
    cases ends with
    | complete active all => exact ⟨reached, all, starts, done⟩

/-- A resolution that ends without an error gives a timeline. -/
theorem runDrawn_of_isOk (done : (plan.runDrawn drawn []).2.2.isOk = true) :
    ∃ timeline, plan.runDrawn drawn [] =
      ((plan.runDrawn drawn []).1, (plan.runDrawn drawn []).2.1, .ok timeline) := by
  obtain ⟨timeline, same⟩ := exists_eq_ok done
  exact ⟨timeline, by rw [← same]⟩

/-- A resolution that ends in a timeline of which something is checked. -/
theorem runDrawn_of_checked (plan : Plan) (drawn : List (List DrawnItem)) (P : Timeline → Prop)
    [DecidablePred P]
    (done : ((plan.runDrawn drawn []).2.2.toOption.any fun timeline => P timeline) = true) :
    ∃ timeline, plan.runDrawn drawn [] =
      ((plan.runDrawn drawn []).1, (plan.runDrawn drawn []).2.1, .ok timeline) ∧ P timeline := by
  rcases run : plan.runDrawn drawn [] with ⟨placed, events, cause | timeline⟩
  · rw [run] at done
    cases done
  · rw [run] at done
    exact ⟨timeline, rfl, of_decide_eq_true done⟩

/-! ## A composition that resolves -/

/-- A composition without a seed as it is listed, where no text takes time. -/
def untimed (composition : Composition) : Plan where
  composition := composition
  items := composition.timeline
  seed := none
  estimate := fun _ => 0.0

/-- Two scenes with a transition over the end of the first, and before them a mark at the start of
the second. -/
def peek : Composition where
  timeline := [
    .mark { id := "peek", position := .expression "scene(last).start" },
    .scene { id := "first", items := [.cue { id := "hello", duration := some (.seconds 2.0) }] },
    .transition { id := "fade" },
    .scene {
      id := "last"
      items := [.pause (.fixed 0.5), .cue { id := "bye", duration := some (.seconds 1.0) }] }]

/-- The composition made ready, where no text takes time. -/
def peekPlan : Plan where
  composition := peek
  items := peek.timeline
  seed := none
  estimate := fun _ => 0.0

/-- The composition can be made ready. -/
theorem peek_ready : Plan.ofComposition peek none (some fun _ => 0.0) = .ok peekPlan := rfl

/-- The composition has a timeline. -/
theorem peek_resolves : ∃ placed events timeline,
    peekPlan.runDrawn peekPlan.drawn [] = (placed, events, .ok timeline) := by
  have done : (peekPlan.runDrawn peekPlan.drawn []).2.2.isOk = true := by decide +kernel
  obtain ⟨timeline, run⟩ := runDrawn_of_isOk done
  exact ⟨_, _, timeline, run⟩

end Plan
end Storyboard
