import Storyboard.Proofs.Timeline.Recording
import Storyboard.Proofs.Timeline.Shown
import Storyboard.Proofs.Timeline.Tiling
/-!
# Attempts are atomic

On a ledger a failed attempt changes none of the tables, and a successful one adds rows under keys
that were not there; so what has been written down once is never changed
(`resolveLedger_growsAtomically`). What a failed attempt may leave is the authored start of a scene
that it has found. That start is the one that the scene has in the timeline, if there is one.
-/
namespace Storyboard

namespace Ledger

/-- Whether all that is found in a ledger is found in another one, and alike. -/
structure Le (ledger more : Ledger) : Prop where
  /-- The tables. -/
  tables : ledger.tables.Le more.tables
  /-- The authored starts. -/
  pinned : ledger.pinned.Le more.pinned

/-- What is found is found. -/
theorem Le.refl (ledger : Ledger) : ledger.Le ledger := ⟨.refl _, .refl _⟩

/-- What is found in a ledger is found in all that hold more than a larger one. -/
theorem Le.trans {ledger more most : Ledger} (first : ledger.Le more) (second : more.Le most) :
    ledger.Le most := ⟨first.tables.trans second.tables, first.pinned.trans second.pinned⟩

end Ledger

namespace Trial

/-- Where each of some attempts that follow one another loses nothing, whatever one of them leaves
is there before every later one and in the end. -/
theorem Linked.grows {first last : Ledger} {trials : List Trial} (linked : Linked first trials last)
    (keeps : ∀ trial ∈ trials, trial.before.Le trial.after) :
    first.Le last ∧ (∀ trial ∈ trials, first.Le trial.before ∧ trial.after.Le last) ∧
      trials.Pairwise fun earlier later => earlier.after.Le later.before := by
  induction trials generalizing first with
  | nil =>
    cases (linked : first = last)
    exact ⟨.refl _, by simp, .nil⟩
  | cons trial rest ih =>
    obtain ⟨rfl, linked⟩ := linked
    obtain ⟨whole, each, pairs⟩ := ih linked fun other member =>
      keeps other (List.mem_cons_of_mem _ member)
    have here := keeps trial List.mem_cons_self
    refine ⟨here.trans whole, fun other member => ?_, .cons (fun other member => ?_) pairs⟩
    · rcases List.mem_cons.mp member with rfl | behind
      · exact ⟨.refl _, whole⟩
      · exact ⟨here.trans (each other behind).1, (each other behind).2⟩
    · exact (each other member).1

namespace MadeAt

variable {plan : Plan} {drawn : List (List DrawnItem)} {placed : Placed} {trial : Trial}

/-- An attempt that stops has noted down at most the authored start that it has found. -/
theorem after_of_error (made : trial.MadeAt plan drawn placed) {stop : Stop}
    (stopped : trial.outcome = .error stop) :
    trial.after = trial.before.pin trial.index (plan.authoredStart? placed trial.index) := by
  have ends := made.made
  rw [plan.attempt_eq drawn made.keeps.tables, result, stopped] at ends
  cases attempt : plan.place drawn placed trial.index with
  | ok p =>
    rw [attempt] at ends
    cases ends
  | error other =>
    rw [attempt] at ends
    injection ends with _ same
    exact same.symm

/-- An attempt that succeeds has written down the placement that it gives. -/
theorem after_of_ok (made : trial.MadeAt plan drawn placed) (done : trial.outcome = .ok ()) :
    ∃ p, plan.place drawn placed trial.index = .ok p ∧
      trial.after = (trial.before.pin trial.index
        (plan.authoredStart? placed trial.index)).publish trial.index p := by
  have ends := made.made
  rw [plan.attempt_eq drawn made.keeps.tables, result, done] at ends
  cases attempt : plan.place drawn placed trial.index with
  | ok p =>
    rw [attempt] at ends
    injection ends with _ same
    exact ⟨p, rfl, same.symm⟩
  | error other =>
    rw [attempt] at ends
    cases ends

/-- An attempt that succeeds adds rows for its entity. -/
theorem gains (made : trial.MadeAt plan drawn placed) (drawing : plan.IsDrawing drawn)
    (unique : plan.HasUniqueNames) (done : trial.outcome = .ok ()) :
    ∃ item, plan.items[trial.index]? = some item ∧
      trial.before.tables.Gains trial.index item trial.after.tables := by
  obtain ⟨p, done, same⟩ := made.after_of_ok done
  obtain ⟨item, present, fits⟩ := Plan.place_fits drawing done
  have faithful := made.reached.faithful drawing
  refine ⟨item, present, ?_⟩
  rw [same, Ledger.publish, Ledger.tables_pin, made.keeps.tables,
    faithful.publish_eq unique made.pending present fits]
  exact faithful.gains unique made.pending present fits

/-- An attempt loses nothing that the ledger holds. -/
theorem grows (made : trial.MadeAt plan drawn placed) (drawing : plan.IsDrawing drawn)
    (unique : plan.HasUniqueNames) : trial.before.Le trial.after := by
  have pinned : trial.before.pinned.Le
      (trial.before.pin trial.index (plan.authoredStart? placed trial.index)).pinned := by
    intro j start found
    rw [Ledger.lookup_pin]
    split
    · rename_i same
      subst same
      rw [made.keeps.found trial.index start found, Option.some_or]
    · exact found
  cases ended : trial.outcome with
  | error stop =>
    rw [made.after_of_error ended]
    exact ⟨by rw [Ledger.tables_pin]; exact .refl _, pinned⟩
  | ok done =>
    obtain ⟨item, _, gains⟩ := made.gains drawing unique ended
    obtain ⟨p, _, same⟩ := made.after_of_ok ended
    refine ⟨gains.le, ?_⟩
    rw [same]
    exact pinned

end MadeAt

end Trial

namespace Timeline

/-- Whether the scene at an index starts in a timeline at an authored start: its equations hold with
that start, so its parts are laid out from there. -/
def LaysOutFrom (timeline : Timeline) (plan : Plan) (drawn : List (List DrawnItem)) (index : Nat)
    (start : Float) : Prop :=
  ∃ s entry window cursor timing contentEnd, plan.items[index]? = some (.scene s) ∧
    timeline.SceneSolves plan index s (drawn[index]?.getD []) entry window cursor timing
      contentEnd ∧
    timing.start = some start

end Timeline

namespace Plan

variable {plan : Plan} {drawn : List (List DrawnItem)} {placed : Placed} {timeline : Timeline}
  {index : Nat}

/-- In a timeline that is written down a scene starts at the authored start that an attempt finds
when all is placed. -/
theorem Settled.laysOutFrom (settled : plan.Settled drawn placed timeline) {start : Float}
    (found : plan.authoredStart? placed index = some start) :
    timeline.LaysOutFrom plan drawn index start := by
  obtain ⟨s, given, authored, present, foundCursor, foundTiming, same⟩ :=
    authoredStart?_eq_some.mp found
  obtain ⟨entry, window, cursor, timing, contentEnd, solves⟩ := settled.scene_solves present
  refine ⟨s, entry, window, cursor, timing, contentEnd, present, solves, ?_⟩
  -- The timing that is authored is evaluated at one cursor only, in one context.
  obtain ⟨other, here, counted⟩ := settled.writes.exists_cursor settled.complete
    (List.getElem?_eq_some_iff.mp present).1
  cases solves.counted.eq counted
  obtain ⟨solved, _, _⟩ :=
    solves_at_cursor foundCursor (TimeRange.solves_of_evaluate? foundTiming) here
  have read := (solved.of_extendedBy (settled.writes.context_extendedBy index)).start
  rw [solves.authored.start.eq read, same]

/-- What holds of the attempts of a resolution. -/
structure GrowsAtomically (plan : Plan) (drawn : List (List DrawnItem)) : Prop where
  /-- On a ledger the resolution comes to the same end, with the same events. -/
  same : (plan.resolveLedger drawn).2.2 = (plan.runDrawn drawn []).2
  /-- In the end the ledger holds what is placed. -/
  holds : (plan.resolveLedger drawn).2.1.tables = (plan.runDrawn drawn []).1.tables
  /-- The attempts follow one another from an empty ledger to the last one. -/
  linked : Trial.Linked {} (plan.resolveLedger drawn).1 (plan.resolveLedger drawn).2.1
  /-- Each of them was made. -/
  made : ∀ trial ∈ (plan.resolveLedger drawn).1,
    (plan.attempt drawn trial.index).run trial.before = trial.result
  /-- A failed attempt changes none of the tables. It may note down the authored start of a
  scene. -/
  failed : ∀ trial ∈ (plan.resolveLedger drawn).1, ∀ stop, trial.outcome = .error stop →
    trial.after.tables = trial.before.tables ∧
      (trial.after.pinned = trial.before.pinned ∨
        ∃ s start, plan.items[trial.index]? = some (.scene s) ∧
          trial.after.pinned = trial.before.pinned.put trial.index start)
  /-- A successful attempt adds rows for its entity, under keys that were not there. -/
  placed : ∀ trial ∈ (plan.resolveLedger drawn).1, trial.outcome = .ok () →
    ∃ item, plan.items[trial.index]? = some item ∧
      trial.before.tables.Gains trial.index item trial.after.tables
  /-- What an attempt leaves is there before every later one. -/
  kept : (plan.resolveLedger drawn).1.Pairwise fun earlier later => earlier.after.Le later.before
  /-- What an attempt leaves is there in the end. -/
  final : ∀ trial ∈ (plan.resolveLedger drawn).1, trial.after.Le (plan.resolveLedger drawn).2.1
  /-- An authored start that is noted down is the one that the scene has in the timeline. -/
  pinned : ∀ timeline, (plan.resolveLedger drawn).2.2.2 = .ok timeline →
    ∀ trial ∈ (plan.resolveLedger drawn).1, ∀ index start,
      trial.after.pinned.lookup index = some start → timeline.LaysOutFrom plan drawn index start

/-- In every resolution attempts are atomic, and what is written down is never changed. -/
theorem resolveLedger_growsAtomically {composition : Composition} {seed : Option Int}
    {estimate : Option (String → Float)}
    (ready : Plan.ofComposition composition seed estimate = .ok plan)
    (drawing : plan.IsDrawing drawn) : plan.GrowsAtomically drawn := by
  have unique := hasUniqueNames_of_ready ready
  obtain ⟨records, same⟩ := resolveLedger_eq drawing unique
  have grows := records.linked.grows fun trial member => by
    obtain ⟨before, made⟩ := records.made trial member
    exact made.grows drawing unique
  refine ⟨same, records.keeps.tables, records.linked, ?_, ?_, ?_, grows.2.2,
    fun trial member => (grows.2.1 trial member).2, ?_⟩
  · intro trial member
    obtain ⟨before, made⟩ := records.made trial member
    exact made.made
  · intro trial member stop stopped
    obtain ⟨before, made⟩ := records.made trial member
    rw [made.after_of_error stopped]
    refine ⟨Ledger.tables_pin _ _ _, ?_⟩
    cases found : plan.authoredStart? before trial.index with
    | none => exact .inl rfl
    | some start =>
      obtain ⟨s, _, _, present, _⟩ := authoredStart?_eq_some.mp found
      exact .inr ⟨s, start, present, rfl⟩
  · intro trial member done
    obtain ⟨before, made⟩ := records.made trial member
    exact made.gains drawing unique done
  · intro timeline written trial member index start noted
    have run : plan.runDrawn drawn [] =
        ((plan.runDrawn drawn []).1, (plan.runDrawn drawn []).2.1, .ok timeline) := by
      rw [← written, same]
    have last := (grows.2.1 trial member).2.pinned index start noted
    exact (settled_of_run unique drawing run).laysOutFrom (records.keeps.found index start last)

/-- A scene with an authored start whose cue waits for a mark behind it. -/
def late : Composition where
  timeline := [
    .scene {
      id := "scene", time := some { start := some (.seconds 1.0) }
      items := [
        .cue {
          id := "hello", time := some { start := some (.expression "mark(later)") }
          duration := some (.seconds 2.0) }] },
    .mark { id := "later", position := .seconds 3.0 }]

/-- Attempts at a scene that waits are atomic. The first one fails and leaves the authored start,
and the last one places the scene. -/
theorem late_growsAtomically :
    Plan.ofComposition late none (some fun _ => 0.0) = .ok (untimed late) ∧
      (untimed late).IsDrawing (untimed late).drawn ∧
      (untimed late).GrowsAtomically (untimed late).drawn ∧
      ((untimed late).resolveLedger (untimed late).drawn).1.map
          (fun trial => (trial.index, trial.outcome.isOk, trial.after.pinned)) =
        [(0, false, [(0, 1.0)]), (1, true, [(0, 1.0)]), (0, true, [(0, 1.0)])] := by
  have ready : Plan.ofComposition late none (some fun _ => 0.0) = .ok (untimed late) := rfl
  have drawing := isDrawing_drawn (untimed late)
  exact ⟨ready, drawing, resolveLedger_growsAtomically ready drawing, by decide +kernel⟩

end Plan
end Storyboard
