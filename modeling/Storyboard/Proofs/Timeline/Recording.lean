import Storyboard.Proofs.Timeline.Bookkeeping
/-!
# Resolution on a ledger is resolution

Passes on a ledger are passes: they make attempts that follow one another, each at an entity that
is not placed, on a ledger that holds what is (`Records`). So resolving on a ledger comes to the
end that resolving comes to, with the same events (`resolveLedger_eq`).
-/
namespace Storyboard

/-! ## Passes -/

namespace Trial

/-- How an attempt that was made has ended, with the ledger then. -/
def result (trial : Trial) : EStateM.Result Stop Ledger Unit :=
  match trial.outcome with
  | .ok () => .ok () trial.after
  | .error stop => .error stop trial.after

/-- Whether attempts follow one another from one ledger to another one: each begins with the ledger
that the one before leaves. -/
def Linked : Ledger → List Trial → Ledger → Prop
  | first, [], last => first = last
  | first, trial :: rest, last => trial.before = first ∧ Linked trial.after rest last

/-- Attempts that follow one another can be continued. -/
theorem Linked.append {first middle last : Ledger} {trials others : List Trial}
    (linked : Linked first trials middle) (further : Linked middle others last) :
    Linked first (trials ++ others) last := by
  induction trials generalizing first with
  | nil =>
    cases (linked : first = middle)
    exact further
  | cons trial rest ih => exact ⟨linked.1, ih linked.2⟩

/-- Whether an attempt was made at an entity that was not placed, on a ledger that held what was. -/
structure MadeAt (trial : Trial) (plan : Plan) (drawn : List (List DrawnItem)) (placed : Placed) :
    Prop where
  /-- What was placed is reached. -/
  reached : plan.Reaches drawn placed
  /-- The entity was not placed. -/
  pending : placed.lookup trial.index = none
  /-- The ledger held what was placed. -/
  keeps : trial.before.Keeps plan placed
  /-- The attempt ended so. -/
  made : (plan.attempt drawn trial.index).run trial.before = trial.result

end Trial

namespace Plan

variable {plan : Plan} {drawn : List (List DrawnItem)} {placed : Placed} {ledger : Ledger}

/-- Whether some attempts lead from one ledger to another one that holds what is placed. -/
structure Records (plan : Plan) (drawn : List (List DrawnItem)) (first : Ledger)
    (trials : List Trial) (last : Ledger) (placed : Placed) : Prop where
  /-- They follow one another. -/
  linked : Trial.Linked first trials last
  /-- Each of them was made. -/
  made : ∀ trial ∈ trials, ∃ before, trial.MadeAt plan drawn before
  /-- The last ledger holds what is placed. -/
  keeps : last.Keeps plan placed

namespace Records

variable {first : Ledger} {trials : List Trial} {last : Ledger}

/-- No attempts lead nowhere. -/
theorem nil (keeps : ledger.Keeps plan placed) : plan.Records drawn ledger [] ledger placed :=
  ⟨rfl, fun _ member => (nomatch member), keeps⟩

/-- Attempts behind one that was made. -/
theorem cons {trial : Trial} {before : Placed} (made : trial.MadeAt plan drawn before)
    (others : plan.Records drawn trial.after trials last placed) :
    plan.Records drawn trial.before (trial :: trials) last placed := by
  refine ⟨⟨rfl, others.linked⟩, fun other member => ?_, others.keeps⟩
  rcases List.mem_cons.mp member with rfl | behind
  · exact ⟨before, made⟩
  · exact others.made other behind

/-- Attempts behind others. -/
theorem append {middle : Ledger} {between : Placed} {others : List Trial}
    (records : plan.Records drawn first trials middle between)
    (further : plan.Records drawn middle others last placed) :
    plan.Records drawn first (trials ++ others) last placed := by
  refine ⟨records.linked.append further.linked, fun trial member => ?_, further.keeps⟩
  rcases List.mem_append.mp member with early | late
  · exact records.made trial early
  · exact further.made trial late

end Records

/-- A pass on a ledger is a pass. -/
theorem passLedger_records (drawing : plan.IsDrawing drawn) (unique : plan.HasUniqueNames)
    (reached : plan.Reaches drawn placed) (keeps : ledger.Keeps plan placed) {pending : List Nat}
    (distinct : pending.Nodup) (free : ∀ index ∈ pending, placed.lookup index = none) :
    plan.Records drawn ledger (plan.passLedger drawn ledger pending).1
        (plan.passLedger drawn ledger pending).2.1 (plan.pass drawn placed pending).1 ∧
      (plan.passLedger drawn ledger pending).2.2 = (plan.pass drawn placed pending).2 := by
  induction pending generalizing placed ledger with
  | nil => exact ⟨.nil keeps, rfl⟩
  | cons index rest ih =>
    obtain ⟨fresh, distinct⟩ := List.nodup_cons.mp distinct
    have here : placed.lookup index = none := free index List.mem_cons_self
    have later : ∀ j ∈ rest, placed.lookup j = none := fun j member =>
      free j (List.mem_cons_of_mem _ member)
    -- On a ledger that keeps a table an attempt ends as it does on the table.
    have ends := plan.attempt_eq drawn keeps.tables index
    rw [passLedger, pass, ends]
    cases attempt : plan.place drawn placed index with
    | ok p =>
      rw [attempt] at ends
      obtain ⟨records, same⟩ := ih (reached.placed here attempt)
        (keeps.publish drawing unique reached here attempt) distinct
        (pending_append here fresh later)
      have made : Trial.MadeAt ⟨index, ledger, .ok (),
          (ledger.pin index (plan.authoredStart? placed index)).publish index p⟩
          plan drawn placed := ⟨reached, here, keeps, ends⟩
      exact ⟨.cons made records, same⟩
    | error stop =>
      have made : Trial.MadeAt ⟨index, ledger, .error stop,
          ledger.pin index (plan.authoredStart? placed index)⟩ plan drawn placed :=
        ⟨reached, here, keeps, by rw [ends, attempt]; rfl⟩
      cases stop with
      | fails cause => exact ⟨.cons made (.nil (keeps.pin here)), rfl⟩
      | waits anchor =>
        obtain ⟨records, same⟩ := ih reached (keeps.pin here) distinct later
        exact ⟨.cons made records, congrArg (Except.map _) same⟩

/-- Passes on a ledger are passes. -/
theorem passesLedger_records (drawing : plan.IsDrawing drawn) (unique : plan.HasUniqueNames)
    (allowed number : Nat) (reached : plan.Reaches drawn placed)
    (keeps : ledger.Keeps plan placed) {pending : List Nat}
    (exact_pending : plan.ArePending placed pending) :
    plan.Records drawn ledger (plan.passesLedger drawn allowed number ledger pending).1
        (plan.passesLedger drawn allowed number ledger pending).2.1
        (plan.passes drawn allowed number placed pending).1 ∧
      (plan.passesLedger drawn allowed number ledger pending).2.2 =
        (plan.passes drawn allowed number placed pending).2 := by
  induction allowed generalizing number placed ledger pending with
  | zero => cases pending <;> exact ⟨.nil keeps, rfl⟩
  | succ allowed ih =>
    cases pending with
    | nil => exact ⟨.nil keeps, rfl⟩
    | cons index rest =>
      have free : ∀ j ∈ index :: rest, placed.lookup j = none := fun j member =>
        ((exact_pending.mem_iff j).mp member).2
      have spec := pass_passes reached exact_pending.distinct free
      obtain ⟨records, same⟩ :=
        passLedger_records drawing unique reached keeps exact_pending.distinct free
      rw [passesLedger, passes]
      generalize plan.passLedger drawn ledger (index :: rest) = kept at records same
      generalize plan.pass drawn placed (index :: rest) = result at spec records same
      obtain ⟨trials, last, outcome⟩ := kept
      obtain ⟨after, outcome⟩ := result
      cases same
      cases outcome with
      | error cause => exact ⟨records, rfl⟩
      | ok waiting =>
        dsimp only at spec records ⊢
        split
        · exact ⟨records, rfl⟩
        · obtain ⟨further, same⟩ := ih (number + 1) spec.reached records.keeps
            (spec.arePending exact_pending rfl)
          exact ⟨records.append further, congrArg (fun rest => (_ :: rest.1, rest.2)) same⟩

end Plan

/-! ## The timeline -/

namespace Plan

variable {plan : Plan} {drawn : List (List DrawnItem)} {placed : Placed} {ledger : Ledger}

/-- Authored starts are checked alike on a ledger, where attempts give all placements again. -/
theorem checkStarts_keeps (keeps : ledger.Keeps plan placed) {indices : List Nat}
    (again : ∀ index ∈ indices, ∃ p, placed.lookup index = some p ∧
      plan.place drawn placed index = .ok p) :
    ledger.checkStarts plan indices = plan.checkStarts placed indices := by
  induction indices with
  | nil => rfl
  | cons index rest ih =>
    obtain ⟨p, held, done⟩ := again index List.mem_cons_self
    have here : ledger.checkStart plan index = plan.checkStart placed index := by
      unfold Ledger.checkStart checkStart
      rw [keeps.lookup_pinned held done, held, keeps.tables, Placed.cursor_tables]
      rfl
    rw [Ledger.checkStarts, checkStarts, here]
    cases plan.checkStart placed index with
    | error cause => rfl
    | ok done => exact ih fun j member => again j (List.mem_cons_of_mem _ member)

/-- A value of the whole composition is the same by the tables. -/
theorem documentSeconds?_tables (plan : Plan) (placed : Placed) (value : Option TimeValue) :
    placed.tables.documentSeconds? plan value = plan.documentSeconds? placed value := by
  cases value with
  | none => rfl
  | some value =>
    unfold Tables.documentSeconds? documentSeconds? documentSeconds
    rw [show placed.tables.documentContext plan.fps = placed.documentContext plan.fps from rfl]
    dsimp only
    cases value.evaluate (placed.documentContext plan.fps) with
    | ok seconds => rfl
    | error cause => cases cause <;> rfl

/-- Only scenes have silences within them. -/
theorem pauses_eq_nil_of_place {index : Nat} {p : Placement}
    (done : plan.place drawn placed index = .ok p) (bare : p.scene = none) : p.pauses = [] := by
  obtain ⟨item, _, done⟩ := place_eq_ok done
  cases item with
  | scene s =>
    obtain ⟨_, _, _, _, _, _, _, _, rfl⟩ := placeScene_eq_ok done
    cases bare
  | transition t =>
    obtain ⟨_, _, _, _, _, _, _, _, _, rfl⟩ := placeTransition_eq_ok done
    rfl
  | mark m =>
    obtain ⟨_, _, rfl⟩ := placeMark_eq_ok done
    rfl

/-- The timeline is the same by the tables, where attempts give all placements again. -/
theorem timeline_tables (faithful : plan.Faithful placed)
    (again : ∀ index p, placed.lookup index = some p → plan.place drawn placed index = .ok p) :
    placed.tables.timeline plan = plan.timeline placed := by
  have entries : plan.indices.filterMap (fun index => placed.tables.entries.lookup index) =
      (plan.placements placed).map (·.entry) := by
    rw [placements, List.map_filterMap]
    exact congrArg (List.filterMap · _) (funext fun index => lookup_map_value placed _ index)
  have scenes : plan.indices.filterMap (fun index => placed.tables.scenes.lookup index) =
      (plan.placements placed).filterMap (·.scene) := by
    rw [placements, List.filterMap_filterMap]
    exact congrArg (List.filterMap · _)
      (funext fun index => lookup_filterMap_value faithful.distinct _ index)
  have pauses : (plan.indices.filterMap fun index => placed.tables.pauses.lookup index).flatten =
      (plan.placements placed).flatMap (·.pauses) := by
    unfold placements
    induction plan.indices with
    | nil => rfl
    | cons index rest ih =>
      have here : placed.tables.pauses.lookup index =
          (placed.lookup index).bind fun p => p.scene.map fun _ => p.pauses :=
        lookup_filterMap_value faithful.distinct (fun p => p.scene.map fun _ => p.pauses) index
      rw [List.filterMap_cons, List.filterMap_cons, here]
      cases held : placed.lookup index with
      | none => exact ih
      | some p =>
        rw [Option.bind_some, List.flatMap_cons, ← ih]
        cases shown : p.scene with
        | some window => rfl
        | none =>
          -- what is left out of the table has no silences
          rw [pauses_eq_nil_of_place (again index p held) shown]
          rfl
  unfold Tables.timeline timeline
  dsimp only
  rw [entries, scenes, pauses, documentSeconds?_tables, documentSeconds?_tables]

/-- To resolve on a ledger is to resolve: it comes to the same end with the same events, by
attempts that lead from an empty ledger to one that holds what is placed then. -/
theorem resolveLedger_eq (drawing : plan.IsDrawing drawn) (unique : plan.HasUniqueNames) :
    plan.Records drawn {} (plan.resolveLedger drawn).1 (plan.resolveLedger drawn).2.1
        (plan.runDrawn drawn []).1 ∧
      (plan.resolveLedger drawn).2.2 = (plan.runDrawn drawn []).2 := by
  obtain ⟨records, same⟩ := passesLedger_records drawing unique (plan.items.length + 2) 1 .start
    (Ledger.keeps_nil plan) plan.arePending_indices
  obtain ⟨reached, ends⟩ := plan.passes_ends_of_start drawn
  unfold resolveLedger runDrawn
  generalize plan.passesLedger drawn (plan.items.length + 2) 1 {} plan.indices = kept
    at records same
  generalize plan.passes drawn (plan.items.length + 2) 1 [] plan.indices = result
    at records same reached ends
  obtain ⟨trials, last, events, outcome⟩ := kept
  obtain ⟨placed, events, outcome⟩ := result
  cases same
  -- Authored starts are checked, and the timeline is written, only where all is placed. There an
  -- attempt at any entity gives its placement again, so nothing that is noted down is left over.
  cases ends with
  | failed => exact ⟨records, rfl⟩
  | stuck => exact ⟨records, rfl⟩
  | complete active all =>
    have again : ∀ index p, placed.lookup index = some p → plan.place drawn placed index = .ok p :=
      fun index p held => reached.settled drawing unique held
    have checked : last.checkStarts plan plan.indices = plan.checkStarts placed plan.indices :=
      checkStarts_keeps records.keeps fun index member =>
        reached.place_of_complete drawing unique all (List.mem_range.mp member)
    have written : last.tables.timeline plan = plan.timeline placed := by
      rw [records.keeps.tables, timeline_tables (reached.faithful drawing) again]
    dsimp only
    rw [checked, written]
    cases plan.checkStarts placed plan.indices with
    | error cause => exact ⟨records, rfl⟩
    | ok done =>
      dsimp only
      cases plan.timeline placed with
      | error cause => exact ⟨records, rfl⟩
      | ok timeline => exact ⟨records, rfl⟩

end Plan
end Storyboard
