import Storyboard.Proofs.Timeline.Atomicity
import Storyboard.Proofs.Timeline.Ending
/-!
# Resolving again

A resolver keeps what it writes on from one resolution to the next: its ledger and its table of
samples, as the last resolution has left them, complete or broken off anywhere. A `Workspace` is
that, and `Plan.resolveOn` resolves on one. Here nothing is handed from step to step: attempts read
the ledger and the samples of the workspace, so that a row left over would be read like any other.

Every resolution forgets all of it first, table by table. So on every workspace it comes to the end
that it comes to on a fresh one, and this is the end of `Composition.resolve`
(`Plan.resolveOn_afresh`).
-/
namespace Storyboard

/-! ## Workspaces -/

/-- What a resolver writes on. -/
structure Workspace where
  /-- What has been placed, with the authored starts of scenes. -/
  ledger : Ledger := {}
  /-- The samples of pauses, by place. -/
  samples : Samples := []

namespace Workspace

/-- Forget what is written, table by table. -/
def reset (workspace : Workspace) : Workspace :=
  { workspace with
    ledger := { workspace.ledger with
      tables := { workspace.ledger.tables with
        starts := [], finishes := [], sceneStarts := [], sceneEnds := [], cueStarts := []
        markStarts := [], entries := [], scenes := [], pauses := [] }
      pinned := [] }
    samples := [] }

/-- No table is left out: a workspace is as fresh as a new one then. -/
theorem reset_eq (workspace : Workspace) : workspace.reset = {} := rfl

end Workspace

/-! ## Attempts on a workspace -/

/-- An error that ends a resolution. -/
def Halt.ofError (cause : ResolveError) : Halt := .stops (.fails cause)

/-- A program over a workspace. Where it halts, the workspace stays as it is then. -/
abbrev Work := EStateM Halt Workspace

namespace Work

variable {α β : Type}

/-- Run a program over the ledger of a workspace. -/
def onLedger (program : Attempt α) : Work α := fun workspace =>
  match program.run workspace.ledger with
  | .ok value ledger => .ok value { workspace with ledger }
  | .error stop ledger => .error (.stops stop) { workspace with ledger }

/-- Put the samples of a workspace beside the parts of a scene. -/
def readParts (s : Scene) : Work (List DrawnItem) := fun workspace =>
  match SceneItem.recallAll workspace.samples s.id 0 s.items with
  | .ok parts => .ok parts workspace
  | .error place => .error (.misreads (.sample place)) workspace

end Work

namespace Plan

/-- What an attempt at a scene has found when it comes to the parts. -/
structure SceneOpening where
  /-- What its expressions may read. -/
  ctx : Context
  /-- Its authored timing. -/
  timing : Timing
  /-- Where its parts start. -/
  start : Float
  /-- The earliest start of the transitions that pull it. -/
  pull : Option Float

/-- Try to place the scene at a place, up to its parts. -/
def openScene (plan : Plan) (index : Nat) (s : Scene) : Attempt SceneOpening := do
  let label := "Scene \"" ++ s.id ++ "\""
  let cursor ← Attempt.read (·.tables.cursorFor plan index s.time)
  let ctx ← Attempt.look (·.tables.context plan.fps index)
  let timing ← Attempt.read fun _ => TimeRange.evaluate? s.time ctx cursor label
  modify (·.pin index timing.start)
  let pull ← Attempt.read fun ledger =>
    (ledger.tables.earliest none (plan.incoming index)).mapError .waits
  pure ⟨ctx, timing, timing.start.getD cursor, pull⟩

/-- Try to place the scene at a place, from its parts on. -/
def closeScene (plan : Plan) (index : Nat) (s : Scene) (found : SceneOpening)
    (parts : List DrawnItem) : Attempt Unit := do
  let layout ← Attempt.read fun _ => plan.layOut s.id found.ctx found.start parts
  if layout.cues.isEmpty && (found.timing.finishFrom found.start).isNone then
    throw (Stop.compile (.noContent ("Scene \"" ++ s.id ++ "\"")))
  else modify (·.publish index (scenePlacement s found.start found.timing found.pull layout))

/-- Try to place the entity at an index on a workspace. -/
def work (plan : Plan) (index : Nat) : Work Unit :=
  match plan.items[index]? with
  | some (.scene s) => do
    let found ← Work.onLedger (plan.openScene index s)
    let parts ← Work.readParts s
    Work.onLedger (plan.closeScene index s found parts)
  | some (.transition t) => Work.onLedger (plan.attemptTransition index t)
  | some (.mark m) => Work.onLedger (plan.attemptMark index m)
  | none => throw (.stops (Stop.compile .notConverged))

/-! ## Resolutions on a workspace -/

/-- Try each of some entities once, in order: the workspace then, and those left with what they wait
for, unless one fails for good. -/
def workPass (plan : Plan) : Workspace → List Nat → Workspace × Except Halt Waiting
  | workspace, [] => (workspace, .ok [])
  | workspace, index :: rest =>
    match (plan.work index).run workspace with
    | .ok () after => plan.workPass after rest
    | .error (.stops (.waits anchor)) after =>
      let (last, outcome) := plan.workPass after rest
      (last, outcome.map ((index, anchor) :: ·))
    | .error halt after => (after, .error halt)

/-- Pass over the entities left until none is, `allowed` times at most: the workspace then, what
happened, and whether all is placed. -/
def workPasses (plan : Plan) :
    (allowed number : Nat) → Workspace → List Nat → Workspace × List Event × Except Halt Unit
  | _, _, workspace, [] => (workspace, [], .ok ())
  | 0, _, workspace, _ :: _ => (workspace, [], .error (.ofError (.compile .notConverged)))
  | allowed + 1, number, workspace, index :: rest =>
    match plan.workPass workspace (index :: rest) with
    | (last, .error halt) => (last, [], .error halt)
    | (last, .ok waiting) =>
      let event := Event.pass number (rest.length + 1 - waiting.length) waiting.length
      if waiting.length = rest.length + 1 then
        (last, [event], .error (.ofError (plan.diagnose waiting)))
      else
        let (last, events, outcome) :=
          plan.workPasses allowed (number + 1) last (waiting.map (·.1))
        (last, event :: events, outcome)

/-- Resolve on a workspace with the samples that are drawn: the workspace then, what happened, and
the timeline. -/
def resolveOn (plan : Plan) (samples : Samples) (workspace : Workspace) :
    Workspace × List Event × Except Halt Timeline :=
  let workspace := workspace.reset
  let workspace := { workspace with samples }
  let (last, events, outcome) :=
    plan.workPasses (plan.items.length + 2) 1 workspace plan.indices
  match outcome with
  | .error halt => (last, events, .error halt)
  | .ok () =>
    match last.ledger.checkStarts plan plan.indices with
    | .error cause => (last, events, .error (.ofError cause))
    | .ok () =>
      match last.ledger.tables.timeline plan with
      | .error cause => (last, events, .error (.ofError cause))
      | .ok result =>
        (last, events ++ [.resolved result.id result.entries.length result.duration], .ok result)

/-! ## What is left over is not read -/

/-- On every workspace a resolution leaves the workspace, and comes to the end, that it does on a
fresh one. -/
theorem resolveOn_fresh (plan : Plan) (samples : Samples) (workspace : Workspace) :
    plan.resolveOn samples workspace = plan.resolveOn samples {} := by
  unfold resolveOn
  rw [workspace.reset_eq, Workspace.reset_eq]

end Plan

namespace Work

variable {α β : Type}

/-- How a program over a ledger ends on a workspace with some samples, which it leaves there. -/
def ended (samples : Samples) : EStateM.Result Stop Ledger α → EStateM.Result Halt Workspace α
  | .ok value ledger => .ok value { ledger, samples }
  | .error stop ledger => .error (.stops stop) { ledger, samples }

/-- A program over a ledger ends on a workspace as it does on the ledger. -/
theorem run_onLedger (program : Attempt α) (ledger : Ledger) (samples : Samples) :
    (onLedger program).run { ledger, samples } = ended samples (program.run ledger) := by
  unfold onLedger
  rw [EStateM.run]
  cases program.run ledger <;> rfl

/-- Samples that give parts are put beside them. -/
theorem run_readParts {samples : Samples} {s : Scene} {parts : List DrawnItem}
    (recalls : SceneItem.recallAll samples s.id 0 s.items = .ok parts) (ledger : Ledger) :
    (readParts s).run { ledger, samples } = .ok parts { ledger, samples } := by
  rw [EStateM.run, readParts, recalls]

end Work

namespace Plan

variable {plan : Plan} {samples : Samples} {drawn : List (List DrawnItem)}

/-- An attempt at a scene comes to its parts and goes on from there. -/
theorem attemptScene_eq_bind (plan : Plan) (index : Nat) (s : Scene) (parts : List DrawnItem) :
    plan.attemptScene index s parts =
      plan.openScene index s >>= fun found => plan.closeScene index s found parts := by
  simp only [attemptScene, openScene, closeScene, bind_assoc, pure_bind]

/-- With samples that give what is drawn an attempt ends on a workspace as it does on the ledger. -/
theorem run_work (recalls : plan.Recalls samples drawn) (index : Nat) (ledger : Ledger) :
    (plan.work index).run { ledger, samples } =
      Work.ended samples ((plan.attempt drawn index).run ledger) := by
  unfold work attempt
  cases present : plan.items[index]? with
  | none => rfl
  | some item =>
    cases item with
    | transition t => exact Work.run_onLedger _ ledger samples
    | mark m => exact Work.run_onLedger _ ledger samples
    | scene s =>
      dsimp only
      rw [attemptScene_eq_bind, EStateM.run_bind, EStateM.run_bind, Work.run_onLedger]
      cases (plan.openScene index s).run ledger with
      | error stop after => rfl
      | ok found after =>
        dsimp only [Work.ended]
        rw [EStateM.run_bind, Work.run_readParts (recalls index s present)]
        exact Work.run_onLedger _ after samples

/-- With samples that give what is drawn a pass on a workspace is a pass on the ledger. -/
theorem workPass_eq (recalls : plan.Recalls samples drawn) (ledger : Ledger)
    (pending : List Nat) :
    plan.workPass { ledger, samples } pending =
      ({ ledger := (plan.passLedger drawn ledger pending).2.1, samples },
        (plan.passLedger drawn ledger pending).2.2.mapError .ofError) := by
  induction pending generalizing ledger with
  | nil => rfl
  | cons index rest ih =>
    rw [workPass, passLedger, run_work recalls]
    cases (plan.attempt drawn index).run ledger with
    | ok done after =>
      dsimp only [Work.ended]
      rw [ih after]
    | error stop after =>
      cases stop with
      | fails cause => rfl
      | waits anchor =>
        dsimp only [Work.ended]
        rw [ih after]
        cases (plan.passLedger drawn after rest).2.2 <;> rfl

/-- With samples that give what is drawn passes on a workspace are passes on the ledger. -/
theorem workPasses_eq (recalls : plan.Recalls samples drawn) (allowed number : Nat)
    (ledger : Ledger) (pending : List Nat) :
    plan.workPasses allowed number { ledger, samples } pending =
      ({ ledger := (plan.passesLedger drawn allowed number ledger pending).2.1, samples },
        (plan.passesLedger drawn allowed number ledger pending).2.2.1,
        (plan.passesLedger drawn allowed number ledger pending).2.2.2.mapError .ofError) := by
  induction allowed generalizing number ledger pending with
  | zero => cases pending <;> rfl
  | succ allowed ih =>
    cases pending with
    | nil => rfl
    | cons index rest =>
      rw [workPasses, passesLedger, workPass_eq recalls]
      generalize plan.passLedger drawn ledger (index :: rest) = kept
      obtain ⟨trials, last, outcome⟩ := kept
      cases outcome with
      | error cause => rfl
      | ok waiting =>
        dsimp only [Except.mapError]
        split
        · rfl
        · rw [ih]
          rfl

/-- With samples that give what is drawn a resolution on any workspace is one on the ledger. -/
theorem resolveOn_eq (recalls : plan.Recalls samples drawn) (workspace : Workspace) :
    plan.resolveOn samples workspace =
      ({ ledger := (plan.resolveLedger drawn).2.1, samples }, (plan.resolveLedger drawn).2.2.1,
        (plan.resolveLedger drawn).2.2.2.mapError .ofError) := by
  unfold resolveOn resolveLedger
  rw [workspace.reset_eq]
  dsimp only
  rw [workPasses_eq recalls]
  generalize plan.passesLedger drawn (plan.items.length + 2) 1 {} plan.indices = kept
  obtain ⟨trials, last, events, outcome⟩ := kept
  cases outcome with
  | error cause => rfl
  | ok done =>
    dsimp only [Except.mapError]
    cases last.checkStarts plan plan.indices with
    | error cause => rfl
    | ok checked =>
      dsimp only
      cases last.tables.timeline plan <;> rfl

/-- A resolver can be used again after anything: whatever is on the workspace, a resolution leaves
it as on a fresh one, and comes to the same end. With the samples that the seed draws this is the
end of the composition, and with any other samples that of the lengths they give; nothing that is
not there is read on the way. -/
theorem resolveOn_afresh {composition : Composition} {seed : Option Int}
    {estimate : Option (String → Float)}
    (ready : ofComposition composition seed estimate = .ok plan) (workspace : Workspace) :
    (∀ samples, plan.resolveOn samples workspace = plan.resolveOn samples {}) ∧
      (plan.resolveOn plan.samples workspace).2 =
        ((composition.resolve seed estimate).1,
          (composition.resolve seed estimate).2.mapError .ofError) ∧
      (∀ samples drawn, plan.IsDrawing drawn → plan.Recalls samples drawn →
        (plan.resolveOn samples workspace).2 =
          ((plan.runDrawn drawn []).2.1, (plan.runDrawn drawn []).2.2.mapError .ofError)) ∧
      ∀ placed, (Resolver.resolve ⟨plan, placed⟩).2 = composition.resolve seed estimate := by
  have unique := hasUniqueNames_of_ready ready
  have resolved := Composition.resolve_of_ready ready
  have ends : ∀ samples drawn, plan.IsDrawing drawn → plan.Recalls samples drawn →
      (plan.resolveOn samples workspace).2 =
        ((plan.runDrawn drawn []).2.1, (plan.runDrawn drawn []).2.2.mapError .ofError) := by
    intro samples drawn drawing recalls
    rw [resolveOn_eq recalls, ← (resolveLedger_eq drawing unique).2]
  refine ⟨fun samples => plan.resolveOn_fresh samples workspace, ?_, ends, fun placed => ?_⟩
  · rw [resolved]
    exact ends plan.samples plan.drawn plan.isDrawing_drawn (recalls_samples unique)
  · rw [resolved]
    rfl

/-- A workspace on which the mark that a scene waits for is left over, at another place. -/
def leftover : Workspace where
  ledger := { tables := { markStarts := [("later", 7.0)] } }

/-- The scene that waits for the mark waits for it again: the mark that is left over is not read. -/
theorem late_afresh :
    Plan.ofComposition late none (some fun _ => 0.0) = .ok (untimed late) ∧
      (untimed late).resolveOn (untimed late).samples leftover =
        (untimed late).resolveOn (untimed late).samples {} ∧
      Event.deferrals (late.resolve none (some fun _ => 0.0)).1 = [1, 0] := by
  have ready : Plan.ofComposition late none (some fun _ => 0.0) = .ok (untimed late) := rfl
  exact ⟨ready, (resolveOn_afresh ready leftover).1 _, by decide +kernel⟩

end Plan
end Storyboard
