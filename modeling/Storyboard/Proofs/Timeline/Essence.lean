import Storyboard.Proofs.Timeline.Agreement
/-!
# What a run reads of a plan

A run reads the entities of a plan and its estimate, and of the composition what the timeline tells
of it, its authored length and still, and the lead-in. Whatever else a plan holds, among it the
timeline as it is written down and the seeds, counts only for what is drawn. So plans that are the
same in what is read run alike, given the same lengths of pauses (`Plan.runDrawn_congr`).
-/
namespace Storyboard.Plan

/-- A plan with nothing but what a run reads of it. -/
def essence (plan : Plan) : Plan where
  composition := {
    id := plan.composition.id
    fps := plan.composition.fps
    width := plan.composition.width
    height := plan.composition.height
    duration := plan.composition.duration
    poster := plan.composition.poster
    voiceover := { leadInSeconds := plan.composition.voiceover.leadInSeconds } }
  items := plan.items
  seed := none
  estimate := plan.estimate

variable (plan : Plan)

/-- An attempt at a scene reads nothing else. -/
theorem placeScene_essence (placed : Placed) (index : Nat) (s : Scene) (parts : List DrawnItem) :
    plan.essence.placeScene placed index s parts = plan.placeScene placed index s parts := by
  have alike : plan.essence.estimate = plan.estimate := rfl
  have layout : plan.essence.layOut = plan.layOut := by
    funext sceneId ctx now parts
    exact layOut_congr alike ⟨rfl, fun _ _ => rfl⟩
  unfold placeScene
  rw [layout]
  rfl

/-- No attempt reads anything else. -/
theorem place_essence (drawn : List (List DrawnItem)) (placed : Placed) (index : Nat) :
    plan.essence.place drawn placed index = plan.place drawn placed index := by
  unfold place
  rw [show plan.essence.items = plan.items from rfl]
  cases plan.items[index]? with
  | none => rfl
  | some item =>
    cases item with
    | scene s => exact plan.placeScene_essence placed index s _
    | transition t => rfl
    | mark m => rfl

/-- No pass reads anything else. -/
theorem pass_essence (drawn : List (List DrawnItem)) (placed : Placed) (pending : List Nat) :
    plan.essence.pass drawn placed pending = plan.pass drawn placed pending := by
  induction pending generalizing placed with
  | nil => rfl
  | cons index rest ih => simp only [pass, place_essence, ih]

/-- No walk along what waits reads anything else. -/
theorem follow?_essence (ahead : Waiting) (path : List Nat) (node : Nat) :
    plan.essence.follow? ahead path node = plan.follow? ahead path node := by
  have owner : ∀ anchor index, plan.essence.owner? anchor index = plan.owner? anchor index :=
    fun _ _ => rfl
  fun_induction plan.follow? ahead path node with
  | case1 | case2 | case3 | case4 =>
    rw [follow?]
    grind

/-- No diagnosis reads anything else. -/
theorem diagnose_essence (waiting : Waiting) :
    plan.essence.diagnose waiting = plan.diagnose waiting := by
  unfold diagnose firstLoop?
  simp only [follow?_essence]
  rfl

/-- The passes read nothing else. -/
theorem passes_essence (drawn : List (List DrawnItem)) (allowed number : Nat) (placed : Placed)
    (pending : List Nat) :
    plan.essence.passes drawn allowed number placed pending =
      plan.passes drawn allowed number placed pending := by
  induction allowed generalizing number placed pending with
  | zero => cases pending <;> rfl
  | succ allowed ih =>
    cases pending with
    | nil => rfl
    | cons index rest => simp only [passes, pass_essence, diagnose_essence, ih]

/-- The check of authored starts reads nothing else. -/
theorem checkStarts_essence (placed : Placed) (indices : List Nat) :
    plan.essence.checkStarts placed indices = plan.checkStarts placed indices := by
  induction indices with
  | nil => rfl
  | cons index rest ih =>
    rw [checkStarts, checkStarts, ih]
    rfl

/-- No run reads anything else. -/
theorem runDrawn_essence (drawn : List (List DrawnItem)) (placed : Placed) :
    plan.essence.runDrawn drawn placed = plan.runDrawn drawn placed := by
  unfold runDrawn
  rw [passes_essence]
  simp only [checkStarts_essence]
  rfl

variable {plan} {other : Plan}

/-- Plans that are the same in what a run reads run alike. -/
theorem runDrawn_congr (same : plan.essence = other.essence) (drawn : List (List DrawnItem))
    (placed : Placed) : plan.runDrawn drawn placed = other.runDrawn drawn placed := by
  rw [← runDrawn_essence, same, runDrawn_essence]

end Storyboard.Plan
