import Storyboard.Proofs.Timeline.Diagnosis
import Storyboard.Proofs.Timeline.Failure
/-!
# Compositions without loops

Where no entity is an input of itself, directly or through others, and every anchor that is named
has an owner, no resolution is stuck. A transition that overlaps and has no authored start counts
the scene before it among its inputs whatever its bounds count from. On a shorter list of inputs,
which leaves that out, there may be no loop where the resolution meets one; the two lists are the
same where such transitions stand right behind the scenes they lie over
(`needs_iff_needsBriefly`).
-/
namespace Storyboard.Plan

variable {plan : Plan} {drawn : List (List DrawnItem)} {placed : Placed} {waiting : Waiting}

/-- What waits for another entity has it as an input. -/
theorem IsStuck.needs (drawing : plan.IsDrawing drawn) (unique : plan.HasUniqueNames)
    (faithful : plan.Faithful placed) (stuck : plan.IsStuck drawn placed waiting) {i j : Nat}
    (waits : plan.WaitsOn waiting i j) : plan.Needs i j := by
  obtain ⟨anchor, edge, owns⟩ := waits
  rcases place_waits_needs drawing unique faithful (stuck.waits _ edge) with
    ⟨k, needs, ownsToo⟩ | ⟨_, _, unowned⟩
  · rwa [unique.owner_eq owns ownsToo]
  · exact absurd owns (unowned j)

/-- Whether the conclusion of a complete table may end so: with an error of an expression, a
defect, or an anchor that the whole composition names and that has no position. -/
def IsLateFault (plan : Plan) : ResolveError → Prop
  | .time _ => True
  | .compile _ => True
  | .unresolved entity _ => entity = plan.composition.id
  | .circular _ => False

/-- How the check of authored starts fails. -/
theorem checkStarts_faults (placed : Placed) (indices : List Nat) :
    FailsIn plan.IsLateFault (plan.checkStarts placed indices) := by
  refine checkStarts_failsIn fun index _ => ?_
  unfold checkStart
  split
  · exact .of_ok _
  · split
    · exact .of_error trivial
    · split
      · exact .of_error trivial
      · exact .of_ok _

/-- How a value of the whole composition fails. -/
theorem documentSeconds?_faults (placed : Placed) (value : Option TimeValue) :
    FailsIn plan.IsLateFault (plan.documentSeconds? placed value) := by
  cases value with
  | none => exact .of_ok _
  | some value =>
    refine FailsIn.map ?_ _
    unfold documentSeconds
    split
    · exact .of_ok _
    · exact .of_error rfl
    · exact .of_error trivial

/-- How the conclusion of a complete table fails. -/
theorem conclusion_faults (placed : Placed) :
    FailsIn plan.IsLateFault (plan.conclusion placed) :=
  (checkStarts_faults placed plan.indices).bind fun _ _ =>
    (documentSeconds?_faults placed _).bind fun _ _ =>
      (documentSeconds?_faults placed _).bind fun _ _ => .of_ok _

/-- A relation along which a rank falls leads round in no loop. -/
theorem not_transGen_of_rank {r : Nat → Nat → Prop} (rank : Nat → Nat)
    (falls : ∀ i j, r i j → rank j < rank i) (i : Nat) : ¬ Relation.TransGen r i i := by
  intro loop
  have descent : Relation.TransGen (fun a b : Nat => b < a) (rank i) (rank i) :=
    loop.lift rank falls
  rw [Relation.transGen_eq_self] at descent
  exact Nat.lt_irrefl _ descent

/-- The anchors that entities name are listed by index. -/
theorem names_iff {index : Nat} {anchor : Anchor} :
    plan.Names index anchor ↔
      ∃ listed, (plan.items.map Item.reads)[index]? = some listed ∧ anchor ∈ listed := by
  rw [List.getElem?_map]
  constructor
  · rintro ⟨item, present, member⟩
    exact ⟨item.reads, by rw [present]; rfl, member⟩
  · rintro ⟨listed, found, member⟩
    obtain ⟨item, present, rfl⟩ := Option.map_eq_some_iff.mp found
    exact ⟨item, present, member⟩

/-- A composition names one anchor, in its first entity. -/
theorem names_of_sole {anchor named : Anchor} {index : Nat} {others : List (List Anchor)}
    (listed : plan.items.map Item.reads = [anchor] :: others) (bare : ∀ reads ∈ others, reads = [])
    (names : plan.Names index named) : index = 0 ∧ named = anchor := by
  obtain ⟨reads, found, member⟩ := names_iff.mp names
  rw [listed] at found
  cases index with
  | zero =>
    cases found
    exact ⟨rfl, List.mem_singleton.mp member⟩
  | succ before =>
    rw [List.getElem?_cons_succ] at found
    rw [bare reads (List.mem_of_getElem? found)] at member
    cases member

/-- Where the inputs of entities lead round in no loop, and every anchor that an entity names is
the origin or has an owner, a resolution reports no loop; and it reports an anchor without a
position only for the whole composition, once every entity is placed. -/
theorem runDrawn_of_acyclic {composition : Composition} {seed : Option Int}
    {estimate : Option (String → Float)}
    (ready : Plan.ofComposition composition seed estimate = .ok plan)
    (drawing : plan.IsDrawing drawn) (acyclic : ∀ i, ¬ Relation.TransGen plan.Needs i i)
    (owned : ∀ i anchor, plan.Names i anchor → IsOrigin anchor i ∨ ∃ j, plan.Owns j anchor i)
    {events : List Event} {outcome : Except ResolveError Timeline}
    (run : plan.runDrawn drawn [] = (placed, events, outcome)) :
    (∀ cycle, outcome ≠ .error (.circular cycle)) ∧
      ∀ entity anchor, outcome = .error (.unresolved entity anchor) →
        plan.IsComplete placed ∧ entity = plan.composition.id := by
  have unique := hasUniqueNames_of_ready ready
  obtain ⟨reached, ⟨cause, ends, rfl⟩ | ⟨earlier, ends, conclusion, _⟩⟩ := runDrawn_course run
  · cases ends with
    | failed _ inside _ fails =>
      have fault := place_faults drawn inside _ fails
      refine ⟨?_, ?_⟩
      · rintro cycle ⟨⟩
        exact fault.elim
      · rintro entity anchor ⟨⟩
        exact fault.elim
    | @stuck _ _ waiting _ stuck =>
      -- The entities that wait would form a loop, or one would wait for what nothing owns.
      have faithful := reached.faithful drawing
      rcases diagnose_cases unique stuck.nonempty stuck.pending.distinct with
        ⟨cycle, isLoop, _⟩ | ⟨_, edge, member, _, free, _⟩
      · obtain ⟨i, loop⟩ := isLoop.transGen
        exact absurd (loop.lift id fun _ _ => stuck.needs drawing unique faithful) (acyclic i)
      · have unowned := (stuck.isOwnerless drawing unique faithful member free).1
        rcases place_waits_needs drawing unique faithful (stuck.waits edge member) with
          ⟨j, _, owns⟩ | ⟨named, foreign, _⟩
        · exact absurd owns (unowned j)
        · rcases owned _ _ named with origin | ⟨j, owns⟩
          · exact absurd origin foreign
          · exact absurd owns (unowned j)
  · cases ends with
    | complete active all =>
      rw [conclusion]
      exact ⟨fun cycle failed => conclusion_faults placed _ failed,
        fun entity anchor failed => ⟨all, conclusion_faults placed _ failed⟩⟩

/-- A composition whose mark looks ahead names one anchor, in the mark. -/
theorem peek_names {index : Nat} {anchor : Anchor} (names : peekPlan.Names index anchor) :
    index = 0 ∧ anchor = .sceneStart "last" := by
  have listed : peekPlan.items.map Item.reads = [[.sceneStart "last"], [], [], []] := by
    decide +kernel
  exact names_of_sole listed (by simp) names

/-- The inputs of a composition whose mark looks ahead lead from the mark to the last scene, from
there to the transition, and from there to the first scene. -/
theorem peek_falls (i j : Nat) (needs : peekPlan.Needs i j) :
    [3, 0, 1, 2].getD j 0 < [3, 0, 1, 2].getD i 0 := by
  have unmoved : ¬ peekPlan.MovesCursor 0 := not_movesCursor_of_mark rfl
  rcases needs with ⟨anchor, names, owns⟩ | ⟨⟨item, present, scene, _⟩, source⟩ |
    ⟨t, s, present, _, _, before⟩ | ⟨⟨s, present⟩, t, member⟩
  · obtain ⟨rfl, rfl⟩ := peek_names names
    cases (hasUniqueNames_of_ready peek_ready).owner_eq owns
      (⟨_, rfl, rfl⟩ : peekPlan.Owns 3 (.sceneStart "last") 0)
    decide
  · have behind : j ≠ 0 := by
      rintro rfl
      exact unmoved source.moves
    have before := source.before
    rcases i with _ | _ | _ | _ | i <;> cases present
    · exact absurd rfl scene
    · omega
    · have first : j = 1 := by omega
      subst first
      decide
    · have between : j = 1 ∨ j = 2 := by omega
      rcases between with rfl | rfl <;> decide
  · obtain ⟨earlier, stands, _⟩ := prevScene?_eq_some before
    rcases i with _ | _ | _ | _ | i <;> cases present
    rcases j with _ | _ | j
    · cases stands
    · decide
    · omega
  · obtain ⟨before, stands⟩ := mem_incoming.mp member
    rcases i with _ | _ | _ | _ | i <;> cases present
    · rcases j with _ | j
      · cases stands
      · omega
    · rcases j with _ | _ | _ | _ | j <;> cases stands
      decide

/-- The resolution of a composition whose mark looks ahead ends in no loop. -/
theorem peek_acyclic : ∃ placed events outcome,
    peekPlan.runDrawn peekPlan.drawn [] = (placed, events, outcome) ∧
      ∀ cycle, outcome ≠ .error (.circular cycle) := by
  refine ⟨_, _, _, rfl, (runDrawn_of_acyclic peek_ready (isDrawing_drawn _)
    (not_transGen_of_rank _ peek_falls) ?_ rfl).1⟩
  intro i anchor names
  obtain ⟨rfl, rfl⟩ := peek_names names
  exact .inr ⟨3, _, rfl, rfl⟩

/-! ## A shorter list of inputs -/

/-- Whether the scene at `j` is the only source of time of the entity at an index: that entity is a
transition that lies over its end, and none of its bounds counts from the cursor. -/
def LiesPlainlyOver (plan : Plan) (index j : Nat) : Prop :=
  plan.LiesOver index j ∧ ∃ item, plan.items[index]? = some item ∧ item.isRelative = false

/-- Whether the entity at `j` is an input of the one at an index on a shorter list: a transition
that lies plainly over the end of a scene takes its time from that scene alone, and every other
entity from the one that moves its cursor, if its timing reads the cursor. -/
def NeedsBriefly (plan : Plan) (index j : Nat) : Prop :=
  (∃ anchor, plan.Names index anchor ∧ plan.Owns j anchor index) ∨
    plan.LiesPlainlyOver index j ∨
    ((∀ k, ¬ plan.LiesPlainlyOver index k) ∧ plan.ReadsCursor index ∧
      plan.IsCursorSource index j) ∨
    plan.IsLedIntoBy index j

/-- Where a transition that lies over the end of a scene stands right behind that scene, with no
other that moves the cursor between them, the shorter list leaves nothing out. -/
theorem needs_iff_needsBriefly
    (adjacent : ∀ i j, plan.LiesOver i j → plan.IsCursorSource i j) {i j : Nat} :
    plan.Needs i j ↔ plan.NeedsBriefly i j := by
  constructor
  · rintro (named | ⟨reads, source⟩ | lies | led)
    · exact .inl named
    · by_cases plainly : ∃ k, plan.LiesPlainlyOver i k
      · obtain ⟨k, lies, relative⟩ := plainly
        cases source.eq (adjacent i k lies)
        exact .inr (.inl ⟨lies, relative⟩)
      · exact .inr (.inr (.inl ⟨not_exists.mp plainly, reads, source⟩))
    · by_cases plainly : ∃ k, plan.LiesPlainlyOver i k
      · obtain ⟨k, liesToo, relative⟩ := plainly
        cases (adjacent i j lies).eq (adjacent i k liesToo)
        exact .inr (.inl ⟨lies, relative⟩)
      · have source := adjacent i j lies
        obtain ⟨t, s, present, overlaps, start, _⟩ := lies
        refine .inr (.inr (.inl ⟨not_exists.mp plainly, ⟨_, present, ?_, .inl start⟩, source⟩))
        simp [Item.kind]
    · exact .inr (.inr (.inr led))
  · rintro (named | ⟨lies, _⟩ | ⟨_, reads, source⟩ | led)
    · exact .inl named
    · exact .inr (.inr (.inl lies))
    · exact .inr (.inl ⟨reads, source⟩)
    · exact .inr (.inr (.inr led))

/-- A scene that starts with a later one, a transition between the scenes, and one over the end of
the first, whose missing start is said to count from the cursor. -/
def knot : Composition where
  timeline := [
    .scene {
      id := "first"
      time := some {
        start := some (.expression "scene(last).start")
        duration := some (.seconds 3.0) } },
    .transition {
      id := "between"
      mode := some .insert
      time := some { start := some (.seconds 5.0) } },
    .transition {
      id := "over"
      mode := some .overlap
      time := some { startIsRelative := true } },
    .scene {
      id := "last"
      time := some { duration := some (.seconds 2.0) } }]

/-- The knot made ready, where no text takes time. -/
def knotPlan : Plan where
  composition := knot
  items := knot.timeline
  seed := none
  estimate := fun _ => 0.0

/-- The knot can be made ready. -/
theorem knot_ready : Plan.ofComposition knot none (some fun _ => 0.0) = .ok knotPlan := rfl

/-- The knot names one anchor, in its first scene. -/
theorem knot_names {index : Nat} {anchor : Anchor} (names : knotPlan.Names index anchor) :
    index = 0 ∧ anchor = .sceneStart "last" := by
  have listed : knotPlan.items.map Item.reads = [[.sceneStart "last"], [], [], []] := by
    decide +kernel
  exact names_of_sole listed (by simp) names

/-- The inputs of the knot on the shorter list lead from the first scene to the last one, from
there to the transitions, and from the one over the first scene to the one between them. -/
theorem knot_falls (i j : Nat) (needs : knotPlan.NeedsBriefly i j) :
    [3, 0, 1, 2].getD j 0 < [3, 0, 1, 2].getD i 0 := by
  rcases needs with ⟨anchor, names, owns⟩ | ⟨⟨t, s, present, _, start, _⟩, item, here, plain⟩ |
    ⟨_, ⟨item, present, _, reads⟩, source⟩ | ⟨⟨s, present⟩, t, member⟩
  · obtain ⟨rfl, rfl⟩ := knot_names names
    cases (hasUniqueNames_of_ready knot_ready).owner_eq owns
      (⟨_, rfl, rfl⟩ : knotPlan.Owns 3 (.sceneStart "last") 0)
    decide
  · rcases i with _ | _ | _ | _ | i <;> cases present
    · cases start
    · cases here
      cases plain
  · -- The transition between the scenes hides the first scene from what stands behind it.
    have moves : knotPlan.MovesCursor 1 := (movesCursor_iff_of_transition rfl).mpr rfl
    have hidden : j ≠ 0 ∨ i ≤ 1 := by
      by_contra both
      rw [not_or] at both
      exact source.nearest 1 (by omega) (by omega) moves
    have before := source.before
    rcases i with _ | _ | _ | _ | i <;> cases present
    · rcases reads with start | relative
      · cases start
      · cases relative
    · rcases reads with start | relative
      · cases start
      · cases relative
    · have between : j = 1 := by omega
      subst between
      decide
    · have behind : j = 1 ∨ j = 2 := by omega
      rcases behind with rfl | rfl <;> decide
  · obtain ⟨before, stands⟩ := mem_incoming.mp member
    rcases i with _ | _ | _ | _ | i <;> cases present
    · omega
    · rcases j with _ | _ | _ | _ | j <;> cases stands
      · decide
      · decide

/-- On the shorter list of inputs the knot has no loop, and every anchor that it names has an
owner; but its resolution meets a loop, since the transition over the first scene waits for the
end of that scene. -/
theorem loop_beyond_brief_inputs :
    Plan.ofComposition knot none (some fun _ => 0.0) = .ok knotPlan ∧
      (∀ i, ¬ Relation.TransGen knotPlan.NeedsBriefly i i) ∧
      (∀ i anchor, knotPlan.Names i anchor → ∃ j, knotPlan.Owns j anchor i) ∧
      (knotPlan.runDrawn knotPlan.drawn []).2.2 =
        .error (.circular ["first", "last", "over", "first"]) := by
  refine ⟨knot_ready, not_transGen_of_rank _ knot_falls, ?_, ?_⟩
  · intro i anchor names
    obtain ⟨rfl, rfl⟩ := knot_names names
    exact ⟨3, _, rfl, rfl⟩
  · exact eq_of_report?_inl (by decide +kernel)

end Storyboard.Plan
