import Storyboard.Proofs.Timeline.Course
/-!
# The order of attempts

Where the passes give a timeline, the order in which entities are tried is free: no attempt fails
for good, some entity left can always be placed, and once all are placed everything is as the
passes have it. For this, whatever is written down from a table depends on its placements only
(`checkStarts_congr`, `timeline_congr`).
-/
namespace Storyboard.Plan

variable {plan : Plan} {drawn : List (List DrawnItem)} {placed other : Placed}

/-- Without entities beside it, a context knows what does not depend on them. -/
theorem lookup?_documentContext (placed : Placed) (fps : Float) (index : Nat) (anchor : Anchor) :
    (placed.documentContext fps).lookup? anchor =
      match anchor.kind with
      | .prevStart | .prevEnd | .nextStart => none
      | _ => (placed.context fps index).lookup? anchor := by
  rcases anchor with ⟨kind, ref⟩
  cases kind <;> rfl

/-- What the whole composition may read of a larger table extends what it may read of a smaller
one. -/
theorem Faithful.documentContext_extendedBy (faithful : plan.Faithful placed)
    (unique : plan.HasUniqueNames) (faithfulOther : plan.Faithful other)
    (grows : placed.Le other) :
    (placed.documentContext plan.fps).ExtendedBy (other.documentContext plan.fps) := by
  have extended := faithful.context_extendedBy unique faithfulOther grows 0
  refine ⟨rfl, fun anchor position known => ?_⟩
  rw [lookup?_documentContext _ _ 0] at known ⊢
  split at known
  · cases known
  · cases known
  · cases known
  · exact extended.known anchor position known

/-- Tables with the same placements have the same cursors. -/
theorem cursor_congr (same : ∀ index, other.lookup index = placed.lookup index) (index : Nat) :
    plan.cursor other index = plan.cursor placed index := by
  have finish : ∀ j, other.finish? j = placed.finish? j := by
    intro j
    rw [Placed.finish?, Placed.finish?, same]
  unfold cursor
  simp only [finish]

/-- Tables with the same placements have the same scenes that start early. -/
theorem checkStarts_congr (same : ∀ index, other.lookup index = placed.lookup index)
    (indices : List Nat) :
    plan.checkStarts other indices = plan.checkStarts placed indices := by
  induction indices with
  | nil => rfl
  | cons index rest ih =>
    have here : plan.checkStart other index = plan.checkStart placed index := by
      unfold checkStart
      rw [same, cursor_congr same]
    rw [checkStarts, checkStarts, here, ih]

/-- A value of the whole composition keeps its position where more is known. -/
theorem documentSeconds?_of_extendedBy {wide : Plan}
    (grows : (placed.documentContext plan.fps).ExtendedBy (other.documentContext wide.fps))
    {value : Option TimeValue} {seconds : Option Float}
    (done : plan.documentSeconds? placed value = .ok seconds) :
    wide.documentSeconds? other value = .ok seconds := by
  cases value with
  | none => exact done
  | some value =>
    obtain ⟨position, found, same⟩ := map_eq_ok done
    unfold documentSeconds at found
    cases evaluated : value.evaluate (placed.documentContext plan.fps) with
    | error cause =>
      rw [evaluated] at found
      cases cause <;> cases found
    | ok stored =>
      rw [evaluated] at found
      cases found
      rw [documentSeconds?, documentSeconds, (value.evaluate_persists grows).of_ok evaluated,
        ← same]
      rfl

/-- A value of the whole composition keeps its position in a larger table. -/
theorem documentSeconds?_of_le (unique : plan.HasUniqueNames) (faithful : plan.Faithful placed)
    (faithfulOther : plan.Faithful other) (grows : placed.Le other) {value : Option TimeValue}
    {seconds : Option Float} (done : plan.documentSeconds? placed value = .ok seconds) :
    plan.documentSeconds? other value = .ok seconds :=
  documentSeconds?_of_extendedBy
    (faithful.documentContext_extendedBy unique faithfulOther grows) done

/-- Faithful tables with the same placements give the same timeline. -/
theorem timeline_congr (unique : plan.HasUniqueNames) (faithful : plan.Faithful placed)
    (faithfulOther : plan.Faithful other)
    (same : ∀ index, other.lookup index = placed.lookup index) {timeline : Timeline}
    (done : plan.timeline placed = .ok timeline) : plan.timeline other = .ok timeline := by
  have grows : placed.Le other := by
    intro index p found
    rw [same, found]
  have placements : plan.placements other = plan.placements placed := by
    unfold Plan.placements
    simp only [same]
  obtain ⟨authored, foundAuthored, rest⟩ := bind_eq_ok done
  obtain ⟨poster, foundPoster, rest⟩ := bind_eq_ok rest
  unfold Plan.timeline
  rw [placements, documentSeconds?_of_le unique faithful faithfulOther grows foundAuthored,
    documentSeconds?_of_le unique faithful faithfulOther grows foundPoster]
  exact rest

/-- Where a complete table can be reached, no attempt on the way fails for good. -/
theorem Reaches.place_ne_fails (drawing : plan.IsDrawing drawn) (unique : plan.HasUniqueNames)
    (reached : plan.Reaches drawn placed) (reachedOther : plan.Reaches drawn other)
    (complete : plan.IsComplete other) {index : Nat} (inside : index < plan.items.length)
    (cause : ResolveError) : plan.place drawn placed index ≠ .error (.fails cause) := by
  intro fails
  have grows := reached.le_of_complete drawing unique reachedOther complete
  obtain ⟨p, _, settled⟩ := reachedOther.place_of_complete drawing unique complete inside
  have persists := place_persists drawn unique (reached.faithful drawing)
    (reachedOther.faithful drawing) grows index
  have final : ¬ (Stop.fails cause).Waits := by
    rintro ⟨anchor, same⟩
    cases same
  rw [persists.of_error fails final] at settled
  cases settled

/-- Where a complete table can be reached, what is reached is complete or can be continued. -/
theorem Reaches.continues_of_pending (drawing : plan.IsDrawing drawn)
    (unique : plan.HasUniqueNames) (reached : plan.Reaches drawn placed)
    (reachedOther : plan.Reaches drawn other) (complete : plan.IsComplete other)
    (incomplete : ¬ plan.IsComplete placed) : plan.Continues drawn placed := by
  rcases reachedOther.le_or_continues drawing unique reached with held | continues
  · refine absurd (fun index inside => ?_) incomplete
    obtain ⟨p, found⟩ := complete index inside
    exact ⟨p, held index p found⟩
  · exact continues

/-- Complete tables that are reached hold the same. -/
theorem Reaches.lookup_eq_of_complete (drawing : plan.IsDrawing drawn)
    (unique : plan.HasUniqueNames) (reached : plan.Reaches drawn placed)
    (complete : plan.IsComplete placed) (reachedOther : plan.Reaches drawn other)
    (completeOther : plan.IsComplete other) (index : Nat) :
    other.lookup index = placed.lookup index :=
  Option.ext fun p => ⟨reachedOther.le_of_complete drawing unique reached complete index p,
    reached.le_of_complete drawing unique reachedOther completeOther index p⟩

/-- The passes come to what any complete table comes to that is reached. -/
theorem exists_run_of_reaches (drawing : plan.IsDrawing drawn) (unique : plan.HasUniqueNames)
    (reached : plan.Reaches drawn other) (complete : plan.IsComplete other)
    (starts : plan.checkStarts other plan.indices = .ok ()) {timeline : Timeline}
    (done : plan.timeline other = .ok timeline) :
    ∃ placed events, plan.runDrawn drawn [] = (placed, events, .ok timeline) := by
  rcases run : plan.runDrawn drawn [] with ⟨placed, events, outcome⟩
  refine ⟨placed, events, ?_⟩
  obtain ⟨reachedPasses, ⟨cause, ends, _⟩ | ⟨earlier, ends, concluded, _⟩⟩ := runDrawn_course run
  · cases ends with
    | failed active inside pending fails =>
      exact absurd fails
        (reachedPasses.place_ne_fails drawing unique reached complete inside _)
    | stuck active waits =>
      have incomplete : ¬ plan.IsComplete placed := by
        intro all
        obtain ⟨edge, member⟩ := List.exists_mem_of_ne_nil _ waits.nonempty
        obtain ⟨inside, pending⟩ :=
          (waits.pending.mem_iff edge.1).mp (List.mem_map_of_mem member)
        obtain ⟨p, held⟩ := all edge.1 inside
        rw [pending] at held
        cases held
      obtain ⟨index, p, pending, placeable⟩ :=
        reachedPasses.continues_of_pending drawing unique reached complete incomplete
      have left := (waits.pending.mem_iff index).mpr
        ⟨lt_length_of_place drawing placeable, pending⟩
      obtain ⟨edge, member, rfl⟩ := List.mem_map.mp left
      rw [waits.waits edge member] at placeable
      cases placeable
  · cases ends with
    | complete active all =>
      have same := reached.lookup_eq_of_complete drawing unique complete reachedPasses all
      rw [concluded, conclusion, checkStarts_congr same, starts,
        ← timeline_congr unique (reached.faithful drawing) (reachedPasses.faithful drawing) same
          done]
      rfl

/-- Where a resolution gives a timeline, entities may be tried in any order. No attempt at an
entity left fails for good; while some are left one of them can be placed; and once all are
placed, the placements, the positions of anchors and the timeline are those of the passes. -/
theorem reaches_agrees {composition : Composition} {seed : Option Int}
    {estimate : Option (String → Float)}
    (ready : Plan.ofComposition composition seed estimate = .ok plan)
    (drawing : plan.IsDrawing drawn) {events : List Event} {timeline : Timeline}
    (run : plan.runDrawn drawn [] = (placed, events, .ok timeline))
    (reached : plan.Reaches drawn other) :
    (∀ index < plan.items.length, other.lookup index = none →
      ∀ cause, plan.place drawn other index ≠ .error (.fails cause)) ∧
    (¬ plan.IsComplete other → ∃ index < plan.items.length, ∃ p,
      other.lookup index = none ∧ plan.place drawn other index = .ok p) ∧
    (plan.IsComplete other →
      (∀ index, other.lookup index = placed.lookup index) ∧
      (∀ index anchor, (other.context plan.fps index).lookup? anchor =
        (placed.context plan.fps index).lookup? anchor) ∧
      (∀ anchor, (other.documentContext plan.fps).lookup? anchor =
        (placed.documentContext plan.fps).lookup? anchor) ∧
      plan.placements other = plan.placements placed ∧
      plan.checkStarts other plan.indices = .ok () ∧
      plan.timeline other = .ok timeline) := by
  have unique := hasUniqueNames_of_ready ready
  obtain ⟨reachedPasses, complete, starts, done⟩ := runDrawn_eq_ok run
  have faithful := reachedPasses.faithful drawing
  have faithfulOther := reached.faithful drawing
  -- The table of the passes is complete, so it holds all that is placed in any other order.
  have grows := reached.le_of_complete drawing unique reachedPasses complete
  refine ⟨?_, ?_, ?_⟩
  · intro index inside _ cause
    exact reached.place_ne_fails drawing unique reachedPasses complete inside cause
  · intro incomplete
    obtain ⟨index, p, pending, placeable⟩ :=
      reached.continues_of_pending drawing unique reachedPasses complete incomplete
    exact ⟨index, lt_length_of_place drawing placeable, p, pending, placeable⟩
  · intro completeOther
    have back := reachedPasses.le_of_complete drawing unique reached completeOther
    have same := reachedPasses.lookup_eq_of_complete drawing unique complete reached completeOther
    have known : ∀ index anchor, (other.context plan.fps index).lookup? anchor =
        (placed.context plan.fps index).lookup? anchor := by
      intro index anchor
      exact Option.ext fun value =>
        ⟨(faithfulOther.context_extendedBy unique faithful grows index).known anchor value,
          (faithful.context_extendedBy unique faithfulOther back index).known anchor value⟩
    refine ⟨same, known, fun anchor => ?_, ?_, ?_, ?_⟩
    · rw [lookup?_documentContext _ _ 0, lookup?_documentContext _ _ 0, known]
    · unfold placements
      simp only [same]
    · rw [checkStarts_congr same, starts]
    · exact timeline_congr unique faithful faithfulOther same done

/-- A composition whose mark looks ahead may be begun with its first scene, and goes on. -/
theorem peek_agrees : ∃ first, peekPlan.place peekPlan.drawn [] 1 = .ok first ∧
    ∃ index < peekPlan.items.length, ∃ p, List.lookup index [(1, first)] = none ∧
      peekPlan.place peekPlan.drawn [(1, first)] index = .ok p := by
  obtain ⟨placed, events, timeline, run⟩ := peek_resolves
  obtain ⟨first, done⟩ := exists_eq_ok
    (show (peekPlan.place peekPlan.drawn [] 1).isOk = true by decide +kernel)
  have reached : peekPlan.Reaches peekPlan.drawn [(1, first)] := .placed .start rfl done
  refine ⟨first, done, ?_⟩
  refine (reaches_agrees peek_ready (isDrawing_drawn _) run reached).2.1 fun complete => ?_
  obtain ⟨p, held⟩ := complete 0 (by decide)
  cases held

end Storyboard.Plan
