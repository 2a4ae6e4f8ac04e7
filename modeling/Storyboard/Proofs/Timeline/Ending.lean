import Storyboard.Proofs.Timeline.Diagnosis
import Storyboard.Proofs.Timeline.Failure
import Storyboard.Proofs.Timeline.Guarded
/-!
# How resolutions end

A resolution needs no more passes than there are entities, since each pass but a last one leaves
fewer of them than the one before (`passes_fall`). It ends in a timeline or in a clean error
(`runDrawn_isClean`): too many passes are never made, and no missing position gets out of it. On
its way it reads only what is there (`guardedPlace_eq`).
-/
namespace Storyboard

/-! ## What a resolution may end in -/

/-- Whether the author of a composition has written a value. -/
def Composition.Authors (composition : Composition) (value : TimeValue) : Prop :=
  composition.duration = some value ∨ composition.poster = some value ∨
    ∃ item ∈ Item.expand composition.timeline, value ∈ item.values

/-- Whether a resolution may end so, if the author has written some values: with an error of an
expression other than a missing position, with a defect of the composition other than too many
passes, with a reference to nothing, or with a loop. -/
def ResolveError.IsClean (authored : TimeValue → Prop) : ResolveError → Prop
  | .time cause => cause.ComesFrom authored
  | .compile defect => defect ≠ .notConverged
  | .unresolved _ _ => True
  | .circular _ => True

/-- An attempt that fails for good does so cleanly. -/
theorem Stop.IsFault.isClean {authored : TimeValue → Prop} {cause : ResolveError}
    (fault : (Stop.fails cause).IsFault authored) : cause.IsClean authored := by
  cases cause with
  | time _ => exact fault
  | compile _ => exact fault
  | unresolved _ _ => trivial
  | circular _ => trivial

/-- The values of a cue are values of the entity it is in. -/
theorem Item.mem_values_of_cue {item : Item} {c : Cue} {value : TimeValue}
    (member : c ∈ SceneItem.cuesOf item.sceneItems) (part : value ∈ c.values) :
    value ∈ item.values := by
  cases item with
  | scene s => exact List.mem_append_right _ (List.mem_flatMap.mpr ⟨c, member, part⟩)
  | transition t => cases member
  | mark m => cases member

/-! ## The number of passes -/

/-- How many entities the passes have left, pass by pass. -/
def Event.deferrals (events : List Event) : List Nat :=
  events.filterMap fun
    | .pass _ _ deferred => some deferred
    | .resolved _ _ _ => none

/-- Whether counts fall strictly, each from the one before it and the first from `left`; only the
last may stay where the one before it was, and the flag says that it does. -/
inductive Falls : (left : Nat) → List Nat → (idle : Bool) → Prop where
  /-- No more counts. -/
  | done {left : Nat} : Falls left [] false
  /-- A last count that stays. -/
  | idle {left : Nat} : Falls left [left] true
  /-- A count that is less. -/
  | next {left count : Nat} {counts : List Nat} {idle : Bool} (fewer : count < left)
    (rest : Falls count counts idle) : Falls left (count :: counts) idle

namespace Plan

variable {plan : Plan} {drawn : List (List DrawnItem)} {placed : Placed}

/-- A pass leaves no more entities than there were. -/
theorem length_le_of_pass : ∀ {placed : Placed} {pending : List Nat} {after : Placed}
    {waiting : Waiting}, plan.pass drawn placed pending = (after, .ok waiting) →
      waiting.length ≤ pending.length
  | placed, [], _, _, done => by
    cases done
    exact Nat.le_refl 0
  | placed, index :: rest, after, waiting, done => by
    rw [pass] at done
    split at done
    · exact Nat.le_succ_of_le (length_le_of_pass done)
    · cases done
    · generalize run : plan.pass drawn placed rest = result at done
      obtain ⟨between, outcome⟩ := result
      obtain ⟨rfl, image⟩ := Prod.mk.inj done
      obtain ⟨others, rfl, rfl⟩ := map_eq_ok image
      exact Nat.succ_le_succ (length_le_of_pass run)

/-- One more allowed pass changes nothing, if as many are allowed as entities are pending. -/
theorem passes_succ {allowed number : Nat} {pending : List Nat}
    (enough : pending.length ≤ allowed) :
    plan.passes drawn (allowed + 1) number placed pending =
      plan.passes drawn allowed number placed pending := by
  induction allowed generalizing number placed pending with
  | zero =>
    cases List.length_eq_zero_iff.mp (Nat.le_zero.mp enough)
    rfl
  | succ allowed ih =>
    cases pending with
    | nil => rfl
    | cons index rest =>
      rw [passes, passes]
      generalize run : plan.pass drawn placed (index :: rest) = result
      obtain ⟨after, _ | waiting⟩ := result
      · rfl
      · have fewer := length_le_of_pass run
        rw [List.length_cons] at fewer enough
        dsimp only
        split
        · rfl
        · rw [ih (by rw [List.length_map]; omega)]

/-- As many passes as entities are pending are enough: to allow more changes nothing. -/
theorem passes_of_le {allowed number : Nat} {pending : List Nat}
    (enough : pending.length ≤ allowed) :
    plan.passes drawn allowed number placed pending =
      plan.passes drawn pending.length number placed pending := by
  induction allowed, enough using Nat.le_induction with
  | base => rfl
  | succ allowed enough ih => rw [passes_succ enough, ih]

/-- No more passes are told of than are allowed. -/
theorem length_passes_le (allowed number : Nat) (placed : Placed) (pending : List Nat) :
    (plan.passes drawn allowed number placed pending).2.1.length ≤ allowed := by
  induction allowed generalizing number placed pending with
  | zero => cases pending <;> exact Nat.le_refl 0
  | succ allowed ih =>
    cases pending with
    | nil => exact Nat.zero_le _
    | cons index rest =>
      rw [passes]
      split
      · exact Nat.zero_le _
      · dsimp only
        split
        · exact Nat.succ_le_succ (Nat.zero_le allowed)
        · exact Nat.succ_le_succ (ih _ _ _)

/-- Each pass leaves fewer entities than the one before; only where passes end with a diagnosis does
the last one leave as many. -/
theorem passes_fall (plan : Plan) (drawn : List (List DrawnItem)) (allowed number : Nat)
    (placed : Placed) (pending : List Nat) :
    ∃ idle, Falls pending.length
        (Event.deferrals (plan.passes drawn allowed number placed pending).2.1) idle ∧
      (idle = true → ∃ waiting, (plan.passes drawn allowed number placed pending).2.2 =
        .error (plan.diagnose waiting)) := by
  induction allowed generalizing number placed pending with
  | zero => cases pending <;> exact ⟨false, .done, by simp⟩
  | succ allowed ih =>
    cases pending with
    | nil => exact ⟨false, .done, by simp⟩
    | cons index rest =>
      rw [passes]
      generalize run : plan.pass drawn placed (index :: rest) = result
      obtain ⟨after, _ | waiting⟩ := result
      · exact ⟨false, .done, by simp⟩
      · have fewer := length_le_of_pass run
        dsimp only
        split
        · rename_i same
          rw [same]
          exact ⟨true, .idle, fun _ => ⟨waiting, rfl⟩⟩
        · rename_i apart
          rw [List.length_cons] at fewer ⊢
          obtain ⟨idle, falls, stuck⟩ := ih (number + 1) after (waiting.map (·.1))
          rw [List.length_map] at falls
          exact ⟨idle, .next (by omega) falls, stuck⟩

/-! ## Clean errors -/

/-- Every cursor of a complete table is there. -/
theorem IsComplete.cursor {index : Nat} (complete : plan.IsComplete placed)
    (inside : index < plan.items.length) : ∃ seconds, plan.cursor placed index = .ok seconds := by
  rcases plan.cursor_cases index with ⟨_, leads⟩ | ⟨j, anchor, source, _, found⟩
  · exact ⟨plan.leadIn, leads placed⟩
  · obtain ⟨p, held⟩ := complete j (Nat.lt_trans source.before inside)
    exact ⟨p.entry.finish, by rw [found, Placed.finish?, held]; rfl⟩

variable {authored : TimeValue → Prop}

/-- The check of authored starts fails cleanly on a complete table. -/
theorem checkStarts_isClean (complete : plan.IsComplete placed) {indices : List Nat}
    (inside : ∀ index ∈ indices, index < plan.items.length) :
    FailsIn (ResolveError.IsClean authored) (plan.checkStarts placed indices) := by
  refine checkStarts_failsIn fun index member => ?_
  obtain ⟨seconds, found⟩ := complete.cursor (inside index member)
  unfold checkStart
  rw [found]
  split
  · exact .of_ok _
  · dsimp only
    split
    · exact .of_error (by simp [ResolveError.IsClean])
    · exact .of_ok _

/-- An authored value of the whole composition fails cleanly. -/
theorem documentSeconds?_isClean {value : Option TimeValue}
    (written : ∀ one, value = some one → authored one) :
    FailsIn (ResolveError.IsClean authored) (plan.documentSeconds? placed value) := by
  cases value with
  | none => exact .of_ok _
  | some one =>
    refine FailsIn.map ?_ _
    unfold documentSeconds
    split
    · exact .of_ok _
    · exact .of_error trivial
    · rename_i cause present failed
      have kind := TimeValue.evaluate_faults (written one rfl) _ failed
      refine .of_error (kind.resolve_left ?_)
      rintro ⟨anchor, rfl⟩
      exact present anchor rfl

/-- The conclusion of a complete table fails cleanly. -/
theorem conclusion_isClean (complete : plan.IsComplete placed)
    (duration : ∀ value, plan.composition.duration = some value → authored value)
    (poster : ∀ value, plan.composition.poster = some value → authored value) :
    FailsIn (ResolveError.IsClean authored) (plan.conclusion placed) := by
  have inside : ∀ index ∈ plan.indices, index < plan.items.length := fun index member =>
    List.mem_range.mp member
  exact (checkStarts_isClean complete inside).bind fun _ _ =>
    (documentSeconds?_isClean duration).bind fun _ _ =>
      (documentSeconds?_isClean poster).bind fun _ _ => .of_ok _

/-- A resolution fails cleanly. -/
theorem runDrawn_isClean (unique : plan.HasUniqueNames) (drawing : plan.IsDrawing drawn)
    (duration : ∀ value, plan.composition.duration = some value → authored value)
    (poster : ∀ value, plan.composition.poster = some value → authored value)
    (items : ∀ item ∈ plan.items, ∀ value ∈ item.values, authored value) :
    FailsIn (ResolveError.IsClean authored) (plan.runDrawn drawn []).2.2 := by
  intro cause failed
  generalize run : plan.runDrawn drawn [] = result at failed
  obtain ⟨placed, events, outcome⟩ := result
  obtain ⟨reached, ⟨other, ends, rfl⟩ | ⟨earlier, ends, conclusion, _⟩⟩ := runDrawn_course run
  · cases failed
    cases ends with
    | @failed _ index _ _ inside _ fails =>
      have own := items _ (List.getElem_mem inside)
      refine Stop.IsFault.isClean
        (place_faults_of inside own (fun c member value part => ?_) _ fails)
      rw [DrawnItem.cuesOf_eq (drawing.parts (List.getElem?_eq_getElem inside))] at member
      exact own value (Item.mem_values_of_cue member part)
    | @stuck _ _ waiting _ stuck =>
      rcases diagnose_cases unique stuck.nonempty stuck.pending.distinct with
        ⟨cycle, _, same⟩ | ⟨_, edge, _, _, _, same⟩
      · rw [same]
        trivial
      · rw [same]
        trivial
  · cases ends with
    | complete _ all =>
      rw [conclusion] at failed
      exact conclusion_isClean all duration poster cause failed

/-! ## The end of a resolution -/

/-- What holds of every resolution of a plan, given what is drawn and a table of samples that gives
it. -/
structure EndsCleanly (plan : Plan) (authored : TimeValue → Prop) (samples : Samples)
    (drawn : List (List DrawnItem)) : Prop where
  /-- As many passes as there are entities are enough. -/
  enough : ∀ allowed, plan.items.length ≤ allowed →
    plan.passes drawn allowed 1 [] plan.indices =
      plan.passes drawn (plan.items.length + 2) 1 [] plan.indices
  /-- No more passes are made. -/
  bounded : (Event.deferrals (plan.runDrawn drawn []).2.1).length ≤ plan.items.length
  /-- Each pass leaves fewer entities than the one before; only the last may leave as many, and
  then the resolution ends with a loop or a reference to nothing. -/
  falls : ∃ idle, Falls plan.items.length (Event.deferrals (plan.runDrawn drawn []).2.1) idle ∧
    (idle = true → (∃ cycle, (plan.runDrawn drawn []).2.2 = .error (.circular cycle)) ∨
      ∃ entity anchor, (plan.runDrawn drawn []).2.2 = .error (.unresolved entity anchor))
  /-- An error is clean. -/
  clean : ∀ cause, (plan.runDrawn drawn []).2.2 = .error cause → cause.IsClean authored
  /-- No attempt uses a cursor that it does not hold, or a sample that was not drawn. -/
  guarded : ∀ placed index, plan.guardedPlace samples placed index =
    (plan.place drawn placed index).mapError .stops
  /-- No entity is missing in the timeline that is written down. -/
  placements : ∀ placed events,
    plan.passes drawn (plan.items.length + 2) 1 [] plan.indices = (placed, events, .ok ()) →
      guardedPlacements placed plan.indices = .ok (plan.placements placed)

/-- The events of a resolution are those of its passes and at most one that tells of no pass. -/
theorem deferrals_runDrawn (plan : Plan) (drawn : List (List DrawnItem)) :
    Event.deferrals (plan.runDrawn drawn []).2.1 =
      Event.deferrals (plan.passes drawn (plan.items.length + 2) 1 [] plan.indices).2.1 := by
  unfold runDrawn
  generalize plan.passes drawn (plan.items.length + 2) 1 [] plan.indices = result
  obtain ⟨placed, events, _ | done⟩ := result
  · rfl
  · dsimp only
    cases plan.checkStarts placed plan.indices with
    | error cause => rfl
    | ok checked =>
      dsimp only
      cases plan.timeline placed with
      | error cause => rfl
      | ok timeline => simp [Event.deferrals]

/-- A resolution ends in an error that its passes end in. -/
theorem runDrawn_of_passes {cause : ResolveError}
    (failed : (plan.passes drawn (plan.items.length + 2) 1 [] plan.indices).2.2 = .error cause) :
    (plan.runDrawn drawn []).2.2 = .error cause := by
  unfold runDrawn
  generalize plan.passes drawn (plan.items.length + 2) 1 [] plan.indices = result at failed
  obtain ⟨placed, events, outcome⟩ := result
  dsimp only at failed
  rw [failed]

/-- A diagnosis names a loop or a reference to nothing, where there is something to diagnose. -/
theorem diagnose_kind (plan : Plan) (waiting : Waiting) :
    (∃ cycle, plan.diagnose waiting = .circular cycle) ∨
      (∃ entity anchor, plan.diagnose waiting = .unresolved entity anchor) ∨
      plan.diagnose waiting = .compile .notConverged := by
  unfold diagnose
  split
  · exact .inl ⟨_, rfl⟩
  · split
    · exact .inr (.inl ⟨_, _, rfl⟩)
    · exact .inr (.inr rfl)

/-- Every resolution of a plan with different names ends cleanly. -/
theorem endsCleanly {authored : TimeValue → Prop} {samples : Samples} (unique : plan.HasUniqueNames)
    (drawing : plan.IsDrawing drawn) (recalls : plan.Recalls samples drawn)
    (duration : ∀ value, plan.composition.duration = some value → authored value)
    (poster : ∀ value, plan.composition.poster = some value → authored value)
    (items : ∀ item ∈ plan.items, ∀ value ∈ item.values, authored value) :
    plan.EndsCleanly authored samples drawn := by
  have clean := runDrawn_isClean unique drawing duration poster items
  have count : plan.indices.length = plan.items.length := List.length_range
  -- Every pass but the last one places an entity, so there are no more passes than entities.
  have enough : ∀ allowed, plan.items.length ≤ allowed →
      plan.passes drawn allowed 1 [] plan.indices =
        plan.passes drawn plan.items.length 1 [] plan.indices := by
    intro allowed many
    rw [passes_of_le (count.symm ▸ many), count]
  have same := enough (plan.items.length + 2) (by omega)
  refine ⟨fun allowed many => ?_, ?_, ?_, clean, fun placed index => guardedPlace_eq recalls, ?_⟩
  · rw [enough allowed many, same]
  · rw [deferrals_runDrawn, same]
    exact Nat.le_trans (List.length_filterMap_le _ _) (length_passes_le _ _ _ _)
  · obtain ⟨idle, falls, stuck⟩ :=
      passes_fall plan drawn (plan.items.length + 2) 1 [] plan.indices
    rw [count] at falls
    refine ⟨idle, by rw [deferrals_runDrawn]; exact falls, fun last => ?_⟩
    obtain ⟨waiting, failed⟩ := stuck last
    have ended := runDrawn_of_passes failed
    rcases diagnose_kind plan waiting with ⟨cycle, named⟩ | ⟨entity, anchor, named⟩ | none
    · exact .inl ⟨cycle, by rw [ended, named]⟩
    · exact .inr ⟨entity, anchor, by rw [ended, named]⟩
    · rw [none] at ended
      exact absurd rfl (clean _ ended)
  · intro placed events done
    have ends := (plan.passes_ends_of_start drawn).2
    rw [done] at ends
    cases ends with
    | complete _ all =>
      exact guardedPlacements_eq fun index member => all index (List.mem_range.mp member)

/-- A composition that cannot be made ready fails cleanly. -/
theorem ofComposition_isClean {authored : TimeValue → Prop} (composition : Composition)
    (seed : Option Int) (estimate : Option (String → Float)) :
    FailsIn (ResolveError.IsClean authored) (Plan.ofComposition composition seed estimate) := by
  unfold ofComposition
  dsimp only
  split
  · exact .of_error (by simp [ResolveError.IsClean])
  · split
    · exact .of_error (by simp [ResolveError.IsClean])
    · exact .of_ok _

end Plan

namespace Composition

/-- A composition that can be made ready is resolved with what its seed draws. -/
theorem resolve_of_ready {composition : Composition} {seed : Option Int}
    {estimate : Option (String → Float)} {plan : Plan}
    (ready : Plan.ofComposition composition seed estimate = .ok plan) :
    composition.resolve seed estimate = (plan.runDrawn plan.drawn []).2 := by
  rw [resolve, ready]
  rfl

/-- Every composition resolves to an end. If it cannot be made ready it fails cleanly, before any
pass. Otherwise the table of the samples that its seed draws gives what is drawn, and every
resolution with a table that gives what is drawn ends cleanly. -/
theorem resolve_endsCleanly (composition : Composition) (seed : Option Int)
    (estimate : Option (String → Float)) :
    (∀ cause, Plan.ofComposition composition seed estimate = .error cause →
      composition.resolve seed estimate = ([], .error cause) ∧ cause.IsClean composition.Authors) ∧
    ∀ plan, Plan.ofComposition composition seed estimate = .ok plan →
      composition.resolve seed estimate = (plan.runDrawn plan.drawn []).2 ∧
      plan.IsDrawing plan.drawn ∧ plan.Recalls plan.samples plan.drawn ∧
      ∀ drawn samples, plan.IsDrawing drawn → plan.Recalls samples drawn →
        plan.EndsCleanly composition.Authors samples drawn := by
  refine ⟨fun cause refused => ⟨?_, ?_⟩, fun plan ready => ⟨?_, plan.isDrawing_drawn, ?_, ?_⟩⟩
  · rw [resolve, refused]
  · exact Plan.ofComposition_isClean composition seed estimate cause refused
  · exact resolve_of_ready ready
  · exact Plan.recalls_samples (Plan.hasUniqueNames_of_ready ready)
  · intro drawn samples drawing recalls
    obtain rfl := Plan.composition_of_ready ready
    have written := Plan.items_of_ready ready
    refine Plan.endsCleanly (Plan.hasUniqueNames_of_ready ready) drawing recalls
      (fun value found => .inl found) (fun value found => .inr (.inl found)) ?_
    intro item member value part
    exact .inr (.inr ⟨item, written ▸ member, part⟩)

/-- Every resolution of a composition whose mark looks ahead ends cleanly, also with the samples
that its seed draws. -/
theorem peek_endsCleanly :
    Plan.ofComposition Plan.peek none (some fun _ => 0.0) = .ok Plan.peekPlan ∧
      Plan.peekPlan.EndsCleanly Plan.peek.Authors Plan.peekPlan.samples Plan.peekPlan.drawn := by
  obtain ⟨_, drawing, recalls, ends⟩ :=
    (resolve_endsCleanly Plan.peek none (some fun _ => 0.0)).2 _ Plan.peek_ready
  exact ⟨Plan.peek_ready, ends _ _ drawing recalls⟩

/-- A mark with a position of its own, and two marks, each at the place of the other. -/
def tangle : Composition where
  timeline := [
    .mark { id := "free", position := .seconds 1.0 },
    .mark { id := "one", position := .expression "mark(other)" },
    .mark { id := "other", position := .expression "mark(one)" }]

/-- The second pass over two marks that wait for one another leaves as many as the first. -/
theorem tangle_stays :
    ¬ (Event.deferrals (tangle.resolve none none).1).Pairwise
      fun before after => after < before := by
  have counts : Event.deferrals (tangle.resolve none none).1 = [2, 2] := by decide +kernel
  rw [counts]
  decide

end Composition
end Storyboard
