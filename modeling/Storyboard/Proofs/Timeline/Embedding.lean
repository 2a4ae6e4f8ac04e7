import Storyboard.Proofs.Timeline.Agreement
import Storyboard.Proofs.Timeline.Confluence
import Storyboard.Proofs.Timeline.Turns
/-!
# Attempts in a plan with more marks

Where the entities of a plan stand in another one with nothing but marks between them, and none of
them reads what stands directly before or behind it, an attempt at an entity comes to the same end
in both plans, from tables that hold the same (`Embeds.place`). So what one plan reaches the other
one reaches too (`Embeds.reaches`), and the same scenes start early (`Embeds.checkStart`).
-/
namespace Storyboard

/-! ## What stands directly before or behind -/

/-- Whether an anchor stands for the entity directly before or behind the one that reads it. -/
def Anchor.IsNeighbour (anchor : Anchor) : Prop :=
  anchor.kind = .prevStart ∨ anchor.kind = .prevEnd ∨ anchor.kind = .nextStart

instance : DecidablePred Anchor.IsNeighbour := fun _ => inferInstanceAs (Decidable (_ ∨ _ ∨ _))

/-- Whether no expression of an entity reads what stands directly before or behind it. -/
def Item.IsDetached (item : Item) : Prop := ∀ anchor ∈ item.reads, ¬ anchor.IsNeighbour

instance : DecidablePred Item.IsDetached := fun item =>
  inferInstanceAs (Decidable (∀ anchor ∈ item.reads, ¬ anchor.IsNeighbour))

namespace Placed

variable {placed other : Placed} {move : Nat → Nat}

/-- A table whose entities are moved to other places. -/
def moved (placed : Placed) (move : Nat → Nat) : Placed := placed.map (Prod.map move id)

/-- What is placed is found at its new place. -/
theorem lookup_moved (injective : Function.Injective move) (placed : Placed) (index : Nat) :
    (placed.moved move).lookup (move index) = placed.lookup index := by
  induction placed with
  | nil => rfl
  | cons pair rest ih =>
    change List.lookup (move index) ((move pair.1, pair.2) :: Placed.moved rest move) =
      List.lookup index ((pair.1, pair.2) :: rest)
    rw [List.lookup_cons, List.lookup_cons, ih]
    by_cases same : index = pair.1
    · rw [same, beq_self_eq_true, beq_self_eq_true]
    · have apart : move index ≠ move pair.1 := fun equal => same (injective equal)
      rw [beq_eq_false_iff_ne.mpr same, beq_eq_false_iff_ne.mpr apart]

/-- Nothing is found where nothing is moved to. -/
theorem lookup_moved_eq_none {place : Nat} (free : ∀ index, move index ≠ place)
    (placed : Placed) : (placed.moved move).lookup place = none := by
  refine List.lookup_eq_none_iff.mpr fun pair member => ?_
  obtain ⟨origin, _, rfl⟩ := List.mem_map.mp member
  exact bne_iff_ne.mpr (free origin.1).symm

/-- What stands at no place of the timeline is known as before. -/
theorem documentContext_moved (placed : Placed) (move : Nat → Nat) (fps : Float) :
    (placed.moved move).documentContext fps = placed.documentContext fps := by
  have scenes : (placed.moved move).scenes = placed.scenes := by
    unfold Placed.scenes moved
    rw [List.filterMap_map]
    rfl
  have marks : (placed.moved move).marks = placed.marks := by
    unfold Placed.marks moved
    rw [List.map_map]
    rfl
  unfold documentContext
  rw [scenes, marks]

end Placed

namespace Plan

variable {plan wide : Plan} {move : Nat → Nat} {placed other : Placed} {index : Nat}
  {drawn drawn' : List (List DrawnItem)}

/-- An anchor of no neighbour has the position that it has for the whole composition. -/
theorem lookup?_context_of_not_isNeighbour {anchor : Anchor} (distant : ¬ anchor.IsNeighbour)
    (placed : Placed) (fps : Float) (index : Nat) :
    (placed.context fps index).lookup? anchor = (placed.documentContext fps).lookup? anchor := by
  rcases anchor with ⟨kind, ref⟩
  cases kind with
  | prevStart => exact absurd (.inl rfl) distant
  | prevEnd => exact absurd (.inr (.inl rfl)) distant
  | nextStart => exact absurd (.inr (.inr rfl)) distant
  | sceneStart | sceneEnd | cueStart | markStart | timelineStart | transition => rfl

/-- What an entity reads that looks at no neighbour is the same wherever it stands. -/
theorem agreesOn_of_isDetached {item : Item} (detached : item.IsDetached) {fps : Float}
    (known : other.documentContext fps = placed.documentContext fps) (index place : Nat) :
    Context.AgreesOn item.reads (other.context fps place) (placed.context fps index) := by
  refine ⟨rfl, fun anchor member => ?_⟩
  have distant := detached anchor member
  rw [lookup?_context_of_not_isNeighbour distant, lookup?_context_of_not_isNeighbour distant, known]

namespace Embeds

/-! ## Steps that read a table -/

/-- The end of an entity is found at its new place. -/
theorem finish?_eq (same : ∀ index, other.lookup (move index) = placed.lookup index)
    (index : Nat) : other.finish? (move index) = placed.finish? index := by
  rw [Placed.finish?, Placed.finish?, same]

/-- The cursor is the same. -/
theorem cursor (embeds : plan.Embeds wide move)
    (same : ∀ index, other.lookup (move index) = placed.lookup index) (index : Nat) :
    wide.cursor other (move index) = plan.cursor placed index := by
  unfold Plan.cursor
  rw [embeds.cursorSource?, embeds.leadIn]
  cases plan.cursorSource? index with
  | none => rfl
  | some source =>
    simp only [Option.map_some, Prod.map_fst, Prod.map_snd, id_eq, finish?_eq same]

/-- The cursor for a timing is the same. -/
theorem cursorFor (embeds : plan.Embeds wide move)
    (same : ∀ index, other.lookup (move index) = placed.lookup index) (index : Nat)
    (time : Option TimeRange) :
    wide.cursorFor other (move index) time = plan.cursorFor placed index time := by
  unfold Plan.cursorFor
  rw [embeds.cursor same]

/-- The earliest start among transitions is the same. -/
theorem earliest_eq (same : ∀ index, other.lookup (move index) = placed.lookup index)
    (found : Option Float) (transitions : List (Transition × Nat)) :
    earliest other found (transitions.map (Prod.map id move)) =
      earliest placed found transitions := by
  induction transitions generalizing found with
  | nil => rfl
  | cons first rest ih =>
    have start : other.start? (move first.2) = placed.start? first.2 := by
      rw [Placed.start?, Placed.start?, same]
    simp only [List.map_cons, earliest, Prod.map_fst, Prod.map_snd, id_eq, start, ih]

/-- The start of a transition is the same. -/
theorem transitionStart (embeds : plan.Embeds wide move)
    (same : ∀ index, other.lookup (move index) = placed.lookup index) (index : Nat)
    (mode : TransitionMode) (timing : Timing) (cursor seconds : Float) :
    wide.transitionStart other (move index) mode timing cursor seconds =
      plan.transitionStart placed index mode timing cursor seconds := by
  unfold Plan.transitionStart
  rw [embeds.prevScene?]
  cases timing.start with
  | some start => rfl
  | none =>
    cases plan.prevScene? index with
    | none => cases mode <;> rfl
    | some before =>
      cases mode with
      | insert => rfl
      | overlap =>
        dsimp only [Option.map_some, Prod.map]
        rw [finish?_eq same]
        rfl

/-! ## Whole attempts -/

/-- An attempt at a scene comes to the same end. -/
theorem placeScene (embeds : plan.Embeds wide move)
    (same : ∀ index, other.lookup (move index) = placed.lookup index) {s : Scene}
    {parts : List DrawnItem} (cues : DrawnItem.cuesOf parts = s.cues)
    (agree : Context.AgreesOn (Item.scene s).reads (other.context wide.fps (move index))
      (placed.context plan.fps index)) :
    wide.placeScene other (move index) s parts = plan.placeScene placed index s parts := by
  have time := agree.mono (List.subset_append_left _ _)
  have inside : Context.AgreesOn ((DrawnItem.cuesOf parts).flatMap Cue.reads)
      (other.context wide.fps (move index)) (placed.context plan.fps index) := by
    rw [cues]
    exact agree.mono (List.subset_append_right _ _)
  unfold Plan.placeScene
  simp only [embeds.cursorFor same, TimeRange.evaluate?_congr time, embeds.incoming,
    earliest_eq same, layOut_congr embeds.estimate inside]

/-- An attempt at a transition comes to the same end. -/
theorem placeTransition (embeds : plan.Embeds wide move)
    (same : ∀ index, other.lookup (move index) = placed.lookup index) {t : Transition}
    (agree : Context.AgreesOn (Item.transition t).reads (other.context wide.fps (move index))
      (placed.context plan.fps index)) :
    wide.placeTransition other (move index) t = plan.placeTransition placed index t := by
  have time := agree.mono (List.subset_append_left _ _)
  have duration := agree.mono (List.subset_append_right _ _)
  unfold Plan.placeTransition
  simp only [embeds.cursorFor same, TimeRange.evaluate?_congr time,
    transitionSeconds_congr duration, embeds.mode, embeds.transitionStart same,
    embeds.prevScene?, embeds.nextScene?, Option.map_map]
  rfl

/-- An attempt comes to the same end, where no entity reads what stands directly before or behind
it. -/
theorem place (embeds : plan.Embeds wide move)
    (same : ∀ index, other.lookup (move index) = placed.lookup index)
    (known : other.documentContext plan.fps = placed.documentContext plan.fps)
    (detached : ∀ item ∈ plan.items, item.IsDetached) (drawing : plan.IsDrawing drawn)
    (parts : ∀ index, drawn'[move index]?.getD [] = drawn[index]?.getD []) (index : Nat) :
    wide.place drawn' other (move index) = plan.place drawn placed index := by
  unfold Plan.place
  rw [embeds.items, parts]
  cases present : plan.items[index]? with
  | none => rfl
  | some item =>
    have alone := detached item (List.mem_of_getElem? present)
    have agree : Context.AgreesOn item.reads (other.context wide.fps (move index))
        (placed.context plan.fps index) := by
      rw [embeds.fps]
      exact agreesOn_of_isDetached alone known index (move index)
    cases item with
    | scene s => exact embeds.placeScene same (drawing.cuesOf present) agree
    | transition t => exact embeds.placeTransition same agree
    | mark m =>
      change wide.placeMark other (move index) m = plan.placeMark placed index m
      unfold Plan.placeMark
      rw [TimeValue.seconds?_congr agree]

/-- What is reached in a plan is reached in one that has more marks. -/
theorem reaches (embeds : plan.Embeds wide move)
    (detached : ∀ item ∈ plan.items, item.IsDetached) (drawing : plan.IsDrawing drawn)
    (parts : ∀ index, drawn'[move index]?.getD [] = drawn[index]?.getD [])
    (reached : plan.Reaches drawn placed) : wide.Reaches drawn' (placed.moved move) := by
  have injective := embeds.ascending.injective
  induction reached with
  | start => exact .start
  | @placed earlier index p reached pending done ih =>
    have again := embeds.place (Placed.lookup_moved injective earlier)
      (Placed.documentContext_moved _ _ _) detached drawing parts index
    have grown : Placed.moved (earlier ++ [(index, p)]) move =
        Placed.moved earlier move ++ [(move index, p)] := List.map_append
    rw [grown]
    refine .placed ih ?_ (again.trans done)
    rw [Placed.lookup_moved injective, pending]
  | @deferred earlier index anchor reached pending waits ih => exact ih

/-! ## Authored starts -/

/-- The same scenes start early. -/
theorem checkStart (embeds : plan.Embeds wide move)
    (same : ∀ index, other.lookup (move index) = placed.lookup index) (index : Nat) :
    wide.checkStart other (move index) = plan.checkStart placed index := by
  have name : wide.nameAt (move index) = plan.nameAt index := by
    unfold nameAt
    rw [embeds.items]
  unfold Plan.checkStart
  rw [same, embeds.cursor same, name]

end Embeds

end Plan
end Storyboard
