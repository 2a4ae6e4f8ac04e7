import Mathlib.Order.Monotone.Defs
import Storyboard.Proofs.Timeline.Tiling
/-!
# Marks are passed over

Placing an entity looks around: for the scenes next to it, for the entity that ends at its cursor,
and for the transitions that lead into its place. All of these are found among the entities that are
no marks, the turns of a plan (`prevScene?_eq_turns` and the laws beside it). So a plan whose turns
stand in another one in the same order, with whatever marks between them, finds the same there
(`Embeds`).
-/
namespace Storyboard

/-! ## Lists with places -/

section Lists

variable {α β : Type}

/-- The elements in front of a place are those of smaller place. -/
theorem take_zipIdx (items : List α) (offset count : Nat) :
    (items.zipIdx offset).take count =
      (items.zipIdx offset).filter (fun pair => pair.2 < offset + count) := by
  induction items generalizing offset count with
  | nil => simp
  | cons item rest ih =>
    cases count with
    | zero =>
      refine (List.filter_eq_nil_iff.mpr fun pair member => ?_).symm
      have above := (List.mem_zipIdx member).1
      simp only [decide_eq_true_eq]
      omega
    | succ count =>
      have front : decide (offset < offset + (count + 1)) = true := decide_eq_true (by omega)
      have bound : offset + (count + 1) = offset + 1 + count := by omega
      rw [List.zipIdx_cons, List.take_succ_cons, ih (offset + 1), ← bound, List.filter_cons]
      exact (if_pos front).symm

/-- The elements from a place on are those of no smaller place. -/
theorem drop_zipIdx (items : List α) (offset count : Nat) :
    (items.zipIdx offset).drop count =
      (items.zipIdx offset).filter (fun pair => offset + count ≤ pair.2) := by
  induction items generalizing offset count with
  | nil => simp
  | cons item rest ih =>
    cases count with
    | zero =>
      refine (List.filter_eq_self.mpr fun pair member => ?_).symm
      exact decide_eq_true (List.mem_zipIdx member).1
    | succ count =>
      have front : ¬ decide (offset + (count + 1) ≤ offset) = true := by
        simp only [decide_eq_true_eq]
        omega
      have bound : offset + (count + 1) = offset + 1 + count := by omega
      rw [List.zipIdx_cons, List.drop_succ_cons, ih (offset + 1), ← bound, List.filter_cons]
      exact (if_neg front).symm

/-- A search finds the same among those elements that it does not pass over. -/
theorem findSome?_filter {p : α → Bool} {f : α → Option β} (passed : ∀ x, p x = false → f x = none)
    (items : List α) : (items.filter p).findSome? f = items.findSome? f := by
  rw [← List.head?_filterMap, ← List.head?_filterMap, List.filterMap_filter]
  congr 2
  funext x
  cases kept : p x with
  | false => exact (passed x kept).symm
  | true => rfl

/-- What is chosen up to an end is chosen among those elements that are neither the end nor passed
over. -/
theorem filterMap_takeWhile_filter {p q : α → Bool} {f : α → Option β}
    (passed : ∀ x, p x = false → q x = true ∧ f x = none) (items : List α) :
    ((items.filter p).takeWhile q).filterMap f = (items.takeWhile q).filterMap f := by
  induction items with
  | nil => rfl
  | cons x rest ih =>
    cases kept : p x with
    | false =>
      have skip := passed x kept
      rw [List.filter_cons_of_neg (Bool.eq_false_iff.mp kept), List.takeWhile_cons_of_pos skip.1,
        List.filterMap_cons_none skip.2, ih]
    | true =>
      rw [List.filter_cons_of_pos kept]
      cases inside : q x with
      | false =>
        rw [List.takeWhile_cons_of_neg (Bool.eq_false_iff.mp inside),
          List.takeWhile_cons_of_neg (Bool.eq_false_iff.mp inside)]
      | true =>
        rw [List.takeWhile_cons_of_pos inside, List.takeWhile_cons_of_pos inside,
          List.filterMap_cons, List.filterMap_cons, ih]

end Lists

namespace Plan

/-! ## Looking around -/

/-- The entities that are no marks, with their places. -/
def turns (plan : Plan) : List (Item × Nat) :=
  plan.items.zipIdx.filter fun pair => pair.1.takesTurn

/-- Those of them before a place, the nearest first. -/
def turnsBefore (plan : Plan) (index : Nat) : List (Item × Nat) :=
  (plan.turns.filter fun pair => pair.2 < index).reverse

/-- Those of them after a place, the nearest first. -/
def turnsAfter (plan : Plan) (index : Nat) : List (Item × Nat) :=
  plan.turns.filter fun pair => index < pair.2

variable {plan wide : Plan} {move : Nat → Nat}

/-- What takes no turn is a mark. -/
theorem eq_mark_of_takesTurn {pair : Item × Nat} (rests : pair.1.takesTurn = false) :
    ∃ m, pair = (.mark m, pair.2) := by
  rcases pair with ⟨item, j⟩
  cases item with
  | scene s => cases rests
  | transition t => cases rests
  | mark m => exact ⟨m, rfl⟩

/-- What no mark has is found in passing over the marks. -/
theorem findSome?_takesTurn {β : Type} {f : Item × Nat → Option β}
    (marks : ∀ m j, f (.mark m, j) = none) (pairs : List (Item × Nat)) :
    (pairs.filter fun pair => pair.1.takesTurn).findSome? f = pairs.findSome? f := by
  refine findSome?_filter (fun pair rests => ?_) pairs
  obtain ⟨m, mark⟩ := eq_mark_of_takesTurn rests
  rw [mark]
  exact marks m pair.2

/-- The turns before a place are those among the entities there. -/
theorem turnsBefore_eq (plan : Plan) (index : Nat) :
    plan.turnsBefore index = (plan.before index).filter fun pair => pair.1.takesTurn := by
  unfold turnsBefore turns before
  rw [take_zipIdx, List.filter_reverse, List.filter_filter, List.filter_filter, Nat.zero_add]
  simp only [Bool.and_comm]

/-- The turns after a place are those among the entities there. -/
theorem turnsAfter_eq (plan : Plan) (index : Nat) :
    plan.turnsAfter index = (plan.after index).filter fun pair => pair.1.takesTurn := by
  unfold turnsAfter turns after
  rw [drop_zipIdx, List.filter_filter, List.filter_filter, Nat.zero_add]
  simp only [Bool.and_comm, Nat.succ_le_iff]

/-- The scene before a place is the nearest one among the turns. -/
theorem prevScene?_eq_turns (plan : Plan) (index : Nat) :
    plan.prevScene? index = firstScene? (plan.turnsBefore index) := by
  rw [turnsBefore_eq]
  exact (findSome?_takesTurn (fun _ _ => rfl) _).symm

/-- The scene behind a place is the nearest one among the turns. -/
theorem nextScene?_eq_turns (plan : Plan) (index : Nat) :
    plan.nextScene? index = firstScene? (plan.turnsAfter index) := by
  rw [turnsAfter_eq]
  exact (findSome?_takesTurn (fun _ _ => rfl) _).symm

/-- The entity that ends at the cursor is the nearest one among the turns that moves it. -/
theorem cursorSource?_eq_turns (plan : Plan) (index : Nat) :
    plan.cursorSource? index = (plan.turnsBefore index).findSome? fun pair =>
      (plan.cursorAnchor? pair.1 pair.2).map fun anchor => (anchor, pair.2) := by
  rw [turnsBefore_eq]
  exact (findSome?_takesTurn (fun _ _ => rfl) _).symm

/-- The transition that an entity is, if it lies over the end of a scene. -/
def overlapping? (plan : Plan) (pair : Item × Nat) : Option (Transition × Nat) :=
  match pair.1 with
  | .transition t => if plan.mode pair.2 t = .overlap then some (t, pair.2) else none
  | _ => none

/-- The transitions that lead into a place are the nearest ones among the turns. -/
theorem incoming_eq_turns (plan : Plan) (index : Nat) :
    plan.incoming index = ((plan.turnsBefore index).takeWhile fun pair =>
      pair.1.scene?.isNone).filterMap plan.overlapping? := by
  rw [turnsBefore_eq, filterMap_takeWhile_filter]
  · rfl
  · intro pair rests
    obtain ⟨m, mark⟩ := eq_mark_of_takesTurn rests
    rw [overlapping?, mark]
    exact ⟨rfl, rfl⟩

/-! ## Plans that differ in their marks -/

/-- Whether the entities of a plan stand in another one in the same order, each at the place that a
map gives for its own, with nothing but marks between them; and the plans are otherwise alike. -/
structure Embeds (plan wide : Plan) (move : Nat → Nat) : Prop where
  /-- The order is the same. -/
  ascending : StrictMono move
  /-- Each entity stands at its new place. -/
  items : ∀ index, wide.items[move index]? = plan.items[index]?
  /-- No scene or transition stands there besides. -/
  turns : wide.turns = plan.turns.map (Prod.map id move)
  /-- The silence before everything is as long. -/
  leadIn : wide.leadIn = plan.leadIn
  /-- Frames take as long. -/
  fps : wide.fps = plan.fps
  /-- Texts take as long. -/
  estimate : wide.estimate = plan.estimate

namespace Embeds

/-- The turns before a place are the same, at their new places. -/
theorem turnsBefore (embeds : plan.Embeds wide move) (index : Nat) :
    wide.turnsBefore (move index) = (plan.turnsBefore index).map (Prod.map id move) := by
  unfold Plan.turnsBefore
  rw [embeds.turns, List.filter_map, List.map_reverse]
  congr 3
  funext pair
  exact decide_eq_decide.mpr embeds.ascending.lt_iff_lt

/-- The turns after a place are the same, at their new places. -/
theorem turnsAfter (embeds : plan.Embeds wide move) (index : Nat) :
    wide.turnsAfter (move index) = (plan.turnsAfter index).map (Prod.map id move) := by
  unfold Plan.turnsAfter
  rw [embeds.turns, List.filter_map]
  congr 2
  funext pair
  exact decide_eq_decide.mpr embeds.ascending.lt_iff_lt

/-- The first scene of a list is the same when places are renamed. -/
theorem firstScene?_map (items : List (Item × Nat)) :
    firstScene? (items.map (Prod.map id move)) =
      (firstScene? items).map (Prod.map id move) := by
  unfold firstScene?
  rw [List.findSome?_map, List.map_findSome?]
  congr 1
  funext pair
  rcases pair with ⟨item, j⟩
  cases item <;> rfl

/-- The scene before a place is the same. -/
theorem prevScene? (embeds : plan.Embeds wide move) (index : Nat) :
    wide.prevScene? (move index) = (plan.prevScene? index).map (Prod.map id move) := by
  rw [prevScene?_eq_turns, prevScene?_eq_turns, embeds.turnsBefore, firstScene?_map]

/-- The scene behind a place is the same. -/
theorem nextScene? (embeds : plan.Embeds wide move) (index : Nat) :
    wide.nextScene? (move index) = (plan.nextScene? index).map (Prod.map id move) := by
  rw [nextScene?_eq_turns, nextScene?_eq_turns, embeds.turnsAfter, firstScene?_map]

/-- A transition claims time in the same way. -/
theorem mode (embeds : plan.Embeds wide move) (index : Nat) (t : Transition) :
    wide.mode (move index) t = plan.mode index t := by
  unfold Plan.mode
  rw [embeds.prevScene?, embeds.nextScene?, Option.isSome_map, Option.isSome_map]

/-- The cursor is moved under the same anchors. -/
theorem cursorAnchor? (embeds : plan.Embeds wide move) (item : Item) (index : Nat) :
    wide.cursorAnchor? item (move index) = plan.cursorAnchor? item index := by
  unfold Plan.cursorAnchor?
  simp only [embeds.mode]

/-- The entity that ends at the cursor is the same. -/
theorem cursorSource? (embeds : plan.Embeds wide move) (index : Nat) :
    wide.cursorSource? (move index) = (plan.cursorSource? index).map (Prod.map id move) := by
  rw [cursorSource?_eq_turns, cursorSource?_eq_turns, embeds.turnsBefore, List.findSome?_map,
    List.map_findSome?]
  congr 1
  funext pair
  simp only [Function.comp_apply, Prod.map_fst, Prod.map_snd, id_eq, embeds.cursorAnchor?,
    Option.map_map]
  rfl

/-- The transitions that lead into a place are the same. -/
theorem incoming (embeds : plan.Embeds wide move) (index : Nat) :
    wide.incoming (move index) = (plan.incoming index).map (Prod.map id move) := by
  rw [incoming_eq_turns, incoming_eq_turns, embeds.turnsBefore, List.takeWhile_map,
    List.filterMap_map, List.map_filterMap]
  congr 1
  funext pair
  rcases pair with ⟨item, j⟩
  cases item with
  | scene s => rfl
  | mark m => rfl
  | transition t =>
    simp only [Function.comp_apply, Prod.map_apply, id_eq, overlapping?, embeds.mode]
    split <;> rfl

end Embeds

end Plan
end Storyboard
