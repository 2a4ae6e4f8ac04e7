import Storyboard.Proofs.Timeline.Names
import Storyboard.Timeline.Place
/-!
# Entities before a place

Placing an entity looks back: for the nearest scene, for the nearest entity that moves the
cursor, and for the transitions that lie over the end of the scene before it. The laws here say
what is found by indices alone.
-/
namespace Storyboard.Plan

variable {plan : Plan} {index : Nat}

/-! ## Looking back -/

/-- The nearest entity before a place is the one just before it. -/
theorem before_succ {item : Item} (present : plan.items[index]? = some item) :
    plan.before (index + 1) = (item, index) :: plan.before index := by
  unfold before
  rw [List.take_add_one, List.getElem?_zipIdx, present]
  simp

/-- Behind the last place there is nothing more to look back at. -/
theorem before_succ_of_none (absent : plan.items[index]? = none) :
    plan.before (index + 1) = plan.before index := by
  unfold before
  rw [List.take_add_one, List.getElem?_zipIdx, absent]
  simp

/-- What stands before a place are the entities of smaller index. -/
theorem mem_before {item : Item} {j : Nat} :
    (item, j) ∈ plan.before index ↔ j < index ∧ plan.items[j]? = some item := by
  unfold before
  rw [List.mem_reverse, List.mem_take_iff_getElem]
  constructor
  · rintro ⟨k, inside, found⟩
    simp only [List.getElem_zipIdx, Nat.zero_add, Prod.mk.injEq] at found
    obtain ⟨rfl, rfl⟩ := found
    exact ⟨by omega, List.getElem?_eq_getElem _⟩
  · rintro ⟨below, present⟩
    obtain ⟨inside, rfl⟩ := List.getElem?_eq_some_iff.mp present
    refine ⟨j, by rw [List.length_zipIdx]; omega, ?_⟩
    simp

/-- Looking back meets the nearest entity first. -/
theorem before_descending (plan : Plan) (index : Nat) :
    (plan.before index).Pairwise fun near far => far.2 < near.2 := by
  induction index with
  | zero => exact .nil
  | succ i ih =>
    cases present : plan.items[i]? with
    | none => rwa [before_succ_of_none present]
    | some item =>
      rw [before_succ present]
      exact .cons (fun far member => (mem_before.mp member).1) ih

section Search

variable {β : Type} {f : Item × Nat → Option β}

/-- Looking back finds nothing where no entity before the place is looked for. -/
theorem findSome?_before_eq_none :
    (plan.before index).findSome? f = none ↔
      ∀ j item, j < index → plan.items[j]? = some item → f (item, j) = none := by
  rw [List.findSome?_eq_none_iff]
  constructor
  · intro none_found j item below present
    exact none_found _ (mem_before.mpr ⟨below, present⟩)
  · rintro none_below ⟨item, j⟩ member
    obtain ⟨below, present⟩ := mem_before.mp member
    exact none_below j item below present

/-- Looking back finds the nearest entity that is looked for. -/
theorem exists_of_findSome?_before {result : β}
    (found : (plan.before index).findSome? f = some result) :
    ∃ j item, j < index ∧ plan.items[j]? = some item ∧ f (item, j) = some result ∧
      ∀ k other, j < k → k < index → plan.items[k]? = some other → f (other, k) = none := by
  obtain ⟨nearer, ⟨item, j⟩, farther, split, fits, passed⟩ := List.findSome?_eq_some_iff.mp found
  have descending := plan.before_descending index
  have members : ∀ x k, (x, k) ∈ plan.before index ↔ (x, k) ∈ nearer ++ (item, j) :: farther := by
    intro x k
    rw [split]
  rw [split] at descending
  obtain ⟨below, present⟩ := mem_before.mp ((members item j).mpr (by simp))
  refine ⟨j, item, below, present, fits, fun k other after before inside => ?_⟩
  have member := (members other k).mp (mem_before.mpr ⟨before, inside⟩)
  rcases List.mem_append.mp member with near | far
  · exact passed _ near
  · have last := (List.pairwise_cons.mp (List.pairwise_append.mp descending).2.1).1
    rcases List.mem_cons.mp far with same | farther
    · cases same
      omega
    · have := last _ farther
      omega

end Search

/-! ## Scenes on both sides -/

/-- Whether a scene stands at an index. -/
def HasScene (plan : Plan) (index : Nat) : Prop := ∃ s, plan.items[index]? = some (.scene s)

/-- There is no scene before a place exactly if none stands at a smaller index. -/
theorem prevScene?_eq_none : plan.prevScene? index = none ↔ ∀ j < index, ¬ plan.HasScene j := by
  refine findSome?_before_eq_none.trans ⟨fun none_found => ?_, fun none_before => ?_⟩
  · rintro j below ⟨s, present⟩
    cases none_found j _ below present
  · intro j item below present
    cases item with
    | scene s => exact absurd ⟨s, present⟩ (none_before j below)
    | transition t => rfl
    | mark m => rfl

/-- There is a scene before a place exactly if one stands at a smaller index. -/
theorem prevScene?_isSome :
    (plan.prevScene? index).isSome = true ↔ ∃ j < index, plan.HasScene j := by
  rw [Option.isSome_iff_ne_none, ne_eq, prevScene?_eq_none]
  simp only [not_forall, not_not, exists_prop]

/-- What stands after a place are the entities of larger index. -/
theorem mem_after {item : Item} {j : Nat} :
    (item, j) ∈ plan.after index ↔ index < j ∧ plan.items[j]? = some item := by
  unfold after
  rw [List.mem_drop_iff_getElem]
  constructor
  · rintro ⟨k, inside, found⟩
    simp only [List.getElem_zipIdx, Nat.zero_add, Prod.mk.injEq] at found
    obtain ⟨rfl, rfl⟩ := found
    exact ⟨by omega, List.getElem?_eq_getElem _⟩
  · rintro ⟨above, present⟩
    obtain ⟨inside, rfl⟩ := List.getElem?_eq_some_iff.mp present
    refine ⟨j - (index + 1), by rw [List.length_zipIdx]; omega, ?_⟩
    have same : index + 1 + (j - (index + 1)) = j := by omega
    simp only [List.getElem_zipIdx, same, Nat.zero_add]

/-- There is a scene after a place exactly if one stands at a larger index. -/
theorem nextScene?_isSome :
    (plan.nextScene? index).isSome = true ↔ ∃ j > index, plan.HasScene j := by
  unfold nextScene? firstScene?
  rw [List.findSome?_isSome_iff]
  constructor
  · rintro ⟨⟨item, j⟩, member, found⟩
    obtain ⟨above, present⟩ := mem_after.mp member
    cases item with
    | scene s => exact ⟨j, above, s, present⟩
    | transition t => cases found
    | mark m => cases found
  · rintro ⟨j, above, s, present⟩
    exact ⟨(.scene s, j), mem_after.mpr ⟨above, present⟩, rfl⟩

/-- Whether the transition at a place lies over the end of the scene before it: as it is authored,
or else because it stands between two scenes. -/
def Overlaps (plan : Plan) (index : Nat) (t : Transition) : Prop :=
  t.mode = some .overlap ∨
    t.mode = none ∧ (∃ j < index, plan.HasScene j) ∧ ∃ j > index, plan.HasScene j

/-- A transition claims time by overlap exactly if it lies over the end of a scene. -/
theorem mode_eq_overlap {t : Transition} :
    plan.mode index t = .overlap ↔ plan.Overlaps index t := by
  unfold mode Overlaps
  rw [← prevScene?_isSome, ← nextScene?_isSome, ← Bool.and_eq_true]
  cases t.mode with
  | some mode => simp
  | none =>
    dsimp only
    split
    · rename_i between
      exact iff_of_true rfl (.inr ⟨rfl, between⟩)
    · rename_i outside
      exact iff_of_false nofun fun overlaps => outside (overlaps.resolve_left nofun).2

/-- A transition claims time of its own exactly if it does not lie over the end of a scene. -/
theorem mode_eq_insert {t : Transition} :
    plan.mode index t = .insert ↔ ¬ plan.Overlaps index t := by
  rw [← mode_eq_overlap]
  cases plan.mode index t <;> simp

/-! ## The cursor -/

/-- Whether the entity at an index moves the cursor: a scene does, and a transition that does not
lie over the end of one. -/
def MovesCursor (plan : Plan) (index : Nat) : Prop :=
  plan.HasScene index ∨
    ∃ t, plan.items[index]? = some (.transition t) ∧ ¬ plan.Overlaps index t

/-- A scene moves the cursor. -/
theorem movesCursor_of_scene {s : Scene} (present : plan.items[index]? = some (.scene s)) :
    plan.MovesCursor index := .inl ⟨s, present⟩

/-- A transition moves the cursor exactly if it claims time of its own. -/
theorem movesCursor_iff_of_transition {t : Transition}
    (present : plan.items[index]? = some (.transition t)) :
    plan.MovesCursor index ↔ plan.mode index t = .insert := by
  simp [MovesCursor, HasScene, present, mode_eq_insert]

/-- A mark does not move the cursor. -/
theorem not_movesCursor_of_mark {m : Mark} (present : plan.items[index]? = some (.mark m)) :
    ¬ plan.MovesCursor index := by
  simp [MovesCursor, HasScene, present]

/-- Where nothing stands nothing moves the cursor. -/
theorem not_movesCursor_of_none (absent : plan.items[index]? = none) :
    ¬ plan.MovesCursor index := by
  simp [MovesCursor, HasScene, absent]

/-- Whether the entity at `j` is the nearest one before a place that moves the cursor. -/
structure IsCursorSource (plan : Plan) (index j : Nat) : Prop where
  /-- It stands before the place. -/
  before : j < index
  /-- It moves the cursor. -/
  moves : plan.MovesCursor j
  /-- Nothing nearer does. -/
  nearest : ∀ k, j < k → k < index → ¬ plan.MovesCursor k

/-- One entity at most is the nearest one that moves the cursor. -/
theorem IsCursorSource.eq {j k : Nat} (source : plan.IsCursorSource index j)
    (other : plan.IsCursorSource index k) : j = k := by
  rcases Nat.lt_trichotomy j k with nearer | same | farther
  · exact absurd other.moves (source.nearest k nearer other.before)
  · exact same
  · exact absurd source.moves (other.nearest j farther source.before)

/-- An entity that does not move the cursor has no anchor for it. -/
theorem cursorAnchor?_eq_none {item : Item} (present : plan.items[index]? = some item) :
    plan.cursorAnchor? item index = none ↔ ¬ plan.MovesCursor index := by
  unfold cursorAnchor?
  cases item with
  | scene s => simp [movesCursor_of_scene present]
  | transition t =>
    rw [movesCursor_iff_of_transition present]
    dsimp only
    cases plan.mode index t <;> simp
  | mark m => simp [not_movesCursor_of_mark present]

/-- An entity that moves the cursor does so under an anchor of its own. -/
theorem owns_of_cursorAnchor? {item : Item} {anchor : Anchor} (reader : Nat)
    (present : plan.items[index]? = some item)
    (found : plan.cursorAnchor? item index = some anchor) :
    plan.MovesCursor index ∧ plan.Owns index anchor reader := by
  unfold cursorAnchor? at found
  cases item with
  | scene s =>
    cases found
    exact ⟨movesCursor_of_scene present, s, present, rfl⟩
  | transition t =>
    dsimp only at found
    split at found
    · rename_i inserted
      cases found
      exact ⟨(movesCursor_iff_of_transition present).mpr inserted, t, present, rfl⟩
    · cases found
  | mark m => cases found

/-- The cursor is the end of the nearest entity before the place that moves it; where there is
none it is the lead-in. -/
theorem cursor_cases (plan : Plan) (index : Nat) :
    ((∀ j < index, ¬ plan.MovesCursor j) ∧ ∀ placed, plan.cursor placed index = .ok plan.leadIn) ∨
      ∃ j anchor, plan.IsCursorSource index j ∧ plan.Owns j anchor index ∧
        ∀ placed, plan.cursor placed index = (placed.finish? j).elim (.error anchor) .ok := by
  unfold cursor
  cases found : plan.cursorSource? index with
  | none =>
    refine .inl ⟨fun j below moves => ?_, fun placed => rfl⟩
    cases present : plan.items[j]? with
    | none => exact not_movesCursor_of_none present moves
    | some item =>
      have unmoved := findSome?_before_eq_none.mp found j item below present
      rw [Option.map_eq_none_iff, cursorAnchor?_eq_none present] at unmoved
      exact unmoved moves
  | some result =>
    obtain ⟨j, item, below, present, fits, nearest⟩ := exists_of_findSome?_before found
    obtain ⟨anchor, own, rfl⟩ := Option.map_eq_some_iff.mp fits
    refine .inr ⟨j, anchor, ⟨below, (owns_of_cursorAnchor? index present own).1, ?_⟩,
      (owns_of_cursorAnchor? index present own).2, fun placed => ?_⟩
    · intro k after before moves
      cases inside : plan.items[k]? with
      | none => exact not_movesCursor_of_none inside moves
      | some other =>
        have passed := nearest k other after before inside
        rw [Option.map_eq_none_iff, cursorAnchor?_eq_none inside] at passed
        exact passed moves
    · dsimp only
      cases placed.finish? j with
      | none => rfl
      | some finish => rfl

/-! ## The scene before, and what lies over its end -/

/-- The scene before a place is the nearest one. -/
theorem prevScene?_eq_some {s : Scene} {j : Nat}
    (found : plan.prevScene? index = some (s, j)) :
    j < index ∧ plan.items[j]? = some (.scene s) ∧ ∀ k, j < k → k < index → ¬ plan.HasScene k := by
  obtain ⟨k, item, below, present, fits, nearest⟩ := exists_of_findSome?_before found
  cases item with
  | transition t => cases fits
  | mark m => cases fits
  | scene s' =>
    cases fits
    refine ⟨below, present, ?_⟩
    rintro l after before ⟨t, inside⟩
    cases nearest l _ after before inside

/-- Whether the scene at `j` is the nearest one before a place. -/
structure IsPrevScene (plan : Plan) (index j : Nat) : Prop where
  /-- It stands before the place. -/
  before : j < index
  /-- It is a scene. -/
  stands : plan.HasScene j
  /-- No scene is nearer. -/
  nearest : ∀ k, j < k → k < index → ¬ plan.HasScene k

/-- The nearest scene before a place is found. -/
theorem IsPrevScene.found {j : Nat} (is : plan.IsPrevScene index j) :
    ∃ s, plan.prevScene? index = some (s, j) := by
  obtain ⟨⟨s, k⟩, found⟩ :=
    Option.isSome_iff_exists.mp (prevScene?_isSome.mpr ⟨j, is.before, is.stands⟩)
  obtain ⟨below, present, nearest⟩ := prevScene?_eq_some found
  rcases Nat.lt_trichotomy j k with nearer | rfl | farther
  · exact absurd ⟨s, present⟩ (is.nearest k nearer below)
  · exact ⟨s, found⟩
  · exact absurd is.stands (nearest j farther is.before)

/-- Where no scene stands between two places the scene before them is the same. -/
theorem prevScene?_eq {j : Nat} (le : j ≤ index)
    (none_between : ∀ k, j ≤ k → k < index → ¬ plan.HasScene k) :
    plan.prevScene? index = plan.prevScene? j := by
  induction index with
  | zero => rw [Nat.le_zero.mp le]
  | succ index ih =>
    rcases Nat.eq_or_lt_of_le le with rfl | within
    · rfl
    have le := Nat.le_of_lt_succ within
    rw [← ih le fun k above below => none_between k above (Nat.lt_succ_of_lt below)]
    have absent := none_between index le (Nat.lt_succ_self index)
    unfold prevScene? firstScene?
    cases present : plan.items[index]? with
    | none => rw [before_succ_of_none present]
    | some item =>
      rw [before_succ present, List.findSome?_cons]
      cases item with
      | scene s => exact absurd ⟨s, present⟩ absent
      | transition t => rfl
      | mark m => rfl

/-- Nothing leads into the first place. -/
theorem incoming_zero (plan : Plan) : plan.incoming 0 = [] := rfl

/-- What leads into the place behind an entity: nothing behind a scene, and else what leads into
the place of the entity, with the entity itself if it is a transition that overlaps. -/
theorem incoming_succ {item : Item} (present : plan.items[index]? = some item) :
    plan.incoming (index + 1) =
      match item with
      | .scene _ => []
      | .transition t =>
        if plan.mode index t = .overlap then (t, index) :: plan.incoming index
        else plan.incoming index
      | .mark _ => plan.incoming index := by
  unfold incoming
  rw [before_succ present]
  cases item with
  | scene s => rfl
  | transition t =>
    dsimp only [Item.scene?]
    rw [List.takeWhile_cons_of_pos rfl, List.filterMap_cons]
    split <;> split at * <;> simp_all
  | mark m => rfl

/-- Whether the transition at `j` lies over the end of a scene and leads into a place. -/
@[mk_iff]
structure LeadsInto (plan : Plan) (index j : Nat) (t : Transition) : Prop where
  /-- It stands before the place. -/
  before : j < index
  /-- It is the transition there. -/
  stands : plan.items[j]? = some (.transition t)
  /-- It lies over the end of a scene. -/
  overlaps : plan.Overlaps j t
  /-- No scene stands between it and the place. -/
  nearest : ∀ k, j < k → k < index → ¬ plan.HasScene k

/-- The transitions that lead into a place are found. -/
theorem mem_incoming {t : Transition} {j : Nat} :
    (t, j) ∈ plan.incoming index ↔ plan.LeadsInto index j t := by
  rw [leadsInto_iff]
  induction index with
  | zero => simp [incoming_zero]
  | succ i ih =>
    have nearer : ∀ j, (∀ k, j < k → k < i + 1 → ¬ plan.HasScene k) ↔
        (j < i → ¬ plan.HasScene i) ∧ ∀ k, j < k → k < i → ¬ plan.HasScene k := by
      grind
    have earlier : j < i + 1 ↔ j < i ∨ j = i := by omega
    rw [nearer, earlier]
    cases present : plan.items[i]? with
    | none =>
      have same : plan.incoming (i + 1) = plan.incoming i := by
        unfold incoming
        rw [before_succ_of_none present]
      rw [same, ih]
      grind [HasScene]
    | some item =>
      rw [incoming_succ present]
      cases item with
      | scene s => grind [HasScene]
      | transition u => grind [HasScene, mode_eq_overlap]
      | mark m => grind [HasScene]

/-- A transition that leads into a place leaves the scene before that place. -/
theorem prevScene?_of_mem_incoming {t : Transition} {j : Nat}
    (leads : (t, j) ∈ plan.incoming index) : plan.prevScene? j = plan.prevScene? index := by
  have leads := mem_incoming.mp leads
  refine (prevScene?_eq (Nat.le_of_lt leads.before) fun k above inside => ?_).symm
  rcases Nat.eq_or_lt_of_le above with rfl | after
  · rintro ⟨s, here⟩
    rw [leads.stands] at here
    cases here
  · exact leads.nearest k after inside

end Storyboard.Plan
