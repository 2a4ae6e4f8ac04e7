import Storyboard.Proofs.Timeline.Inventory
import Storyboard.Proofs.Timeline.Lengths
/-!
# Names identify

A composition is refused for a name that is claimed twice exactly if the names of its entities,
transitions in short form among them, and of its cues are not pairwise different
(`Plan.ofComposition_ne_duplicateId`). So in a timeline a name leads to what was authored under it
(`Timeline.Identifies`): the row of an entity, the window of a scene, the window of a cue. No row
stands in the way of a cue, and a name that nobody claims leads nowhere.
-/
namespace Storyboard

/-- Whether a timeline tells some entities, their scenes and their cues by name, given the table
that it is written down from. -/
structure Timeline.Identifies (timeline : Timeline) (items : List Item) (placed : Placed) :
    Prop where
  /-- The name of an entity leads to the row that it was placed with, and to its window. -/
  entry : ∀ index item, items[index]? = some item → ∃ p, placed.lookup index = some p ∧
    timeline.entry? item.id = some p.entry ∧ p.entry.IsOf item ∧
    timeline.window? item.id = some (p.entry.start, p.entry.finish)
  /-- The name of a scene leads to its window. -/
  scene : ∀ s, .scene s ∈ items →
    ∃ window ∈ timeline.scenes, timeline.scene? s.id = some window ∧ window.IsOf s
  /-- The name of a cue leads to its window in its scene, and to no row. -/
  cue : ∀ s c, .scene s ∈ items → c ∈ s.cues → ∃ scene cue,
    timeline.scene? s.id = some scene ∧ cue ∈ scene.cues ∧ timeline.cue? c.id = some cue ∧
      cue.IsOf s.id c ∧ timeline.entry? c.id = none ∧
      timeline.window? c.id = some (cue.start, cue.finish)
  /-- Any other name than those of entities leads to no row. -/
  noEntry : ∀ id, (∀ item ∈ items, item.id ≠ id) → timeline.entry? id = none
  /-- Any other name than those of scenes leads to no scene. -/
  noScene : ∀ id, (∀ s, .scene s ∈ items → s.id ≠ id) → timeline.scene? id = none
  /-- Any other name than those of cues leads to no cue. -/
  noCue : ∀ id, (∀ s c, .scene s ∈ items → c ∈ s.cues → c.id ≠ id) → timeline.cue? id = none
  /-- A name that is not claimed leads to no window. -/
  noWindow : ∀ id, id ∉ items.flatMap Item.names → timeline.window? id = none

namespace Plan

/-! ## Names that are claimed twice -/

/-- There is no first name that is claimed twice exactly if no name is. -/
theorem firstDuplicate_eq_none_iff {claims : List (String × String)} :
    firstDuplicate [] claims = none ↔ (claims.map (·.1)).Nodup :=
  ⟨fun none_found => (nodup_of_firstDuplicate claims [] none_found).1,
    fun distinct => firstDuplicate_eq_none claims [] distinct fun _ _ => List.not_mem_nil⟩

/-- A composition is not refused for a name that is claimed twice exactly if no name is. -/
theorem ofComposition_ne_duplicateId {composition : Composition} {seed : Option Int}
    {estimate : Option (String → Float)} :
    (∀ id first second, Plan.ofComposition composition seed estimate ≠
      .error (.compile (.duplicateId id first second))) ↔
    ((Item.expand composition.timeline).flatMap Item.names).Nodup := by
  have names : ((Item.expand composition.timeline).flatMap Item.claims).map (·.1) =
      (Item.expand composition.timeline).flatMap Item.names := List.map_flatMap
  rw [← names, ← firstDuplicate_eq_none_iff]
  unfold ofComposition
  dsimp only
  cases firstDuplicate [] ((Item.expand composition.timeline).flatMap Item.claims) with
  | none =>
    refine iff_of_true (fun id first second => ?_) rfl
    dsimp only
    split <;> simp
  | some duplicate =>
    obtain ⟨id, first, second⟩ := duplicate
    exact iff_of_false (fun accepted => accepted id first second rfl) (by simp)

variable {plan : Plan} {drawn : List (List DrawnItem)} {placed : Placed} {timeline : Timeline}
  {index : Nat}

/-! ## What names lead to -/

/-- A name of no entity leads to no row. -/
theorem Writes.entry?_eq_none (writes : plan.Writes placed timeline) {id : String}
    (apart : ∀ item ∈ plan.items, item.id ≠ id) : timeline.entry? id = none := by
  refine List.find?_eq_none.mpr fun entry member named => ?_
  obtain ⟨j, p, found, rfl⟩ := writes.mem_entries.mp member
  obtain ⟨item, present, fits⟩ :=
    writes.faithful.fits j p (writes.faithful.lookup_eq_some.mp found)
  rw [beq_iff_eq, fits.id] at named
  exact apart item (List.mem_of_getElem? present) named

/-- The name of an entity leads to the row that it was placed with. -/
theorem Settled.entry?_eq (settled : plan.Settled drawn placed timeline) {item : Item}
    {p : Placement} (present : plan.items[index]? = some item)
    (held : placed.lookup index = some p) : timeline.entry? item.id = some p.entry := by
  have row := settled.row held
  rwa [Timeline.entryAt, present, Option.bind_some] at row

/-- The name of a cue is that of no entity. -/
theorem HasUniqueNames.ne_cue (unique : plan.HasUniqueNames) {s : Scene} {c : Cue}
    (present : plan.items[index]? = some (.scene s)) (member : c ∈ s.cues) :
    ∀ item ∈ plan.items, item.id ≠ c.id := by
  intro item inside same
  obtain ⟨j, here⟩ := List.mem_iff_getElem?.mp inside
  cases unique.index_eq here present item.id_mem_names (same ▸ Item.cue_mem_names member)
  rw [present] at here
  cases here
  have distinct := unique.names_nodup present
  rw [Item.names_scene, List.nodup_cons] at distinct
  refine distinct.1 ?_
  rw [show s.id = c.id from same]
  exact List.mem_map_of_mem member

/-- The name of a scene leads to its window. -/
theorem Settled.scene?_isOf (settled : plan.Settled drawn placed timeline)
    (drawing : plan.IsDrawing drawn) {s : Scene} (present : plan.items[index]? = some (.scene s)) :
    ∃ window ∈ timeline.scenes, timeline.scene? s.id = some window ∧ window.IsOf s := by
  obtain ⟨p, held, fits, again⟩ := settled.again index _ present
  have shown := settled.writes.scene?_eq present held
  obtain ⟨_, rel⟩ := placeItem_isOf drawing present again
  obtain ⟨window, same, _⟩ := fits.window
  rw [same] at shown rel
  cases rel with
  | some isOf => exact ⟨window, (Timeline.of_scene? shown).1, shown, isOf⟩

/-- Every scene that is shown is one of the author, and is found by its name. -/
theorem Settled.exists_scene_isOf (settled : plan.Settled drawn placed timeline)
    (drawing : plan.IsDrawing drawn) {window : SceneWindow} (member : window ∈ timeline.scenes) :
    ∃ (index : Nat) (s : Scene), plan.items[index]? = some (.scene s) ∧
      timeline.scene? s.id = some window ∧ window.IsOf s := by
  obtain ⟨index, s, _, _, _, _, present, solves⟩ := settled.exists_scene member
  obtain ⟨other, _, shown, isOf⟩ := settled.scene?_isOf drawing present
  have same := solves.shown
  rw [shown] at same
  cases same
  exact ⟨index, s, present, shown, isOf⟩

/-- The cues that are shown of a scene have the names of its cues. -/
theorem ids_of_isOf {window : SceneWindow} {s : Scene} (isOf : window.IsOf s) :
    window.cues.map (·.id) = s.cues.map (·.id) := by
  have cues := isOf.cues
  generalize window.cues = shown at cues ⊢
  generalize s.cues = authored at cues ⊢
  induction cues with
  | nil => rfl
  | cons first _ ih => rw [List.map_cons, List.map_cons, first.id, ih]

/-- Every cue that is shown has the name of a cue of its scene. -/
theorem exists_cue_of_isOf {window : SceneWindow} {s : Scene} (isOf : window.IsOf s)
    {cue : CueWindow} (member : cue ∈ window.cues) : ∃ c ∈ s.cues, c.id = cue.id := by
  have listed : cue.id ∈ window.cues.map (·.id) := List.mem_map_of_mem member
  rw [ids_of_isOf isOf] at listed
  exact List.mem_map.mp listed

/-- No two cues are shown under one name. -/
theorem Settled.cue_eq (settled : plan.Settled drawn placed timeline)
    (drawing : plan.IsDrawing drawn) {cue other : CueWindow}
    (member : cue ∈ timeline.scenes.flatMap (·.cues))
    (memberOther : other ∈ timeline.scenes.flatMap (·.cues)) (same : other.id = cue.id) :
    other = cue := by
  have unique := settled.writes.unique
  obtain ⟨window, inside, member⟩ := List.mem_flatMap.mp member
  obtain ⟨windowOther, insideOther, memberOther⟩ := List.mem_flatMap.mp memberOther
  obtain ⟨i, s, present, shown, isOf⟩ := settled.exists_scene_isOf drawing inside
  obtain ⟨j, t, presentOther, shownOther, isOfOther⟩ :=
    settled.exists_scene_isOf drawing insideOther
  obtain ⟨c, authored, named⟩ := exists_cue_of_isOf isOf member
  obtain ⟨d, authoredOther, namedOther⟩ := exists_cue_of_isOf isOfOther memberOther
  have oneName : d.id = c.id := by rw [named, namedOther, same]
  -- the name is claimed at one index, so both cues are shown in one scene
  cases unique.index_eq present presentOther (Item.cue_mem_names authored)
    (oneName ▸ Item.cue_mem_names authoredOther)
  rw [present] at presentOther
  cases presentOther
  rw [shown] at shownOther
  cases shownOther
  have distinct : (window.cues.map (·.id)).Nodup := by
    rw [ids_of_isOf isOf]
    exact unique.cues_nodup present
  exact List.inj_on_of_nodup_map distinct memberOther member same

/-- The name of a cue leads to its window in its scene. -/
theorem Settled.cue?_isOf (settled : plan.Settled drawn placed timeline)
    (drawing : plan.IsDrawing drawn) {s : Scene} {c : Cue}
    (present : plan.items[index]? = some (.scene s)) (member : c ∈ s.cues) : ∃ scene cue,
    timeline.scene? s.id = some scene ∧ cue ∈ scene.cues ∧ timeline.cue? c.id = some cue ∧
      cue.IsOf s.id c := by
  obtain ⟨scene, inside, shown, isOf⟩ := settled.scene?_isOf drawing present
  obtain ⟨cue, memberShown, isOfCue⟩ := exists_mem_of_forall₂ isOf.cues member
  have listed : cue ∈ timeline.scenes.flatMap (·.cues) :=
    List.mem_flatMap.mpr ⟨scene, inside, memberShown⟩
  refine ⟨scene, cue, shown, memberShown, ?_, isOfCue⟩
  exact find?_eq_some_of_single listed isOfCue.id fun other memberOther named =>
    settled.cue_eq drawing listed memberOther (named.trans isOfCue.id.symm)

/-- A settled timeline tells its entities, scenes and cues by name. -/
theorem Settled.identifies (settled : plan.Settled drawn placed timeline)
    (drawing : plan.IsDrawing drawn) : timeline.Identifies plan.items placed := by
  have noCue : ∀ id, (∀ s c, .scene s ∈ plan.items → c ∈ s.cues → c.id ≠ id) →
      timeline.cue? id = none := by
    intro id apart
    refine List.find?_eq_none.mpr fun cue member named => ?_
    obtain ⟨window, inside, member⟩ := List.mem_flatMap.mp member
    obtain ⟨_, s, present, _, isOf⟩ := settled.exists_scene_isOf drawing inside
    obtain ⟨c, authored, same⟩ := exists_cue_of_isOf isOf member
    exact apart s c (List.mem_of_getElem? present) authored (same.trans (beq_iff_eq.mp named))
  refine ⟨?_, ?_, ?_, fun id => settled.writes.entry?_eq_none, ?_, noCue, ?_⟩
  · intro index item present
    obtain ⟨p, held, _, again⟩ := settled.again index item present
    have row := settled.entry?_eq present held
    refine ⟨p, held, row, (placeItem_isOf drawing present again).1, ?_⟩
    rw [Timeline.window?, row]
  · intro s member
    obtain ⟨index, present⟩ := List.mem_iff_getElem?.mp member
    exact settled.scene?_isOf drawing present
  · intro s c member authored
    obtain ⟨index, present⟩ := List.mem_iff_getElem?.mp member
    obtain ⟨scene, cue, shown, inside, found, isOf⟩ := settled.cue?_isOf drawing present authored
    have noRow := settled.writes.entry?_eq_none (settled.writes.unique.ne_cue present authored)
    refine ⟨scene, cue, shown, inside, found, isOf, noRow, ?_⟩
    rw [Timeline.window?, noRow, found]
    rfl
  · intro id apart
    refine List.find?_eq_none.mpr fun window member named => ?_
    obtain ⟨_, s, present, _, isOf⟩ := settled.exists_scene_isOf drawing member
    exact apart s (List.mem_of_getElem? present) (isOf.id.symm.trans (beq_iff_eq.mp named))
  · intro id unclaimed
    have claimed : ∀ item ∈ plan.items, id ∉ item.names := fun item member inside =>
      unclaimed (List.mem_flatMap.mpr ⟨item, member, inside⟩)
    have noRow : timeline.entry? id = none := settled.writes.entry?_eq_none
      fun item member same => claimed item member (same ▸ item.id_mem_names)
    have noWindow : timeline.cue? id = none := noCue id fun s c member authored same =>
      claimed _ member (same ▸ Item.cue_mem_names authored)
    rw [Timeline.window?, noRow, noWindow]
    rfl

end Plan

namespace Composition

/-- Names identify. A composition is made ready, or refused for another reason, exactly if the names
of its entities, with all transitions written out, and of its cues are pairwise different. In every
timeline that it resolves to the name of an entity leads to the row that it was placed with, that of
a scene or a cue to the window of that scene or cue, also where frames are counted, and any other
name to nothing. -/
theorem names_identify (composition : Composition) (seed : Option Int)
    (estimate : Option (String → Float)) :
    ((∀ id first second, Plan.ofComposition composition seed estimate ≠
        .error (.compile (.duplicateId id first second))) ↔
      ((Item.expand composition.timeline).flatMap Item.names).Nodup) ∧
    ∀ plan drawn placed events timeline,
      Plan.ofComposition composition seed estimate = .ok plan → plan.IsDrawing drawn →
      plan.runDrawn drawn [] = (placed, events, .ok timeline) →
      timeline.Identifies (Item.expand composition.timeline) placed := by
  refine ⟨Plan.ofComposition_ne_duplicateId, ?_⟩
  intro plan drawn placed events timeline ready drawing run
  rw [← Plan.items_of_ready ready]
  exact (Plan.settled_of_run (Plan.hasUniqueNames_of_ready ready) drawing run).identifies drawing

/-- The names of two scenes with their cues, of the transition between them and of a mark identify
them. -/
theorem peek_names_identify : ∃ placed events timeline,
    Plan.peekPlan.runDrawn Plan.peekPlan.drawn [] = (placed, events, .ok timeline) ∧
      timeline.Identifies (Item.expand Plan.peek.timeline) placed := by
  obtain ⟨placed, events, timeline, run⟩ := Plan.peek_resolves
  exact ⟨placed, events, timeline, run,
    (names_identify Plan.peek none (some fun _ => 0.0)).2 _ _ _ _ _ Plan.peek_ready
      (Plan.isDrawing_drawn _) run⟩

end Composition
end Storyboard
