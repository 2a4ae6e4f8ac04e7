import Storyboard.Proofs.Order.Stability
import Storyboard.Proofs.Timeline.Embedding
import Storyboard.Proofs.Timeline.Ending
import Storyboard.Proofs.Timeline.Expansion
/-!
# A mark moves nothing

A mark with a position of its own may be put into a timeline wherever it parts no transition from
the scene before it. All entities behind it change their places, but as long as no expression counts
places, which `prev` and `next` do, everything else stays where it was
(`Composition.resolve_insertMark`).

In the wider plan the mark may be placed last: whatever is reached without it is reached with it
too, and then only the mark is left. The passes come to the same end, since the order of attempts is
free (`Plan.exists_run_of_reaches`).
-/
namespace Storyboard

namespace Plan

/-! ## Places around a mark -/

/-- The place of an entity once a mark stands before the one at a place. -/
def skip (n index : Nat) : Nat := if index < n then index else index + 1

/-- The entities stay in order. -/
theorem strictMono_skip (n : Nat) : StrictMono (skip n) := by
  intro i j less
  unfold skip
  split <;> split <;> omega

/-- No entity takes the place of the mark. -/
theorem skip_ne (n index : Nat) : skip n index ≠ n := by
  unfold skip
  split <;> omega

/-- Every other place is that of an entity. -/
theorem eq_or_exists_skip (n place : Nat) : place = n ∨ ∃ index, place = skip n index := by
  rcases Nat.lt_trichotomy place n with below | same | above
  · exact .inr ⟨place, (if_pos below).symm⟩
  · exact .inl same
  · refine .inr ⟨place - 1, ?_⟩
    have behind : ¬ place - 1 < n := by omega
    rw [skip, if_neg behind]
    omega

/-- With one more element in a list each other one is found at its new place. -/
theorem getElem?_skip {α : Type} (first rest : List α) (x : α) (index : Nat) :
    (first ++ x :: rest)[skip first.length index]? = (first ++ rest)[index]? := by
  unfold skip
  split
  · rename_i inside
    rw [List.getElem?_append_left inside, List.getElem?_append_left inside]
  · rename_i behind
    have later : first.length ≤ index := by omega
    have laterStill : first.length ≤ index + 1 := by omega
    have offset : index + 1 - first.length = index - first.length + 1 := by omega
    rw [List.getElem?_append_right laterStill, List.getElem?_append_right later, offset,
      List.getElem?_cons_succ]

/-- With one more element in a list the places of the others are the new ones. -/
theorem zipIdx_skip {α : Type} (first rest : List α) :
    (first ++ rest).zipIdx.map (Prod.map id (skip first.length)) =
      first.zipIdx ++ rest.zipIdx (first.length + 1) := by
  rw [List.zipIdx_append, List.map_append, Nat.zero_add, List.zipIdx_succ]
  congr 1
  · refine (List.map_congr_left fun pair member => ?_).trans (List.map_id _)
    have below := (List.mem_zipIdx member).2.1
    rw [Nat.zero_add] at below
    exact Prod.ext rfl (if_pos below)
  · refine List.map_congr_left fun pair member => ?_
    have above := (List.mem_zipIdx member).1
    exact Prod.ext rfl (if_neg (by omega))

/-! ## A plan with one more mark -/

/-- A plan with one more mark between the first entities and the rest; in its composition the mark
stands at a place of its own. -/
def withMark (plan : Plan) (n : Nat) (first rest : List Item) (m : Mark) : Plan :=
  { plan with
    composition := plan.composition.insertMark n m
    items := first ++ .mark m :: rest }

variable {plan : Plan} {n : Nat} {first rest : List Item} {m : Mark} {placed : Placed}

/-- The turns of a plan are the same with a mark, at their new places. -/
theorem turns_withMark (parts : plan.items = first ++ rest) :
    (plan.withMark n first rest m).turns =
      plan.turns.map (Prod.map id (skip first.length)) := by
  have others : plan.turns.map (Prod.map id (skip first.length)) =
      (first.zipIdx ++ rest.zipIdx (first.length + 1)).filter fun pair => pair.1.takesTurn := by
    rw [← zipIdx_skip, List.filter_map, ← parts]
    rfl
  have whole : (plan.withMark n first rest m).items.zipIdx =
      first.zipIdx ++ (Item.mark m, first.length) :: rest.zipIdx (first.length + 1) := by
    rw [withMark, List.zipIdx_append, List.zipIdx_cons, Nat.zero_add]
  rw [others, turns, whole, List.filter_append, List.filter_append, List.filter_cons]
  rfl

/-- The entities of a plan stand in the one with a mark. -/
theorem embeds_withMark (parts : plan.items = first ++ rest) :
    plan.Embeds (plan.withMark n first rest m) (skip first.length) where
  ascending := strictMono_skip _
  items index := by
    rw [parts]
    exact getElem?_skip first rest _ index
  turns := turns_withMark parts
  leadIn := rfl
  fps := rfl
  estimate := rfl

/-- No name is claimed twice where that of the mark is not claimed yet. -/
theorem hasUniqueNames_withMark (unique : plan.HasUniqueNames)
    (parts : plan.items = first ++ rest) (fresh : m.id ∉ plan.items.flatMap Item.names) :
    (plan.withMark n first rest m).HasUniqueNames := by
  unfold HasUniqueNames at unique ⊢
  rw [parts, List.flatMap_append] at unique fresh
  rw [withMark, List.flatMap_append, List.flatMap_cons]
  exact List.nodup_middle.mpr (List.nodup_cons.mpr ⟨fresh, unique⟩)

/-- Nothing else is drawn for the entities of a plan with a mark. -/
theorem drawn_withMark (parts : plan.items = first ++ rest) (index : Nat) :
    (plan.withMark n first rest m).drawn[skip first.length index]?.getD [] =
      plan.drawn[index]?.getD [] := by
  have narrow := Item.draw_append plan.between plan.generator first rest
  have wide := Item.draw_append plan.between plan.generator first (.mark m :: rest)
  have count : (Item.draw plan.between plan.generator first).1.length = first.length :=
    (Item.draw_areDrawn plan.between plan.generator first).length_eq
  have same : (plan.withMark n first rest m).drawn =
      (Item.draw plan.between plan.generator (first ++ .mark m :: rest)).1 := rfl
  rw [same, wide, drawn, parts, narrow, ← count]
  exact congrArg (fun found : Option (List DrawnItem) => found.getD []) (getElem?_skip _ _ [] index)

/-! ## The table with the mark -/

/-- The placement of a mark at a moment. -/
def markPlacement (m : Mark) (moment : Float) : Placement where
  entry := { kind := .mark, id := m.id, start := moment, finish := moment }

/-- A table whose entities stand around a mark that is placed at a moment. -/
def tableWithMark (placed : Placed) (n : Nat) (m : Mark) (moment : Float) : Placed :=
  placed.moved (skip n) ++ [(n, markPlacement m moment)]

variable {moment : Float}

/-- What is placed besides the mark is found at its new place. -/
theorem lookup_tableWithMark (placed : Placed) (n : Nat) (m : Mark) (moment : Float)
    (index : Nat) :
    (tableWithMark placed n m moment).lookup (skip n index) = placed.lookup index := by
  have free := Placed.lookup_moved_eq_none (skip_ne n) placed
  rw [tableWithMark, lookup_append_of_pending free, if_neg (skip_ne n index),
    Placed.lookup_moved (strictMono_skip n).injective]

/-- The mark is found at its place. -/
theorem lookup_tableWithMark_self :
    (tableWithMark placed n m moment).lookup n = some (markPlacement m moment) := by
  have free := Placed.lookup_moved_eq_none (skip_ne n) placed
  rw [tableWithMark, lookup_append_of_pending free, if_pos rfl]

/-- A table with a mark knows the position of the mark besides what was known. -/
theorem documentContext_tableWithMark (fps : Float) :
    (tableWithMark placed n m moment).documentContext fps =
      { placed.documentContext fps with
        markStarts := (placed.documentContext fps).markStarts ++ [(m.id, moment)] } := by
  rw [← Placed.documentContext_moved placed (skip n) fps]
  have scenes : (tableWithMark placed n m moment).scenes =
      (placed.moved (skip n)).scenes := by
    unfold Placed.scenes tableWithMark
    rw [List.filterMap_append]
    exact List.append_nil _
  have marks : (tableWithMark placed n m moment).marks =
      (placed.moved (skip n)).marks ++ [(markPlacement m moment).entry] := by
    unfold Placed.marks tableWithMark
    rw [List.map_append, List.filter_append]
    rfl
  unfold Placed.documentContext
  rw [scenes, marks, List.map_append]
  rfl

/-- What is known of a table is known of it with a mark. -/
theorem documentContext_extendedBy_mark (placed : Placed) (n : Nat) (m : Mark) (moment : Float)
    (fps : Float) :
    (placed.documentContext fps).ExtendedBy
      ((tableWithMark placed n m moment).documentContext fps) := by
  rw [documentContext_tableWithMark]
  refine ⟨rfl, fun anchor position known => ?_⟩
  rcases anchor with ⟨kind, ref⟩
  cases kind with
  | sceneStart | sceneEnd | cueStart | prevStart | prevEnd | nextStart | timelineStart
  | transition => exact known
  | markStart =>
    cases ref with
    | none => cases known
    | some name =>
      change List.lookup name _ = some position at known
      change List.lookup name (_ ++ [(m.id, moment)]) = some position
      rw [List.lookup_append, known]
      rfl

/-- The mark stands at its place. -/
theorem items_withMark_self (plan : Plan) :
    (plan.withMark n first rest m).items[first.length]? = some (.mark m) := by
  rw [withMark, List.getElem?_append_right (Nat.le_refl _), Nat.sub_self]
  rfl

/-- What is reached in a plan is reached with a mark of a position of its own, and the mark besides
it. -/
theorem reaches_withMark (parts : plan.items = first ++ rest)
    (detached : ∀ item ∈ plan.items, item.IsDetached) (numeric : m.position = .seconds moment)
    (reached : plan.Reaches plan.drawn placed) :
    (plan.withMark n first rest m).Reaches (plan.withMark n first rest m).drawn
      (tableWithMark placed first.length m moment) := by
  have before := (embeds_withMark (n := n) (m := m) parts).reaches detached (isDrawing_drawn plan)
    (drawn_withMark (n := n) (m := m) parts) reached
  -- the mark is attempted last, when all that it could move is placed
  refine .placed before (Placed.lookup_moved_eq_none (skip_ne _) placed) ?_
  unfold place
  rw [items_withMark_self]
  change placeMark _ _ _ m = _
  rw [placeMark, numeric]
  rfl

/-- With the mark all is placed where all was placed before. -/
theorem isComplete_withMark (parts : plan.items = first ++ rest)
    (complete : plan.IsComplete placed) : (plan.withMark n first rest m).IsComplete
      (tableWithMark placed first.length m moment) := by
  intro place inside
  rcases eq_or_exists_skip first.length place with rfl | ⟨index, rfl⟩
  · exact ⟨_, lookup_tableWithMark_self⟩
  · rw [lookup_tableWithMark]
    refine complete index ?_
    have present := (embeds_withMark (n := n) (m := m) parts).items index
    rw [List.getElem?_eq_getElem inside] at present
    exact (List.getElem?_eq_some_iff.mp present.symm).1

/-- With the mark no scene starts early where none did before. -/
theorem checkStarts_withMark (parts : plan.items = first ++ rest)
    (checked : plan.checkStarts placed plan.indices = .ok ()) :
    (plan.withMark n first rest m).checkStarts (tableWithMark placed first.length m moment)
      (plan.withMark n first rest m).indices = .ok () := by
  have embeds := embeds_withMark (n := n) (m := m) parts
  refine checkStarts_of_forall fun place member => ?_
  rcases eq_or_exists_skip first.length place with rfl | ⟨index, rfl⟩
  · rw [checkStart, lookup_tableWithMark_self]
    rfl
  · rw [embeds.checkStart (lookup_tableWithMark placed first.length m moment)]
    have present := embeds.items index
    rw [List.getElem?_eq_getElem (List.mem_range.mp member)] at present
    exact checkStart_of_checkStarts checked
      (List.mem_range.mpr (List.getElem?_eq_some_iff.mp present.symm).1)

/-- The placements in order are the same with that of the mark among them. -/
theorem placements_withMark (placed : Placed) (n : Nat) (m : Mark) (moment : Float)
    (parts : plan.items = first ++ rest) : ∃ before behind,
    plan.placements placed = before ++ behind ∧
    (plan.withMark n first rest m).placements (tableWithMark placed first.length m moment) =
      before ++ markPlacement m moment :: behind := by
  have front : ∀ index ∈ List.range first.length,
      (tableWithMark placed first.length m moment).lookup index = placed.lookup index := by
    intro index member
    have same := lookup_tableWithMark placed first.length m moment index
    rwa [skip, if_pos (List.mem_range.mp member)] at same
  have back : ∀ index, (tableWithMark placed first.length m moment).lookup
      (first.length + (index + 1)) = placed.lookup (first.length + index) := by
    intro index
    have same := lookup_tableWithMark placed first.length m moment (first.length + index)
    have behind : ¬ first.length + index < first.length := by omega
    rwa [skip, if_neg behind] at same
  refine ⟨(List.range first.length).filterMap fun index => placed.lookup index,
    (List.range rest.length).filterMap fun index => placed.lookup (first.length + index), ?_, ?_⟩
  · unfold placements indices
    rw [parts, List.length_append, List.range_add, List.filterMap_append, List.filterMap_map]
    rfl
  · unfold placements indices withMark
    rw [List.length_append, List.length_cons, List.range_add, List.filterMap_append,
      List.filterMap_map, List.range_succ_eq_map, List.filterMap_cons, List.filterMap_map,
      List.filterMap_congr front]
    simp only [Function.comp_apply, Nat.add_zero, lookup_tableWithMark_self, Function.comp_def,
      Nat.succ_eq_add_one, back]

/-- No placement has the name of a mark that is not claimed. -/
theorem ne_id_of_mem_placements (faithful : plan.Faithful placed)
    (fresh : m.id ∉ plan.items.flatMap Item.names) :
    ∀ p ∈ plan.placements placed, p.entry.id ≠ m.id := by
  intro p member same
  obtain ⟨index, found⟩ := faithful.mem_placements.mp member
  obtain ⟨item, present, fits⟩ := faithful.fits index p (faithful.lookup_eq_some.mp found)
  refine fresh (List.mem_flatMap.mpr ⟨item, List.mem_of_getElem? present, ?_⟩)
  rw [← same, fits.id]
  exact item.id_mem_names

/-- With the mark there is a timeline where there was one before. -/
theorem exists_timeline_withMark (n : Nat) (first rest : List Item) (m : Mark) (moment : Float)
    {timeline : Timeline} (done : plan.timeline placed = .ok timeline) :
    ∃ timeline', (plan.withMark n first rest m).timeline
      (tableWithMark placed first.length m moment) = .ok timeline' := by
  obtain ⟨authored, length, done⟩ := bind_eq_ok done
  obtain ⟨poster, still, _⟩ := bind_eq_ok done
  have grows := documentContext_extendedBy_mark placed first.length m moment plan.fps
  have lengthToo : (plan.withMark n first rest m).documentSeconds?
      (tableWithMark placed first.length m moment) plan.composition.duration = .ok authored :=
    documentSeconds?_of_extendedBy grows length
  have stillToo : (plan.withMark n first rest m).documentSeconds?
      (tableWithMark placed first.length m moment) plan.composition.poster = .ok poster :=
    documentSeconds?_of_extendedBy grows still
  unfold Plan.timeline
  change ∃ timeline', (Plan.documentSeconds? _ _ plan.composition.duration >>= fun _ => _) = _
  rw [lengthToo]
  change ∃ timeline', (Plan.documentSeconds? _ _ plan.composition.poster >>= fun _ => _) = _
  rw [stillToo]
  exact ⟨_, rfl⟩

/-- The rows besides that of the mark are the same, and in the same order. -/
theorem filter_entries_withMark (parts : plan.items = first ++ rest)
    (number : moment.isNaN = false) {timeline timeline' : Timeline}
    (done : plan.timeline placed = .ok timeline)
    (doneWide : (plan.withMark n first rest m).timeline
      (tableWithMark placed first.length m moment) = .ok timeline')
    (others : ∀ p ∈ plan.placements placed, p.entry.id ≠ m.id)
    (defined : ∀ p ∈ plan.placements placed, p.entry.start.isNaN = false) :
    timeline'.entries.filter (fun row => row.id != m.id) = timeline.entries := by
  obtain ⟨before, behind, narrow, wide⟩ := placements_withMark placed n m moment parts
  rw [entries_of_timeline done, entries_of_timeline doneWide, narrow, wide]
  rw [narrow] at defined others
  -- a stable sort and a filter commute only on starts that are comparable
  have sortable : ∀ row ∈ (before ++ markPlacement m moment :: behind).map (·.entry),
      row.start.isNaN = false := by
    refine List.forall_mem_map.mpr fun p member => ?_
    rcases List.mem_cons.mp (List.perm_middle.mem_iff.mp member) with rfl | other
    · exact number
    · exact defined p other
  have kept : ∀ part : List Placement, part ⊆ before ++ behind →
      (part.map (·.entry)).filter (fun row => row.id != m.id) = part.map (·.entry) := by
    intro part inside
    refine List.filter_eq_self.mpr (List.forall_mem_map.mpr fun p member => ?_)
    exact bne_iff_ne.mpr (others p (inside member))
  have left : ¬ ((markPlacement m moment).entry.id != m.id) = true := by simp [markPlacement]
  rw [Order.sortBy_filter sortable, List.map_append, List.map_cons, List.filter_append,
    kept before (List.subset_append_left _ _), List.filter_cons, if_neg left,
    kept behind (List.subset_append_right _ _), ← List.map_append]

/-! ## Both runs -/

/-- A composition with one more mark can be made ready where the name of the mark is not claimed. -/
theorem ofComposition_insertMark {composition : Composition} {seed : Option Int}
    {estimate : Option (String → Float)}
    (ready : Plan.ofComposition composition seed estimate = .ok plan)
    (parts : Item.expand composition.timeline = first ++ rest)
    (inserted : Item.expand (composition.insertMark n m).timeline = first ++ .mark m :: rest)
    (fresh : m.id ∉ (Item.expand composition.timeline).flatMap Item.names) :
    Plan.ofComposition (composition.insertMark n m) seed estimate =
      .ok (plan.withMark n first rest m) := by
  have unique := hasUniqueNames_of_ready ready
  obtain ⟨_, untimed, rfl⟩ := ofComposition_eq_ok ready
  have distinct := hasUniqueNames_withMark (n := n) unique parts fresh
  unfold HasUniqueNames withMark at distinct
  have names : ((first ++ Item.mark m :: rest).flatMap Item.claims).map (·.1) =
      (first ++ Item.mark m :: rest).flatMap Item.names := List.map_flatMap
  rw [← names] at distinct
  have none_twice := firstDuplicate_eq_none _ [] distinct fun name _ => List.not_mem_nil
  unfold ofComposition
  dsimp only
  rw [inserted, none_twice]
  rw [parts, List.any_append] at untimed
  have untimedToo : ¬ (!(composition.voiceover.leadInSeconds ≤ 0.0) &&
      (first ++ Item.mark m :: rest).any isTimedScene) = true := by
    rw [List.any_append, List.any_cons]
    exact untimed
  exact if_neg untimedToo

/-- The passes come to the same timeline with one more mark, but for its length and the row of the
mark. -/
theorem runDrawn_withMark (unique : plan.HasUniqueNames) (parts : plan.items = first ++ rest)
    (fresh : m.id ∉ plan.items.flatMap Item.names)
    (detached : ∀ item ∈ plan.items, item.IsDetached) (numeric : m.position = .seconds moment)
    (number : moment.isNaN = false) {events : List Event} {timeline : Timeline}
    (run : plan.runDrawn plan.drawn [] = (placed, events, .ok timeline))
    (numbers : timeline.HasNumbers) : ∃ placed' events' timeline',
    (plan.withMark n first rest m).runDrawn (plan.withMark n first rest m).drawn [] =
        (placed', events', .ok timeline') ∧
      timeline'.entries.filter (fun row => row.id != m.id) = timeline.entries ∧
      timeline'.entry? m.id = some (markPlacement m moment).entry ∧
      timeline'.scenes = timeline.scenes ∧ timeline'.pauses = timeline.pauses := by
  obtain ⟨reached, complete, checked, done⟩ := runDrawn_eq_ok run
  have writes := writes_of_run unique (isDrawing_drawn plan) run
  have uniqueWide : (plan.withMark n first rest m).HasUniqueNames :=
    hasUniqueNames_withMark unique parts fresh
  have drawing := isDrawing_drawn (plan.withMark n first rest m)
  have reachedWide := reaches_withMark (n := n) parts detached numeric reached
  obtain ⟨timeline', doneWide⟩ := exists_timeline_withMark n first rest m moment done
  have writesWide := writes_of_timeline uniqueWide (reachedWide.faithful drawing) doneWide
  obtain ⟨placed', events', runWide⟩ := exists_run_of_reaches drawing uniqueWide reachedWide
    (isComplete_withMark parts complete) (checkStarts_withMark parts checked) doneWide
  obtain ⟨before, behind, narrow, wide⟩ := placements_withMark placed n m moment parts
  refine ⟨placed', events', timeline', runWide, ?_, ?_, ?_, ?_⟩
  · exact filter_entries_withMark parts number done doneWide
      (ne_id_of_mem_placements writes.faithful fresh)
      fun p member => (writes.forall_entries.mp numbers p member).1
  · have row := writesWide.entryAt_eq first.length
    rwa [Timeline.entryAt, items_withMark_self, lookup_tableWithMark_self] at row
  · rw [writesWide.scenes, writes.scenes, wide, narrow, List.filterMap_append,
      List.filterMap_append, List.filterMap_cons_none rfl]
  · rw [writesWide.pauses, writes.pauses, wide, narrow, List.flatMap_append, List.flatMap_append]
    rfl

end Plan

namespace Composition

/-- A mark moves nothing. Let a composition resolve to times that are numbers, with no expression
that reads what stands directly before or behind its entity. With one more mark of a new name, at a
position given in seconds, put anywhere but directly between a scene that names a transition in
short form and a transition, it resolves again, for the same seed and the same estimate. The rows of
all other entities are the same and in the same order, and so are the scenes, with all that is in
them, and the silences; the mark stands at its position. -/
theorem resolve_insertMark {composition : Composition} {seed : Option Int}
    {estimate : Option (String → Float)} {events : List Event} {timeline : Timeline} {n : Nat}
    {m : Mark} {moment : Float}
    (resolved : composition.resolve seed estimate = (events, .ok timeline))
    (numbers : timeline.HasNumbers)
    (detached : ∀ item ∈ Item.expand composition.timeline, item.IsDetached)
    (fresh : m.id ∉ (Item.expand composition.timeline).flatMap Item.names)
    (numeric : m.position = .seconds moment) (number : moment.isNaN = false)
    (apart : ¬ composition.PartsHandover n) : ∃ events' timeline',
    (composition.insertMark n m).resolve seed estimate = (events', .ok timeline') ∧
      timeline'.entries.filter (fun row => row.id != m.id) = timeline.entries ∧
      timeline'.entry? m.id =
        some { kind := .mark, id := m.id, start := moment, finish := moment } ∧
      timeline'.scenes = timeline.scenes ∧ timeline'.pauses = timeline.pauses := by
  cases ready : Plan.ofComposition composition seed estimate with
  | error cause =>
    rw [resolve, ready] at resolved
    cases resolved
  | ok plan =>
    rw [resolve_of_ready ready] at resolved
    obtain ⟨first, rest, parts, inserted⟩ := expand_insertMark m apart
    have readyWide := Plan.ofComposition_insertMark ready parts inserted fresh
    have items := Plan.items_of_ready ready
    rw [← items] at detached fresh parts
    have run : plan.runDrawn plan.drawn [] =
        ((plan.runDrawn plan.drawn []).1, events, .ok timeline) := Prod.ext rfl resolved
    obtain ⟨placed', events', timeline', runWide, same⟩ := Plan.runDrawn_withMark (n := n)
      (Plan.hasUniqueNames_of_ready ready) parts fresh detached numeric number run numbers
    refine ⟨events', timeline', ?_, same⟩
    rw [resolve_of_ready readyWide, runWide]

/-- Two scenes, the first of which names a transition in short form, and a cue that lasts as long as
the first scene. -/
def relay : Composition where
  timeline := [
    .scene {
      id := "first", items := [.cue { id := "hello", duration := some (.seconds 2.0) }]
      transitionToNext := some { duration := some (.seconds 0.5) } },
    .scene {
      id := "last"
      items := [.cue { id := "bye", duration := some (.expression "scene(first).end") }] }]

/-- The composition made ready, where no text takes time. -/
def relayPlan : Plan where
  composition := relay
  items := Item.expand relay.timeline
  seed := none
  estimate := fun _ => 0.0

/-- A mark between the scenes comes to stand behind their transition, and leaves all three where
they were. -/
theorem relay_unmoved : ∃ events timeline events' timeline',
    relay.resolve none (some fun _ => 0.0) = (events, .ok timeline) ∧ timeline.HasNumbers ∧
      (∀ item ∈ Item.expand relay.timeline, item.IsDetached) ∧ ¬ relay.PartsHandover 1 ∧
      (relay.insertMark 1 { id := "beat", position := .seconds 1.75 }).resolve none
        (some fun _ => 0.0) = (events', .ok timeline') ∧
      timeline'.entries.filter (fun row => row.id != "beat") = timeline.entries ∧
      timeline'.entry? "beat" =
        some { kind := .mark, id := "beat", start := 1.75, finish := 1.75 } ∧
      timeline'.scenes = timeline.scenes ∧ timeline'.pauses = timeline.pauses := by
  have ready : Plan.ofComposition relay none (some fun _ => 0.0) = .ok relayPlan := rfl
  have done : (relayPlan.runDrawn relayPlan.drawn []).2.2.isOk = true := by decide +kernel
  obtain ⟨timeline, run⟩ := Plan.runDrawn_of_isOk done
  have resolved : relay.resolve none (some fun _ => 0.0) =
      ((relayPlan.runDrawn relayPlan.drawn []).2.1, .ok timeline) := by
    rw [resolve_of_ready ready, run]
  have writes := Plan.writes_of_run (Plan.hasUniqueNames_of_ready ready)
    (Plan.isDrawing_drawn relayPlan) run
  have numbers : timeline.HasNumbers := writes.forall_entries.mpr (by decide +kernel)
  have detached : ∀ item ∈ Item.expand relay.timeline, item.IsDetached := by decide +kernel
  have apart : ¬ relay.PartsHandover 1 := by
    rintro ⟨_, _, _, _, _, _, behind⟩
    cases behind
  obtain ⟨events', timeline', again, same⟩ :=
    resolve_insertMark (m := { id := "beat", position := .seconds 1.75 }) resolved numbers detached
      (by decide +kernel) rfl (by decide +kernel) apart
  exact ⟨_, timeline, events', timeline', resolved, numbers, detached, apart, again, same⟩

end Composition
end Storyboard
