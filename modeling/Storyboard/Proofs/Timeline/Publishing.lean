import Storyboard.Proofs.Timeline.Ledger
import Storyboard.Proofs.Timeline.Retry
/-!
# What a ledger holds

The tables of what has been placed (`Placed.tables`) tell all that is read of it. A placement is
written down under keys that are not there yet, because names differ and no entity is placed twice
(`Faithful.gains`), so writing it down adds rows and replaces none (`Faithful.publish_eq`).
-/
namespace Storyboard

/-! ## Tables -/

namespace Table

variable {κ β : Type} [BEq κ]

/-- Whether all that is found in a table is found in another one, and alike. -/
def Le (table more : Table κ β) : Prop :=
  ∀ key value, table.lookup key = some value → more.lookup key = some value

/-- What is found is found. -/
theorem Le.refl (table : Table κ β) : table.Le table := fun _ _ found => found

/-- What is found in a table is found in all that hold more than a larger one. -/
theorem Le.trans {table more most : Table κ β} (first : table.Le more) (second : more.Le most) :
    table.Le most := fun key value found => second key value (first key value found)

/-- Whether a table becomes another one by rows under some keys that are added at its end, where
none of these keys was there. -/
structure Gains (before : Table κ β) (keys : List κ) (after : Table κ β) : Prop where
  /-- Rows are added, one for each key in order. -/
  rows : ∃ rows, after = before ++ rows ∧ rows.map (·.1) = keys
  /-- No key is added twice. -/
  distinct : keys.Nodup
  /-- No key was there. -/
  absent : ∀ key ∈ keys, before.lookup key = none

/-- What is found in a table is found when it has gained rows. -/
theorem Gains.le {before after : Table κ β} {keys : List κ} (gains : before.Gains keys after) :
    before.Le after := by
  obtain ⟨rows, rfl, _⟩ := gains.rows
  intro key value found
  rw [List.lookup_append, found, Option.some_or]

/-- A table gains a row whose key is not there. -/
theorem Gains.single {table : Table κ β} {key : κ} (absent : table.lookup key = none) (value : β) :
    table.Gains [key] (table ++ [(key, value)]) :=
  ⟨⟨_, rfl, rfl⟩, List.nodup_singleton _, by simpa using absent⟩

variable [LawfulBEq κ]

/-- Under the key of a value that is put there that value is found. -/
theorem lookup_put_self (table : Table κ β) (key : κ) (value : β) :
    (table.put key value).lookup key = some value := by
  induction table with
  | nil => simp [put]
  | cons row rest ih =>
    rw [put]
    split
    · rw [List.lookup_cons_self]
    · rename_i apart
      have differs : (key == row.1) = false := by simpa [BEq.comm] using apart
      rw [List.lookup_cons, differs]
      exact ih

/-- Under any other key the same is found as before. -/
theorem lookup_put_of_ne (table : Table κ β) {key other : κ} (apart : other ≠ key) (value : β) :
    (table.put key value).lookup other = table.lookup other := by
  have differs : (other == key) = false := beq_eq_false_iff_ne.mpr apart
  induction table with
  | nil => simp [put, List.lookup_cons, differs]
  | cons row rest ih =>
    rw [put]
    split
    · rename_i same
      rw [List.lookup_cons, List.lookup_cons, eq_of_beq same, differs]
    · rw [List.lookup_cons, List.lookup_cons, ih]

/-- A value whose key is not there is put at the end. -/
theorem put_of_absent {table : Table κ β} {key : κ} (absent : table.lookup key = none) (value : β) :
    table.put key value = table ++ [(key, value)] := by
  induction table with
  | nil => rfl
  | cons row rest ih =>
    have apart := List.lookup_eq_none_iff.mp absent row List.mem_cons_self
    have differs : ¬ (row.1 == key) = true := fun same => by
      rw [eq_of_beq same] at apart
      simp at apart
    have behind : List.lookup key rest = none := List.lookup_eq_none_iff.mpr fun other member =>
      List.lookup_eq_none_iff.mp absent other (List.mem_cons_of_mem _ member)
    rw [put, if_neg differs, ih behind]
    rfl

/-- Values whose keys are not there are put at the end. -/
theorem putAll_of_absent {table rows : Table κ β} (distinct : (rows.map (·.1)).Nodup)
    (absent : ∀ key ∈ rows.map (·.1), table.lookup key = none) :
    putAll rows table = table ++ rows := by
  induction rows generalizing table with
  | nil => exact (List.append_nil _).symm
  | cons row rest ih =>
    obtain ⟨fresh, distinct⟩ := List.nodup_cons.mp distinct
    have here : table.lookup row.1 = none := absent row.1 List.mem_cons_self
    rw [putAll, List.foldl_cons, put_of_absent here]
    have later : ∀ key ∈ rest.map (·.1), (table ++ [row]).lookup key = none := by
      intro key member
      have apart : key ≠ row.1 := by
        rintro rfl
        exact fresh member
      have differs := beq_eq_false_iff_ne.mpr apart
      rw [List.lookup_append, absent key (List.mem_cons_of_mem _ member), Option.none_or,
        List.lookup_cons, differs, List.lookup_nil]
    exact (ih distinct later).trans (List.append_cons table row rest).symm

/-- What a table gains by some rows it gains where they are put into it. -/
theorem Gains.putAll_eq {table rows : Table κ β} {keys : List κ}
    (gains : table.Gains keys (table ++ rows)) : putAll rows table = table ++ rows := by
  obtain ⟨others, same, named⟩ := gains.rows
  cases List.append_cancel_left same
  cases named
  exact putAll_of_absent gains.distinct gains.absent

end Table

/-! ## What is found in a table of what is placed -/

section Lookup

variable {κ α β : Type} [BEq κ]

/-- What is found among images is the image of what is found. -/
theorem lookup_map_value (rows : List (κ × α)) (f : α → β) (key : κ) :
    (rows.map fun row => (row.1, f row.2)).lookup key = (rows.lookup key).map f := by
  induction rows with
  | nil => rfl
  | cons row rest ih =>
    rw [List.map_cons, List.lookup_cons, List.lookup_cons]
    cases key == row.1 with
    | true => rfl
    | false => exact ih

/-- What is found among images of which some are left out is the image of what is found, where no
key occurs twice. -/
theorem lookup_filterMap_value [LawfulBEq κ] {rows : List (κ × α)}
    (distinct : (rows.map (·.1)).Nodup) (f : α → Option β) (key : κ) :
    (rows.filterMap fun row => (f row.2).map fun value => (row.1, value)).lookup key =
      (rows.lookup key).bind f := by
  induction rows with
  | nil => rfl
  | cons row rest ih =>
    obtain ⟨fresh, distinct⟩ := List.nodup_cons.mp distinct
    rw [List.filterMap_cons, List.lookup_cons]
    by_cases same : key = row.1
    · subst same
      rw [beq_self_eq_true]
      cases image : f row.2 with
      | some value => simp [image]
      | none =>
        have absent : rest.lookup row.1 = none := List.lookup_eq_none_iff.mpr fun other member =>
          bne_iff_ne.mpr fun equal => fresh (List.mem_map.mpr ⟨other, member, equal.symm⟩)
        simp [image, ih distinct, absent]
    · rw [beq_eq_false_iff_ne.mpr same]
      cases f row.2 with
      | some value =>
        rw [Option.map_some, List.lookup_cons, beq_eq_false_iff_ne.mpr same]
        exact ih distinct
      | none => exact ih distinct

end Lookup

namespace Placed

variable {placed : Placed}

/-- The tables of what has been placed. -/
def tables (placed : Placed) : Tables where
  starts := placed.map fun row => (row.1, row.2.entry.start)
  finishes := placed.map fun row => (row.1, row.2.entry.finish)
  sceneStarts := placed.scenes.map fun window => (window.id, window.start)
  sceneEnds := placed.scenes.map fun window => (window.id, window.finish)
  cueStarts := (placed.scenes.flatMap (·.cues)).map fun cue => (cue.id, cue.start)
  markStarts := placed.marks.map fun mark => (mark.id, mark.start)
  entries := placed.map fun row => (row.1, row.2.entry)
  scenes := placed.filterMap fun row => row.2.scene.map fun window => (row.1, window)
  pauses := placed.filterMap fun row =>
    (row.2.scene.map fun _ => row.2.pauses).map fun pauses => (row.1, pauses)

/-- The starts of what has been placed. -/
theorem lookup_starts (placed : Placed) (index : Nat) :
    placed.tables.starts.lookup index = placed.start? index :=
  lookup_map_value placed (·.entry.start) index

/-- The ends of what has been placed. -/
theorem lookup_finishes (placed : Placed) (index : Nat) :
    placed.tables.finishes.lookup index = placed.finish? index :=
  lookup_map_value placed (·.entry.finish) index

/-! ## What is read of the tables -/

/-- An expression reads the same of the tables. -/
theorem context_tables (placed : Placed) (fps : Float) (index : Nat) :
    placed.tables.context fps index = placed.context fps index := by
  unfold Tables.context context
  rw [lookup_starts, lookup_starts, lookup_finishes]
  rfl

/-- The cursor is the same by the tables. -/
theorem cursor_tables (placed : Placed) (plan : Plan) (index : Nat) :
    placed.tables.cursor plan index = plan.cursor placed index := by
  unfold Tables.cursor Plan.cursor
  cases plan.cursorSource? index with
  | none => rfl
  | some source => cases found : placed.finish? source.2 <;> simp only [lookup_finishes, found]

/-- The cursor for a timing is the same by the tables. -/
theorem cursorFor_tables (placed : Placed) (plan : Plan) (index : Nat) (time : Option TimeRange) :
    placed.tables.cursorFor plan index time = plan.cursorFor placed index time := by
  unfold Tables.cursorFor Plan.cursorFor
  rw [cursor_tables]

/-- The earliest start among transitions is the same by the tables. -/
theorem earliest_tables (placed : Placed) (found : Option Float)
    (transitions : List (Transition × Nat)) :
    placed.tables.earliest found transitions = Plan.earliest placed found transitions := by
  induction transitions generalizing found with
  | nil => rfl
  | cons first rest ih =>
    obtain ⟨t, j⟩ := first
    rw [Tables.earliest, Plan.earliest, lookup_starts]
    cases placed.start? j with
    | none => rfl
    | some start => exact ih _

/-- The start of a transition is the same by the tables. -/
theorem transitionStart_tables (placed : Placed) (plan : Plan) (index : Nat)
    (mode : TransitionMode) (timing : Timing) (cursor seconds : Float) :
    placed.tables.transitionStart plan index mode timing cursor seconds =
      plan.transitionStart placed index mode timing cursor seconds := by
  unfold Tables.transitionStart Plan.transitionStart
  cases timing.start with
  | some start => rfl
  | none =>
    cases mode with
    | insert => rfl
    | overlap =>
      cases plan.prevScene? index with
      | none => rfl
      | some before => cases found : placed.finish? before.2 <;> simp only [lookup_finishes, found]

end Placed

/-! ## What a placement adds -/

namespace Item

/-- The names of the scenes of an entity: its own, for a scene. -/
def sceneNames : Item → List String
  | .scene s => [s.id]
  | _ => []

/-- The names of the cues of an entity. -/
def cueNames : Item → List String
  | .scene s => s.cues.map (·.id)
  | _ => []

/-- The names of the marks of an entity: its own, for a mark. -/
def markNames : Item → List String
  | .mark m => [m.id]
  | _ => []

end Item

namespace Tables

/-- Whether tables become other ones by rows for an entity at an index, under keys that were not
there: its index and its names. -/
structure Gains (before : Tables) (index : Nat) (item : Item) (after : Tables) : Prop where
  /-- A start. -/
  starts : before.starts.Gains [index] after.starts
  /-- An end. -/
  finishes : before.finishes.Gains [index] after.finishes
  /-- The start of a scene. -/
  sceneStarts : before.sceneStarts.Gains item.sceneNames after.sceneStarts
  /-- The end of a scene. -/
  sceneEnds : before.sceneEnds.Gains item.sceneNames after.sceneEnds
  /-- The starts of the cues of a scene. -/
  cueStarts : before.cueStarts.Gains item.cueNames after.cueStarts
  /-- The position of a mark. -/
  markStarts : before.markStarts.Gains item.markNames after.markStarts
  /-- A row. -/
  entries : before.entries.Gains [index] after.entries
  /-- A scene. -/
  scenes : before.scenes.Gains (item.sceneNames.map fun _ => index) after.scenes
  /-- The silences within a scene. -/
  pauses : before.pauses.Gains (item.sceneNames.map fun _ => index) after.pauses

/-- Whether all that is found in tables is found in other ones, and alike. -/
structure Le (tables more : Tables) : Prop where
  /-- The starts. -/
  starts : tables.starts.Le more.starts
  /-- The ends. -/
  finishes : tables.finishes.Le more.finishes
  /-- The starts of scenes. -/
  sceneStarts : tables.sceneStarts.Le more.sceneStarts
  /-- The ends of scenes. -/
  sceneEnds : tables.sceneEnds.Le more.sceneEnds
  /-- The starts of cues. -/
  cueStarts : tables.cueStarts.Le more.cueStarts
  /-- The positions of marks. -/
  markStarts : tables.markStarts.Le more.markStarts
  /-- The rows. -/
  entries : tables.entries.Le more.entries
  /-- The scenes. -/
  scenes : tables.scenes.Le more.scenes
  /-- The silences. -/
  pauses : tables.pauses.Le more.pauses

/-- What is found is found. -/
theorem Le.refl (tables : Tables) : tables.Le tables :=
  ⟨.refl _, .refl _, .refl _, .refl _, .refl _, .refl _, .refl _, .refl _, .refl _⟩

/-- What is found in tables is found in all that hold more than larger ones. -/
theorem Le.trans {tables more most : Tables} (first : tables.Le more) (second : more.Le most) :
    tables.Le most where
  starts := first.starts.trans second.starts
  finishes := first.finishes.trans second.finishes
  sceneStarts := first.sceneStarts.trans second.sceneStarts
  sceneEnds := first.sceneEnds.trans second.sceneEnds
  cueStarts := first.cueStarts.trans second.cueStarts
  markStarts := first.markStarts.trans second.markStarts
  entries := first.entries.trans second.entries
  scenes := first.scenes.trans second.scenes
  pauses := first.pauses.trans second.pauses

/-- What is found in tables is found when they have gained rows. -/
theorem Gains.le {before after : Tables} {index : Nat} {item : Item}
    (gains : before.Gains index item after) : before.Le after :=
  ⟨gains.starts.le, gains.finishes.le, gains.sceneStarts.le, gains.sceneEnds.le,
    gains.cueStarts.le, gains.markStarts.le, gains.entries.le, gains.scenes.le, gains.pauses.le⟩

end Tables

namespace Item.Fits

variable {item : Item} {p : Placement}

/-- The windows of a placement have the names of the scenes of its entity. -/
theorem scene_names (fits : item.Fits p) : p.scene.toList.map (·.id) = item.sceneNames := by
  have window := fits.window
  cases item with
  | scene s =>
    obtain ⟨own, held, id, _⟩ := window
    rw [held]
    exact congrArg (fun name => [name]) id
  | transition t => rw [show p.scene = none from window]; rfl
  | mark m => rw [show p.scene = none from window]; rfl

/-- The cues of a placement have the names of the cues of its entity. -/
theorem cue_names (fits : item.Fits p) :
    (p.scene.toList.flatMap (·.cues)).map (·.id) = item.cueNames := by
  have window := fits.window
  cases item with
  | scene s =>
    obtain ⟨own, held, _, _, _, ids⟩ := window
    rw [held, Option.toList_some, List.flatMap_singleton]
    exact ids
  | transition t => rw [show p.scene = none from window]; rfl
  | mark m => rw [show p.scene = none from window]; rfl

/-- The row of a placement is that of a mark, with its name, exactly if its entity is one. -/
theorem mark_names (fits : item.Fits p) :
    ([p.entry].filter (·.kind == .mark)).map (·.id) = item.markNames := by
  have kind := fits.kind
  cases item with
  | scene s => simp [kind, Item.kind, markNames]
  | transition t => simp [kind, Item.kind, markNames]
  | mark m => simp [kind, Item.kind, markNames, fits.id, Item.id]

/-- A value of the windows of a placement by name. -/
theorem scene_rows (fits : item.Fits p) {β : Type} (f : SceneWindow → β) :
    (p.scene.toList.map fun window => (window.id, f window)).map (·.1) = item.sceneNames := by
  rw [List.map_map, ← fits.scene_names]
  rfl

/-- A value of the windows of a placement by index. -/
theorem index_rows (fits : item.Fits p) (index : Nat) {β : Type} (f : SceneWindow → β) :
    (p.scene.toList.map fun window => (index, f window)).map (·.1) =
      item.sceneNames.map fun _ => index := by
  rw [List.map_map, ← fits.scene_names, List.map_map]
  rfl

end Item.Fits

namespace Placed

/-- The tables with one more placement have its rows at their ends. -/
theorem tables_concat (placed : Placed) (index : Nat) (p : Placement) :
    (placed ++ [(index, p)]).tables = {
      starts := placed.tables.starts ++ [(index, p.entry.start)]
      finishes := placed.tables.finishes ++ [(index, p.entry.finish)]
      sceneStarts := placed.tables.sceneStarts ++
        p.scene.toList.map fun window => (window.id, window.start)
      sceneEnds := placed.tables.sceneEnds ++
        p.scene.toList.map fun window => (window.id, window.finish)
      cueStarts := placed.tables.cueStarts ++
        (p.scene.toList.flatMap (·.cues)).map fun cue => (cue.id, cue.start)
      markStarts := placed.tables.markStarts ++
        ([p.entry].filter (·.kind == .mark)).map fun mark => (mark.id, mark.start)
      entries := placed.tables.entries ++ [(index, p.entry)]
      scenes := placed.tables.scenes ++ p.scene.toList.map fun window => (index, window)
      pauses := placed.tables.pauses ++ p.scene.toList.map fun _ => (index, p.pauses) } := by
  have scenes : (placed ++ [(index, p)]).scenes = placed.scenes ++ p.scene.toList := by
    unfold Placed.scenes
    cases held : p.scene <;> simp [held]
  have marks : (placed ++ [(index, p)]).marks =
      placed.marks ++ [p.entry].filter (·.kind == .mark) := by
    unfold Placed.marks
    rw [List.map_append, List.filter_append]
    rfl
  unfold tables
  rw [scenes, marks]
  cases held : p.scene <;> simp [held]

end Placed

namespace Plan

variable {plan : Plan} {placed : Placed} {index : Nat} {p : Placement} {item : Item}

/-- Whether a name is claimed by an entity that is placed. -/
def ClaimsPlaced (plan : Plan) (placed : Placed) (name : String) : Prop :=
  ∃ (j : Nat) (q : Placement) (other : Item), placed.lookup j = some q ∧
    plan.items[j]? = some other ∧ name ∈ other.names

/-- The names of windows of what is placed are claimed there, and so are those of their cues. -/
theorem Faithful.claimsPlaced_scene (faithful : plan.Faithful placed) {window : SceneWindow}
    (member : window ∈ placed.scenes) :
    plan.ClaimsPlaced placed window.id ∧ ∀ cue ∈ window.cues, plan.ClaimsPlaced placed cue.id := by
  obtain ⟨j, q, s, present, found, fits, held⟩ := faithful.mem_scenes.mp member
  obtain ⟨own, heldToo, id, _, _, ids⟩ := fits.window
  rw [held] at heldToo
  cases heldToo
  refine ⟨⟨j, q, .scene s, found, present, ?_⟩,
    fun cue inside => ⟨j, q, .scene s, found, present, ?_⟩⟩
  · rw [id]
    exact (Item.scene s).id_mem_names
  · obtain ⟨c, authored, same⟩ := List.mem_map.mp (ids ▸ List.mem_map_of_mem inside)
    rw [← same]
    exact Item.cue_mem_names authored

/-- The names of marks of what is placed are claimed there. -/
theorem Faithful.claimsPlaced_mark (faithful : plan.Faithful placed) {mark : Entry}
    (member : mark ∈ placed.marks) : plan.ClaimsPlaced placed mark.id := by
  obtain ⟨j, q, m, there, found, fits, rfl⟩ := faithful.mem_marks.mp member
  refine ⟨j, q, .mark m, found, there, ?_⟩
  rw [fits.id]
  exact (Item.mark m).id_mem_names

/-- A table of placements by index holds nothing under an index where nothing is placed. -/
theorem lookup_eq_none_of_pending {β : Type} {table : Table Nat β}
    (pending : placed.lookup index = none)
    (rows : ∀ row ∈ table, ∃ q, (row.1, q) ∈ placed) : table.lookup index = none := by
  refine List.lookup_eq_none_iff.mpr fun row member => bne_iff_ne.mpr ?_
  rintro rfl
  obtain ⟨q, inside⟩ := rows row member
  simpa using List.lookup_eq_none_iff.mp pending _ inside

/-- A table of a value of all that is placed gains a row under an index where nothing is. -/
theorem gains_of_pending (pending : placed.lookup index = none) {β : Type} (f : Placement → β)
    (value : β) :
    Table.Gains (placed.map fun row => (row.1, f row.2)) [index]
      ((placed.map fun row => (row.1, f row.2)) ++ [(index, value)]) := by
  refine .single (lookup_eq_none_of_pending pending fun row member => ?_) value
  obtain ⟨⟨j, q⟩, inside, rfl⟩ := List.mem_map.mp member
  exact ⟨q, inside⟩

/-- A table of a value of all scenes that are placed gains a row under an index where nothing is, if
the entity there is a scene. -/
theorem gains_scene_of_pending (pending : placed.lookup index = none) (fits : item.Fits p)
    {β : Type} (f : Placement → Option β) (g : SceneWindow → β) :
    Table.Gains (placed.filterMap fun row => (f row.2).map fun value => (row.1, value))
      (item.sceneNames.map fun _ => index)
      ((placed.filterMap fun row => (f row.2).map fun value => (row.1, value)) ++
        p.scene.toList.map fun window => (index, g window)) := by
  refine ⟨⟨_, rfl, fits.index_rows index g⟩, ?_, fun key member => ?_⟩
  · cases item <;> simp [Item.sceneNames]
  · obtain ⟨_, _, rfl⟩ := List.mem_map.mp member
    refine lookup_eq_none_of_pending pending fun row inside => ?_
    obtain ⟨⟨j, q⟩, there, image⟩ := List.mem_filterMap.mp inside
    obtain ⟨value, _, rfl⟩ := Option.map_eq_some_iff.mp image
    exact ⟨q, there⟩

/-- A table of placements by name gains rows under names of an entity that is not placed. -/
theorem HasUniqueNames.gains (unique : plan.HasUniqueNames) (pending : placed.lookup index = none)
    (present : plan.items[index]? = some item) {β : Type} {table rows : Table String β}
    (held : ∀ row ∈ table, plan.ClaimsPlaced placed row.1) {names : List String}
    (named : rows.map (·.1) = names) (claimed : names.Sublist item.names) :
    table.Gains names (table ++ rows) := by
  refine ⟨⟨rows, rfl, named⟩, claimed.nodup (unique.names_nodup present), fun name member => ?_⟩
  refine List.lookup_eq_none_iff.mpr fun row inside => bne_iff_ne.mpr ?_
  rintro rfl
  obtain ⟨j, q, other, found, there, shared⟩ := held row inside
  cases unique.index_eq present there (claimed.subset member) shared
  rw [pending] at found
  cases found

/-- A placement is written down under keys that are not there yet. -/
theorem Faithful.gains (faithful : plan.Faithful placed) (unique : plan.HasUniqueNames)
    (pending : placed.lookup index = none) (present : plan.items[index]? = some item)
    (fits : item.Fits p) :
    placed.tables.Gains index item (placed ++ [(index, p)]).tables := by
  have windows : ∀ (f : SceneWindow → Float),
      ∀ row ∈ placed.scenes.map fun window => (window.id, f window),
        plan.ClaimsPlaced placed row.1 := by
    intro f row member
    obtain ⟨window, shown, rfl⟩ := List.mem_map.mp member
    exact (faithful.claimsPlaced_scene shown).1
  have sceneNames : item.sceneNames.Sublist item.names := by
    cases item <;> simp [Item.sceneNames, Item.names_scene]
  rw [Placed.tables_concat]
  -- Tables by index gain a row at an index that is pending, tables by name under names of its own.
  constructor
  case starts => exact gains_of_pending pending (·.entry.start) _
  case finishes => exact gains_of_pending pending (·.entry.finish) _
  case entries => exact gains_of_pending pending (·.entry) _
  case sceneStarts =>
    exact unique.gains pending present (windows (·.start)) (fits.scene_rows _) sceneNames
  case sceneEnds =>
    exact unique.gains pending present (windows (·.finish)) (fits.scene_rows _) sceneNames
  case cueStarts =>
    refine unique.gains pending present (fun row member => ?_) ?_ ?_
    · obtain ⟨cue, inside, rfl⟩ := List.mem_map.mp member
      obtain ⟨window, shown, inside⟩ := List.mem_flatMap.mp inside
      exact (faithful.claimsPlaced_scene shown).2 cue inside
    · rw [List.map_map, ← fits.cue_names]
      rfl
    · cases item <;> simp [Item.cueNames, Item.names_scene]
  case markStarts =>
    refine unique.gains pending present (fun row member => ?_) ?_ ?_
    · obtain ⟨mark, shown, rfl⟩ := List.mem_map.mp member
      exact faithful.claimsPlaced_mark shown
    · rw [List.map_map, ← fits.mark_names]
      rfl
    · cases item with
      | scene s => exact List.nil_sublist _
      | transition t => exact List.nil_sublist _
      | mark m => exact List.singleton_sublist.mpr (Item.mark m).id_mem_names
  case scenes => exact gains_scene_of_pending pending fits (·.scene) _
  case pauses =>
    exact gains_scene_of_pending pending fits (fun q => q.scene.map fun _ => q.pauses)
      fun _ => p.pauses

/-- To write down a placement adds its rows and replaces none. -/
theorem Faithful.publish_eq (faithful : plan.Faithful placed) (unique : plan.HasUniqueNames)
    (pending : placed.lookup index = none) (present : plan.items[index]? = some item)
    (fits : item.Fits p) :
    placed.tables.publish index p = (placed ++ [(index, p)]).tables := by
  have gains := faithful.gains unique pending present fits
  rw [Placed.tables_concat] at gains ⊢
  rw [Tables.publish, Tables.mk.injEq]
  exact ⟨gains.starts.putAll_eq, gains.finishes.putAll_eq, gains.sceneStarts.putAll_eq,
    gains.sceneEnds.putAll_eq, gains.cueStarts.putAll_eq, gains.markStarts.putAll_eq,
    gains.entries.putAll_eq, gains.scenes.putAll_eq, gains.pauses.putAll_eq⟩

end Plan
end Storyboard
