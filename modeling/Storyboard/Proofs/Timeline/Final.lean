import Storyboard.Proofs.Order.Permutation
import Storyboard.Proofs.Timeline.Course
/-!
# Positions in a finished timeline

A finished timeline tells of every entity by its name (`Writes.entryAt_eq`, `Writes.scene?_eq`,
`Writes.pauses_of`), and an expression reads in it what it reads in the table behind it
(`Writes.lookup?_context`).
-/
namespace Storyboard

/-- What is the only element of a list under a key is found there. -/
theorem find?_eq_some_of_single {α κ : Type} [BEq κ] [LawfulBEq κ] {items : List α} {f : α → κ}
    {x : α} {key : κ} (member : x ∈ items) (own : f x = key)
    (single : ∀ y ∈ items, f y = key → y = x) : items.find? (f · == key) = some x := by
  cases found : items.find? (f · == key) with
  | none =>
    have other := List.find?_eq_none.mp found x member
    rw [own, beq_self_eq_true] at other
    exact absurd rfl other
  | some y =>
    have fits := List.find?_some found
    rw [beq_iff_eq] at fits
    rw [single y (List.mem_of_find?_eq_some found) fits]

/-- Where all lists but one are empty their concatenation is that one. -/
theorem flatMap_eq_of_single {ι β : Type} {indices : List ι} {f : ι → List β} {i : ι}
    (distinct : indices.Nodup) (member : i ∈ indices)
    (others : ∀ j ∈ indices, j ≠ i → f j = []) : indices.flatMap f = f i := by
  induction indices with
  | nil => cases member
  | cons first rest ih =>
    obtain ⟨fresh, distinct⟩ := List.nodup_cons.mp distinct
    rw [List.flatMap_cons]
    rcases List.mem_cons.mp member with rfl | behind
    · have nothing : rest.flatMap f = [] := by
        rw [List.flatMap_eq_nil_iff]
        intro j inside
        refine others j (List.mem_cons_of_mem _ inside) ?_
        rintro rfl
        exact fresh inside
      rw [nothing, List.append_nil]
    · have apart : first ≠ i := by
        rintro rfl
        exact fresh behind
      rw [others first List.mem_cons_self apart, List.nil_append]
      exact ih distinct behind fun j inside => others j (List.mem_cons_of_mem _ inside)

namespace Timeline

/-- The row of the entity at an index of a plan. -/
def entryAt (timeline : Timeline) (plan : Plan) (index : Nat) : Option Entry :=
  plan.items[index]?.bind fun item => timeline.entry? item.id

/-- What an expression of the entity at an index reads in a finished timeline. -/
def context (timeline : Timeline) (plan : Plan) (index : Nat) : Context where
  fps := timeline.fps
  sceneStarts := timeline.scenes.map fun window => (window.id, window.start)
  sceneEnds := timeline.scenes.map fun window => (window.id, window.finish)
  cueStarts := (timeline.scenes.flatMap (·.cues)).map fun cue => (cue.id, cue.start)
  markStarts := (timeline.entries.filter (·.kind == .mark)).map fun entry =>
    (entry.id, entry.start)
  prevStart := if index = 0 then some 0.0 else (timeline.entryAt plan (index - 1)).map (·.start)
  prevEnd := if index = 0 then some 0.0 else (timeline.entryAt plan (index - 1)).map (·.finish)
  nextStart := (timeline.entryAt plan (index + 1)).map (·.start)

end Timeline

namespace Plan

variable {plan : Plan} {drawn : List (List DrawnItem)} {placed : Placed} {timeline : Timeline}
  {index : Nat}

/-- Whether a timeline is written down from a faithful table. -/
structure Writes (plan : Plan) (placed : Placed) (timeline : Timeline) : Prop where
  /-- No name is claimed twice. -/
  unique : plan.HasUniqueNames
  /-- The table is faithful. -/
  faithful : plan.Faithful placed
  /-- Frames take as long. -/
  fps : timeline.fps = plan.fps
  /-- The rows are those of the placements. -/
  entries : timeline.entries.Perm ((plan.placements placed).map (·.entry))
  /-- The scenes are those of the placements, in order. -/
  scenes : timeline.scenes = (plan.placements placed).filterMap (·.scene)
  /-- The silences are the lead-in and those of the placements, in order. -/
  pauses : timeline.pauses = plan.leadInSilence ++ (plan.placements placed).flatMap (·.pauses)

/-- The timeline of a faithful table is written down from it. -/
theorem writes_of_timeline (unique : plan.HasUniqueNames) (faithful : plan.Faithful placed)
    (done : plan.timeline placed = .ok timeline) : plan.Writes placed timeline := by
  obtain ⟨authored, _, done⟩ := bind_eq_ok done
  obtain ⟨poster, _, done⟩ := bind_eq_ok done
  cases done
  exact ⟨unique, faithful, rfl, Order.sortBy_perm _ _, rfl, rfl⟩

/-- A timeline is written down from the table that the run reaches. -/
theorem writes_of_run (unique : plan.HasUniqueNames) (drawing : plan.IsDrawing drawn)
    {events : List Event} (run : plan.runDrawn drawn [] = (placed, events, .ok timeline)) :
    plan.Writes placed timeline := by
  obtain ⟨reached, _, _, done⟩ := runDrawn_eq_ok run
  exact writes_of_timeline unique (reached.faithful drawing) done

/-- The rows of a timeline are those of the placements, in the order of their starts. -/
theorem entries_of_timeline {timeline : Timeline} (done : plan.timeline placed = .ok timeline) :
    timeline.entries = Order.sortBy (·.start) ((plan.placements placed).map (·.entry)) := by
  obtain ⟨authored, _, done⟩ := bind_eq_ok done
  obtain ⟨poster, _, done⟩ := bind_eq_ok done
  cases done
  rfl

/-- The placements in order are what the table holds. -/
theorem Faithful.mem_placements (faithful : plan.Faithful placed) {p : Placement} :
    p ∈ plan.placements placed ↔ ∃ j, placed.lookup j = some p := by
  unfold placements indices
  rw [List.mem_filterMap]
  constructor
  · rintro ⟨j, _, found⟩
    exact ⟨j, found⟩
  · rintro ⟨j, found⟩
    obtain ⟨item, present, _⟩ := faithful.fits j p (faithful.lookup_eq_some.mp found)
    exact ⟨j, List.mem_range.mpr (List.getElem?_eq_some_iff.mp present).1, found⟩

namespace Writes

/-- The rows of a timeline are those of the placements. -/
theorem mem_entries (writes : plan.Writes placed timeline) {entry : Entry} :
    entry ∈ timeline.entries ↔ ∃ j p, placed.lookup j = some p ∧ p.entry = entry := by
  rw [writes.entries.mem_iff, List.mem_map]
  constructor
  · rintro ⟨p, member, same⟩
    obtain ⟨j, found⟩ := writes.faithful.mem_placements.mp member
    exact ⟨j, p, found, same⟩
  · rintro ⟨j, p, found, same⟩
    exact ⟨p, writes.faithful.mem_placements.mpr ⟨j, found⟩, same⟩

/-- What holds of all rows of a timeline holds of those of the placements. -/
theorem forall_entries (writes : plan.Writes placed timeline) {P : Entry → Prop} :
    (∀ entry ∈ timeline.entries, P entry) ↔ ∀ p ∈ plan.placements placed, P p.entry := by
  simp only [writes.entries.mem_iff, List.forall_mem_map]

/-- The scenes of a timeline are those placed. -/
theorem mem_scenes (writes : plan.Writes placed timeline) {window : SceneWindow} :
    window ∈ timeline.scenes ↔ window ∈ placed.scenes := by
  rw [writes.scenes, Placed.scenes, List.mem_filterMap, List.mem_filterMap]
  constructor
  · rintro ⟨p, member, held⟩
    obtain ⟨j, found⟩ := writes.faithful.mem_placements.mp member
    exact ⟨(j, p), writes.faithful.lookup_eq_some.mp found, held⟩
  · rintro ⟨⟨j, p⟩, member, held⟩
    exact ⟨p, writes.faithful.mem_placements.mpr ⟨j, writes.faithful.lookup_eq_some.mpr member⟩,
      held⟩

/-- The marks of a timeline are those placed. -/
theorem mem_marks (writes : plan.Writes placed timeline) {entry : Entry} :
    entry ∈ timeline.entries.filter (·.kind == .mark) ↔ entry ∈ placed.marks := by
  rw [Placed.marks, List.mem_filter, List.mem_filter, writes.mem_entries, List.mem_map]
  refine and_congr_left fun _ => ?_
  constructor
  · rintro ⟨j, p, found, same⟩
    exact ⟨(j, p), writes.faithful.lookup_eq_some.mp found, same⟩
  · rintro ⟨⟨j, p⟩, member, same⟩
    exact ⟨j, p, writes.faithful.lookup_eq_some.mpr member, same⟩

/-- A row of the name of an entity is that of its placement. -/
theorem lookup_of_named (writes : plan.Writes placed timeline) {entry : Entry} {item : Item}
    (member : entry ∈ timeline.entries) (present : plan.items[index]? = some item)
    (named : entry.id = item.id) : ∃ p, placed.lookup index = some p ∧ p.entry = entry := by
  obtain ⟨j, p, found, rfl⟩ := writes.mem_entries.mp member
  obtain ⟨other, presentToo, fits⟩ :=
    writes.faithful.fits j p (writes.faithful.lookup_eq_some.mp found)
  rw [fits.id] at named
  cases writes.unique.index_eq presentToo present other.id_mem_names (named ▸ item.id_mem_names)
  exact ⟨p, found, rfl⟩

/-- The row of the entity at an index is that of its placement. -/
theorem entryAt_eq (writes : plan.Writes placed timeline) (index : Nat) :
    timeline.entryAt plan index = (placed.lookup index).map (·.entry) := by
  unfold Timeline.entryAt
  cases present : plan.items[index]? with
  | none =>
    cases found : placed.lookup index with
    | none => rfl
    | some p =>
      obtain ⟨item, here, _⟩ :=
        writes.faithful.fits index p (writes.faithful.lookup_eq_some.mp found)
      rw [present] at here
      cases here
  | some item =>
    cases found : placed.lookup index with
    | none =>
      refine List.find?_eq_none.mpr fun entry member named => ?_
      obtain ⟨p, foundToo, _⟩ := writes.lookup_of_named member present (beq_iff_eq.mp named)
      rw [found] at foundToo
      cases foundToo
    | some p =>
      have fits := writes.faithful.fits_of_lookup found present
      refine find?_eq_some_of_single (writes.mem_entries.mpr ⟨index, p, found, rfl⟩) fits.id ?_
      intro entry member named
      obtain ⟨q, foundToo, rfl⟩ := writes.lookup_of_named member present named
      rw [found] at foundToo
      cases foundToo
      rfl

/-- What is known of the row of a placement is known of the row in the timeline. -/
theorem exists_row (writes : plan.Writes placed timeline) (index : Nat) {α : Type}
    (f : Entry → α) (x : α) (known : (placed.lookup index).map (fun p => f p.entry) = some x) :
    ∃ entry, timeline.entryAt plan index = some entry ∧ f entry = x := by
  obtain ⟨p, held, same⟩ := Option.map_eq_some_iff.mp known
  exact ⟨p.entry, by rw [writes.entryAt_eq, held, Option.map_some], same⟩

/-- The window of the scene at an index is that of its placement. -/
theorem scene?_eq (writes : plan.Writes placed timeline) {s : Scene} {p : Placement}
    (present : plan.items[index]? = some (.scene s)) (found : placed.lookup index = some p) :
    timeline.scene? s.id = p.scene := by
  have fits := writes.faithful.fits_of_lookup found present
  obtain ⟨window, held, id, _⟩ := fits.window
  rw [held]
  refine find?_eq_some_of_single ?_ id ?_
  · exact writes.mem_scenes.mpr
      (writes.faithful.mem_scenes.mpr ⟨index, p, s, present, found, fits, held⟩)
  · intro other member named
    obtain ⟨j, q, t, presentToo, foundToo, fitsToo, heldToo⟩ :=
      writes.faithful.mem_scenes.mp (writes.mem_scenes.mp member)
    obtain ⟨own, heldOwn, idOwn, _⟩ := fitsToo.window
    rw [heldToo] at heldOwn
    cases heldOwn
    have sameName : (Item.scene t).id = (Item.scene s).id := idOwn.symm.trans named
    cases writes.unique.index_eq presentToo present (Item.id_mem_names _)
      (sameName ▸ Item.id_mem_names _)
    rw [found] at foundToo
    cases foundToo
    rw [held] at heldToo
    exact (Option.some.inj heldToo).symm

/-- The silences of the scene at an index are those of its placement. -/
theorem pauses_of (writes : plan.Writes placed timeline) {item : Item} {p : Placement}
    (present : plan.items[index]? = some item) (found : placed.lookup index = some p) :
    timeline.pauses.filter (fun silence => silence.sceneId == some item.id) = p.pauses := by
  have apart : ∀ j q, placed.lookup j = some q → j ≠ index →
      q.pauses.filter (fun silence => silence.sceneId == some item.id) = [] := by
    intro j q foundToo other
    obtain ⟨own, presentToo, fits⟩ :=
      writes.faithful.fits j q (writes.faithful.lookup_eq_some.mp foundToo)
    rw [List.filter_eq_nil_iff]
    intro silence member named
    rw [fits.pauses silence member, beq_iff_eq, Option.some.injEq] at named
    exact other (writes.unique.index_eq presentToo present own.id_mem_names
      (named ▸ item.id_mem_names))
  have opening : plan.leadInSilence.filter
      (fun silence => silence.sceneId == some item.id) = [] := by
    unfold leadInSilence
    split <;> simp
  rw [writes.pauses, List.filter_append, opening, List.nil_append, List.filter_flatMap,
    placements, List.filterMap_eq_flatMap_toList, List.flatMap_assoc]
  have inside := (List.getElem?_eq_some_iff.mp present).1
  refine (flatMap_eq_of_single List.nodup_range (List.mem_range.mpr inside) ?_).trans ?_
  · intro j _ other
    rw [List.flatMap_eq_nil_iff]
    intro q member
    exact apart j q (Option.mem_toList.mp member) other
  · have fits := writes.faithful.fits_of_lookup found present
    rw [found, Option.toList_some, List.flatMap_singleton, List.filter_eq_self]
    intro silence member
    rw [fits.pauses silence member, beq_self_eq_true]

/-- Where a timeline keeps positions by name that are what their owners tell, an expression reads
there what it reads in the table. -/
theorem lookup?_context_named (writes : plan.Writes placed timeline) {index : Nat}
    {kind : AnchorKind} {ref : Option String} {pairs : List (String × Float)}
    (named : kind ∈ [.sceneStart, .sceneEnd, .cueStart, .markStart])
    (kept : (timeline.context plan index).lookup? ⟨kind, ref⟩ =
      ref.bind fun name => pairs.lookup name)
    (told : ∀ name value,
      (name, value) ∈ pairs ↔ plan.Tells placed index ⟨kind, some name⟩ value) :
    (timeline.context plan index).lookup? ⟨kind, ref⟩ =
      (placed.context plan.fps index).lookup? ⟨kind, ref⟩ := by
  refine Option.ext fun value => ?_
  rw [writes.faithful.lookup?_context writes.unique]
  exact writes.unique.lookup?_named named kept told

/-- An expression reads in a timeline what it reads in the table behind it. -/
theorem lookup?_context (writes : plan.Writes placed timeline) (index : Nat) (anchor : Anchor) :
    (timeline.context plan index).lookup? anchor =
      (placed.context plan.fps index).lookup? anchor := by
  have windows : ∀ {f : SceneWindow → String × Float} {pair : String × Float},
      pair ∈ timeline.scenes.map f ↔ pair ∈ placed.scenes.map f := by
    intro f pair
    simp only [List.mem_map, writes.mem_scenes]
  have cues : ∀ pair : String × Float,
      pair ∈ (timeline.scenes.flatMap (·.cues)).map (fun cue => (cue.id, cue.start)) ↔
        pair ∈ (placed.scenes.flatMap (·.cues)).map (fun cue => (cue.id, cue.start)) := by
    intro pair
    simp only [List.mem_map, List.mem_flatMap, writes.mem_scenes]
  have marks : ∀ pair : String × Float,
      pair ∈ (timeline.entries.filter (·.kind == .mark)).map
          (fun entry => (entry.id, entry.start)) ↔
        pair ∈ placed.marks.map (fun entry => (entry.id, entry.start)) := by
    intro pair
    simp only [List.mem_map, writes.mem_marks]
  have faithful := writes.faithful
  rcases anchor with ⟨kind, ref⟩
  -- The lists of named positions differ in order, but the owners tell the same.
  cases kind with
  | sceneStart =>
    exact writes.lookup?_context_named (by decide) rfl fun name position =>
      windows.trans (faithful.mem_sceneStarts name position)
  | sceneEnd =>
    exact writes.lookup?_context_named (by decide) rfl fun name position =>
      windows.trans (faithful.mem_sceneEnds name position)
  | cueStart =>
    exact writes.lookup?_context_named (by decide) rfl fun name position =>
      (cues _).trans (faithful.mem_cueStarts writes.unique name position)
  | markStart =>
    exact writes.lookup?_context_named (by decide) rfl fun name position =>
      (marks _).trans (faithful.mem_markStarts name position)
  | prevStart =>
    simp only [Context.lookup?, Timeline.context, Placed.context, Placed.start?,
      writes.entryAt_eq, Option.map_map, Function.comp_def]
  | prevEnd =>
    simp only [Context.lookup?, Timeline.context, Placed.context, Placed.finish?,
      writes.entryAt_eq, Option.map_map, Function.comp_def]
  | nextStart =>
    simp only [Context.lookup?, Timeline.context, Placed.context, Placed.start?,
      writes.entryAt_eq, Option.map_map, Function.comp_def]
  | timelineStart => rfl
  | transition => rfl

/-- What is known in the table is known in the timeline. -/
theorem context_extendedBy (writes : plan.Writes placed timeline) (index : Nat) :
    (placed.context plan.fps index).ExtendedBy (timeline.context plan index) := by
  refine ⟨writes.fps.symm, fun anchor position known => ?_⟩
  rwa [writes.lookup?_context]

end Writes

end Plan
end Storyboard
