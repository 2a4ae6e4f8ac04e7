import Storyboard.Proofs.Timeline.Attempt
import Storyboard.Proofs.Timeline.Neighbours
/-!
# What placed entities tell

A table of placements is faithful if each of them is that of its entity. An attempt adds faithful
placements only (`place_fits`). In a faithful table an anchor has a position exactly if its owner
is placed, and the owner's placement says which (`lookup?_context`). So a larger table knows all
that a smaller one does (`context_extendedBy`).
-/
namespace Storyboard

/-! ## Lookup by key -/

section Lookup

variable {κ β : Type} [BEq κ] [LawfulBEq κ]

/-- What a list holds under a key that it holds once is what is found there. -/
theorem lookup_eq_some_iff_mem {pairs : List (κ × β)} {key : κ}
    (single : ∀ value other, (key, value) ∈ pairs → (key, other) ∈ pairs → value = other)
    {value : β} : pairs.lookup key = some value ↔ (key, value) ∈ pairs := by
  induction pairs with
  | nil => simp
  | cons pair rest ih =>
    obtain ⟨own, stored⟩ := pair
    rw [List.lookup_cons]
    by_cases same : key = own
    · subst same
      rw [beq_self_eq_true]
      dsimp only
      rw [Option.some.injEq]
      constructor
      · rintro rfl
        exact List.mem_cons_self
      · intro member
        exact single _ _ List.mem_cons_self member
    · rw [beq_eq_false_iff_ne.mpr same, List.mem_cons]
      dsimp only
      rw [ih fun value other first second =>
        single value other (List.mem_cons_of_mem _ first) (List.mem_cons_of_mem _ second)]
      constructor
      · exact .inr
      · rintro (equal | member)
        · cases equal
          exact absurd rfl same
        · exact member

end Lookup

/-! ## Faithful tables -/

namespace Item

/-- Whether a placement is that of an entity. -/
structure Fits (item : Item) (p : Placement) : Prop where
  /-- Its row has the name of the entity. -/
  id : p.entry.id = item.id
  /-- Its row has the kind of the entity. -/
  kind : p.entry.kind = item.kind
  /-- A scene has a window with all its cues and the bounds of the row; nothing else has one. -/
  window :
    match item with
    | .scene s => ∃ window, p.scene = some window ∧ window.id = s.id ∧
        window.start = p.entry.start ∧ window.finish = p.entry.finish ∧
        window.cues.map (·.id) = s.cues.map (·.id)
    | _ => p.scene = none
  /-- Its silences belong to the entity. -/
  pauses : ∀ silence ∈ p.pauses, silence.sceneId = some item.id

end Item

namespace Placement

/-- The position that the placement of its owner gives an anchor. -/
def position? (p : Placement) (anchor : Anchor) : Option Float :=
  match anchor.kind with
  | .sceneStart | .markStart | .prevStart | .nextStart => some p.entry.start
  | .sceneEnd | .prevEnd => some p.entry.finish
  | .cueStart => p.scene.bind fun window => anchor.ref.bind fun ref =>
      (window.cues.map fun cue => (cue.id, cue.start)).lookup ref
  | .timelineStart | .transition => none

end Placement

namespace Placed

/-- Whether a table holds all that another one holds, and alike. -/
def Le (placed more : Placed) : Prop :=
  ∀ index p, placed.lookup index = some p → more.lookup index = some p

/-- A table holds what it holds. -/
theorem Le.refl (placed : Placed) : placed.Le placed := fun _ _ found => found

/-- What a table holds is held by all that hold more than a larger one. -/
theorem Le.trans {placed more most : Placed} (first : placed.Le more) (second : more.Le most) :
    placed.Le most := fun index p found => second index p (first index p found)

end Placed

namespace Plan

/-- Whether the placements of a table are those of the entities, each placed once. -/
structure Faithful (plan : Plan) (placed : Placed) : Prop where
  /-- No index occurs twice. -/
  distinct : (placed.map (·.1)).Nodup
  /-- Each placement is that of the entity at its index. -/
  fits : ∀ index p, (index, p) ∈ placed → ∃ item, plan.items[index]? = some item ∧ item.Fits p

variable {plan : Plan} {placed : Placed} {drawn : List (List DrawnItem)} {index : Nat}

/-- Nothing placed is faithful. -/
theorem faithful_nil (plan : Plan) : plan.Faithful [] := ⟨List.nodup_nil, by simp⟩

/-- What is found in a faithful table is what it holds. -/
theorem Faithful.lookup_eq_some (faithful : plan.Faithful placed) {p : Placement} :
    placed.lookup index = some p ↔ (index, p) ∈ placed := by
  refine lookup_eq_some_iff_mem fun value other first second => ?_
  have same := List.inj_on_of_nodup_map faithful.distinct first second rfl
  exact (Prod.mk.inj same).2

/-- What is found in a faithful table is the placement of the entity. -/
theorem Faithful.fits_of_lookup (faithful : plan.Faithful placed) {p : Placement} {item : Item}
    (found : placed.lookup index = some p) (present : plan.items[index]? = some item) :
    item.Fits p := by
  obtain ⟨other, here, fits⟩ := faithful.fits index p (faithful.lookup_eq_some.mp found)
  rw [present] at here
  cases here
  exact fits

/-- A faithful table stays so with the placement of one more entity. -/
theorem Faithful.append (faithful : plan.Faithful placed) {p : Placement} {item : Item}
    (free : placed.lookup index = none) (present : plan.items[index]? = some item)
    (fits : item.Fits p) : plan.Faithful (placed ++ [(index, p)]) := by
  constructor
  · rw [List.map_append, List.map_cons, List.map_nil, List.nodup_append]
    refine ⟨faithful.distinct, List.nodup_singleton _, ?_⟩
    intro j member k last same
    rw [List.mem_singleton.mp last] at same
    subst same
    obtain ⟨⟨_, q⟩, inside, rfl⟩ := List.mem_map.mp member
    rw [faithful.lookup_eq_some.mpr inside] at free
    cases free
  · intro j q member
    rcases List.mem_append.mp member with earlier | last
    · exact faithful.fits j q earlier
    · cases List.mem_singleton.mp last
      exact ⟨item, present, fits⟩

/-- An attempt gives the placement of its entity. -/
theorem place_fits (drawing : plan.IsDrawing drawn) {p : Placement}
    (done : plan.place drawn placed index = .ok p) :
    ∃ item, plan.items[index]? = some item ∧ item.Fits p := by
  obtain ⟨item, present, done⟩ := place_eq_ok done
  refine ⟨item, present, ?_⟩
  cases item with
  | scene s =>
    obtain ⟨cursor, timing, pull, layout, _, _, _, foundLayout, rfl⟩ := placeScene_eq_ok done
    refine ⟨rfl, rfl, ⟨_, rfl, rfl, rfl, rfl, ?_⟩, layOut_sceneId foundLayout⟩
    rw [← drawing.cuesOf present]
    exact layOut_ids foundLayout
  | transition t =>
    obtain ⟨_, _, _, _, _, _, _, _, _, rfl⟩ := placeTransition_eq_ok done
    exact ⟨rfl, rfl, rfl, by simp⟩
  | mark m =>
    obtain ⟨_, _, rfl⟩ := placeMark_eq_ok done
    exact ⟨rfl, rfl, rfl, by simp⟩

/-! ## What a faithful table tells -/

/-- The windows of a faithful table are those of the scenes placed. -/
theorem Faithful.mem_scenes (faithful : plan.Faithful placed) {window : SceneWindow} :
    window ∈ placed.scenes ↔ ∃ j p s, plan.items[j]? = some (.scene s) ∧
      placed.lookup j = some p ∧ (Item.scene s).Fits p ∧ p.scene = some window := by
  unfold Placed.scenes
  rw [List.mem_filterMap]
  constructor
  · rintro ⟨⟨j, p⟩, member, held⟩
    obtain ⟨item, present, fits⟩ := faithful.fits j p member
    cases item with
    | scene s => exact ⟨j, p, s, present, faithful.lookup_eq_some.mpr member, fits, held⟩
    | transition t =>
      have absent := fits.window
      rw [held] at absent
      cases absent
    | mark m =>
      have absent := fits.window
      rw [held] at absent
      cases absent
  · rintro ⟨j, p, s, _, found, _, held⟩
    exact ⟨(j, p), faithful.lookup_eq_some.mp found, held⟩

/-- The marks of a faithful table are the rows of the marks placed. -/
theorem Faithful.mem_marks (faithful : plan.Faithful placed) {entry : Entry} :
    entry ∈ placed.marks ↔ ∃ j p m, plan.items[j]? = some (.mark m) ∧
      placed.lookup j = some p ∧ (Item.mark m).Fits p ∧ p.entry = entry := by
  unfold Placed.marks
  rw [List.mem_filter, List.mem_map]
  constructor
  · rintro ⟨⟨⟨j, p⟩, member, rfl⟩, kind⟩
    obtain ⟨item, present, fits⟩ := faithful.fits j p member
    rw [beq_iff_eq, fits.kind] at kind
    cases item with
    | scene s => cases kind
    | transition t => cases kind
    | mark m => exact ⟨j, p, m, present, faithful.lookup_eq_some.mpr member, fits, rfl⟩
  · rintro ⟨j, p, m, _, found, fits, rfl⟩
    refine ⟨⟨(j, p), faithful.lookup_eq_some.mp found, rfl⟩, ?_⟩
    rw [fits.kind]
    rfl

/-- Whether an anchor has a position, for a reader at an index, before anything is placed. -/
def IsOrigin (anchor : Anchor) (reader : Nat) : Prop :=
  anchor.kind = .timelineStart ∨ (anchor.kind = .prevStart ∨ anchor.kind = .prevEnd) ∧ reader = 0

/-- Whether the owner of an anchor is placed, and gives it a position. -/
def Tells (plan : Plan) (placed : Placed) (reader : Nat) (anchor : Anchor) (value : Float) :
    Prop :=
  ∃ j p, plan.Owns j anchor reader ∧ placed.lookup j = some p ∧ p.position? anchor = some value

/-- An anchor is told one position. -/
theorem HasUniqueNames.tells_eq (unique : plan.HasUniqueNames) {anchor : Anchor}
    {value other : Float} (first : plan.Tells placed index anchor value)
    (second : plan.Tells placed index anchor other) : value = other := by
  obtain ⟨j, p, owns, found, position⟩ := first
  obtain ⟨k, q, ownsToo, foundToo, positionToo⟩ := second
  cases unique.owner_eq owns ownsToo
  rw [found] at foundToo
  cases foundToo
  rw [position] at positionToo
  exact Option.some.inj positionToo

/-- Where what a list holds under a name is what an anchor is told, it is also what is found. -/
theorem HasUniqueNames.lookup_iff_tells (unique : plan.HasUniqueNames) {anchor : Anchor}
    {pairs : List (String × Float)} {name : String}
    (members : ∀ value, (name, value) ∈ pairs ↔ plan.Tells placed index anchor value)
    {value : Float} : pairs.lookup name = some value ↔ plan.Tells placed index anchor value := by
  rw [lookup_eq_some_iff_mem fun first second one other =>
    unique.tells_eq ((members first).mp one) ((members second).mp other)]
  exact members value

/-- A bound of the windows of scenes is told by the scenes placed, under the anchor that stands
for it. -/
theorem Faithful.mem_sceneBounds (faithful : plan.Faithful placed) {kind : AnchorKind}
    {name : String} {bound : SceneWindow → Float}
    (owns : ∀ j, plan.Owns j ⟨kind, some name⟩ index ↔
      ∃ s, plan.items[j]? = some (.scene s) ∧ some name = some s.id)
    (told : ∀ s p window, (Item.scene s).Fits p → p.scene = some window →
      p.position? ⟨kind, some name⟩ = some (bound window)) (value : Float) :
    (name, value) ∈ placed.scenes.map (fun window => (window.id, bound window)) ↔
      plan.Tells placed index ⟨kind, some name⟩ value := by
  rw [List.mem_map]
  constructor
  · rintro ⟨window, member, same⟩
    obtain ⟨j, p, s, present, found, fits, held⟩ := faithful.mem_scenes.mp member
    obtain ⟨own, heldToo, id, _⟩ := fits.window
    rw [held] at heldToo
    cases heldToo
    cases same
    exact ⟨j, p, (owns j).mpr ⟨s, present, congrArg some id⟩, found, told s p window fits held⟩
  · rintro ⟨j, p, owned, found, position⟩
    obtain ⟨s, present, named⟩ := (owns j).mp owned
    have fits := faithful.fits_of_lookup found present
    obtain ⟨window, held, id, _⟩ := fits.window
    refine ⟨window, faithful.mem_scenes.mpr ⟨j, p, s, present, found, fits, held⟩, ?_⟩
    rw [told s p window fits held] at position
    rw [id, ← Option.some.inj named, Option.some.inj position]

/-- The starts of scenes are told by the scenes placed. -/
theorem Faithful.mem_sceneStarts (faithful : plan.Faithful placed) (name : String)
    (value : Float) :
    (name, value) ∈ placed.scenes.map (fun window => (window.id, window.start)) ↔
      plan.Tells placed index ⟨.sceneStart, some name⟩ value := by
  refine faithful.mem_sceneBounds (fun j => Iff.rfl) (fun s p window fits held => ?_) value
  obtain ⟨own, heldToo, _, start, _⟩ := fits.window
  rw [held] at heldToo
  cases heldToo
  exact congrArg some start.symm

/-- The ends of scenes are told by the scenes placed. -/
theorem Faithful.mem_sceneEnds (faithful : plan.Faithful placed) (name : String)
    (value : Float) :
    (name, value) ∈ placed.scenes.map (fun window => (window.id, window.finish)) ↔
      plan.Tells placed index ⟨.sceneEnd, some name⟩ value := by
  refine faithful.mem_sceneBounds (fun j => Iff.rfl) (fun s p window fits held => ?_) value
  obtain ⟨own, heldToo, _, _, finish, _⟩ := fits.window
  rw [held] at heldToo
  cases heldToo
  exact congrArg some finish.symm

/-- The position that the placement of a scene gives a cue is the start of the one window of that
name. -/
theorem HasUniqueNames.position?_cueStart (unique : plan.HasUniqueNames) {j : Nat} {s : Scene}
    {p : Placement} {window : SceneWindow} (present : plan.items[j]? = some (.scene s))
    (held : p.scene = some window) (ids : window.cues.map (·.id) = s.cues.map (·.id))
    {name : String} {value : Float} :
    p.position? ⟨.cueStart, some name⟩ = some value ↔
      (name, value) ∈ window.cues.map fun cue => (cue.id, cue.start) := by
  have distinct : (window.cues.map (·.id)).Nodup := by
    rw [ids]
    exact unique.cues_nodup present
  simp only [Placement.position?, held, Option.bind_some]
  refine lookup_eq_some_iff_mem fun first second one other => ?_
  obtain ⟨a, inA, sameA⟩ := List.mem_map.mp one
  obtain ⟨b, inB, sameB⟩ := List.mem_map.mp other
  obtain ⟨idA, startA⟩ := Prod.mk.inj sameA
  obtain ⟨idB, startB⟩ := Prod.mk.inj sameB
  have equal : a = b := List.inj_on_of_nodup_map distinct inA inB (idA.trans idB.symm)
  rw [← startA, ← startB, equal]

/-- The starts of cues are told by the scenes placed that hold them. -/
theorem Faithful.mem_cueStarts (faithful : plan.Faithful placed) (unique : plan.HasUniqueNames)
    (name : String) (value : Float) :
    (name, value) ∈ (placed.scenes.flatMap (·.cues)).map (fun cue => (cue.id, cue.start)) ↔
      plan.Tells placed index ⟨.cueStart, some name⟩ value := by
  rw [List.mem_map]
  constructor
  · rintro ⟨cue, member, same⟩
    obtain ⟨window, inside, member⟩ := List.mem_flatMap.mp member
    obtain ⟨j, p, s, present, found, fits, held⟩ := faithful.mem_scenes.mp inside
    obtain ⟨own, heldToo, _, _, _, ids⟩ := fits.window
    rw [held] at heldToo
    cases heldToo
    cases same
    have listed : cue.id ∈ s.cues.map (·.id) := ids ▸ List.mem_map_of_mem member
    obtain ⟨c, authored, named⟩ := List.mem_map.mp listed
    have position := (unique.position?_cueStart present held ids).mpr (List.mem_map_of_mem member)
    exact ⟨j, p, ⟨s, c, present, authored, congrArg some named.symm⟩, found, position⟩
  · rintro ⟨j, p, ⟨s, c, present, authored, named⟩, found, position⟩
    have fits := faithful.fits_of_lookup found present
    obtain ⟨window, held, _, _, _, ids⟩ := fits.window
    have member := (unique.position?_cueStart present held ids).mp position
    obtain ⟨cue, inside, same⟩ := List.mem_map.mp member
    have shown := faithful.mem_scenes.mpr ⟨j, p, s, present, found, fits, held⟩
    exact ⟨cue, List.mem_flatMap.mpr ⟨window, shown, inside⟩, same⟩

/-- The positions of marks are told by the marks placed. -/
theorem Faithful.mem_markStarts (faithful : plan.Faithful placed) (name : String)
    (value : Float) :
    (name, value) ∈ placed.marks.map (fun entry => (entry.id, entry.start)) ↔
      plan.Tells placed index ⟨.markStart, some name⟩ value := by
  rw [List.mem_map]
  constructor
  · rintro ⟨entry, member, same⟩
    obtain ⟨j, p, m, present, found, fits, rfl⟩ := faithful.mem_marks.mp member
    cases same
    exact ⟨j, p, ⟨m, present, congrArg some fits.id⟩, found, rfl⟩
  · rintro ⟨j, p, ⟨m, present, named⟩, found, position⟩
    have fits := faithful.fits_of_lookup found present
    refine ⟨p.entry, faithful.mem_marks.mpr ⟨j, p, m, present, found, fits, rfl⟩, ?_⟩
    rw [fits.id, ← Option.some.inj position]
    exact congrArg (·, p.entry.start) (Option.some.inj named).symm

/-- Where a context keeps the positions of one kind of anchors by name, and these are what the
owners of such anchors tell, it knows of such an anchor what it is told. -/
theorem HasUniqueNames.lookup?_named (unique : plan.HasUniqueNames) {ctx : Context}
    {kind : AnchorKind} {ref : Option String} {pairs : List (String × Float)}
    (named : kind ∈ [.sceneStart, .sceneEnd, .cueStart, .markStart])
    (kept : ctx.lookup? ⟨kind, ref⟩ = ref.bind fun name => pairs.lookup name)
    (told : ∀ name value,
      (name, value) ∈ pairs ↔ plan.Tells placed index ⟨kind, some name⟩ value) {value : Float} :
    ctx.lookup? ⟨kind, ref⟩ = some value ↔
      IsOrigin ⟨kind, ref⟩ index ∧ value = 0.0 ∨ plan.Tells placed index ⟨kind, ref⟩ value := by
  simp only [List.mem_cons, List.not_mem_nil, or_false] at named
  have foreign : ¬ IsOrigin ⟨kind, ref⟩ index := by
    rcases named with rfl | rfl | rfl | rfl <;> simp [IsOrigin]
  rw [kept]
  cases ref with
  | none =>
    have unowned : ∀ j, ¬ plan.Owns j ⟨kind, none⟩ index := by
      intro j
      rcases named with rfl | rfl | rfl | rfl <;> simp [Owns]
    have untold : ¬ plan.Tells placed index ⟨kind, none⟩ value := by
      intro told
      obtain ⟨j, _, owns, _⟩ := told
      exact unowned j owns
    simp [foreign, untold]
  | some name =>
    rw [Option.bind_some, unique.lookup_iff_tells (told name)]
    simp [foreign]

/-- What a context knows: the origin, and what the owners of anchors tell that are placed. -/
theorem Faithful.lookup?_context (faithful : plan.Faithful placed)
    (unique : plan.HasUniqueNames) {anchor : Anchor} {value : Float} :
    (placed.context plan.fps index).lookup? anchor = some value ↔
      IsOrigin anchor index ∧ value = 0.0 ∨ plan.Tells placed index anchor value := by
  rcases anchor with ⟨kind, ref⟩
  cases kind with
  | sceneStart => exact unique.lookup?_named (by decide) rfl faithful.mem_sceneStarts
  | sceneEnd => exact unique.lookup?_named (by decide) rfl faithful.mem_sceneEnds
  | cueStart => exact unique.lookup?_named (by decide) rfl (faithful.mem_cueStarts unique)
  | markStart => exact unique.lookup?_named (by decide) rfl faithful.mem_markStarts
  | prevStart =>
    cases index with
    | zero => simp [Context.lookup?, Placed.context, IsOrigin, Tells, Owns, eq_comm]
    | succ before =>
      simp [Context.lookup?, Placed.context, IsOrigin, Tells, Owns, Placed.start?,
        Placement.position?]
  | prevEnd =>
    cases index with
    | zero => simp [Context.lookup?, Placed.context, IsOrigin, Tells, Owns, eq_comm]
    | succ before =>
      simp [Context.lookup?, Placed.context, IsOrigin, Tells, Owns, Placed.finish?,
        Placement.position?]
  | nextStart =>
    have inside : ∀ p, placed.lookup (index + 1) = some p → index + 1 < plan.items.length := by
      intro p found
      obtain ⟨item, present, _⟩ := faithful.fits _ p (faithful.lookup_eq_some.mp found)
      exact (List.getElem?_eq_some_iff.mp present).1
    simp only [Context.lookup?, Placed.context, IsOrigin, Tells, Owns, Placed.start?,
      Placement.position?, Option.map_eq_some_iff]
    grind
  | timelineStart => simp [Context.lookup?, IsOrigin, Tells, Owns, eq_comm]
  | transition => simp [Context.lookup?, IsOrigin, Tells, Placement.position?]

/-- Where the owner of an anchor that can be written is placed, the anchor has a position. -/
theorem Faithful.tells_of_owns (faithful : plan.Faithful placed) {anchor : Anchor}
    {j : Nat} {p : Placement} (owns : plan.Owns j anchor index)
    (written : anchor.kind ≠ .transition) (found : placed.lookup j = some p) :
    ∃ value, plan.Tells placed index anchor value := by
  rcases anchor with ⟨kind, ref⟩
  cases kind with
  | sceneStart | sceneEnd | markStart | prevStart | prevEnd | nextStart =>
    exact ⟨_, j, p, owns, found, rfl⟩
  | timelineStart => exact owns.elim
  | transition => exact absurd rfl written
  | cueStart =>
    obtain ⟨s, c, present, authored, named⟩ := owns
    obtain ⟨window, held, _, _, _, ids⟩ := (faithful.fits_of_lookup found present).window
    have listed : c.id ∈ window.cues.map (·.id) := ids ▸ List.mem_map_of_mem authored
    cases told : (window.cues.map fun cue => (cue.id, cue.start)).lookup c.id with
    | none =>
      obtain ⟨cue, member, same⟩ := List.mem_map.mp listed
      have absent := List.lookup_eq_none_iff.mp told _ (List.mem_map_of_mem member)
      simp [same] at absent
    | some value =>
      refine ⟨value, j, p, ⟨s, c, present, authored, named⟩, found, ?_⟩
      rw [show ref = some c.id from named]
      simp only [Placement.position?, held, Option.bind_some]
      exact told

/-- What an entity waits for in a context is not placed, and is not the origin. -/
theorem Faithful.unplaced_of_lookup?_eq_none (faithful : plan.Faithful placed)
    (unique : plan.HasUniqueNames) {anchor : Anchor} (written : anchor.IsWritable)
    (unknown : (placed.context plan.fps index).lookup? anchor = none) :
    ¬ IsOrigin anchor index ∧ ∀ j, plan.Owns j anchor index → placed.lookup j = none := by
  have untold : ∀ value, ¬ (IsOrigin anchor index ∧ value = 0.0 ∨
      plan.Tells placed index anchor value) := by
    intro value told
    rw [(faithful.lookup?_context unique).mpr told] at unknown
    cases unknown
  refine ⟨fun origin => untold 0.0 (.inl ⟨origin, rfl⟩), fun j owns => ?_⟩
  cases found : placed.lookup j with
  | none => rfl
  | some p =>
    have named : anchor.kind ≠ .transition := by
      intro same
      rw [Anchor.IsWritable, same] at written
      exact written
    obtain ⟨value, told⟩ := faithful.tells_of_owns owns named found
    exact absurd (.inr told) (untold value)

/-- The context of a larger table extends that of a smaller one. -/
theorem Faithful.context_extendedBy (faithful : plan.Faithful placed)
    (unique : plan.HasUniqueNames) {more : Placed} (faithfulMore : plan.Faithful more)
    (grows : placed.Le more) (index : Nat) :
    (placed.context plan.fps index).ExtendedBy (more.context plan.fps index) := by
  refine ⟨rfl, fun anchor position known => ?_⟩
  rw [faithful.lookup?_context unique] at known
  rw [faithfulMore.lookup?_context unique]
  rcases known with origin | ⟨j, p, owns, found, told⟩
  · exact .inl origin
  · exact .inr ⟨j, p, owns, grows j p found, told⟩

end Plan
end Storyboard
