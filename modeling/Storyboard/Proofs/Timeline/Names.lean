import Mathlib.Data.List.Nodup
import Storyboard.Timeline.Stuck
/-!
# Names and owners

In a plan made ready no name is claimed twice (`hasUniqueNames_of_ready`). So an anchor of a name
belongs to one entity at most, and `Plan.owner?` finds it exactly if there is one
(`owner?_eq_some`).
-/
namespace Storyboard

namespace Item

/-- The names that an entity claims: its own, and those of its cues. -/
def names (item : Item) : List String := item.claims.map (·.1)

/-- A scene claims its name and those of its cues. -/
theorem names_scene (s : Scene) : (Item.scene s).names = s.id :: s.cues.map (·.id) := by
  simp [names, claims, Item.id]

/-- Every entity claims its own name. -/
theorem id_mem_names (item : Item) : item.id ∈ item.names := by
  cases item <;> simp [names, claims]

/-- A scene claims the names of its cues. -/
theorem cue_mem_names {s : Scene} {c : Cue} (member : c ∈ s.cues) :
    c.id ∈ (Item.scene s).names := by
  rw [names_scene]
  exact List.mem_cons_of_mem _ (List.mem_map_of_mem member)

end Item

namespace Plan

/-- Whether no name is claimed twice. -/
def HasUniqueNames (plan : Plan) : Prop := (plan.items.flatMap Item.names).Nodup

/-- Without a first name that is claimed twice, the names of all claims differ, also from those
seen before. -/
theorem nodup_of_firstDuplicate : ∀ (claims seen : List (String × String)),
    firstDuplicate seen claims = none →
      (claims.map (·.1)).Nodup ∧ ∀ name ∈ claims.map (·.1), name ∉ seen.map (·.1)
  | [], _, _ => ⟨List.nodup_nil, by simp⟩
  | (id, kind) :: rest, seen, none_found => by
    rw [firstDuplicate] at none_found
    split at none_found
    · cases none_found
    · rename_i fresh
      obtain ⟨distinct, apart⟩ := nodup_of_firstDuplicate rest _ none_found
      have unseen : id ∉ seen.map (·.1) := by
        intro member
        obtain ⟨claim, inside, rfl⟩ := List.mem_map.mp member
        simpa using List.lookup_eq_none_iff.mp fresh claim inside
      simp only [List.map_append, List.map_cons, List.map_nil, List.mem_append,
        List.mem_singleton, not_or] at apart
      refine ⟨?_, ?_⟩
      · rw [List.map_cons, List.nodup_cons]
        exact ⟨fun member => (apart id member).2 rfl, distinct⟩
      · intro name member
        rcases List.mem_cons.mp member with rfl | later
        · exact unseen
        · exact (apart name later).1

/-- Where the names of all claims differ, also from those seen before, no name is claimed twice. -/
theorem firstDuplicate_eq_none : ∀ (claims seen : List (String × String)),
    (claims.map (·.1)).Nodup → (∀ name ∈ claims.map (·.1), name ∉ seen.map (·.1)) →
      firstDuplicate seen claims = none
  | [], _, _, _ => rfl
  | (id, kind) :: rest, seen, distinct, apart => by
    obtain ⟨unclaimed, distinct⟩ := List.nodup_cons.mp distinct
    have unseen : seen.lookup id = none := by
      refine List.lookup_eq_none_iff.mpr fun claim member => bne_iff_ne.mpr ?_
      rintro rfl
      exact apart _ List.mem_cons_self (List.mem_map.mpr ⟨claim, member, rfl⟩)
    rw [firstDuplicate, unseen]
    refine firstDuplicate_eq_none rest _ distinct fun name later => ?_
    simp only [List.map_append, List.map_cons, List.map_nil, List.mem_append, List.mem_singleton,
      not_or]
    refine ⟨apart name (List.mem_cons_of_mem _ later), ?_⟩
    rintro rfl
    exact unclaimed later

section Ready

variable {plan : Plan} {composition : Composition} {seed : Option Int}
  {estimate : Option (String → Float)}

/-- A plan is made of a composition in which no name is claimed twice, and with nothing timed behind
a lead-in. -/
theorem ofComposition_eq_ok (ready : Plan.ofComposition composition seed estimate = .ok plan) :
    firstDuplicate [] ((Item.expand composition.timeline).flatMap Item.claims) = none ∧
      ¬ (!(composition.voiceover.leadInSeconds ≤ 0.0) &&
        (Item.expand composition.timeline).any isTimedScene) = true ∧
      plan = {
        composition
        items := Item.expand composition.timeline
        seed := seed <|> composition.voiceover.seed
        estimate :=
          estimate.getD (Narration.mk composition.voiceover.wordsPerMinute).seconds } := by
  unfold ofComposition at ready
  dsimp only at ready
  split at ready
  · cases ready
  · rename_i none_found
    split at ready
    · cases ready
    · rename_i untimed
      exact ⟨none_found, untimed, (Except.ok.inj ready).symm⟩

/-- A plan is that of its composition. -/
theorem composition_of_ready (ready : Plan.ofComposition composition seed estimate = .ok plan) :
    plan.composition = composition := by
  obtain ⟨_, _, rfl⟩ := ofComposition_eq_ok ready
  rfl

/-- The entities of a plan are those of its composition with all transitions written out. -/
theorem items_of_ready (ready : Plan.ofComposition composition seed estimate = .ok plan) :
    plan.items = Item.expand composition.timeline := by
  obtain ⟨_, _, rfl⟩ := ofComposition_eq_ok ready
  rfl

/-- A plan is made ready only where no name is claimed twice. -/
theorem hasUniqueNames_of_ready (ready : Plan.ofComposition composition seed estimate = .ok plan) :
    plan.HasUniqueNames := by
  obtain ⟨none_found, _, rfl⟩ := ofComposition_eq_ok ready
  have distinct := (nodup_of_firstDuplicate _ _ none_found).1
  rw [List.map_flatMap] at distinct
  exact distinct

end Ready

variable {plan : Plan}

/-- A name is claimed at one index at most. -/
theorem HasUniqueNames.index_eq (unique : plan.HasUniqueNames) {i j : Nat} {x y : Item}
    (first : plan.items[i]? = some x) (second : plan.items[j]? = some y) {name : String}
    (inFirst : name ∈ x.names) (inSecond : name ∈ y.names) : i = j := by
  have apart := (List.nodup_flatMap.mp unique).2
  obtain ⟨insideFirst, rfl⟩ := List.getElem?_eq_some_iff.mp first
  obtain ⟨insideSecond, rfl⟩ := List.getElem?_eq_some_iff.mp second
  rcases Nat.lt_trichotomy i j with before | same | after
  · exact absurd inSecond (List.pairwise_iff_getElem.mp apart i j _ _ before inFirst)
  · exact same
  · exact absurd inFirst (List.pairwise_iff_getElem.mp apart j i _ _ after inSecond)

/-- The names that one entity claims differ. -/
theorem HasUniqueNames.names_nodup (unique : plan.HasUniqueNames) {i : Nat} {item : Item}
    (present : plan.items[i]? = some item) : item.names.Nodup :=
  (List.nodup_flatMap.mp unique).1 item (List.mem_of_getElem? present)

/-- The names of the cues of one scene differ. -/
theorem HasUniqueNames.cues_nodup (unique : plan.HasUniqueNames) {i : Nat} {s : Scene}
    (present : plan.items[i]? = some (.scene s)) : (s.cues.map (·.id)).Nodup := by
  have distinct := unique.names_nodup present
  rw [Item.names_scene, List.nodup_cons] at distinct
  exact distinct.2

/-! ## Owners -/

/-- Whether the placement of the entity at `owner` gives an anchor its position, for a reader at
an index. -/
def Owns (plan : Plan) (owner : Nat) (anchor : Anchor) (reader : Nat) : Prop :=
  match anchor.kind with
  | .sceneStart | .sceneEnd =>
    ∃ s, plan.items[owner]? = some (.scene s) ∧ anchor.ref = some s.id
  | .cueStart =>
    ∃ s c, plan.items[owner]? = some (.scene s) ∧ c ∈ s.cues ∧ anchor.ref = some c.id
  | .markStart => ∃ m, plan.items[owner]? = some (.mark m) ∧ anchor.ref = some m.id
  | .transition => ∃ t, plan.items[owner]? = some (.transition t) ∧ anchor.ref = some t.id
  | .prevStart | .prevEnd => owner + 1 = reader
  | .nextStart => owner = reader + 1 ∧ owner < plan.items.length
  | .timelineStart => False

/-- An owner is an entity of the plan, for a reader that is one. -/
theorem Owns.lt_length {anchor : Anchor} {reader owner : Nat} (inside : reader < plan.items.length)
    (owns : plan.Owns owner anchor reader) : owner < plan.items.length := by
  rcases anchor with ⟨kind, ref⟩
  cases kind with
  | sceneStart | sceneEnd | markStart | transition =>
    obtain ⟨_, present, _⟩ := owns
    exact (List.getElem?_eq_some_iff.mp present).1
  | cueStart =>
    obtain ⟨_, _, present, _⟩ := owns
    exact (List.getElem?_eq_some_iff.mp present).1
  | prevStart | prevEnd =>
    have before : owner + 1 = reader := owns
    omega
  | nextStart => exact owns.2
  | timelineStart => exact owns.elim

/-- A test for an entity of a claimed name finds the index of the one entity it fits. -/
theorem HasUniqueNames.indexOf?_eq_some (unique : plan.HasUniqueNames) {test : Item → Bool}
    {name : String} (claimed : ∀ item, test item = true → name ∈ item.names) {j : Nat} :
    plan.indexOf? test = some j ↔ ∃ item, plan.items[j]? = some item ∧ test item = true := by
  unfold indexOf?
  rw [List.findIdx?_eq_some_iff_getElem]
  constructor
  · rintro ⟨inside, fits, _⟩
    exact ⟨_, List.getElem?_eq_getElem inside, fits⟩
  · rintro ⟨item, present, fits⟩
    obtain ⟨inside, rfl⟩ := List.getElem?_eq_some_iff.mp present
    refine ⟨inside, fits, fun i before fitsBefore => ?_⟩
    have same := unique.index_eq (List.getElem?_eq_getElem (by omega)) present
      (claimed _ fitsBefore) (claimed _ fits)
    omega

/-- An entity that is the scene of a name. -/
theorem isScene_iff {id : String} {item : Item} :
    isScene id item = true ↔ ∃ s, item = .scene s ∧ s.id = id := by
  cases item <;> simp [isScene]

/-- An entity that is a scene with a cue of a name. -/
theorem holdsCue_iff {id : String} {item : Item} :
    holdsCue id item = true ↔ ∃ s c, item = .scene s ∧ c ∈ s.cues ∧ c.id = id := by
  cases item <;> simp [holdsCue]

/-- An entity that is the transition of a name. -/
theorem isTransition_iff {id : String} {item : Item} :
    isTransition id item = true ↔ ∃ t, item = .transition t ∧ t.id = id := by
  cases item <;> simp [isTransition]

/-- An entity that is the mark of a name. -/
theorem isMark_iff {id : String} {item : Item} :
    isMark id item = true ↔ ∃ m, item = .mark m ∧ m.id = id := by
  cases item <;> simp [isMark]

/-- The scene of a name claims it. -/
theorem mem_names_of_isScene {id : String} (item : Item) (fits : isScene id item = true) :
    id ∈ item.names := by
  obtain ⟨s, rfl, rfl⟩ := isScene_iff.mp fits
  exact Item.id_mem_names _

/-- The scene that holds the cue of a name claims it. -/
theorem mem_names_of_holdsCue {id : String} (item : Item) (fits : holdsCue id item = true) :
    id ∈ item.names := by
  obtain ⟨s, c, rfl, member, rfl⟩ := holdsCue_iff.mp fits
  exact Item.cue_mem_names member

/-- The transition of a name claims it. -/
theorem mem_names_of_isTransition {id : String} (item : Item)
    (fits : isTransition id item = true) : id ∈ item.names := by
  obtain ⟨t, rfl, rfl⟩ := isTransition_iff.mp fits
  exact Item.id_mem_names _

/-- The mark of a name claims it. -/
theorem mem_names_of_isMark {id : String} (item : Item) (fits : isMark id item = true) :
    id ∈ item.names := by
  obtain ⟨m, rfl, rfl⟩ := isMark_iff.mp fits
  exact Item.id_mem_names _

/-- The index found for an anchor is that of the entity that owns it. -/
theorem HasUniqueNames.owner?_eq_some (unique : plan.HasUniqueNames) {anchor : Anchor}
    {reader owner : Nat} :
    plan.owner? anchor reader = some owner ↔ plan.Owns owner anchor reader := by
  rcases anchor with ⟨kind, ref⟩
  cases kind <;> simp only [owner?, Owns]
  case sceneStart | sceneEnd =>
    cases ref with
    | none => simp
    | some name =>
      simp only [Option.bind_some, unique.indexOf?_eq_some mem_names_of_isScene, isScene_iff]
      grind
  case cueStart =>
    cases ref with
    | none => simp
    | some name =>
      simp only [Option.bind_some, unique.indexOf?_eq_some mem_names_of_holdsCue, holdsCue_iff]
      grind
  case markStart =>
    cases ref with
    | none => simp
    | some name =>
      simp only [Option.bind_some, unique.indexOf?_eq_some mem_names_of_isMark, isMark_iff]
      grind
  case transition =>
    cases ref with
    | none => simp
    | some name =>
      simp only [Option.bind_some, unique.indexOf?_eq_some mem_names_of_isTransition,
        isTransition_iff]
      grind
  case prevStart | prevEnd | nextStart =>
    split <;> simp only [Option.some.injEq, reduceCtorEq, false_iff] <;> omega
  case timelineStart => simp

/-- No other entity owns an anchor that has an owner. -/
theorem HasUniqueNames.owner_eq (unique : plan.HasUniqueNames) {anchor : Anchor}
    {reader owner other : Nat} (owns : plan.Owns owner anchor reader)
    (ownsToo : plan.Owns other anchor reader) : owner = other := by
  have found := unique.owner?_eq_some.mpr owns
  rw [unique.owner?_eq_some.mpr ownsToo] at found
  exact (Option.some.inj found).symm

/-- Without an index found, no entity owns an anchor. -/
theorem HasUniqueNames.owner?_eq_none (unique : plan.HasUniqueNames) {anchor : Anchor}
    {reader : Nat} :
    plan.owner? anchor reader = none ↔ ∀ owner, ¬ plan.Owns owner anchor reader := by
  rw [Option.eq_none_iff_forall_ne_some]
  exact forall_congr' fun owner => not_congr unique.owner?_eq_some

end Plan
end Storyboard
