import Storyboard.Proofs.Timeline.Names
/-!
# Samples by place

The pauses of a plan can be drawn into a table, each under its place: the scene, the part and, for a
pause within a cue, the part of the cue. One walk over the scenes fills the table, and another one
reads it along the parts that are laid out. The second walk finds every sample that it needs, and
finds what was drawn beside the parts (`recalls_samples`); for this the names of the scenes have to
differ.
-/
namespace Storyboard

/-- The place of a pause. -/
inductive PausePlace where
  /-- Before a part of a scene. -/
  | before (scene : String) (part : Nat)
  /-- A part of a scene. -/
  | part (scene : String) (part : Nat)
  /-- A part of a cue. -/
  | within (scene : String) (part segment : Nat)
  deriving DecidableEq

namespace PausePlace

/-- The scene of a place. -/
def scene : PausePlace → String
  | .before scene _ => scene
  | .part scene _ => scene
  | .within scene _ _ => scene

/-- The number of the part of the scene that a place belongs to. -/
def number : PausePlace → Nat
  | .before _ number => number
  | .part _ number => number
  | .within _ number _ => number

end PausePlace

/-- The samples drawn, by place. -/
abbrev Samples := List (PausePlace × Float)

namespace Samples

/-- Read a sample that has to be there. -/
def read (samples : Samples) (place : PausePlace) : Except PausePlace Float :=
  match samples.lookup place with
  | some seconds => .ok seconds
  | none => .error place

/-- A sample that is there is read. -/
theorem read_eq_ok {samples : Samples} {place : PausePlace} {seconds : Float}
    (found : samples.lookup place = some seconds) : samples.read place = .ok seconds := by
  rw [read, found]

end Samples

/-! ## Drawing into the table -/

namespace Segment

/-- Draw the pauses of the parts of a cue, numbered from `n`. -/
def sampleAll (scene : String) (part : Nat) :
    (n : Nat) → Mulberry → List Segment → Samples × Mulberry
  | _, g, [] => ([], g)
  | n, g, .text _ :: rest => sampleAll scene part (n + 1) g rest
  | n, g, .pause p :: rest =>
    let (seconds, g) := p.sample g
    let (others, g) := sampleAll scene part (n + 1) g rest
    ((.within scene part n, seconds) :: others, g)

end Segment

namespace SceneItem

/-- Draw the pause before a part of a scene, if there is one. -/
def sampleGap (scene : String) (part : Nat) (g : Mulberry) : Option Pause → Samples × Mulberry
  | none => ([], g)
  | some p =>
    let (seconds, g) := p.sample g
    ([(.before scene part, seconds)], g)

/-- Draw the pauses that a part of a scene is or holds. -/
def sampleContent (scene : String) (part : Nat) (g : Mulberry) : SceneItem → Samples × Mulberry
  | .cue c => Segment.sampleAll scene part 0 g c.segments
  | .pause p =>
    let (seconds, g) := p.sample g
    ([(.part scene part, seconds)], g)

/-- Draw the pauses of the parts of a scene, numbered from `part`. -/
def sampleAll (between : Option Pause) (scene : String) :
    (part : Nat) → Mulberry → List SceneItem → Samples × Mulberry
  | _, g, [] => ([], g)
  | part, g, item :: rest =>
    let (gap, g) := sampleGap scene part g (item.gap? between (part == 0))
    let (content, g) := item.sampleContent scene part g
    let (others, g) := sampleAll between scene (part + 1) g rest
    (gap ++ content ++ others, g)

end SceneItem

namespace Item

/-- Draw the pauses of all entities. -/
def sampleAll (between : Option Pause) (g : Mulberry) : List Item → Samples × Mulberry
  | [] => ([], g)
  | item :: rest =>
    let (own, g) := SceneItem.sampleAll between item.id 0 g item.sceneItems
    let (others, g) := sampleAll between g rest
    (own ++ others, g)

end Item

/-- The samples that the seed of a plan draws. -/
def Plan.samples (plan : Plan) : Samples :=
  (Item.sampleAll plan.between plan.generator plan.items).1

/-! ## Reading the table -/

namespace Segment

/-- Put the samples beside the parts of a cue, numbered from `n`. -/
def recallAll (samples : Samples) (scene : String) (part : Nat) :
    (n : Nat) → List Segment → Except PausePlace (List Beat)
  | _, [] => .ok []
  | n, .text speech :: rest => do
    let beats ← recallAll samples scene part (n + 1) rest
    .ok (.text speech :: beats)
  | n, .pause _ :: rest => do
    let seconds ← samples.read (.within scene part n)
    let beats ← recallAll samples scene part (n + 1) rest
    .ok (.pause seconds :: beats)

end Segment

namespace SceneItem

/-- Put the samples beside what a part of a scene is. -/
def recallContent (samples : Samples) (scene : String) (part : Nat) :
    SceneItem → Except PausePlace Content
  | .cue c => (Segment.recallAll samples scene part 0 c.segments).map (.cue c ·)
  | .pause _ => (samples.read (.part scene part)).map .pause

/-- Put the samples beside the parts of a scene, numbered from `part`. Without a sample for the
place before a part there is no pause there. -/
def recallAll (samples : Samples) (scene : String) :
    (part : Nat) → List SceneItem → Except PausePlace (List DrawnItem)
  | _, [] => .ok []
  | part, item :: rest => do
    let content ← item.recallContent samples scene part
    let others ← recallAll samples scene (part + 1) rest
    .ok (⟨samples.lookup (.before scene part), content⟩ :: others)

end SceneItem

/-- Whether every scene finds beside its parts what was drawn for them. -/
def Plan.Recalls (plan : Plan) (samples : Samples) (drawn : List (List DrawnItem)) : Prop :=
  ∀ (index : Nat) (s : Scene), plan.items[index]? = some (.scene s) →
    SceneItem.recallAll samples s.id 0 s.items = .ok (drawn[index]?.getD [])

/-! ## What is drawn where -/

/-- The samples of the parts of a cue are under its places. -/
theorem Segment.within_of_mem_sampleAll {scene : String} {part : Nat} {entry : PausePlace × Float} :
    ∀ (n : Nat) (g : Mulberry) (segments : List Segment),
      entry ∈ (sampleAll scene part n g segments).1 →
        ∃ m, n ≤ m ∧ entry.1 = .within scene part m
  | n, g, .text _ :: rest, member => by
    obtain ⟨m, later, same⟩ := within_of_mem_sampleAll _ _ rest member
    exact ⟨m, by omega, same⟩
  | n, g, .pause p :: rest, member => by
    rcases List.mem_cons.mp member with rfl | behind
    · exact ⟨n, Nat.le_refl n, rfl⟩
    · obtain ⟨m, later, same⟩ := within_of_mem_sampleAll _ _ rest behind
      exact ⟨m, by omega, same⟩

namespace SceneItem

variable {between : Option Pause} {scene : String} {part : Nat} {g : Mulberry}
  {entry : PausePlace × Float}

/-- The sample of the pause before a part is under that place. -/
theorem eq_of_mem_sampleGap {gap : Option Pause} (member : entry ∈ (sampleGap scene part g gap).1) :
    entry.1 = .before scene part := by
  cases gap with
  | none => cases member
  | some p => rw [List.mem_singleton.mp member]

/-- The samples of what a part is or holds are under places of that part, and none under the place
before it. -/
theorem place_of_mem_sampleContent {item : SceneItem}
    (member : entry ∈ (item.sampleContent scene part g).1) :
    entry.1 = .part scene part ∨ ∃ n, entry.1 = .within scene part n := by
  cases item with
  | cue c =>
    obtain ⟨n, _, same⟩ := Segment.within_of_mem_sampleAll _ _ _ member
    exact .inr ⟨n, same⟩
  | pause p =>
    rw [List.mem_singleton.mp member]
    exact .inl rfl

/-- The samples of the parts of a scene are under places of the scene, of these parts. -/
theorem place_of_mem_sampleAll {items : List SceneItem}
    (member : entry ∈ (sampleAll between scene part g items).1) :
    entry.1.scene = scene ∧ part ≤ entry.1.number := by
  induction items generalizing part g with
  | nil => cases member
  | cons item rest ih =>
    rcases List.mem_append.mp member with here | behind
    · rcases List.mem_append.mp here with gap | content
      · rw [eq_of_mem_sampleGap gap]
        exact ⟨rfl, Nat.le_refl part⟩
      · rcases place_of_mem_sampleContent content with same | ⟨n, same⟩ <;> rw [same] <;>
          exact ⟨rfl, Nat.le_refl part⟩
    · have later := ih behind
      exact ⟨later.1, by omega⟩

end SceneItem

/-- The samples of entities are under places of theirs. -/
theorem Item.scene_of_mem_sampleAll {between : Option Pause} {entry : PausePlace × Float} :
    ∀ {g : Mulberry} {items : List Item}, entry ∈ (sampleAll between g items).1 →
      ∃ item ∈ items, entry.1.scene = item.id
  | _, item :: _, member => by
    rcases List.mem_append.mp member with own | behind
    · exact ⟨item, List.mem_cons_self, (SceneItem.place_of_mem_sampleAll own).1⟩
    · obtain ⟨other, inside, same⟩ := scene_of_mem_sampleAll behind
      exact ⟨other, List.mem_cons_of_mem _ inside, same⟩

/-! ## The table gives what was drawn -/

namespace Samples

variable {first second : Samples} {place : PausePlace}

/-- A place that no later entry has is found among the earlier ones. -/
theorem lookup_append_left (apart : ∀ entry ∈ second, entry.1 ≠ place) :
    (first ++ second).lookup place = first.lookup place := by
  have none_found : second.lookup place = none :=
    List.lookup_eq_none_iff.mpr fun entry member =>
      bne_iff_ne.mpr fun same => apart entry member same.symm
  rw [List.lookup_append, none_found, Option.or_none]

/-- A place that no earlier entry has is found among the later ones. -/
theorem lookup_append_right (apart : ∀ entry ∈ first, entry.1 ≠ place) :
    (first ++ second).lookup place = second.lookup place := by
  have none_found : first.lookup place = none :=
    List.lookup_eq_none_iff.mpr fun entry member =>
      bne_iff_ne.mpr fun same => apart entry member same.symm
  rw [List.lookup_append, none_found, Option.none_or]

end Samples

/-- A table with the samples of the parts of a cue gives what was drawn for them. -/
theorem Segment.recallAll_eq {samples : Samples} {scene : String} {part : Nat} :
    ∀ (n : Nat) (g : Mulberry) (segments : List Segment),
      (∀ m, n ≤ m → samples.lookup (.within scene part m) =
        (sampleAll scene part n g segments).1.lookup (.within scene part m)) →
      recallAll samples scene part n segments = .ok (drawAll g segments).1
  | _, _, [], _ => rfl
  | n, g, .text speech :: rest, same => by
    have later := recallAll_eq (n + 1) g rest fun m after => same m (by omega)
    rw [recallAll, later]
    rfl
  | n, g, .pause p :: rest, same => by
    have here : samples.lookup (.within scene part n) = some (p.sample g).1 := by
      rw [same n (Nat.le_refl n)]
      exact List.lookup_cons_self
    have later := recallAll_eq (n + 1) (p.sample g).2 rest fun m after => by
      rw [same m (by omega), sampleAll, List.lookup_cons, beq_eq_false_iff_ne.mpr (by simp; omega)]
    rw [recallAll, Samples.read_eq_ok here, later]
    rfl

/-- The parts of a cue leave the generator as they would without the table. -/
theorem Segment.sampleAll_snd {scene : String} {part : Nat} :
    ∀ (n : Nat) (g : Mulberry) (segments : List Segment),
      (sampleAll scene part n g segments).2 = (drawAll g segments).2
  | _, _, [] => rfl
  | n, g, .text _ :: rest => sampleAll_snd (n + 1) g rest
  | n, g, .pause p :: rest => sampleAll_snd (n + 1) (p.sample g).2 rest

namespace SceneItem

variable {samples : Samples} {scene : String}

/-- A table with the sample of the pause before a part gives its length. -/
theorem lookup_sampleGap (part : Nat) (g : Mulberry) (gap : Option Pause) :
    (sampleGap scene part g gap).1.lookup (.before scene part) = (drawGap g gap).1 := by
  cases gap with
  | none => rfl
  | some p => exact List.lookup_cons_self

/-- A pause before a part leaves the generator as it would without the table. -/
theorem sampleGap_snd (part : Nat) (g : Mulberry) (gap : Option Pause) :
    (sampleGap scene part g gap).2 = (drawGap g gap).2 := by
  cases gap <;> rfl

/-- What a part is or holds leaves the generator as it would without the table. -/
theorem sampleContent_snd (part : Nat) (g : Mulberry) (item : SceneItem) :
    (item.sampleContent scene part g).2 = (item.drawContent g).2 := by
  cases item with
  | cue c => exact Segment.sampleAll_snd 0 g c.segments
  | pause p => rfl

/-- A table with the samples of what a part is or holds gives what was drawn for it. -/
theorem recallContent_eq {part : Nat} {g : Mulberry} {item : SceneItem}
    (same : ∀ place, place.scene = scene → place.number = part → place ≠ .before scene part →
      samples.lookup place = (item.sampleContent scene part g).1.lookup place) :
    item.recallContent samples scene part = .ok (item.drawContent g).1 := by
  cases item with
  | cue c =>
    have beats : Segment.recallAll samples scene part 0 c.segments =
        .ok (Segment.drawAll g c.segments).1 :=
      Segment.recallAll_eq 0 g c.segments fun m _ => same _ rfl rfl (by simp)
    rw [recallContent, beats]
    rfl
  | pause p =>
    have own : samples.lookup (.part scene part) = some (p.sample g).1 := by
      rw [same _ rfl rfl (by simp)]
      exact List.lookup_cons_self
    rw [recallContent, Samples.read_eq_ok own]
    rfl

variable (between : Option Pause)

/-- The parts of a scene leave the generator as they would without the table. -/
theorem sampleAll_snd : ∀ (part : Nat) (g : Mulberry) (items : List SceneItem),
    (sampleAll between scene part g items).2 = (drawAll between (part == 0) g items).2
  | _, _, [] => rfl
  | part, g, item :: rest => by
    have later := fun g => sampleAll_snd (part + 1) g rest
    simp only [sampleAll, drawAll, draw, sampleGap_snd, sampleContent_snd, later]
    rfl

/-- A table with the samples of the parts of a scene gives what was drawn for them. -/
theorem recallAll_eq : ∀ (part : Nat) (g : Mulberry) (items : List SceneItem),
    (∀ place : PausePlace, place.scene = scene → part ≤ place.number →
      samples.lookup place = (sampleAll between scene part g items).1.lookup place) →
    recallAll samples scene part items = .ok (drawAll between (part == 0) g items).1
  | _, _, [], _ => rfl
  | part, g, item :: rest, same => by
    -- The entries of a part are the only ones under its places: those of later parts are under
    -- places of greater number, and the pause before a part is under a place of its own.
    have ahead : ∀ (g : Mulberry) (place : PausePlace), place.number = part →
        ∀ entry ∈ (sampleAll between scene (part + 1) g rest).1, entry.1 ≠ place := by
      rintro g place number entry member rfl
      have later := (place_of_mem_sampleAll member).2
      omega
    have apart : ∀ (g : Mulberry), ∀ entry ∈ (item.sampleContent scene part g).1,
        entry.1 ≠ .before scene part := by
      intro g entry member
      rcases place_of_mem_sampleContent member with same | ⟨n, same⟩ <;> simp [same]
    have behind : ∀ (g₁ g₂ : Mulberry) (place : PausePlace), part + 1 ≤ place.number →
        ∀ entry ∈ (sampleGap scene part g₁ (item.gap? between (part == 0))).1 ++
          (item.sampleContent scene part g₂).1, entry.1 ≠ place := by
      rintro g₁ g₂ place number entry member rfl
      rcases List.mem_append.mp member with inGap | inContent
      · rw [eq_of_mem_sampleGap inGap] at number
        exact absurd number (Nat.not_succ_le_self part)
      · rcases place_of_mem_sampleContent inContent with same | ⟨n, same⟩ <;>
          rw [same] at number <;> exact absurd number (Nat.not_succ_le_self part)
    have gap : samples.lookup (.before scene part) =
        (drawGap g (item.gap? between (part == 0))).1 := by
      rw [same (.before scene part) rfl (Nat.le_refl part), sampleAll,
        Samples.lookup_append_left (ahead _ _ rfl), Samples.lookup_append_left (apart _),
        lookup_sampleGap]
    have content : item.recallContent samples scene part =
        .ok (item.drawContent (drawGap g (item.gap? between (part == 0))).2).1 := by
      refine recallContent_eq fun place inScene number other => ?_
      rw [same place inScene (by omega), sampleAll,
        Samples.lookup_append_left (ahead _ _ number), Samples.lookup_append_right, sampleGap_snd]
      rintro entry member rfl
      exact other (eq_of_mem_sampleGap member)
    have later := recallAll_eq (part + 1) _ rest fun place inScene number => by
      rw [same place inScene (by omega), sampleAll,
        Samples.lookup_append_right (behind _ _ _ number)]
    rw [recallAll, content, later, gap, sampleContent_snd, sampleGap_snd]
    rfl

end SceneItem

/-- A table with the samples of entities of different names gives every scene what was drawn for
it. -/
theorem Item.recallAll_eq {samples : Samples} {between : Option Pause} :
    ∀ (g : Mulberry) (items : List Item), (items.map Item.id).Nodup →
      (∀ place : PausePlace, place.scene ∈ items.map Item.id →
        samples.lookup place = (sampleAll between g items).1.lookup place) →
      ∀ (index : Nat) (item : Item), items[index]? = some item →
        SceneItem.recallAll samples item.id 0 item.sceneItems =
          .ok ((draw between g items).1[index]?.getD [])
  | _, [], _, _, _, _, present => by cases present
  | g, first :: rest, distinct, same, index, item, present => by
    obtain ⟨fresh, distinct⟩ := List.nodup_cons.mp distinct
    cases index with
    | zero =>
      cases present
      refine SceneItem.recallAll_eq between 0 g _ fun place inScene _ => ?_
      rw [same place (by simp [inScene]), sampleAll, Samples.lookup_append_left]
      rintro entry member rfl
      obtain ⟨other, inside, sameName⟩ := scene_of_mem_sampleAll member
      exact fresh (List.mem_map.mpr ⟨other, inside, sameName.symm.trans inScene⟩)
    | succ index =>
      refine recallAll_eq (SceneItem.drawAll between true g first.sceneItems).2 rest distinct
        (fun place inside => ?_) index item present
      rw [same place (List.mem_cons_of_mem _ inside), sampleAll, Samples.lookup_append_right,
        SceneItem.sampleAll_snd]
      · rfl
      · rintro entry member rfl
        exact fresh ((SceneItem.place_of_mem_sampleAll member).1 ▸ inside)

namespace Plan

/-- The entities of a plan have different names. -/
theorem HasUniqueNames.ids_nodup {plan : Plan} (unique : plan.HasUniqueNames) :
    (plan.items.map Item.id).Nodup := by
  refine List.pairwise_map.mpr ?_
  refine List.Pairwise.imp ?_ (List.nodup_flatMap.mp unique).2
  intro first second apart same
  exact apart (Item.id_mem_names first) (same ▸ Item.id_mem_names second)

/-- The samples that the seed of a plan draws give every scene what was drawn for it. -/
theorem recalls_samples {plan : Plan} (unique : plan.HasUniqueNames) :
    plan.Recalls plan.samples plan.drawn :=
  fun index s present =>
    Item.recallAll_eq _ _ unique.ids_nodup (fun _ _ => rfl) index (.scene s) present

end Plan
end Storyboard
