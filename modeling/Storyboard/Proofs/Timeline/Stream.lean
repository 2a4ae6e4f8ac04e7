import Storyboard.Proofs.Timeline.Lengths
import Storyboard.Proofs.Timeline.Samples
/-!
# The pauses of a plan as one stream

The pauses of a plan stand in scenes, parts and cues, and the walk that draws them follows these.
`Plan.occurrences` lists all of them, each with its place, and `Pause.drawAll` draws a list of
pauses from one generator. The walk is that drawing: its table holds under each place the draw of
that place (`Plan.samples_eq`), each place once (`Plan.nodup_places`), and the lengths beside the
parts that are laid out are the same draws in the same order (`Plan.lengths_drawn`).
-/
namespace Storyboard

/-! ## Drawing a list of pauses -/

namespace Pause

/-- Draw pauses one after another from one generator. -/
def drawAll (g : Mulberry) : List Pause → List Float × Mulberry
  | [] => ([], g)
  | p :: rest =>
    let (seconds, g) := p.sample g
    let (others, g) := drawAll g rest
    (seconds :: others, g)

/-- Pauses behind others are drawn from the generator that these leave. -/
theorem drawAll_append (g : Mulberry) (first second : List Pause) :
    drawAll g (first ++ second) =
      ((drawAll g first).1 ++ (drawAll (drawAll g first).2 second).1,
        (drawAll (drawAll g first).2 second).2) := by
  induction first generalizing g with
  | nil => rfl
  | cons p rest ih => simp only [List.cons_append, drawAll, ih]

/-- There is a length for each pause. -/
theorem length_drawAll (g : Mulberry) (pauses : List Pause) :
    (drawAll g pauses).1.length = pauses.length := by
  induction pauses generalizing g with
  | nil => rfl
  | cons p rest ih => simp only [drawAll, List.length_cons, ih]

/-- What pauses begin with is drawn as it would be alone. -/
theorem take_drawAll (g : Mulberry) {common pauses : List Pause} (shared : common <+: pauses) :
    (drawAll g pauses).1.take common.length = (drawAll g common).1 := by
  obtain ⟨rest, rfl⟩ := shared
  rw [drawAll_append, ← length_drawAll g common, List.take_left]

end Pause

/-! ## The occurrences of pauses -/

namespace Segment

/-- The pauses of the parts of a cue, numbered from `n`, with their places. -/
def occurrences (scene : String) (part n : Nat) (segments : List Segment) :
    List (PausePlace × Pause) :=
  (segments.zipIdx n).flatMap fun (segment, m) =>
    segment.pauses.map fun p => (.within scene part m, p)

end Segment

namespace SceneItem

/-- The pauses that a part of a scene is or holds, with their places. -/
def contentOccurrences (scene : String) (part : Nat) : SceneItem → List (PausePlace × Pause)
  | .cue c => Segment.occurrences scene part 0 c.segments
  | .pause p => [(.part scene part, p)]

/-- The pauses of a part of a scene with their places: the one before it, and then itself or those
within it. -/
def occurrences (between : Option Pause) (scene : String) (part : Nat) (item : SceneItem) :
    List (PausePlace × Pause) :=
  (item.pauseBefore? between (part == 0)).toList.map (fun p => (.before scene part, p)) ++
    item.contentOccurrences scene part

/-- The pauses of the parts of a scene, numbered from `part`, with their places. -/
def allOccurrences (between : Option Pause) (scene : String) (part : Nat) (items : List SceneItem) :
    List (PausePlace × Pause) :=
  (items.zipIdx part).flatMap fun (item, n) => item.occurrences between scene n

end SceneItem

/-- The pauses of a plan with their places, in the order of their authors. -/
def Plan.occurrences (plan : Plan) : List (PausePlace × Pause) :=
  plan.items.flatMap fun item => SceneItem.allOccurrences plan.between item.id 0 item.sceneItems

namespace Segment

/-- The pauses that occur in the parts of a cue are those listed without places. -/
theorem map_occurrences (scene : String) (part n : Nat) (segments : List Segment) :
    (occurrences scene part n segments).map (·.2) = segments.flatMap pauses := by
  induction segments generalizing n with
  | nil => rfl
  | cons segment rest ih =>
    have others := ih (n + 1)
    unfold occurrences at others ⊢
    rw [List.zipIdx_cons, List.flatMap_cons, List.flatMap_cons, List.map_append, others,
      List.map_map]
    simp [Function.comp_def]

end Segment

namespace SceneItem

variable (between : Option Pause) (scene : String)

/-- The pauses that occur in a part of a scene are those listed without places. -/
theorem map_occurrences (part : Nat) (item : SceneItem) :
    (item.occurrences between scene part).map (·.2) = item.pauses between (part == 0) := by
  cases item with
  | cue c =>
    simp [occurrences, contentOccurrences, pauses, Segment.map_occurrences, gap?_eq_pauseBefore?,
      Function.comp_def]
  | pause p =>
    simp [occurrences, contentOccurrences, pauses, gap?_eq_pauseBefore?, Function.comp_def]

/-- The pauses that occur in the parts of a scene are those listed without places. -/
theorem map_allOccurrences (part : Nat) (items : List SceneItem) :
    (allOccurrences between scene part items).map (·.2) = allPauses between (part == 0) items := by
  induction items generalizing part with
  | nil => rfl
  | cons item rest ih =>
    have others := ih (part + 1)
    unfold allOccurrences at others ⊢
    rw [List.zipIdx_cons, List.flatMap_cons, List.map_append, others, map_occurrences]
    rfl

end SceneItem

/-- The pauses that occur in a plan are those listed without places. -/
theorem Plan.map_occurrences (plan : Plan) :
    plan.occurrences.map (·.2) = Item.pauses plan.between plan.items := by
  rw [occurrences, Item.pauses, List.map_flatMap]
  exact List.flatMap_congr fun item _ => SceneItem.map_allOccurrences _ _ 0 _

/-! ## The table of samples -/

namespace Samples

/-- The table of pauses with their places, drawn one after another, and the generator that they
leave. -/
def ofOccurrences (g : Mulberry) (occurrences : List (PausePlace × Pause)) : Samples × Mulberry :=
  ((occurrences.map (·.1)).zip (Pause.drawAll g (occurrences.map (·.2))).1,
    (Pause.drawAll g (occurrences.map (·.2))).2)

/-- Tables are drawn one after another as one table. -/
theorem ofOccurrences_append (g : Mulberry) (first second : List (PausePlace × Pause)) :
    ofOccurrences g (first ++ second) =
      ((ofOccurrences g first).1 ++ (ofOccurrences (ofOccurrences g first).2 second).1,
        (ofOccurrences (ofOccurrences g first).2 second).2) := by
  unfold ofOccurrences
  rw [List.map_append, List.map_append, Pause.drawAll_append]
  dsimp only
  rw [List.zip_append (by rw [Pause.length_drawAll, List.length_map, List.length_map])]

end Samples

/-- The walk over the parts of a cue draws its pauses in order. -/
theorem Segment.sampleAll_eq (scene : String) (part n : Nat) (g : Mulberry)
    (segments : List Segment) :
    sampleAll scene part n g segments =
      Samples.ofOccurrences g (occurrences scene part n segments) := by
  induction segments generalizing n g with
  | nil => rfl
  | cons segment rest ih =>
    cases segment with
    | text speech => exact ih (n + 1) g
    | pause p =>
      simp only [sampleAll, ih (n + 1) (p.sample g).2]
      rfl

namespace SceneItem

variable (between : Option Pause) (scene : String)

/-- The pause before a part of a scene is drawn as its occurrence. -/
theorem sampleGap_eq (part : Nat) (g : Mulberry) (gap : Option Pause) :
    sampleGap scene part g gap =
      Samples.ofOccurrences g (gap.toList.map fun p => (.before scene part, p)) := by
  cases gap <;> rfl

/-- What a part of a scene is or holds is drawn as its occurrences. -/
theorem sampleContent_eq (part : Nat) (g : Mulberry) (item : SceneItem) :
    item.sampleContent scene part g =
      Samples.ofOccurrences g (item.contentOccurrences scene part) := by
  cases item with
  | cue c => exact Segment.sampleAll_eq scene part 0 g c.segments
  | pause p => rfl

/-- The walk over the parts of a scene draws their pauses in order. -/
theorem sampleAll_eq (part : Nat) (g : Mulberry) (items : List SceneItem) :
    sampleAll between scene part g items =
      Samples.ofOccurrences g (allOccurrences between scene part items) := by
  induction items generalizing part g with
  | nil => rfl
  | cons item rest ih =>
    rw [allOccurrences, List.zipIdx_cons, List.flatMap_cons]
    dsimp only
    rw [occurrences, ← gap?_eq_pauseBefore?, List.append_assoc, Samples.ofOccurrences_append,
      Samples.ofOccurrences_append, ← sampleGap_eq, ← sampleContent_eq]
    simp only [sampleAll, ih, List.append_assoc]
    rfl

end SceneItem

/-- The walk over entities draws their pauses in order. -/
theorem Item.sampleAll_eq (between : Option Pause) (g : Mulberry) (items : List Item) :
    sampleAll between g items = Samples.ofOccurrences g
      (items.flatMap fun item => SceneItem.allOccurrences between item.id 0 item.sceneItems) := by
  induction items generalizing g with
  | nil => rfl
  | cons item rest ih =>
    rw [sampleAll, List.flatMap_cons, Samples.ofOccurrences_append, SceneItem.sampleAll_eq]
    dsimp only
    rw [ih]

/-! ## Each place once -/

/-- No two parts of a cue have one place. -/
theorem Segment.nodup_sampleAll (scene : String) (part : Nat) : ∀ (n : Nat) (g : Mulberry)
    (segments : List Segment), ((sampleAll scene part n g segments).1.map (·.1)).Nodup
  | _, _, [] => .nil
  | n, g, .text _ :: rest => nodup_sampleAll scene part (n + 1) g rest
  | n, g, .pause p :: rest => by
    refine List.nodup_cons.mpr ⟨fun again => ?_, nodup_sampleAll scene part (n + 1) _ rest⟩
    obtain ⟨entry, member, same⟩ := List.mem_map.mp again
    obtain ⟨m, later, place⟩ := within_of_mem_sampleAll _ _ _ member
    rw [place] at same
    cases same
    omega

namespace SceneItem

variable (between : Option Pause) (scene : String)

/-- No two pauses of a part of a scene have one place. -/
theorem nodup_sampleContent (part : Nat) (g : Mulberry) (item : SceneItem) :
    ((item.sampleContent scene part g).1.map (·.1)).Nodup := by
  cases item with
  | cue c => exact Segment.nodup_sampleAll scene part 0 g c.segments
  | pause p => exact List.nodup_singleton _

/-- No two pauses of the parts of a scene have one place. -/
theorem nodup_sampleAll (part : Nat) (g : Mulberry) (items : List SceneItem) :
    ((sampleAll between scene part g items).1.map (·.1)).Nodup := by
  induction items generalizing part g with
  | nil => exact .nil
  | cons item rest ih =>
    rw [sampleAll, List.map_append, List.map_append]
    refine List.Nodup.append (List.Nodup.append ?_ (nodup_sampleContent scene part _ item) ?_)
      (ih (part + 1) _) ?_
    · cases item.gap? between (part == 0) with
      | none => exact .nil
      | some p => exact List.nodup_singleton _
    · -- A pause before the part is under a place of its own.
      intro place inGap inContent
      obtain ⟨entry, member, rfl⟩ := List.mem_map.mp inGap
      obtain ⟨other, memberToo, same⟩ := List.mem_map.mp inContent
      rw [eq_of_mem_sampleGap member] at same
      rcases place_of_mem_sampleContent memberToo with is | ⟨n, is⟩ <;> rw [is] at same <;>
        cases same
    · -- The later parts have greater numbers.
      intro place here behind
      obtain ⟨other, memberToo, same⟩ := List.mem_map.mp behind
      have later := (place_of_mem_sampleAll memberToo).2
      have number : place.number = part := by
        rcases List.mem_append.mp here with inGap | inContent
        · obtain ⟨entry, member, rfl⟩ := List.mem_map.mp inGap
          rw [eq_of_mem_sampleGap member]
          rfl
        · obtain ⟨entry, member, rfl⟩ := List.mem_map.mp inContent
          rcases place_of_mem_sampleContent member with is | ⟨n, is⟩ <;> rw [is] <;> rfl
      rw [same, number] at later
      omega

end SceneItem

/-- No two pauses of entities with different names have one place. -/
theorem Item.nodup_sampleAll (between : Option Pause) (g : Mulberry) {items : List Item}
    (distinct : (items.map Item.id).Nodup) : ((sampleAll between g items).1.map (·.1)).Nodup := by
  induction items generalizing g with
  | nil => exact .nil
  | cons item rest ih =>
    obtain ⟨fresh, distinct⟩ := List.nodup_cons.mp distinct
    rw [sampleAll, List.map_append]
    refine List.Nodup.append (SceneItem.nodup_sampleAll between item.id 0 g _) (ih _ distinct) ?_
    intro place own foreign
    obtain ⟨entry, member, rfl⟩ := List.mem_map.mp own
    obtain ⟨other, memberToo, same⟩ := List.mem_map.mp foreign
    obtain ⟨later, inside, named⟩ := scene_of_mem_sampleAll memberToo
    rw [same, (SceneItem.place_of_mem_sampleAll member).1] at named
    exact fresh (List.mem_map.mpr ⟨later, inside, named.symm⟩)

/-! ## The lengths that are laid out -/

/-- The lengths drawn beside the parts of a cue are the stream of its pauses. -/
theorem Segment.lengths_drawAll (g : Mulberry) (segments : List Segment) :
    ((drawAll g segments).1.filterMap Beat.length?, (drawAll g segments).2) =
      Pause.drawAll g (segments.flatMap pauses) := by
  induction segments generalizing g with
  | nil => rfl
  | cons segment rest ih =>
    cases segment with
    | text speech => exact ih g
    | pause p =>
      rw [List.flatMap_cons, pauses, List.singleton_append]
      simp only [Pause.drawAll, ← ih]
      rfl

namespace SceneItem

/-- The lengths drawn beside a part of a scene are the stream of its pauses. -/
theorem lengths_draw (between : Option Pause) (isFirst : Bool) (g : Mulberry) (item : SceneItem) :
    ((item.draw between isFirst g).1.lengths, (item.draw between isFirst g).2) =
      Pause.drawAll g (item.pauses between isFirst) := by
  have gap : ((drawGap g (item.gap? between isFirst)).1.toList,
      (drawGap g (item.gap? between isFirst)).2) =
        Pause.drawAll g (item.gap? between isFirst).toList := by
    cases item.gap? between isFirst <;> rfl
  unfold pauses
  rw [Pause.drawAll_append, ← gap]
  cases item with
  | cue c =>
    dsimp only
    rw [← Segment.lengths_drawAll]
    rfl
  | pause p => rfl

/-- The lengths drawn beside the parts of a scene are the stream of their pauses. -/
theorem lengths_drawAll (between : Option Pause) (isFirst : Bool) (g : Mulberry)
    (items : List SceneItem) :
    ((drawAll between isFirst g items).1.flatMap DrawnItem.lengths,
      (drawAll between isFirst g items).2) =
        Pause.drawAll g (allPauses between isFirst items) := by
  induction items generalizing isFirst g with
  | nil => rfl
  | cons item rest ih =>
    rw [allPauses, Pause.drawAll_append, ← lengths_draw, ← ih]
    rfl

end SceneItem

/-- The lengths drawn beside the parts of entities are the stream of their pauses. -/
theorem Item.lengths_draw (between : Option Pause) (g : Mulberry) (items : List Item) :
    ((draw between g items).1.flatMap (·.flatMap DrawnItem.lengths), (draw between g items).2) =
      Pause.drawAll g (pauses between items) := by
  induction items generalizing g with
  | nil => rfl
  | cons item rest ih =>
    rw [pauses, List.flatMap_cons, Pause.drawAll_append, ← SceneItem.lengths_drawAll, ← pauses,
      ← ih]
    rfl

namespace Plan

/-- The lengths of all pauses of a plan, drawn one after another. -/
def stream (plan : Plan) : List Float :=
  (Pause.drawAll plan.generator (plan.occurrences.map (·.2))).1

/-- There is a length for each pause. -/
theorem length_stream (plan : Plan) : plan.stream.length = plan.occurrences.length := by
  rw [stream, Pause.length_drawAll, List.length_map]

/-- The table of a plan holds, under the place of each pause, its length in the stream. -/
theorem samples_eq (plan : Plan) :
    plan.samples = (plan.occurrences.map (·.1)).zip plan.stream := by
  rw [samples, Item.sampleAll_eq]
  rfl

/-- The places of the table are those of the pauses. -/
theorem map_fst_samples (plan : Plan) : plan.samples.map (·.1) = plan.occurrences.map (·.1) := by
  rw [samples_eq]
  exact List.map_fst_zip (by rw [List.length_map, length_stream])

/-- The samples of the table are the lengths of the stream. -/
theorem map_snd_samples (plan : Plan) : plan.samples.map (·.2) = plan.stream := by
  rw [samples_eq]
  exact List.map_snd_zip (by rw [List.length_map, length_stream])

/-- No two pauses of a plan have one place. -/
theorem nodup_places {plan : Plan} (unique : plan.HasUniqueNames) :
    (plan.occurrences.map (·.1)).Nodup := by
  rw [← map_fst_samples]
  exact Item.nodup_sampleAll _ _ unique.ids_nodup

/-- The lengths beside the parts that are laid out are those of the stream, in order. -/
theorem lengths_drawn (plan : Plan) :
    plan.drawn.flatMap (·.flatMap DrawnItem.lengths) = plan.stream := by
  rw [stream, map_occurrences, ← Item.lengths_draw]
  rfl

/-- The generator of a seed. -/
theorem generator_of_seed {plan : Plan} {seed : Int} (seeded : plan.seed = some seed) :
    plan.generator = Mulberry.ofSeed seed := by
  rw [generator, seeded, Option.getD_some]

end Plan
end Storyboard
