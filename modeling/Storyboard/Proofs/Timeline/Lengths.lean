import Storyboard.Proofs.Number.Extremes
import Storyboard.Proofs.Random.Period
import Storyboard.Proofs.Timeline.Drawing
/-!
# Lengths of pauses

A length that a pause may have depends on its bounds only, and not on the source of the draws. A
sampling of a plan is a drawing in which every pause has a length that it may have; what a seed
draws is one (`Plan.isSampling_drawn`), and so is what any other source of uniform draws gives. No
such length is below zero (`Pause.Allows.nonneg`).
-/
namespace Storyboard

/-- What stands in the second of two related lists has something in the first that it belongs to. -/
theorem exists_mem_of_forall₂ {α β : Type} {R : α → β → Prop} {items : List α} {others : List β}
    (related : List.Forall₂ R items others) {y : β} (member : y ∈ others) :
    ∃ x ∈ items, R x y := by
  induction related with
  | nil => cases member
  | cons first _ ih =>
    rcases List.mem_cons.mp member with rfl | behind
    · exact ⟨_, List.mem_cons_self, first⟩
    · obtain ⟨x, inside, belongs⟩ := ih behind
      exact ⟨x, List.mem_cons_of_mem _ inside, belongs⟩

/-! ## One pause -/

namespace Pause

/-- Whether a pause may have a length: a fixed one has its own, and any other one a value that is
brought within its bounds. -/
def Allows : Pause → Float → Prop
  | .fixed seconds, length => length = Number.larger 0.0 seconds
  | .gaussian _ _ min max, length => ∃ value, length = limit min max value

variable {pause : Pause} {length : Float}

/-- A pause has a length that it may have, from whatever source it is drawn. -/
theorem allows_of_sample? {σ : Type} [Uniform σ] {attempts : Nat} {source rest : σ}
    (sampled : pause.sample? attempts source = some (length, rest)) : pause.Allows length := by
  cases pause with
  | fixed seconds =>
    cases sampled
    rfl
  | gaussian mean std min max =>
    obtain ⟨⟨value, later⟩, _, same⟩ := Option.map_eq_some_iff.mp sampled
    cases same
    exact ⟨value, rfl⟩

/-- A generator gives a pause a length that it may have. -/
theorem allows_sample (pause : Pause) (g : Mulberry) : pause.Allows (pause.sample g).1 := by
  have drawn : (pause.sample? Mulberry.modulus g).isSome = true := by
    cases pause with
    | fixed seconds => rfl
    | gaussian mean std min max =>
      exact Option.isSome_map.trans (Mulberry.sample?_isSome mean std g)
  obtain ⟨⟨length, rest⟩, sampled⟩ := Option.isSome_iff_exists.mp drawn
  rw [sample, sampled]
  exact allows_of_sample? sampled

/-- No length of a pause is below zero. -/
theorem Allows.nonneg (allows : pause.Allows length) : 0.0 ≤ length := by
  cases pause with
  | fixed seconds =>
    rw [show length = _ from allows]
    exact Number.zero_le_larger seconds
  | gaussian mean std min max =>
    obtain ⟨value, rfl⟩ := allows
    exact Number.zero_le_larger _

end Pause

/-! ## Drawn lengths in order -/

/-- The length that is drawn for a part of a cue. -/
def Beat.length? : Beat → Option Float
  | .text _ => none
  | .pause seconds => some seconds

/-- The lengths that are drawn for what a part of a scene is. -/
def Content.lengths : Content → List Float
  | .cue _ beats => beats.filterMap Beat.length?
  | .pause seconds => [seconds]

/-- The lengths that are drawn for a part of a scene, that of the pause before it first. -/
def DrawnItem.lengths (part : DrawnItem) : List Float := part.gap.toList ++ part.content.lengths

/-- The lengths that are drawn for the parts of a cue are such that their pauses may have. -/
theorem Segment.allows_drawAll : ∀ (g : Mulberry) (segments : List Segment),
    List.Forall₂ Pause.Allows (segments.flatMap pauses)
      ((drawAll g segments).1.filterMap Beat.length?)
  | _, [] => .nil
  | g, .text _ :: rest => allows_drawAll g rest
  | g, .pause p :: rest => .cons (p.allows_sample g) (allows_drawAll (p.sample g).2 rest)

namespace SceneItem

/-- The length that is drawn for a pause between parts is one that it may have. -/
theorem allows_drawGap (g : Mulberry) (gap : Option Pause) :
    List.Forall₂ Pause.Allows gap.toList (drawGap g gap).1.toList := by
  cases gap with
  | none => exact .nil
  | some p => exact .cons (p.allows_sample g) .nil

/-- The lengths that are drawn for a part of a scene are such that its pauses may have. -/
theorem allows_draw (between : Option Pause) (isFirst : Bool) (g : Mulberry) (item : SceneItem) :
    List.Forall₂ Pause.Allows (item.pauses between isFirst)
      (item.draw between isFirst g).1.lengths := by
  refine List.rel_append (allows_drawGap g (item.gap? between isFirst)) ?_
  cases item with
  | cue c => exact Segment.allows_drawAll _ c.segments
  | pause p => exact .cons (p.allows_sample _) .nil

/-- The lengths that are drawn for the parts of a scene are such that their pauses may have. -/
theorem allows_drawAll (between : Option Pause) :
    ∀ (isFirst : Bool) (g : Mulberry) (items : List SceneItem),
      List.Forall₂ Pause.Allows (allPauses between isFirst items)
        ((drawAll between isFirst g items).1.flatMap DrawnItem.lengths)
  | _, _, [] => .nil
  | isFirst, g, item :: rest =>
    List.rel_append (item.allows_draw between isFirst g) (allows_drawAll between false _ rest)

end SceneItem

/-- The lengths that are drawn for entities are such that their pauses may have. -/
theorem Item.allows_draw (between : Option Pause) : ∀ (g : Mulberry) (items : List Item),
    List.Forall₂ Pause.Allows (pauses between items)
      ((draw between g items).1.flatMap (·.flatMap DrawnItem.lengths))
  | _, [] => .nil
  | g, item :: rest =>
    List.rel_append (SceneItem.allows_drawAll between true g item.sceneItems)
      (allows_draw between _ rest)

namespace Plan

variable {plan : Plan} {drawn : List (List DrawnItem)}

/-- Whether what is drawn is a sampling of a plan: a drawing in which each pause, in the order of
the authors, has a length that it may have. -/
structure IsSampling (plan : Plan) (drawn : List (List DrawnItem)) : Prop where
  /-- There is a length for every pause. -/
  drawing : plan.IsDrawing drawn
  /-- Each length is one that its pause may have. -/
  allowed : List.Forall₂ Pause.Allows (Item.pauses plan.between plan.items)
    (drawn.flatMap (·.flatMap DrawnItem.lengths))

/-- What the seed of a plan draws is a sampling. -/
theorem isSampling_drawn (plan : Plan) : plan.IsSampling plan.drawn :=
  ⟨plan.isDrawing_drawn, Item.allows_draw plan.between plan.generator plan.items⟩

/-- No length in a sampling is below zero. -/
theorem IsSampling.nonneg (sampling : plan.IsSampling drawn) (index : Nat) :
    ∀ part ∈ drawn[index]?.getD [], ∀ length ∈ part.lengths, 0.0 ≤ length := by
  intro part member length inside
  cases present : drawn[index]? with
  | none =>
    rw [present] at member
    cases member
  | some parts =>
    rw [present] at member
    have listed : length ∈ drawn.flatMap (·.flatMap DrawnItem.lengths) :=
      List.mem_flatMap.mpr ⟨parts, List.mem_of_getElem? present,
        List.mem_flatMap.mpr ⟨part, member, inside⟩⟩
    obtain ⟨pause, _, allows⟩ := exists_mem_of_forall₂ sampling.allowed listed
    exact allows.nonneg

end Plan
end Storyboard
