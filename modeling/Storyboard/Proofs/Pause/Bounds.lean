import Storyboard.Pause.Sample
import Storyboard.Proofs.Number.Extremes
import Storyboard.Proofs.Random.Normal
/-!
# Bounds of sampled pauses

What a pause is given by its normal draw is raised to its lower bound, cut to its upper bound and
raised to zero, in this order. A bound or a draw may be no number; each of the three keeps its first
operand then. So the last one always gives a number not below zero, and the upper bound is kept
whatever the draw is. The lower bound needs a draw that is a number, and an upper bound that leaves
room for it.

`Samples` is how a pause gets its length when it draws for as long as it takes, with the faults of
its functions; `sampleWith?` gives up after a number of attempts.

Main statement: on draws from zero, included, to one, excluded, a pause whose draws end gets a
length, and the length keeps its bounds (`sampled_keepsBounds`).
-/
namespace Storyboard.Pause

open Binary64 Number

/-! ## The three limits -/

variable {min max : Option Float} {value bound : Float}

/-- A limited draw is a number that is not below zero, whatever the bounds and the draw are. -/
theorem zero_le_limit (min max : Option Float) (value : Float) :
    (limit min max value).isNaN = false ∧ 0.0 ≤ limit min max value :=
  ⟨(isNaN_larger 0.0 _).mpr isNaN_zero, zero_le_larger _⟩

/-- A limited draw is at most its upper bound if that is not below zero. -/
theorem limit_le (nonneg : 0.0 ≤ bound) : limit min (some bound) value ≤ bound := by
  have number := (isNaN_of_le nonneg).2
  obtain ⟨raised, limited⟩ : ∃ raised,
      limit min (some bound) value = larger 0.0 (smaller raised bound) := ⟨_, rfl⟩
  rw [limited]
  rcases larger_eq_or 0.0 (smaller raised bound) with zero | cut
  · rwa [zero]
  · -- Zero is only passed over for a number, and a cut is no number unless what is cut is one.
    have selected := (isNaN_larger 0.0 (smaller raised bound)).mpr isNaN_zero
    rw [cut] at selected ⊢
    exact smaller_le_right ((isNaN_smaller raised bound).mp selected) number

/-- A draw that is a number is limited to no less than its lower bound, if the upper one is not
below that and zero. -/
theorem le_limit (number : value.isNaN = false) (numberBound : bound.isNaN = false)
    (room : ∀ most ∈ max, larger 0.0 bound ≤ most) : bound ≤ limit (some bound) max value := by
  have raised : bound ≤ larger value bound := le_larger_right number numberBound
  unfold limit
  cases max with
  | none =>
    exact Trans.trans raised (le_larger_right isNaN_zero (isNaN_of_le raised).2)
  | some most =>
    have below : bound ≤ most := le_of_larger_le_right numberBound (room most rfl)
    have cut : bound ≤ smaller (larger value bound) most := by
      rcases smaller_eq_or (larger value bound) most with kept | taken
      · rwa [kept]
      · rwa [taken]
    exact Trans.trans cut (le_larger_right isNaN_zero (isNaN_of_le cut).2)

/-! ## Sampling -/

variable {σ : Type} [Uniform σ] {f : Normal.Functions} {source last : σ}

/-- The length of one occurrence of a pause, trying each uniform draw a number of times. -/
def sampleWith? (f : Normal.Functions) (attempts : Nat) (pause : Pause) (source : σ) :
    Option (Float × σ) :=
  match pause with
  | .fixed seconds => some (larger 0.0 seconds, source)
  | .gaussian mean std min max =>
    (Normal.sampleWith? f attempts mean std source).map fun (value, rest) =>
      (limit min max value, rest)

/-- How one occurrence of a pause gets its length, unless a function is taken outside of its domain,
and which source is left, drawing for as long as it takes. -/
inductive Samples (f : Normal.Functions) : Pause → σ → Except Fault Float → σ → Prop where
  /-- A fixed pause draws nothing. -/
  | fixed {source : σ} (seconds : Float) :
    Samples f (.fixed seconds) source (.ok (larger 0.0 seconds)) source
  /-- A sampled pause takes two draws that are not zero. -/
  | gaussian {source middle last : σ} {u v : Float} (mean std : Float) (min max : Option Float)
    (first : Normal.DrawsNonzero source u middle) (second : Normal.DrawsNonzero middle v last) :
    Samples f (.gaussian mean std min max) source
      ((Normal.checked f mean std u v).map (limit min max)) last

/-- Whether a length keeps the bounds of a pause. -/
structure KeepsBounds (pause : Pause) (length : Float) : Prop where
  /-- The length is a number. -/
  number : length.isNaN = false
  /-- It is not below zero. -/
  nonneg : 0.0 ≤ length
  /-- It is at most the upper bound, unless that is no number or below zero. -/
  atMost : ∀ {mean std : Float} {min : Option Float} {bound : Float},
    pause = .gaussian mean std min (some bound) → 0.0 ≤ bound → length ≤ bound
  /-- It is at least the lower bound if the draw is one from finite numbers and the upper bound is
  not below the lower one and zero. -/
  atLeast : ∀ {mean std : Float} {bound : Float} {max : Option Float},
    pause = .gaussian mean std (some bound) max → mean.isFinite = true → std.isFinite = true →
    bound.isNaN = false → (∀ most ∈ max, larger 0.0 bound ≤ most) → bound ≤ length

/-- With the functions of the machine it is the sample. -/
theorem sampleWith?_machine (attempts : Nat) (pause : Pause) (source : σ) :
    pause.sample? attempts source = pause.sampleWith? .machine attempts source := by
  cases pause with
  | fixed seconds => rfl
  | gaussian mean std min max => rw [sample?, sampleWith?, Normal.sampleWith?_machine]

/-- The length of a fixed pause keeps its bounds. -/
theorem fixed_keepsBounds (seconds : Float) :
    (fixed seconds).KeepsBounds (larger 0.0 seconds) := by
  refine ⟨(isNaN_larger 0.0 _).mpr isNaN_zero, zero_le_larger _, ?_, ?_⟩
  · intro mean std min bound same
    cases same
  · intro mean std bound max same
    cases same

/-- A sampled pause gets a length from two draws that are not zero, and no fault, and the length
keeps its bounds. -/
theorem gaussian_keepsBounds (sound : f.AreSound) (inside : Uniform.StaysInside source)
    {middle : σ} {u v : Float} (mean std : Float) (min max : Option Float)
    (first : Normal.DrawsNonzero source u middle) (second : Normal.DrawsNonzero middle v last) :
    (Normal.checked f mean std u v).map (limit min max) =
        .ok (limit min max (Normal.ofUniformWith f mean std u v)) ∧
      (gaussian mean std min max).KeepsBounds
        (limit min max (Normal.ofUniformWith f mean std u v)) := by
  obtain ⟨positive, less, insideMiddle⟩ := first.inside inside
  obtain ⟨positiveOther, lessOther, _⟩ := second.inside insideMiddle
  have nonnegOther := le_of_lt positiveOther
  obtain ⟨number, nonneg⟩ := zero_le_limit min max (Normal.ofUniformWith f mean std u v)
  refine ⟨?_, number, nonneg, ?_, ?_⟩
  · rw [Normal.checked_eq sound mean std positive less nonnegOther lessOther]
    rfl
  · intro mean std min bound same nonnegBound
    cases same
    exact limit_le nonnegBound
  · intro mean std bound max same finite finiteOther numberBound room
    cases same
    have drawn := Normal.isNaN_ofUniformWith sound finite finiteOther positive less nonnegOther
      lessOther
    exact le_limit drawn numberBound room

/-- A pause that gets an outcome gets a length that keeps its bounds, and the search finds it with
enough attempts. -/
theorem Samples.exists_length (sound : f.AreSound) (inside : Uniform.StaysInside source)
    {pause : Pause} {outcome : Except Fault Float} (samples : pause.Samples f source outcome last) :
    ∃ length, outcome = .ok length ∧ pause.KeepsBounds length ∧
      ∃ enough, ∀ attempts ≥ enough, pause.sampleWith? f attempts source = some (length, last) := by
  cases samples with
  | fixed seconds => exact ⟨_, rfl, fixed_keepsBounds seconds, 0, fun _ _ => rfl⟩
  | @gaussian _ middle _ u v mean std min max first second =>
    obtain ⟨outcome, keeps⟩ := gaussian_keepsBounds sound inside mean std min max first second
    obtain ⟨few, found⟩ := Normal.drawsNonzero_iff.mp first
    obtain ⟨fewOther, foundOther⟩ := Normal.drawsNonzero_iff.mp second
    refine ⟨_, outcome, keeps, few + fewOther, fun attempts enough => ?_⟩
    have sampled : Normal.sampleWith? f attempts mean std source =
        some (Normal.ofUniformWith f mean std u v, last) :=
      Normal.sampleWith?_eq_some.mpr ⟨u, v, middle, Normal.drawNonzero_mono (by omega) found,
        Normal.drawNonzero_mono (by omega) foundOther, rfl⟩
    rw [sampleWith?, sampled]
    rfl

/-- What the search finds is what the pause gets when it draws for as long as it takes. -/
theorem samples_of_sampleWith? (sound : f.AreSound) (inside : Uniform.StaysInside source)
    {pause : Pause} {attempts : Nat} {length : Float}
    (found : pause.sampleWith? f attempts source = some (length, last)) :
    pause.Samples f source (.ok length) last := by
  cases pause with
  | fixed seconds =>
    cases found
    exact .fixed seconds
  | gaussian mean std min max =>
    rw [sampleWith?, Option.map_eq_some_iff] at found
    obtain ⟨⟨value, rest⟩, sampled, same⟩ := found
    cases same
    obtain ⟨u, v, middle, first, second, rfl⟩ := Normal.sampleWith?_eq_some.mp sampled
    have draws := Normal.drawsNonzero_iff.mpr ⟨attempts, first⟩
    have drawsOther := Normal.drawsNonzero_iff.mpr ⟨attempts, second⟩
    have outcome := (gaussian_keepsBounds sound inside mean std min max draws drawsOther).1
    show Samples f _ _ (.ok (limit min max (Normal.ofUniformWith f mean std u v))) _
    rw [← outcome]
    exact .gaussian mean std min max draws drawsOther

/-- Sampled pauses keep their bounds. On a source of draws from zero, included, to one, excluded,
whatever the numbers of a pause are, of which any may be infinite or no number: if its draws end,
they give a length and not a fault, and the length is a number, not below zero, and keeps the bounds
of the pause as far as these are numbers and leave room for each other. A search finds it with
enough attempts, and finds no other. A fixed pause draws nothing. The functions are parameters, and
with those of the machine it is the sample. -/
theorem sampled_keepsBounds (sound : f.AreSound) (inside : Uniform.StaysInside source)
    (pause : Pause) :
    (∀ attempts, pause.sample? attempts source = pause.sampleWith? .machine attempts source) ∧
      (∀ seconds attempts, pause = .fixed seconds →
        pause.sampleWith? f attempts source = some (larger 0.0 seconds, source)) ∧
      (∀ outcome last, pause.Samples f source outcome last →
        ∃ length, outcome = .ok length ∧ pause.KeepsBounds length ∧ ∃ enough,
          ∀ attempts ≥ enough, pause.sampleWith? f attempts source = some (length, last)) ∧
      ∀ attempts length last, pause.sampleWith? f attempts source = some (length, last) →
        pause.Samples f source (.ok length) last ∧ pause.KeepsBounds length := by
  refine ⟨fun attempts => sampleWith?_machine attempts pause source, ?_, ?_, ?_⟩
  · rintro seconds attempts rfl
    rfl
  · intro outcome last samples
    exact samples.exists_length sound inside
  · intro attempts length last found
    have samples := samples_of_sampleWith? sound inside found
    obtain ⟨_, same, keeps, _⟩ := samples.exists_length sound inside
    cases same
    exact ⟨samples, keeps⟩

/-- Functions that have the values of the logarithm and the cosine at the first two draws of the
seed 42, and are constant. -/
def functionsOfSeed : Normal.Functions :=
  ⟨fun _ => -0.508987727199449, fun _ => -0.9476826525713375⟩

/-- On that seed the normal draw lies below the lower bound, and is raised to it. -/
theorem raised_keepsBounds :
    functionsOfSeed.AreSound ∧ Uniform.StaysInside (Mulberry.ofSeed 42) ∧ ∃ last,
      (gaussian 0.4 0.1 (some 0.35) (some 0.8)).Samples functionsOfSeed (Mulberry.ofSeed 42)
        (.ok 0.35) last ∧
      (gaussian 0.4 0.1 (some 0.35) (some 0.8)).KeepsBounds 0.35 := by
  have log : (-745.0 : Float) ≤ -0.508987727199449 ∧ (-0.508987727199449 : Float) ≤ 0.0 := by decide
  have cos : (-1.0 : Float) ≤ -0.9476826525713375 ∧ (-0.9476826525713375 : Float) ≤ 1.0 := by decide
  have sound : functionsOfSeed.AreSound := ⟨fun _ _ _ => log, fun _ _ => cos⟩
  have inside := (Mulberry.ofSeed 42).staysInside
  have found : (gaussian 0.4 0.1 (some 0.35) (some 0.8)).sampleWith? functionsOfSeed 1
      (Mulberry.ofSeed 42) = some (0.35, ⟨3663131668⟩) := by decide +kernel
  exact ⟨sound, inside, _, (sampled_keepsBounds sound inside _).2.2.2 1 _ _ found⟩

end Storyboard.Pause
