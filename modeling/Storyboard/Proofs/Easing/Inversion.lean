import Storyboard.Proofs.Easing.Crossing
/-!
# Inverting a bezier curve

The parameter of a first coordinate is sought in a table of samples, and then by halving the
interval between two of them. Here both are followed in exact arithmetic and for all control points,
also for those with which the first coordinate turns back and has a value more than once.

Main statement: the search and each halving keep the target bracketed, and the bisection ends close
to it or near to where it is crossed (`bisection_keepsBracket`).
-/
namespace Storyboard.Bezier

open Set

variable {curve : Bezier ℝ} {target : ℝ}

/-! ## The table of samples -/

/-- The first coordinates at all samples. -/
noncomputable def table (curve : Bezier ℝ) : List ℝ := curve.x (0 * step) :: curve.samples

/-- The table holds the first coordinate at each of eleven parameters. -/
theorem table_eq (curve : Bezier ℝ) :
    curve.table = (List.range 11).map fun i : ℕ => curve.x (i * step) := by
  simp [table, samples, sampleNumbers, List.range_succ]

/-- The search through a list of samples stops at the first one that exceeds the target, or else at
the last one, and gives the interval between the sample before and that one. -/
theorem exists_locate (target start low : ℝ) {samples : List ℝ} (some_sample : samples ≠ []) :
    ∃ index < samples.length, ∃ found, locate target start low samples = found ∧
      found.start = start + index * step ∧ (low :: samples)[index]? = some found.low ∧
      samples[index]? = some found.high ∧ (∀ sample ∈ samples.take index, sample ≤ target) ∧
      (index + 1 < samples.length → target < found.high) := by
  induction samples generalizing start low with
  | nil => exact absurd rfl some_sample
  | cons high rest ih =>
    cases rest with
    | nil => exact ⟨0, by simp, ⟨start, low, high⟩, rfl, by simp, rfl, rfl, by simp, by simp⟩
    | cons next others =>
      by_cases passed : high ≤ target
      · obtain ⟨index, inside, found, located, place, lower, upper, before, stopped⟩ :=
          ih (start + step) high (List.cons_ne_nil _ _)
        refine ⟨index + 1, by simpa using inside, found, (if_pos passed).trans located, ?_, lower,
          upper, by simpa using ⟨passed, before⟩, by simpa using stopped⟩
        rw [place]
        push_cast
        ring
      · exact ⟨0, by simp, ⟨start, low, high⟩, if_neg passed, by simp, rfl, rfl, by simp,
          fun _ => not_le.mp passed⟩

/-- The table holds the first coordinate at eleven parameters, a step apart. -/
theorem table_getElem? (curve : Bezier ℝ) {index : ℕ} (inside : index < 11) :
    curve.table[index]? = some (curve.x (index * step)) := by
  rw [table_eq, List.getElem?_map, List.getElem?_range inside]
  rfl

/-- A target between zero and one falls into an interval between two neighbouring samples that
bracket it, and no sample before exceeds it. -/
theorem exists_interval (curve : Bezier ℝ) (above : 0 < target) (below : target < 1) :
    ∃ index : ℕ, index < 10 ∧ (curve.interval target).start = index * step ∧
      curve.table[index]? = some (curve.interval target).low ∧
      curve.table[index + 1]? = some (curve.interval target).high ∧
      (∀ sample ∈ curve.table.take (index + 1), sample ≤ target) ∧
      target < (curve.interval target).high := by
  obtain ⟨index, inside, found, located, place, lower, upper, before, stopped⟩ :=
    exists_locate target 0 (curve.x (0 * step))
      (show curve.samples ≠ [] by simp [samples, sampleNumbers])
  have few : index < 10 := by simpa [samples, sampleNumbers] using inside
  rw [interval, located]
  refine ⟨index, few, by rw [place, zero_add], lower, upper, ?_, ?_⟩
  · rintro sample member
    rcases List.mem_cons.mp member with rfl | later
    · rw [zero_mul, x_zero]
      exact above.le
    · exact before sample later
  · rcases Nat.lt_or_ge (index + 1) 10 with more | last
    · exact stopped (by simpa [samples, sampleNumbers] using more)
    · obtain rfl : index = 9 := by omega
      have final := curve.table_getElem? (show 10 < 11 by omega)
      have end_of_curve : ((10 : ℕ) : ℝ) * step = 1 := by norm_num [step]
      rw [end_of_curve, x_one] at final
      have same := upper.symm.trans final
      rw [Option.some.inj same]
      exact below

/-! ## Halving -/

/-- How close a bisection has to come. -/
theorem precision_eq : (precision : ℝ) = 1 / 10 ^ 7 := by norm_num [precision]

/-- Whether a bisection stops at a parameter, since its first coordinate is close to the target. -/
def IsClose (curve : Bezier ℝ) (target t : ℝ) : Prop := |curve.x t - target| ≤ 1 / 10 ^ 7

/-- The parameter halfway between two others. -/
noncomputable def middle (bounds : ℝ × ℝ) : ℝ := bounds.1 + (bounds.2 - bounds.1) / 2

/-- The half of an interval that a bisection goes on with. -/
noncomputable def half (curve : Bezier ℝ) (target : ℝ) (bounds : ℝ × ℝ) : ℝ × ℝ :=
  if 0 < curve.x (middle bounds) - target then (bounds.1, middle bounds)
  else (middle bounds, bounds.2)

/-- What is left of an interval after a number of halvings. -/
noncomputable def halved (curve : Bezier ℝ) (target : ℝ) (bounds : ℝ × ℝ) (count : ℕ) : ℝ × ℝ :=
  (curve.half target)^[count] bounds

section Halves

variable (curve target) (bounds : ℝ × ℝ)

/-- Without a halving all is left. -/
theorem halved_zero : curve.halved target bounds 0 = bounds := rfl

/-- One more halving halves what is left. -/
theorem halved_succ (count : ℕ) :
    curve.halved target bounds (count + 1) = curve.half target (curve.halved target bounds count) :=
  Function.iterate_succ_apply' ..

/-- A halving keeps the lower half if the first coordinate exceeds the target in the middle, and
else the upper half. -/
theorem half_cases :
    (target < curve.x (middle bounds) ∧ curve.half target bounds = (bounds.1, middle bounds)) ∨
      (curve.x (middle bounds) ≤ target ∧
        curve.half target bounds = (middle bounds, bounds.2)) := by
  rcases lt_or_ge target (curve.x (middle bounds)) with above | below
  · exact .inl ⟨above, if_pos (sub_pos.mpr above)⟩
  · exact .inr ⟨below, if_neg (sub_nonpos.mpr below).not_gt⟩

/-- A half is half as wide. -/
theorem half_width :
    (curve.half target bounds).2 - (curve.half target bounds).1 = (bounds.2 - bounds.1) / 2 := by
  rcases curve.half_cases target bounds with ⟨_, same⟩ | ⟨_, same⟩ <;> rw [same, middle] <;> ring

/-- Each halving divides the width of an interval by two. -/
theorem halved_width (count : ℕ) :
    (curve.halved target bounds count).2 - (curve.halved target bounds count).1 =
      (bounds.2 - bounds.1) / 2 ^ count := by
  induction count with
  | zero => rw [pow_zero, div_one, halved_zero]
  | succ count ih => rw [halved_succ, half_width, ih, pow_succ, div_div]

/-- What is left of an interval begins where the interval does, or at a middle before. -/
theorem halved_low (count : ℕ) :
    (curve.halved target bounds count).1 = bounds.1 ∨
      ∃ earlier < count, (curve.halved target bounds count).1 =
        middle (curve.halved target bounds earlier) := by
  induction count with
  | zero => exact .inl rfl
  | succ count ih =>
    rw [halved_succ]
    rcases curve.half_cases target (curve.halved target bounds count) with
      ⟨_, same⟩ | ⟨_, same⟩ <;> rw [same]
    · refine ih.imp_right ?_
      rintro ⟨earlier, before, low⟩
      exact ⟨earlier, before.trans_le (Nat.le_succ _), low⟩
    · exact .inr ⟨count, Nat.lt_succ_self _, rfl⟩

variable {bounds}

/-- The middle of an interval lies in it. -/
theorem middle_mem (ordered : bounds.1 ≤ bounds.2) : middle bounds ∈ Icc bounds.1 bounds.2 := by
  constructor <;> rw [middle] <;> linarith

/-- What is left of an interval lies in it. -/
theorem halved_mem (ordered : bounds.1 ≤ bounds.2) (count : ℕ) :
    bounds.1 ≤ (curve.halved target bounds count).1 ∧
      (curve.halved target bounds count).1 ≤ (curve.halved target bounds count).2 ∧
      (curve.halved target bounds count).2 ≤ bounds.2 := by
  induction count with
  | zero => exact ⟨le_rfl, ordered, le_rfl⟩
  | succ count ih =>
    obtain ⟨left, between, right⟩ := ih
    obtain ⟨lower, upper⟩ := middle_mem between
    rw [halved_succ]
    rcases curve.half_cases target (curve.halved target bounds count) with
      ⟨_, same⟩ | ⟨_, same⟩ <;> rw [same]
    · exact ⟨left, lower, upper.trans right⟩
    · exact ⟨left.trans lower, upper, right⟩

end Halves

variable {bounds : ℝ × ℝ}

/-- A half of an interval brackets the target if the interval does. -/
theorem Brackets.half (brackets : curve.Brackets target bounds) :
    curve.Brackets target (curve.half target bounds) := by
  rcases curve.half_cases target bounds with ⟨above, same⟩ | ⟨below, same⟩ <;> rw [same]
  · exact ⟨brackets.1, above⟩
  · exact ⟨below, brackets.2⟩

/-- After any number of halvings the target is bracketed. -/
theorem Brackets.halved (brackets : curve.Brackets target bounds) (count : ℕ) :
    curve.Brackets target (curve.halved target bounds count) := by
  induction count with
  | zero => exact brackets
  | succ count ih =>
    rw [halved_succ]
    exact ih.half

/-! ## Bisection -/

/-- A bisection stops at the middle of its interval if that is close. -/
theorem bisect_of_close (close : curve.IsClose target (middle bounds)) (steps : ℕ) (last : ℝ) :
    curve.bisect target (steps + 1) bounds.1 bounds.2 last = middle bounds := by
  rw [bisect, Number.magnitude_real, precision_eq]
  exact if_pos close

/-- It goes on with a half of its interval if the middle is not close. -/
theorem bisect_of_not_close (far : ¬ curve.IsClose target (middle bounds)) (steps : ℕ) (last : ℝ) :
    curve.bisect target (steps + 1) bounds.1 bounds.2 last =
      curve.bisect target steps (curve.half target bounds).1 (curve.half target bounds).2
        (middle bounds) := by
  rw [bisect, Number.magnitude_real, precision_eq]
  refine (if_neg far).trans ?_
  rcases curve.half_cases target bounds with ⟨above, same⟩ | ⟨below, same⟩
  · rw [same]
    exact if_pos (sub_pos.mpr above)
  · rw [same]
    exact if_neg (sub_nonpos.mpr below).not_gt

/-- A bisection ends at the middle of what is left after some halvings, the first one that is close,
or else the last one. -/
theorem exists_bisect (curve : Bezier ℝ) (target : ℝ) (steps : ℕ) (bounds : ℝ × ℝ) (last : ℝ) :
    ∃ count ≤ steps, curve.bisect target (steps + 1) bounds.1 bounds.2 last =
        middle (curve.halved target bounds count) ∧
      (∀ earlier < count, ¬ curve.IsClose target (middle (curve.halved target bounds earlier))) ∧
      (curve.IsClose target (middle (curve.halved target bounds count)) ∨ count = steps) := by
  induction steps generalizing bounds last with
  | zero =>
    refine ⟨0, le_rfl, ?_, by simp, .inr rfl⟩
    by_cases close : curve.IsClose target (middle bounds)
    · exact bisect_of_close close 0 last
    · exact bisect_of_not_close close 0 last
  | succ steps ih =>
    by_cases close : curve.IsClose target (middle bounds)
    · exact ⟨0, Nat.zero_le _, bisect_of_close close _ last, by simp, .inl close⟩
    · obtain ⟨count, few, ends, earlier, stops⟩ := ih (curve.half target bounds) (middle bounds)
      refine ⟨count + 1, by omega, (bisect_of_not_close close _ last).trans ends, ?_,
        stops.imp_right (congrArg (· + 1))⟩
      rintro (_ | before) less
      · exact close
      · exact earlier before (by omega)

/-- A bisection that comes close at none of its middles ends near to where the first coordinate
rises above the target. It crosses it there, unless that is where the bisection started. -/
theorem Brackets.exists_near (brackets : curve.Brackets target bounds)
    (ordered : bounds.1 ≤ bounds.2) {count : ℕ}
    (far : ∀ earlier ≤ count,
      ¬ curve.IsClose target (middle (curve.halved target bounds earlier))) :
    ∃ t ∈ Icc bounds.1 bounds.2,
      |middle (curve.halved target bounds count) - t| ≤
        (bounds.2 - bounds.1) / 2 ^ (count + 1) ∧
      curve.Rises target t ∧ (curve.Crosses target t ∨ t = bounds.1) := by
  obtain ⟨left, between, right⟩ := curve.halved_mem target ordered (count + 1)
  have width := curve.halved_width target bounds (count + 1)
  obtain ⟨t, ⟨lower, upper⟩, rises, before⟩ := (brackets.halved (count + 1)).exists_rise between
  refine ⟨t, ⟨left.trans lower, upper.trans right⟩, ?_, rises, ?_⟩
  · -- the last middle is one of the ends of what is left behind it
    rw [← width]
    rw [halved_succ] at lower upper ⊢
    rcases curve.half_cases target (curve.halved target bounds count) with
      ⟨_, same⟩ | ⟨_, same⟩ <;> rw [same] at lower upper ⊢
    · rw [abs_of_nonneg (by linarith)]
      linarith
    · rw [abs_of_nonpos (by linarith)]
      linarith
  · rcases lower.eq_or_lt with rfl | apart
    · rcases curve.halved_low target bounds (count + 1) with start | ⟨earlier, passed, low⟩
      · exact .inr start
      · -- a middle at which the first coordinate is the target would have been close
        refine absurd ?_ (far earlier (Nat.le_of_lt_succ passed))
        rw [IsClose, ← low, rises.1, sub_self, abs_zero]
        positivity
    · exact .inl (rises.crosses apart before)

/-! ## Seeking a parameter -/

/-- The ends of the interval that a target falls into. -/
noncomputable def ends (curve : Bezier ℝ) (target : ℝ) : ℝ × ℝ :=
  ((curve.interval target).start, (curve.interval target).start + step)

/-- The first guess is the start of the interval if the first coordinate is the target there. -/
theorem guess_eq_start (level : (curve.interval target).low = target) :
    (curve.interval target).guess target = (curve.interval target).start := by
  simp [Interval.guess, level]

/-- What is kept while the parameter of a first coordinate is sought. -/
structure KeepsBracket (curve : Bezier ℝ) (target : ℝ) : Prop where
  /-- The search stops between two neighbours in the table, and no sample up to there exceeds the
  target. -/
  stops : ∃ index : ℕ, index < 10 ∧ (curve.interval target).start = index * step ∧
    curve.table[index]? = some (curve.interval target).low ∧
    curve.table[index + 1]? = some (curve.interval target).high ∧
    ∀ sample ∈ curve.table.take (index + 1), sample ≤ target
  /-- The two are the first coordinates at the ends of the interval. -/
  samples : (curve.interval target).low = curve.x (curve.ends target).1 ∧
    (curve.interval target).high = curve.x (curve.ends target).2
  /-- The interval brackets the target, and so does what is left of it after any number of
  halvings. -/
  brackets : ∀ count, curve.Brackets target (curve.halved target (curve.ends target) count)
  /-- The bisection ends at the middle of what is left after less than ten halvings, and at no
  middle before has it come close. -/
  halves : ∃ count < 10, curve.bisectInterval target =
      middle (curve.halved target (curve.ends target) count) ∧
    ∀ earlier < count,
      ¬ curve.IsClose target (middle (curve.halved target (curve.ends target) earlier))
  /-- It gives the parameter if the curve is flat at the first guess, but not level. -/
  flat : curve.xSlope ((curve.interval target).guess target) < 1 / 1000 →
    curve.xSlope ((curve.interval target).guess target) ≠ 0 →
    curve.parameter target = curve.bisectInterval target
  /-- It ends in the interval. -/
  inside : curve.bisectInterval target ∈ Icc (curve.ends target).1 (curve.ends target).2
  /-- It ends close to the target, or else near to where the first coordinate rises above it, which
  is where it crosses it if the bisection is what gives the parameter. -/
  near : curve.IsClose target (curve.bisectInterval target) ∨
    ∃ t ∈ Icc (curve.ends target).1 (curve.ends target).2,
      |curve.bisectInterval target - t| ≤ 1 / 10 / 2 ^ 10 ∧ curve.Rises target t ∧
      (curve.xSlope ((curve.interval target).guess target) ≠ 0 → curve.Crosses target t)

/-- The samples of the interval of a target are the first coordinates at its ends. -/
theorem samples_eq (curve : Bezier ℝ) (above : 0 < target) (below : target < 1) :
    (curve.interval target).low = curve.x (curve.ends target).1 ∧
      (curve.interval target).high = curve.x (curve.ends target).2 := by
  obtain ⟨index, few, place, lower, upper, _⟩ := curve.exists_interval above below
  rw [table_getElem? curve (by omega), Option.some.injEq] at lower upper
  have behind : ((index + 1 : ℕ) : ℝ) * step = index * step + step := by
    push_cast
    ring
  rw [ends, place, ← lower, ← upper, behind]
  exact ⟨rfl, rfl⟩

/-- The interval of a target brackets it. -/
theorem brackets_ends (curve : Bezier ℝ) (above : 0 < target) (below : target < 1) :
    curve.Brackets target (curve.ends target) := by
  obtain ⟨index, few, place, lower, upper, before, exceeded⟩ := curve.exists_interval above below
  obtain ⟨low, high⟩ := curve.samples_eq above below
  rw [Brackets, ← low, ← high]
  refine ⟨before _ (List.mem_of_getElem? (i := index) ?_), exceeded⟩
  rw [List.getElem?_take_of_lt (Nat.lt_succ_self index), lower]

/-- A curve that is flat at the first guess, but not level, is bisected. -/
theorem parameter_of_flat
    (gentle : curve.xSlope ((curve.interval target).guess target) < 1 / 1000)
    (sloped : curve.xSlope ((curve.interval target).guess target) ≠ 0) :
    curve.parameter target = curve.bisectInterval target := by
  have least : (0.001 : ℝ) = 1 / 1000 := by norm_num
  rw [parameter, least, if_neg gentle.not_ge, if_neg (by simpa using sloped)]

/-- Whatever the control points are, the parameter of a first coordinate between zero and one is
sought between two samples that bracket it. Halving keeps it bracketed, and ends close to it or near
to where it is crossed. -/
theorem bisection_keepsBracket (curve : Bezier ℝ) (above : 0 < target) (below : target < 1) :
    curve.KeepsBracket target := by
  obtain ⟨index, few, place, lower, upper, before, exceeded⟩ := curve.exists_interval above below
  have brackets := curve.brackets_ends above below
  have width : (curve.ends target).2 - (curve.ends target).1 = 1 / 10 := by
    rw [ends, add_sub_cancel_left, step]
  have ordered : (curve.ends target).1 ≤ (curve.ends target).2 := by linarith
  obtain ⟨count, small, result, far, stops⟩ :=
    curve.exists_bisect target 9 (curve.ends target) (curve.interval target).start
  have result : curve.bisectInterval target =
    middle (curve.halved target (curve.ends target) count) := result
  refine
    { stops := ⟨index, few, place, lower, upper, before⟩
      samples := curve.samples_eq above below
      brackets := brackets.halved
      halves := ⟨count, by omega, result, far⟩
      flat := parameter_of_flat
      inside := ?_
      near := ?_ }
  · obtain ⟨left, between, right⟩ := curve.halved_mem target ordered count
    rw [result]
    exact Icc_subset_Icc left right (middle_mem between)
  · rw [result]
    refine or_iff_not_imp_left.mpr fun last => ?_
    obtain rfl := stops.resolve_left last
    obtain ⟨t, inside, near, rises, crosses⟩ := brackets.exists_near ordered fun earlier early =>
      early.eq_or_lt.elim (fun same => same ▸ last) (far earlier)
    rw [width] at near
    refine ⟨t, inside, near, rises, fun sloped => ?_⟩
    rcases crosses with crosses | rfl
    · exact crosses
    · have level := (curve.samples_eq above below).1.trans rises.1
      rw [guess_eq_start level] at sloped
      exact crosses_of_xSlope_ne_zero rises.1 sloped

/-- A curve that is level in the middle. -/
noncomputable def levelling : Bezier ℝ := ⟨1, 0, 0, 1⟩

/-- Shortly before its middle it is so flat that the parameter is bisected. -/
theorem bisection_keepsBracket_levelling :
    (0 : ℝ) < 2499 / 5000 ∧ (2499 / 5000 : ℝ) < 1 ∧ levelling.KeepsBracket (2499 / 5000) ∧
      (levelling.interval (2499 / 5000)).start = 4 / 10 ∧
      levelling.parameter (2499 / 5000) = levelling.bisectInterval (2499 / 5000) := by
  have kept : levelling.KeepsBracket (2499 / 5000) :=
    bisection_keepsBracket levelling (by norm_num) (by norm_num)
  have interval : levelling.interval (2499 / 5000) = ⟨4 / 10, 62 / 125, 1 / 2⟩ := by
    simp only [Bezier.interval, locate, samples, sampleNumbers, List.map, x, coordinate, levelling,
      step]
    norm_num
  have rate : levelling.xSlope ((levelling.interval (2499 / 5000)).guess (2499 / 5000)) =
      3 / 10000 := by
    rw [interval]
    norm_num [Interval.guess, xSlope, slope, levelling, step]
  refine ⟨by norm_num, by norm_num, kept, by rw [interval], kept.flat ?_ ?_⟩ <;> rw [rate] <;>
    norm_num

end Storyboard.Bezier
