import Storyboard.Proofs.Effect.Phases
import Storyboard.Proofs.Number.Numerals
/-!
# Sliding and pushing

What slides or is pushed is moved by an offset, the part of its way that is left. The sign of a side
is put in front of the text of the offset, which has a minus of its own below zero: an offset below
zero of the left or the upper side is written with two (`overshoot_misspelled`).

Main statement: the transform is one number that denotes the offset, or its opposite for the left
and the upper side, exactly if the offset is finite and not below zero on these sides
(`Effect.style_moves`).
-/
namespace Storyboard

open Binary64

/-! ## Signs in front of numbers -/

/-- Whether what comes from a side lies before its place, so that it is moved by a number below
zero. -/
def Side.isReversed : Side → Bool
  | .left | .up => true
  | .right | .down => false

/-- Whether a text is one number that is rounded to a double, or to its opposite if reversed. -/
def Spells (text : List Char) (reversed : Bool) (x : Float) : Prop :=
  ∃ n : Numeral, n.text = text ∧
    IsRoundingOf x ((if reversed = true then -n.value else n.value) * whole)

variable {x y : Float} {reversed : Bool} {text : List Char}

/-- What a text spells depends on the units of the double alone. -/
theorem Spells.congr (spells : Spells text reversed x) (number : y.isNaN = false)
    (same : units y = units x) : Spells text reversed y := by
  obtain ⟨n, isText, rounding⟩ := spells
  refine ⟨n, isText, number, ?_, ?_, ?_⟩ <;> rw [same]
  · exact rounding.nonneg
  · exact rounding.nonpos
  · exact rounding.size

/-- Behind at most one minus a number begins with a digit. -/
theorem Spells.exists_digit (spells : Spells text reversed x) : ∃ c rest, c.isDigit = true ∧
    (text = c :: rest ∨ text = '-' :: c :: rest) := by
  obtain ⟨n, rfl, _⟩ := spells
  obtain ⟨c, rest, digit, same⟩ := n.exists_digit
  refine ⟨c, rest, digit, ?_⟩
  rw [Numeral.text, same]
  cases n.negative
  · exact .inl rfl
  · exact .inr rfl

/-- Digits of its size spell a finite double, behind a minus if that gives it its sign. -/
theorem spells_signed {n : Numeral} (negative : Bool) (finite : x.isFinite = true)
    (rounds : RoundsTo (n.size * whole) (units x).natAbs)
    (sign : if negative = reversed then 0 ≤ units x else units x ≤ 0) :
    Spells ((if negative = true then ['-'] else []) ++ n.body) reversed x := by
  have inside := units_lt_limit finite
  have nonneg : 0 ≤ n.size * whole := mul_nonneg n.size_nonneg (Nat.cast_nonneg _)
  refine ⟨n.signed negative, rfl, isRoundingOf_of_size (isNaN_of_isFinite finite) nonneg rounds
    (by omega) ?_⟩
  have plain : (n.signed false).value = n.size := rfl
  have minus : (n.signed true).value = -n.size := rfl
  cases negative <;> cases reversed
  · exact .inl ⟨congrArg (· * (whole : ℚ)) plain, sign⟩
  · refine .inr ⟨?_, sign⟩
    rw [plain, if_pos rfl, neg_mul]
  · refine .inr ⟨?_, sign⟩
    rw [minus, if_neg Bool.false_ne_true, neg_mul]
  · refine .inl ⟨?_, sign⟩
    rw [minus, if_pos rfl, neg_neg]

/-! ## Extents -/

namespace Extent

/-- The text of an extent that is finite is one number behind its sign. -/
theorem exists_numeral {extent : Extent} (size : extent.toFloat = .ok x)
    (finite : x.isFinite = true) : ∃ (pixels : String) (n : Numeral),
      extent.cssText = .ok pixels ∧
      pixels.toList = (if units x < 0 then ['-'] else []) ++ n.body ∧
      RoundsTo (n.size * whole) (units x).natAbs ∧ (extent.isZero = true ↔ units x = 0) := by
  rw [cssText, size]
  cases extent with
  | length length =>
    cases size
    obtain ⟨n, text, rounds⟩ := Number.exists_numeral_cssText finite
    refine ⟨_, n, rfl, text, rounds, ?_⟩
    rw [isZero, beq_iff_units (isNaN_of_isFinite finite) isNaN_zero, units_zero]
  | pixels count =>
    have same : x = Number.ofInt count := by
      rw [toFloat, Number.unlessOverflow] at size
      split at size
      · cases size
      · exact (Except.ok.inj size).symm
    subst same
    have rounding := isRoundingOf_ofInt count
    have some_units := whole_pos
    have far : count ≠ 0 → whole ≤ (units (Number.ofInt count)).natAbs :=
      whole_le_natAbs_units_ofInt
    have inside := units_lt_limit finite
    have nonneg : 0 ≤ count → 0 ≤ units (Number.ofInt count) := fun above =>
      rounding.nonneg (mul_nonneg (by exact_mod_cast above) (Nat.cast_nonneg _))
    have nonpos : count ≤ 0 → units (Number.ofInt count) ≤ 0 := fun below =>
      rounding.nonpos (mul_nonpos_of_nonpos_of_nonneg (by exact_mod_cast below)
        (Nat.cast_nonneg _))
    have sign : units (Number.ofInt count) < 0 ↔ count < 0 := by omega
    obtain ⟨k, rounds, distance⟩ := rounding.size
    obtain ⟨n, body, value⟩ := Number.exists_numeral_toDigits count.natAbs
    refine ⟨_, n, rfl, ?_, ?_, ?_⟩
    · rw [Number.toList_intText, body, if_congr sign rfl rfl]
    · rw [abs_mul, Nat.abs_cast, ← Int.cast_abs, Int.abs_eq_natAbs, Int.cast_natCast,
        ← value] at rounds
      rwa [show (units (Number.ofInt count)).natAbs = k by omega]
    · rw [isZero, beq_iff_eq]
      omega

end Extent

/-! ## Transforms -/

/-- The transform that moves something by a number of pixels along the direction of a side. -/
def Side.translation : Side → String → String
  | .left, pixels | .right, pixels => "translateX(" ++ pixels ++ "px)"
  | .up, pixels | .down, pixels => "translateY(" ++ pixels ++ "px)"

namespace Effect

variable {side : Side} {extent : Extent}

/-- The sign of a side stands in front of the text of an extent that is not nothing. -/
theorem translate_eq {pixels : String} (known : extent.cssText = .ok pixels) :
    translate side extent = .ok (side.translation
      ((if (side.isReversed && !extent.isZero) = true then "-" else "") ++ pixels)) := by
  rw [translate, known]
  refine congrArg Except.ok (String.toList_inj.mp ?_)
  cases side <;> cases extent.isZero <;>
    simp [Side.translation, Side.isReversed, Side.isHorizontal]

/-- A finite extent is spelled as one number unless it is below zero and its sign is turned. -/
theorem exists_translate (size : extent.toFloat = .ok x) (finite : x.isFinite = true) :
    ∃ text : String, translate side extent = .ok (side.translation text) ∧
      (Spells text.toList side.isReversed x ↔ ¬ (side.isReversed = true ∧ units x < 0)) := by
  obtain ⟨pixels, n, known, body, rounds, zero⟩ := Extent.exists_numeral size finite
  refine ⟨_, translate_eq known, ?_⟩
  rw [String.toList_append, body]
  cases side.isReversed with
  | false =>
    refine iff_of_true ?_ (by simp)
    by_cases below : units x < 0
    · rw [if_pos below]
      exact spells_signed true finite rounds below.le
    · rw [if_neg below]
      exact spells_signed false finite rounds (Int.not_lt.mp below)
  | true =>
    by_cases below : units x < 0
    · refine iff_of_false (fun spells => ?_) (by simp [below])
      have some_units : extent.isZero = false := by
        rw [Bool.eq_false_iff, ne_eq, zero]
        omega
      rw [some_units, if_pos below] at spells
      obtain ⟨c, rest, digit, same | same⟩ := spells.exists_digit
      · cases same
        cases digit
      · cases same
        cases digit
    · refine iff_of_true ?_ (by simp [below])
      rw [if_neg below]
      cases some_units : extent.isZero with
      | true => exact spells_signed false finite rounds (zero.mp some_units).le
      | false => exact spells_signed true finite rounds (Int.not_lt.mp below)

/-- What is not finite is not zero. -/
theorem ne_zero_of_not_finite (infinite : x.isFinite = false) : (x == 0.0) = false := by
  cases number : x.isNaN with
  | true =>
    change (x.toModel.unpack.compare (0.0 : Float).toModel.unpack == some .eq) = false
    change x.toModel.unpack.isNaN = true at number
    cases same : x.toModel.unpack with
    | notANumber => rfl
    | infinity _ | zero _ | finite _ _ _ _ =>
      rw [same] at number
      cases number
  | false =>
    have room := limit_pos
    have top_or_bottom := units_of_infinite number infinite
    rw [Bool.eq_false_iff, ne_eq, beq_iff_units number isNaN_zero, units_zero]
    omega

/-- The text of what is not finite has no digits. -/
theorem cssText_of_not_finite (infinite : x.isFinite = false) :
    Number.cssText x = "nan" ∨ Number.cssText x = "inf" ∨ Number.cssText x = "-inf" := by
  rw [Number.cssText, ne_zero_of_not_finite infinite, if_neg Bool.false_ne_true, Number.text,
    Layout.render]
  rcases classes x with ⟨_, read⟩ | ⟨_, negative, read⟩ | ⟨finite, _⟩
  · rw [read]
    exact .inl rfl
  · rw [read]
    cases negative
    · exact .inr (.inl rfl)
    · exact .inr (.inr rfl)
  · rw [infinite] at finite
    cases finite

/-- What is not finite is not spelled as a number. -/
theorem exists_translate_of_not_finite (infinite : x.isFinite = false) :
    ∃ text : String, translate side (.length x) = .ok (side.translation text) ∧
      ¬ Spells text.toList side.isReversed x := by
  have some_units : (Extent.length x).isZero = false := ne_zero_of_not_finite infinite
  have known : (Extent.length x).cssText = .ok (Number.cssText x) := rfl
  refine ⟨_, translate_eq known, fun spells => ?_⟩
  rw [String.toList_append, some_units] at spells
  obtain ⟨c, rest, digit, same⟩ := spells.exists_digit
  generalize side.isReversed = turned at same
  rcases cssText_of_not_finite infinite with text | text | text <;> rw [text] at same <;>
    cases turned <;> rcases same with same | same <;> cases same <;> cases digit

/-! ## Offsets -/

variable {length p frame : Float}

/-- Nothing of the way leaves all of the length. -/
theorem units_mul_rest (finite : length.isFinite = true) (finiteProgress : p.isFinite = true)
    (none : units p = 0) : (length * (1.0 - p)).isFinite = true ∧
      units (length * (1.0 - p)) = units length := by
  have room := mul_whole_lt_limit (n := 1) (by decide)
  have some_units := whole_pos
  obtain ⟨number, rest⟩ := units_sub isFinite_one finiteProgress
  rw [units_one, none, Int.sub_zero, nearestInt_natCast] at rest
  have stays : nearest whole = whole := by
    have same := nearest_whole (n := 1) (by decide)
    rwa [Nat.one_mul] at same
  rw [stays] at rest
  have left : units (1.0 - p) = whole := by omega
  have rounding := isRoundingOf_mul finite (isFinite_of_units number (by omega))
  have parts : (whole : ℚ) ≠ 0 := by exact_mod_cast some_units.ne'
  rw [left, Int.cast_natCast, mul_div_cancel_right₀ _ parts] at rounding
  have same := rounding.unique (isRoundingOf_units finite)
  have inside := units_lt_limit finite
  exact ⟨isFinite_of_units rounding.number (by omega), same⟩

/-- All of the way leaves nothing of the length. -/
theorem units_mul_none (finite : length.isFinite = true) :
    (length * (1.0 - 1.0)).isFinite = true ∧ units (length * (1.0 - 1.0)) = 0 := by
  have none : ((1.0 : Float) - 1.0).isFinite = true ∧ units (1.0 - 1.0) = 0 := by decide
  have rounding := isRoundingOf_mul finite none.1
  rw [none.2, Int.cast_zero, mul_zero, zero_div] at rounding
  have above := rounding.nonneg le_rfl
  have below := rounding.nonpos le_rfl
  have room := limit_pos
  exact ⟨isFinite_of_units rounding.number (by omega), by omega⟩

/-- Whether progress of an effect is a double: the very start counts as zero. -/
def Amounts : Progress → Float → Prop
  | .start, p => p.isFinite = true ∧ units p = 0
  | .fraction x, p => x = p

/-- What is left of an extent is what something is moved by. -/
theorem moved_of_left {progress : Progress} {offset : Extent} {transform : String}
    (left : extent.left progress = .ok offset) (shown : translate side offset = .ok transform) :
    moved side extent progress = .ok { transform := some transform } := by
  rw [moved, left]
  change (translate side offset >>= _) = _
  rw [shown]
  rfl

/-- What is still away from its place is moved by its offset, spelled as one number unless that is
not finite or below zero with its sign turned. -/
theorem exists_moved (side : Side) {progress : Progress} (size : extent.toFloat = .ok length)
    (finite : length.isFinite = true) (amounts : Amounts progress p) :
    ∃ text : String, moved side extent progress =
        .ok { transform := some (side.translation text) } ∧
      (Spells text.toList side.isReversed (length * (1.0 - p)) ↔
        (length * (1.0 - p)).isFinite = true ∧
          ¬ (side.isReversed = true ∧ units (length * (1.0 - p)) < 0)) := by
  cases progress with
  | start =>
    obtain ⟨finiteRest, same⟩ := units_mul_rest finite amounts.1 amounts.2
    have number := isNaN_of_isFinite finiteRest
    obtain ⟨text, shown, spells⟩ := exists_translate size finite
    refine ⟨text, moved_of_left rfl shown, ?_⟩
    rw [same, ← spells, eq_true finiteRest, true_and]
    exact ⟨fun spelled => spelled.congr (isNaN_of_isFinite finite) same.symm,
      fun spelled => spelled.congr number same⟩
  | fraction x =>
    cases amounts
    have left : extent.left (.fraction p) = .ok (.length (length * (1.0 - p))) := by
      rw [Extent.left, size]
      rfl
    cases finiteness : (length * (1.0 - p)).isFinite with
    | true =>
      obtain ⟨text, shown, spells⟩ := exists_translate
        (show (Extent.length (length * (1.0 - p))).toFloat = .ok _ from rfl) finiteness
      exact ⟨text, moved_of_left left shown, spells.trans (iff_and_self.mpr fun _ => rfl)⟩
    | false =>
      obtain ⟨text, shown, spells⟩ := exists_translate_of_not_finite finiteness
      exact ⟨text, moved_of_left left shown,
        iff_of_false spells fun both => Bool.false_ne_true both.1⟩

/-! ## Moving effects -/

variable {effect : Effect} {viewport : Viewport} {easing : Easing}

/-- Whether an effect moves something from a side over a length: a slide over its distance, and a
push over the extent of the viewport along its side. -/
def Moves (effect : Effect) (viewport : Viewport) (side : Side) (length : Float) : Prop :=
  effect.kind = .slide side length ∨
    (effect.kind = .push side ∧ (viewport.along side).toFloat = .ok length)

/-- Whether an easing gives finite progress while an effect runs. -/
def EasesFinitely (easing : Easing) : Prop :=
  ∀ t : Float, 0.0 ≤ t → t < 1.0 → ∃ p, easing.apply t = .ok p ∧ p.isFinite = true

/-- Whether a double is the eased progress of an effect at a frame: nothing before the delay, all
from the end on, and in between what the easing gives at the fraction of the time. -/
def IsEased (effect : Effect) (easing : Easing) (frame p : Float) : Prop :=
  (frame < effect.delay ∧ p = 0.0) ∨
    (effect.delay ≤ frame ∧ effect.duration ≤ frame - effect.delay ∧ p = 1.0) ∨
    (effect.delay ≤ frame ∧ frame - effect.delay < effect.duration ∧
      easing.apply ((frame - effect.delay) / effect.duration) = .ok p)

/-- The eased progress of an effect counts as what its easing gives. -/
theorem exists_ofTime {t : Float} (eased : easing.apply t = .ok p) (finite : p.isFinite = true) :
    ∃ progress, Progress.ofTime easing t = .ok progress ∧ Amounts progress p := by
  rw [Progress.ofTime]
  split
  · rename_i start
    refine ⟨.start, rfl, finite, ?_⟩
    cases easing with
    | linear | curve _ _ | function _ => cases start
    | bezier b =>
      rw [Easing.givesStart, Bool.and_eq_true, Bool.not_eq_true'] at start
      have none : b.ease t = 0 := by
        rw [Bezier.ease, start.1, if_neg Bool.false_ne_true]
        exact if_pos start.2
      rw [Easing.apply, none] at eased
      cases eased
      decide
  · rw [eased]
    exact ⟨.fraction p, rfl, rfl⟩

/-- What moves has the styles of moving in all of its phases. -/
theorem Moves.exists_extent (moves : Moves effect viewport side length) :
    ∃ extent, extent.toFloat = .ok length ∧
      effect.initialStyle viewport = moved side extent (.fraction 0.0) ∧
      effect.finalStyle viewport = moved side extent (.fraction 1.0) ∧
      ∀ passed, effect.runningStyle viewport passed = (do
        let easing ← effect.easingOf
        let time ← (Number.divide passed effect.duration).mapError .arithmetic
        let progress ← (Progress.ofTime easing time).mapError .arithmetic
        (moved side extent progress).mapError .arithmetic) := by
  rcases moves with slides | ⟨pushes, size⟩
  · refine ⟨.length length, rfl, ?_, ?_, fun passed => ?_⟩
    · rw [initialStyle, slides]
      rfl
    · rw [finalStyle, slides]
      rfl
    · rw [runningStyle, slides]
      rfl
  · refine ⟨viewport.along side, size, ?_, ?_, fun passed => ?_⟩
    · rw [initialStyle, pushes]
      rfl
    · rw [finalStyle, pushes]
      rfl
    · rw [runningStyle, pushes]
      rfl

/-- Before the delay all of the length is left, and from the end on nothing. -/
theorem IsEased.offset (eased : IsEased effect easing frame p) (finite : length.isFinite = true) :
    (frame < effect.delay → (length * (1.0 - p) == length) = true) ∧
      (effect.delay ≤ frame → effect.duration ≤ frame - effect.delay →
        (length * (1.0 - p) == 0.0) = true) := by
  rcases eased with ⟨waiting, rfl⟩ | ⟨later, ended, rfl⟩ | ⟨later, running, _⟩
  · obtain ⟨finiteOffset, same⟩ := units_mul_rest finite isFinite_zero units_zero
    refine ⟨fun _ => ?_, fun later => absurd later (not_le_of_lt waiting)⟩
    rwa [beq_iff_units (isNaN_of_isFinite finiteOffset) (isNaN_of_isFinite finite)]
  · obtain ⟨finiteOffset, same⟩ := units_mul_none finite
    refine ⟨fun waiting => absurd later (not_le_of_lt waiting), fun _ _ => ?_⟩
    rwa [beq_iff_units (isNaN_of_isFinite finiteOffset) isNaN_zero, units_zero]
  · exact ⟨fun waiting => absurd later (not_le_of_lt waiting),
      fun _ ended => absurd ended (not_le_of_lt running)⟩

/-- What moves is moved at its eased progress. -/
theorem exists_style (moves : Moves effect viewport side length)
    (finiteDelay : effect.delay.isFinite = true) (finiteDuration : effect.duration.isFinite = true)
    (finite : frame.isFinite = true) (chosen : effect.easingOf = .ok easing)
    (eases : EasesFinitely easing) : ∃ (p : Float) (extent : Extent) (progress : Progress),
      IsEased effect easing frame p ∧ extent.toFloat = .ok length ∧ Amounts progress p ∧
      effect.style viewport frame = (moved side extent progress).mapError .arithmetic := by
  obtain ⟨extent, size, before, behind, between⟩ := moves.exists_extent
  rcases style_cases viewport finite finiteDelay finiteDuration with
    ⟨waiting, shown⟩ | ⟨later, ended, shown⟩ | ⟨later, nonneg, running, shown⟩
  · exact ⟨0.0, extent, .fraction 0.0, .inl ⟨waiting, rfl⟩, size, rfl, before ▸ shown⟩
  · exact ⟨1.0, extent, .fraction 1.0, .inr (.inl ⟨later, ended, rfl⟩), size, rfl, behind ▸ shown⟩
  · obtain ⟨_, above, less⟩ := div_lt_one finiteDuration nonneg running
    obtain ⟨p, eased, finiteProgress⟩ := eases _ above less
    obtain ⟨progress, known, amounts⟩ := exists_ofTime eased finiteProgress
    refine ⟨p, extent, progress, .inr (.inr ⟨later, running, eased⟩), size, amounts, ?_⟩
    rw [shown, between, chosen, divide_of_lt nonneg running]
    change ((Progress.ofTime easing _).mapError _ >>= _) = _
    rw [known]
    rfl

/-- At every finite frame, what slides or is pushed is moved by one text of pixels. With the eased
progress `p` the offset is what is left of the length, `length * (1.0 - p)`: all of it before the
delay, and nothing from the end on. The text is one number that denotes the offset, or its opposite
if it comes from the left or goes up, exactly if the offset is finite and not below zero where its
sign is turned. -/
theorem style_moves (moves : Moves effect viewport side length) (finite : length.isFinite = true)
    (finiteDelay : effect.delay.isFinite = true) (finiteDuration : effect.duration.isFinite = true)
    (finiteFrame : frame.isFinite = true) (chosen : effect.easingOf = .ok easing)
    (eases : EasesFinitely easing) :
    ∃ (p : Float) (text : String), IsEased effect easing frame p ∧
      effect.style viewport frame = .ok { transform := some (side.translation text) } ∧
      (Spells text.toList side.isReversed (length * (1.0 - p)) ↔
        (length * (1.0 - p)).isFinite = true ∧
          ¬ (side.isReversed = true ∧ length * (1.0 - p) < 0.0)) ∧
      (frame < effect.delay → (length * (1.0 - p) == length) = true) ∧
      (effect.delay ≤ frame → effect.duration ≤ frame - effect.delay →
        (length * (1.0 - p) == 0.0) = true) := by
  obtain ⟨p, extent, progress, eased, size, amounts, shown⟩ :=
    exists_style moves finiteDelay finiteDuration finiteFrame chosen eases
  obtain ⟨text, is, spells⟩ := exists_moved side size finite amounts
  refine ⟨p, text, eased, ?_, spells.trans (and_congr_right fun finiteOffset => ?_),
    eased.offset finite⟩
  · rw [shown, is]
    rfl
  · rw [lt_iff_units (isNaN_of_isFinite finiteOffset) isNaN_zero, units_zero]

/-- A slide from the left that is on its way by a quarter as soon as it runs. -/
def quarterSlide : Effect :=
  { duration := 10.0, delay := 2.0, easing := some (.custom (.function fun _ => .ok 0.25)),
    kind := .slide .left 40.0 }

/-- Half way through its time it is moved by the opposite of what is left. -/
theorem quarterSlide_moves : ∃ text : String,
    quarterSlide.style {} 7.0 = .ok { transform := some (Side.left.translation text) } ∧
      Spells text.toList true (40.0 * (1.0 - 0.25)) := by
  obtain ⟨p, text, eased, shown, spells, _⟩ := style_moves
    (show Moves quarterSlide {} .left 40.0 from .inl rfl) (by decide) (by decide)
    (by decide) (show (7.0 : Float).isFinite = true by decide) rfl
    fun _ _ _ => ⟨0.25, rfl, by decide⟩
  have quarter : p = 0.25 := by
    rcases eased with ⟨waiting, _⟩ | ⟨_, ended, _⟩ | ⟨_, _, same⟩
    · exact absurd waiting (by decide)
    · exact absurd ended (by decide)
    · exact (Except.ok.inj same).symm
  subst quarter
  exact ⟨text, shown, spells.mpr ⟨by decide, fun both => absurd both.2 (by decide)⟩⟩

/-- A slide from the left whose easing overshoots. -/
def overshoot : Effect :=
  { duration := 10.0, easing := some (.custom (.function fun _ => .ok 1.5)),
    kind := .slide .left 40.0 }

/-- Beyond its place what comes from the left is moved by a text with two minuses, which is no
number. -/
theorem overshoot_misspelled : Moves overshoot {} .left 40.0 ∧
    EasesFinitely (.function fun _ => .ok 1.5) ∧
    ((overshoot.style {} 5.0).toOption.bind Style.transform) =
      some (Side.left.translation "--20") ∧
    ∀ x, ¬ Spells "--20".toList true x := by
  refine ⟨.inl rfl, fun _ _ _ => ⟨1.5, rfl, by decide⟩, by decide, ?_⟩
  intro x spells
  obtain ⟨c, rest, digit, same⟩ := spells.exists_digit
  rcases same with same | same <;> cases same <;> cases digit

end Effect

end Storyboard
