import Storyboard.Proofs.Number.Bounds
import Storyboard.Proofs.Outcome
import Storyboard.Proofs.Stagger.Ranks
/-!
# Phases and progress of staggered items

The phase of an item compares the frame with its end, and its progress compares what has passed
with its length. Taken exactly both are one comparison, but the end and what has passed are rounded,
and near the end of an item one comparison may hold without the other (`latecomer_disagrees`).

Main statements: each item is listed with the progress that it has by itself, between zero and one,
and zero while it waits; from its end on, taken exactly, it is complete with a progress of one; and
it is complete exactly if its progress is one as long as rounding treats both comparisons alike, and
only so long (`states_agree`). Among whole numbers it does (`roundsAlike_ofNat`).
-/
namespace Storyboard.Stagger

open Binary64

/-! ## Delays -/

section Delays

variable {s : Stagger} {rank start : Float}

/-- Of a list that is no longer than a group all places have doubles if the size has one. -/
theorem isFinite_of_mem_placesIn {order : List Nat}
    (finite : (Number.ofNat s.count).isFinite = true) (length : order.length = s.count)
    (member : rank ∈ s.placesIn order) : rank.isFinite = true := by
  obtain ⟨i, -, rfl⟩ := List.mem_map.mp member
  exact isFinite_ofNat_mono (length ▸ List.idxOf_le_length) finite

/-- The middle of a group with an item is not above its size. -/
theorem liesUpTo_center (finite : (Number.ofNat s.count).isFinite = true) (filled : 0 < s.count) :
    LiesUpTo (Number.ofNat s.count) s.center := by
  have last : (s.count : Int) - 1 = (s.count - 1 : Nat) := by omega
  rw [center, last]
  change LiesUpTo _ (Number.ofNat (s.count - 1) / 2.0)
  exact (liesUpTo_ofNat (Nat.sub_le _ _)).half finite

/-- The row and the column of an item together are not above its index. -/
theorem rowOf_add_columnOf_le (s : Stagger) (i : Nat) : s.rowOf i + s.columnOf i ≤ i := by
  unfold rowOf columnOf
  rcases Nat.eq_zero_or_pos s.gridColumns with narrow | wide
  · rw [narrow, Nat.div_zero, Nat.mod_zero, Nat.zero_add]
  · calc i / s.gridColumns + i % s.gridColumns
        ≤ s.gridColumns * (i / s.gridColumns) + i % s.gridColumns :=
          Nat.add_le_add_right (Nat.le_mul_of_pos_left _ wide) _
      _ = i := Nat.div_add_mod i s.gridColumns

/-- The ranks of a group are finite if its size has a double. -/
theorem isFinite_of_mem_ranks (finite : (Number.ofNat s.count).isFinite = true)
    (member : rank ∈ s.ranks) : rank.isFinite = true := by
  have natural : ∀ {n : Nat}, n ≤ s.count → (Number.ofNat n).isFinite = true := fun le =>
    isFinite_ofNat_mono le finite
  have middle : ∀ i < s.count, LiesUpTo (Number.ofNat s.count) s.center := fun i inside =>
    liesUpTo_center finite (Nat.zero_lt_of_lt inside)
  have away : ∀ i < s.count, LiesUpTo (Number.ofNat s.count) (s.fromMiddle i) := fun i inside =>
    (liesUpTo_ofNat inside.le).magnitude_sub finite (middle i inside)
  have each : ∀ {value : Nat → Float}, (∀ i < s.count, (value i).isFinite = true) →
      rank ∈ (List.range s.count).map value → rank.isFinite = true := by
    intro value all member
    obtain ⟨i, inside, rfl⟩ := List.mem_map.mp member
    exact all i (List.mem_range.mp inside)
  have cell := s.rowOf_add_columnOf_le
  rw [ranks] at member
  cases pattern : s.pattern with
  | linear =>
    rw [pattern] at member
    exact each (fun i inside => natural inside.le) member
  | reverse =>
    rw [pattern] at member
    exact each (fun i _ => natural (by omega)) member
  | fromCenter =>
    rw [pattern] at member
    exact each (fun i inside => (away i inside).isFinite finite) member
  | fromEdges =>
    rw [pattern] at member
    exact each (fun i inside => (middle i inside).isFinite_sub finite (away i inside)) member
  | random =>
    rw [pattern] at member
    have length := (shuffle_perm s.count (s.seed.getD Defaults.staggerSeed)).length_eq
    exact isFinite_of_mem_placesIn finite (length.trans List.length_range) member
  | row =>
    rw [pattern] at member
    exact each (fun i _ => natural (by have := cell i; omega)) member
  | column =>
    rw [pattern] at member
    exact each (fun i _ => natural (by have := cell i; omega)) member
  | diagonal =>
    rw [pattern] at member
    exact each (fun i _ => natural (by have := cell i; omega)) member
  | spiral =>
    rw [pattern] at member
    have length := s.ringItems_perm.length_eq
    exact isFinite_of_mem_placesIn finite (length.trans List.length_range) member

/-- A group whose size has a double, and is a signed word if it is to be shuffled, can be laid
out. -/
theorem isTooLarge_eq_false (finite : (Number.ofNat s.count).isFinite = true)
    (addressable : s.pattern = .random → Number.fitsSignedWord s.count = true) :
    s.isTooLarge = false := by
  have natural : ∀ {n : Nat}, n ≤ s.count → (Number.ofNat n).isInf = false := fun le =>
    isInf_of_isFinite (isFinite_ofNat_mono le finite)
  have parts : ∀ n, s.count / n ≤ s.count := Nat.div_le_self s.count
  unfold isTooLarge
  dsimp only
  rw [natural le_rfl, Bool.and_false, Bool.false_or]
  cases pattern : s.pattern with
  | linear | reverse => rfl
  | random => exact congrArg not (addressable pattern)
  | fromCenter | fromEdges | row | column | diagonal | spiral => exact natural (parts _)

/-- Where memory holds all items, only a size without a double keeps a group from being listed, or
one that is no signed word from being shuffled. -/
theorem sizeFault?_eq_none {capacity : Int} (held : s.count ≤ capacity)
    (finite : (Number.ofNat s.count).isFinite = true)
    (addressable : s.pattern = .random → Number.fitsSignedWord s.count = true) :
    s.sizeFault? capacity = none := by
  have ranked : s.ranks.all (·.isFinite) = true :=
    List.all_eq_true.mpr fun rank => isFinite_of_mem_ranks finite
  rw [sizeFault?, isTooLarge_eq_false finite addressable, if_neg Bool.false_ne_true,
    if_neg (not_lt.mpr held), if_pos ranked]

/-- The ranks of what can be listed are finite. -/
theorem isFinite_of_sizeFault? {capacity : Int} (listable : s.sizeFault? capacity = none)
    (member : rank ∈ s.ranks) : rank.isFinite = true := by
  unfold sizeFault? at listable
  split_ifs at listable with large exhausted ranked
  exact List.all_eq_true.mp ranked rank member

/-- A group has the unit that it is configured with. -/
theorem unit_of_configured {count : Int} {unit : Float} {name : String} {seed columns : Option Int}
    (done : configured count unit name seed columns = .ok s) : s.unit = unit := by
  unfold configured at done
  split at done
  · cases done
  · split at done
    · cases done
    · split at done
      · split at done
        · cases done
        · cases done
          rfl
      · cases done
        rfl

/-- A group that is made has its unit, and can be listed. -/
theorem unit_of_makeWithin {capacity count : Int} {unit : Float} {name : String}
    {seed columns : Option Int} (made : makeWithin capacity count unit name seed columns = .ok s) :
    s.unit = unit ∧ s.sizeFault? capacity = none := by
  obtain ⟨group, done, listed⟩ := bind_eq_ok made
  unfold ofSize at listed
  split at listed
  · rename_i listable
    cases listed
    exact ⟨unit_of_configured done, listable⟩
  · cases listed

/-- The delays of a group that is made are numbers. -/
theorem isNaN_of_mem_delays {capacity : Int} (listable : s.sizeFault? capacity = none)
    (finite : s.unit.isFinite = true) (member : start ∈ s.delays) : start.isNaN = false := by
  obtain ⟨rank, known, rfl⟩ := List.mem_map.mp member
  exact (isNear_mul (isFinite_of_sizeFault? listable known) finite).number

/-- Every item has a delay. -/
theorem length_delays (s : Stagger) : s.delays.length = s.count := by
  rw [delays, List.length_map, ranks]
  cases s.pattern <;> simp only [placesIn, List.length_map, List.length_range]

/-- The delay of an item of the group is the one listed. -/
theorem delay?_of_getElem? {i : Nat} (known : s.delays[i]? = some start) :
    s.delay? i = .ok start := by
  rw [delay?, if_neg (by omega), Int.toNat_natCast, known]

end Delays

/-! ## Progress -/

section Progress

variable {frame start duration passed progress : Float}

/-- What progress is after some frames of a length. -/
structure IsProgress (passed duration progress : Float) : Prop where
  /-- It is not below zero. -/
  nonneg : 0.0 ≤ progress
  /-- It is zero before the start. -/
  before : passed < 0.0 → progress = 0.0
  /-- It is one from the end on. -/
  ended : duration ≤ passed → progress = 1.0
  /-- It is less than one until the end. -/
  running : ¬ duration ≤ passed → progress < 1.0

namespace IsProgress

/-- Progress is at most one. -/
theorem le_one (is : IsProgress passed duration progress) : progress ≤ 1.0 := by
  by_cases ended : duration ≤ passed
  · rw [is.ended ended]
    decide
  · exact le_of_lt (is.running ended)

/-- Progress is one exactly from the end on. -/
theorem eq_one_iff (is : IsProgress passed duration progress) :
    progress = 1.0 ↔ duration ≤ passed := by
  refine ⟨fun one => ?_, is.ended⟩
  by_contra running
  have less := is.running running
  rw [one] at less
  exact absurd less (by decide)

end IsProgress

/-- The quotient of a part of a length is progress. -/
theorem isProgress_div (finite : duration.isFinite = true) (nonneg : 0.0 ≤ passed)
    (less : passed < duration) : IsProgress passed duration (passed / duration) := by
  obtain ⟨finitePassed, nonnegPart, lessPart⟩ := div_lt_one finite nonneg less
  have number := isNaN_of_isFinite finitePassed
  refine ⟨nonnegPart, fun before => ?_, fun ended => ?_, fun _ => lessPart⟩
  · exact absurd before (not_lt_of_le isNaN_zero number nonneg)
  · exact absurd less (not_lt_of_le (isNaN_of_isFinite finite) number ended)

/-- Whatever has passed, an item has progress. -/
theorem exists_progressFrom (number : (frame - start).isNaN = false)
    (finite : duration.isFinite = true) (nonneg : 0.0 ≤ duration) :
    ∃ progress, progressFrom frame start duration = .ok progress ∧
      IsProgress (frame - start) duration progress := by
  have numberOther := isNaN_of_isFinite finite
  unfold progressFrom
  generalize frame - start = passed at number
  by_cases before : passed < 0.0
  · refine ⟨0.0, if_pos before, by decide, fun _ => rfl, fun ended => ?_,
      fun _ => by decide⟩
    exact absurd before (not_lt_of_le isNaN_zero number
      (le_trans isNaN_zero numberOther number nonneg ended))
  · by_cases ended : duration ≤ passed
    · refine ⟨1.0, (if_neg before).trans (if_pos ended), by decide,
        fun waiting => absurd waiting before, fun _ => rfl, fun running => absurd ended running⟩
    · have less := lt_of_not_le number numberOther ended
      have above := le_of_not_lt isNaN_zero number before
      refine ⟨passed / duration, ?_, isProgress_div finite above less⟩
      rw [if_neg before, if_neg ended, divide_of_lt above less]

end Progress

/-! ## The end of an item -/

section Ends

variable {frame start duration : Float}

/-- Whether rounding treats both comparisons with the end of an item alike: while the item has not
ended, taken exactly, the end is not rounded to the frame unless what has passed is rounded to the
length, nor the other way round. -/
def RoundsAlike (frame start duration : Float) : Prop :=
  units frame < units start + units duration →
    (start + duration == frame) = (frame - start == duration)

instance decidableRoundsAlike : Decidable (RoundsAlike frame start duration) :=
  inferInstanceAs (Decidable (_ < _ → _ = _))

/-- The end of an item is a number. -/
theorem isNaN_end (number : start.isNaN = false) (finite : duration.isFinite = true) :
    (start + duration).isNaN = false := by
  cases finiteness : start.isFinite with
  | true => exact (units_add finiteness finite).1
  | false => exact (units_infinite_add number finiteness finite).1

/-- What has passed is a number. -/
theorem isNaN_passed (finiteFrame : frame.isFinite = true) (number : start.isNaN = false) :
    (frame - start).isNaN = false := by
  cases finiteness : start.isFinite with
  | true => exact (units_sub finiteFrame finiteness).1
  | false => exact (units_sub_infinite finiteFrame number finiteness).1

/-- Before the start of an item what has passed is below zero. -/
theorem passed_lt_zero (finiteFrame : frame.isFinite = true) (less : frame < start) :
    frame - start < 0.0 := by
  have number := (isNaN_of_le (le_of_lt less)).2
  have room := limit_pos
  rw [lt_iff_units (isNaN_of_isFinite finiteFrame) number] at less
  rw [lt_iff_units (isNaN_passed finiteFrame number) isNaN_zero, units_zero]
  cases finiteness : start.isFinite with
  | true =>
    have near : nearestInt (units frame - units start) ≤ nearestInt 0 := nearestInt_mono (by omega)
    have nonzero := nearestInt_eq_zero.not.mpr (show units frame - units start ≠ 0 by omega)
    rw [nearestInt_eq_zero.mpr rfl] at near
    rw [(units_sub finiteFrame finiteness).2]
    omega
  | false =>
    have inside := units_lt_limit finiteFrame
    have top_or_bottom := units_of_infinite number finiteness
    rw [(units_sub_infinite finiteFrame number finiteness).2]
    omega

/-- Before its start an item has not ended. -/
theorem not_end_le_of_lt (finite : duration.isFinite = true) (nonneg : 0.0 ≤ duration)
    (less : frame < start) : ¬ start + duration ≤ frame := by
  obtain ⟨numberFrame, number⟩ := isNaN_of_le (le_of_lt less)
  have numberEnd := isNaN_end number finite
  have later := le_add_right numberEnd nonneg
  rw [lt_iff_units numberFrame number] at less
  rw [le_iff_units number numberEnd] at later
  rw [le_iff_units numberEnd numberFrame]
  omega

/-- From its end on, taken exactly, an item has ended by its phase and by its progress. -/
theorem ended_of_units_le (finiteFrame : frame.isFinite = true) (number : start.isNaN = false)
    (finite : duration.isFinite = true) (nonneg : 0.0 ≤ duration)
    (ended : units start + units duration ≤ units frame) :
    start + duration ≤ frame ∧ duration ≤ frame - start := by
  have numberFrame := isNaN_of_isFinite finiteFrame
  have inside := units_lt_limit finiteFrame
  cases finiteness : start.isFinite with
  | true =>
    obtain ⟨numberEnd, sum⟩ := units_add finiteness finite
    have near := nearestInt_mono ended
    rw [nearestInt_units finiteFrame] at near
    refine ⟨?_, le_sub_of_units_le finite finiteFrame finiteness (by omega)⟩
    rw [le_iff_units numberEnd numberFrame, sum]
    omega
  | false =>
    have top_or_bottom := units_of_infinite number finiteness
    have above := (nonneg_iff.mp nonneg).2
    have below := units_lt_limit finite
    obtain ⟨numberEnd, sum⟩ := units_infinite_add number finiteness finite
    obtain ⟨numberPassed, difference⟩ := units_sub_infinite finiteFrame number finiteness
    rw [le_iff_units numberEnd numberFrame, sum,
      le_iff_units (isNaN_of_isFinite finite) numberPassed, difference]
    omega

/-- Before its end, taken exactly, an item has ended by its phase only if the end is rounded to the
frame. -/
theorem end_le_iff (finiteFrame : frame.isFinite = true) (finiteStart : start.isFinite = true)
    (finite : duration.isFinite = true) (early : units frame < units start + units duration) :
    start + duration ≤ frame ↔ (start + duration == frame) = true := by
  obtain ⟨number, sum⟩ := units_add finiteStart finite
  have numberFrame := isNaN_of_isFinite finiteFrame
  have inside := units_lt_limit finiteFrame
  have near := nearestInt_mono early.le
  rw [nearestInt_units finiteFrame] at near
  rw [le_iff_units number numberFrame, beq_iff_units number numberFrame, sum]
  omega

/-- Before its end, taken exactly, an item has ended by its progress only if what has passed is
rounded to the length. -/
theorem le_passed_iff (finiteFrame : frame.isFinite = true) (finiteStart : start.isFinite = true)
    (finite : duration.isFinite = true) (early : units frame < units start + units duration) :
    duration ≤ frame - start ↔ (frame - start == duration) = true := by
  obtain ⟨number, difference⟩ := units_sub finiteFrame finiteStart
  have numberOther := isNaN_of_isFinite finite
  have inside := units_lt_limit finite
  have near := nearestInt_mono (show units frame - units start ≤ units duration by omega)
  rw [nearestInt_units finite] at near
  rw [le_iff_units numberOther number, beq_iff_units number numberOther, difference]
  omega

/-- Both comparisons with an infinite end hold, or neither does. -/
theorem ended_iff_of_infinite (finiteFrame : frame.isFinite = true) (number : start.isNaN = false)
    (infinite : start.isFinite = false) (finite : duration.isFinite = true) :
    (start + duration ≤ frame ↔ duration ≤ frame - start) ∧ RoundsAlike frame start duration := by
  have numberFrame := isNaN_of_isFinite finiteFrame
  have numberOther := isNaN_of_isFinite finite
  have inside := units_lt_limit finiteFrame
  have below := units_lt_limit finite
  have top_or_bottom := units_of_infinite number infinite
  obtain ⟨numberEnd, sum⟩ := units_infinite_add number infinite finite
  obtain ⟨numberPassed, difference⟩ := units_sub_infinite finiteFrame number infinite
  rw [RoundsAlike, Bool.eq_iff_iff, beq_iff_units numberEnd numberFrame,
    beq_iff_units numberPassed numberOther, le_iff_units numberEnd numberFrame,
    le_iff_units numberOther numberPassed, sum, difference]
  omega

/-- Phase and progress have the same items ended exactly where rounding treats them alike. -/
theorem ended_iff (finiteFrame : frame.isFinite = true) (number : start.isNaN = false)
    (finite : duration.isFinite = true) (nonneg : 0.0 ≤ duration) :
    (start + duration ≤ frame ↔ duration ≤ frame - start) ↔ RoundsAlike frame start duration := by
  cases finiteness : start.isFinite with
  | true =>
    rcases Int.lt_or_le (units frame) (units start + units duration) with early | ended
    · rw [end_le_iff finiteFrame finiteness finite early,
        le_passed_iff finiteFrame finiteness finite early, ← Bool.eq_iff_iff]
      exact ⟨fun same _ => same, fun alike => alike early⟩
    · obtain ⟨phase, progress⟩ := ended_of_units_le finiteFrame number finite nonneg ended
      exact iff_of_true (iff_of_true phase progress) fun early => absurd early (by omega)
  | false =>
    obtain ⟨same, alike⟩ := ended_iff_of_infinite finiteFrame number finiteness finite
    exact iff_of_true same alike

/-- What is not rounded is rounded alike. -/
theorem roundsAlike_of_exact {frame start duration : Float} (finiteFrame : frame.isFinite = true)
    (finiteStart : start.isFinite = true) (finite : duration.isFinite = true)
    (sum : units (start + duration) = units start + units duration)
    (difference : units (frame - start) = units frame - units start) :
    RoundsAlike frame start duration := by
  intro early
  rw [Bool.eq_iff_iff,
    beq_iff_units (units_add finiteStart finite).1 (isNaN_of_isFinite finiteFrame),
    beq_iff_units (units_sub finiteFrame finiteStart).1 (isNaN_of_isFinite finite)]
  omega

/-- Among whole numbers of few bits rounding changes nothing. -/
theorem roundsAlike_ofNat {frame start duration : Nat} (fewFrames : frame < 2 ^ 53)
    (few : start + duration < 2 ^ 53) :
    RoundsAlike (Number.ofNat frame) (Number.ofNat start) (Number.ofNat duration) := by
  have total : ((start : Int) + duration).natAbs < 2 ^ 53 := by omega
  have passed : ((frame : Int) - start).natAbs < 2 ^ 53 := by omega
  obtain ⟨finiteFrame, sameFrame⟩ := units_ofNat_of_bits fewFrames
  obtain ⟨finiteStart, sameStart⟩ := units_ofNat_of_bits (n := start) (by omega)
  obtain ⟨finite, same⟩ := units_ofNat_of_bits (n := duration) (by omega)
  refine roundsAlike_of_exact finiteFrame finiteStart finite ?_ ?_
  · rw [(units_add finiteStart finite).2, sameStart, same, ← Int.add_mul, cut_whole total]
  · rw [(units_sub finiteFrame finiteStart).2, sameFrame, sameStart, ← Int.sub_mul,
      cut_whole passed]

end Ends

/-! ## Items -/

/-- What phase and progress of an item have to do with each other. -/
structure ItemState.Agrees (item : ItemState) (frame start duration : Float) : Prop where
  /-- Progress is not below zero. -/
  nonneg : 0.0 ≤ item.progress
  /-- Progress is not above one. -/
  le_one : item.progress ≤ 1.0
  /-- While an item waits there is none. -/
  waiting : item.phase = .waiting → item.progress = 0.0
  /-- From its end on, taken exactly, an item is complete with a progress of one. -/
  ended : units start + units duration ≤ units frame →
    item.phase = .complete ∧ item.progress = 1.0
  /-- An item is complete exactly if its progress is one, as long as rounding allows, and only so
  long. -/
  complete : (item.phase = .complete ↔ item.progress = 1.0) ↔ RoundsAlike frame start duration
  /-- Between start and end progress is less than one, as long as rounding allows. -/
  animating : RoundsAlike frame start duration → item.phase = .animating → item.progress < 1.0

section Items

variable {s : Stagger} {frame start duration progress : Float}

/-- An item is complete exactly if the frame has reached its end. -/
theorem phaseFrom_eq_complete_iff (frame start : Float) (finite : duration.isFinite = true)
    (nonneg : 0.0 ≤ duration) :
    phaseFrom frame start duration = .complete ↔ start + duration ≤ frame := by
  unfold phaseFrom
  split
  · rename_i less
    exact iff_of_false nofun (not_end_le_of_lt finite nonneg less)
  · split
    · rename_i ended
      exact iff_of_true rfl ended
    · rename_i running
      exact iff_of_false nofun running

/-- An item waits only before its start. -/
theorem lt_of_phaseFrom (waiting : phaseFrom frame start duration = .waiting) : frame < start := by
  by_contra started
  rw [phaseFrom, if_neg started] at waiting
  split at waiting <;> cases waiting

/-- The phase of an item agrees with what is progress for it. -/
theorem agrees_of_isProgress {index : Nat} (finiteFrame : frame.isFinite = true)
    (number : start.isNaN = false) (finite : duration.isFinite = true) (nonneg : 0.0 ≤ duration)
    (is : IsProgress (frame - start) duration progress) :
    ItemState.Agrees ⟨index, progress, phaseFrom frame start duration⟩ frame start duration := by
  have alike := ended_iff finiteFrame number finite nonneg
  have complete := phaseFrom_eq_complete_iff frame start finite nonneg
  refine ⟨is.nonneg, is.le_one, fun waiting => ?_, fun ended => ?_, ?_, fun rounds animating => ?_⟩
  · exact is.before (passed_lt_zero finiteFrame (lt_of_phaseFrom waiting))
  · obtain ⟨phase, passed⟩ := ended_of_units_le finiteFrame number finite nonneg ended
    exact ⟨complete.mpr phase, is.ended passed⟩
  · rw [complete, is.eq_one_iff]
    exact alike
  · refine is.running fun passed => ?_
    change phaseFrom frame start duration = .animating at animating
    rw [complete.mpr ((alike.mpr rounds).mpr passed)] at animating
    cases animating

/-- All items of a group that is made, in however much memory, are listed at a frame, each with the
progress that it has by itself, and its phase agrees with this progress. -/
theorem states_agree {capacity count : Int} {unit : Float} {name : String}
    {seed columns : Option Int} (made : makeWithin capacity count unit name seed columns = .ok s)
    (finiteUnit : unit.isFinite = true) (finiteFrame : frame.isFinite = true)
    (finite : duration.isFinite = true) (nonneg : 0.0 ≤ duration) :
    ∃ items, s.states frame duration = .ok items ∧ items.length = s.count ∧
      ∀ (i : Nat) (item : ItemState), items[i]? = some item →
        item.index = i ∧ s.progressAt i frame duration = .ok item.progress ∧
          ∃ start, s.delay? i = .ok start ∧ item.Agrees frame start duration := by
  obtain ⟨rfl, listable⟩ := unit_of_makeWithin made
  have progresses : ∀ start ∈ s.delays, start.isNaN = false ∧ ∃ progress,
      progressFrom frame start duration = .ok progress ∧
        IsProgress (frame - start) duration progress := by
    intro start member
    have number := isNaN_of_mem_delays listable finiteUnit member
    exact ⟨number, exists_progressFrom (isNaN_passed finiteFrame number) finite nonneg⟩
  -- No item fails, so there is a list of all of them.
  have each : ∀ delayed ∈ s.delays.zipIdx, ∃ item,
      ((progressFrom frame delayed.1 duration).map fun progress =>
        ItemState.mk delayed.2 progress (phaseFrom frame delayed.1 duration)) = .ok item := by
    intro delayed member
    obtain ⟨-, progress, same, -⟩ := progresses delayed.1 (List.fst_mem_of_mem_zipIdx member)
    exact ⟨_, congrArg (Except.map _) same⟩
  obtain ⟨items, done, length, known⟩ := exists_mapM each
  refine ⟨items, done, length.trans (List.length_zipIdx.trans s.length_delays), ?_⟩
  intro i item found
  obtain ⟨delayed, listed, result⟩ := known i item found
  obtain ⟨progress, same, rfl⟩ := map_eq_ok result
  rw [List.getElem?_zipIdx, Option.map_eq_some_iff] at listed
  obtain ⟨start, delay, rfl⟩ := listed
  obtain ⟨number, stated, own, is⟩ := progresses start (List.mem_of_getElem? delay)
  rw [own] at same
  cases same
  have stands := delay?_of_getElem? delay
  refine ⟨Nat.zero_add i, ?_, start, stands,
    agrees_of_isProgress finiteFrame number finite nonneg is⟩
  rw [progressAt, stands]
  exact congrArg (Except.mapError StaggerError.arithmetic) own

/-- Three items that start in steps of two fifths of a frame. -/
def latecomers : Stagger := ⟨3, 0.4, .linear, none, none⟩

/-- With lengths of two fifths of a frame the first two items are complete after one frame, the last
one is not, and progress agrees. -/
theorem latecomers_agree : ∃ items, latecomers.states 1.0 0.4 = .ok items ∧ items.length = 3 ∧
    ∀ (i : Nat) (item : ItemState), items[i]? = some item →
      (item.phase = .complete ↔ item.progress = 1.0) := by
  have made : makeWithin 3 3 0.4 "linear" none none = .ok latecomers := rfl
  have finiteFrame : (1.0 : Float).isFinite = true := by decide +kernel
  have finite : (0.4 : Float).isFinite = true := by decide +kernel
  obtain ⟨items, done, length, known⟩ :=
    states_agree made finite finiteFrame finite (by decide +kernel)
  refine ⟨items, done, length, fun i item found => ?_⟩
  obtain ⟨-, -, start, delay, agrees⟩ := known i item found
  have inside := (List.getElem?_eq_some_iff.mp found).1
  rw [length] at inside
  refine agrees.complete.mpr ?_
  match i, inside, delay with
  | 0, _, delay | 1, _, delay | 2, _, delay =>
    cases delay
    decide +kernel

/-- With lengths of one fifth of a frame the last item ends after more than one frame, but its end
is rounded to one: it is complete there with a progress of less than one. -/
theorem latecomer_disagrees : ∃ items item, make 3 0.4 "linear" none none = .ok latecomers ∧
    latecomers.states 1.0 0.2 = .ok items ∧ items[2]? = some item ∧
    item.phase = .complete ∧ item.progress < 1.0 :=
  ⟨_, _, rfl, rfl, rfl, by decide +kernel, by decide +kernel⟩

/-- An item may also have a progress of one while it is animating. -/
example : phaseFrom 1.8 (7.0 * 0.1) 1.1 = .animating ∧
    progressFrom 1.8 (7.0 * 0.1) 1.1 = .ok 1.0 :=
  ⟨by decide +kernel, rfl⟩

end Items

end Storyboard.Stagger
