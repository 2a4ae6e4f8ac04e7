import Storyboard.Proofs.Random.Shuffling
import Storyboard.Stagger
/-!
# Ranks of staggered items

Four of the patterns give each rank below the number of items to one item. In a line the ranks are
counted up or down. Shuffled items, and those of a grid taken around its rings, are listed in the
order in which they start, and the rank of an item is its place in that list (`placeOf`).

Main statement: the delays are the ranks times the unit, the list of shuffled items is the inverse
of the ranks, and around the rings items are ranked by their distance from the nearest edge, then by
row and column together, then by index (`Stagger.exists_ranks`).
-/
namespace Storyboard

/-! ## Places in a list -/

namespace Order

/-- What is calculated from numbers below a count, one after another. -/
theorem map_range {α : Type} (count : Nat) (value : Nat → α) :
    (List.range count).map value = List.ofFn fun i : Fin count => value i := by
  rw [List.ofFn_eq_map, ← List.map_coe_finRange_eq_range, List.map_map]
  rfl

/-- Of two numbers below a count the smaller one is counted first. -/
theorem pair_sublist_range {i j count : Nat} (less : i < j) (inside : j < count) :
    [i, j].Sublist (List.range count) := by
  refine List.sublist_of_subperm_of_sortedLE (List.subperm_of_subset ?_ ?_)
    (List.pairwise_pair.mpr less.le).sortedLE (List.sortedLT_range count).sortedLE
  · exact List.nodup_cons.mpr ⟨by simp [less.ne], List.nodup_singleton j⟩
  · intro k member
    rw [List.mem_range]
    rcases List.mem_pair.mp member with rfl | rfl <;> omega

section Places

variable {count : Nat} {order : List Nat} (all : order.Perm (List.range count))

include all in
/-- A list of all numbers below a count has no number twice. -/
theorem nodup_of_perm_range : order.Nodup := all.nodup_iff.mpr List.nodup_range

include all in
/-- A number below a count has a place in a list of all of them. -/
theorem idxOf_lt_count {i : Nat} (inside : i < count) : order.idxOf i < count := by
  have member : i ∈ order := all.mem_iff.mpr (List.mem_range.mpr inside)
  have place := List.idxOf_lt_length_of_mem member
  rwa [all.length_eq, List.length_range] at place

/-- The place of each number below a count in a list of all of them. -/
def placeOf : Equiv.Perm (Fin count) where
  toFun i := ⟨order.idxOf i.val, idxOf_lt_count all i.isLt⟩
  invFun j := ⟨order.get ⟨j.val, by rw [all.length_eq, List.length_range]; exact j.isLt⟩,
    List.mem_range.mp (all.mem_iff.mp (List.get_mem _ _))⟩
  left_inv i := Fin.ext (List.getElem_idxOf _)
  right_inv j := Fin.ext (nodup_of_perm_range all |>.idxOf_getElem _ _)

/-- A number stands at its place. -/
theorem getElem?_placeOf (i : Fin count) : order[(placeOf all i).val]? = some i.val :=
  List.getElem?_idxOf (all.mem_iff.mpr (List.mem_range.mpr i.isLt))

end Places

section Sorted

variable {α : Type} [DecidableEq α] {le : α → α → Bool} {items : List α} {a b : α}
  (trans : ∀ a b c, le a b → le b c → le a c) (total : ∀ a b, le a b || le b a)

/-- Of two elements of a list without repetition the one that comes first has the lower place. -/
theorem idxOf_lt_of_sublist {list : List α} (once : list.Nodup) (pair : [a, b].Sublist list) :
    list.idxOf a < list.idxOf b := by
  induction list with
  | nil => cases pair
  | cons first rest ih =>
    obtain ⟨absent, onceRest⟩ := List.nodup_cons.mp once
    cases pair with
    | cons _ later =>
      have apart : ∀ x ∈ [a, b], first ≠ x := fun x member same =>
        absent (same ▸ later.subset member)
      rw [List.idxOf_cons_ne _ (apart a (by simp)), List.idxOf_cons_ne _ (apart b (by simp))]
      exact Nat.succ_lt_succ (ih onceRest later)
    | cons_cons _ later =>
      have apart : a ≠ b := fun same => absent (same ▸ later.subset List.mem_cons_self)
      rw [List.idxOf_cons_self, List.idxOf_cons_ne _ apart]
      exact Nat.succ_pos _

include trans total in
/-- What does not come behind an element is sorted before it, and what compares equal if it stands
before it. -/
theorem idxOf_mergeSort_lt (once : items.Nodup) (member : a ∈ items) (memberOther : b ∈ items)
    (before : le b a = false ∨ (le a b = true ∧ [a, b].Sublist items)) :
    (items.mergeSort le).idxOf a < (items.mergeSort le).idxOf b := by
  have kept := List.mergeSort_perm items le
  rcases before with notBehind | ⟨level, pair⟩
  · have placeA := List.idxOf_lt_length_of_mem (kept.mem_iff.mpr member)
    have placeB := List.idxOf_lt_length_of_mem (kept.mem_iff.mpr memberOther)
    have sorted := List.pairwise_iff_getElem.mp (List.pairwise_mergeSort trans total items)
    by_contra notLess
    rcases Nat.eq_or_lt_of_le (Nat.le_of_not_lt notLess) with same | behind
    · -- An element comes no later than itself.
      have reflexive := total a a
      rw [Bool.or_self] at reflexive
      rw [(List.idxOf_inj (kept.mem_iff.mpr memberOther)).mp same, reflexive] at notBehind
      cases notBehind
    · have ordered := sorted _ _ placeB placeA behind
      rw [List.getElem_idxOf, List.getElem_idxOf, notBehind] at ordered
      cases ordered
  · exact idxOf_lt_of_sublist (kept.nodup_iff.mpr once)
      (List.pair_sublist_mergeSort trans total level pair)

end Sorted

end Order
/-! ## Around the rings -/

namespace Stagger

variable {s : Stagger} (wide : ∀ columns ∈ s.columns, 1 ≤ columns)

include wide in
/-- The grid has a column. -/
theorem gridColumns_pos : 0 < s.gridColumns := by
  rw [gridColumns]
  cases given : s.columns with
  | none => exact Nat.lt_of_lt_of_le Nat.zero_lt_one (Nat.le_max_left 1 _)
  | some columns => exact wide columns given

include wide in
/-- The cell of an item is one of the grid, also in a last row that is filled in part. -/
theorem cell_inside {i : Nat} (inside : i < s.count) :
    s.rowOf i < s.gridRows ∧ s.columnOf i < s.gridColumns := by
  have positive := gridColumns_pos wide
  refine ⟨?_, Nat.mod_lt _ positive⟩
  have rows : (s.count - 1 + s.gridColumns) / s.gridColumns = (s.count - 1) / s.gridColumns + 1 :=
    Nat.add_div_right _ positive
  have last : i / s.gridColumns ≤ (s.count - 1) / s.gridColumns :=
    Nat.div_le_div_right (Nat.le_sub_one_of_lt inside)
  have shifted : s.count + s.gridColumns - 1 = s.count - 1 + s.gridColumns := by omega
  rw [rowOf, gridRows, shifted, rows]
  omega

/-- What the items of a grid are ranked by around its rings: the distance of the cell from the
nearest edge, then its row and column together, then the index. -/
def ringKey (s : Stagger) (i : Nat) : Int ×ₗ Nat ×ₗ Nat :=
  toLex (min (min (s.rowOf i : Int) (s.columnOf i))
      (min ((s.gridRows : Int) - 1 - s.rowOf i) ((s.gridColumns : Int) - 1 - s.columnOf i)),
    toLex (s.rowOf i + s.columnOf i, i))

include wide in
/-- The distance from the nearest edge is counted exactly. -/
theorem ringKey_eq {i : Nat} (inside : i < s.count) :
    s.ringKey i = toLex ((s.edgeDistance i : Int), toLex (s.rowOf i + s.columnOf i, i)) := by
  obtain ⟨row, column⟩ := cell_inside wide inside
  have below : ((s.gridRows - 1 - s.rowOf i : Nat) : Int) = (s.gridRows : Int) - 1 - s.rowOf i := by
    omega
  have right : ((s.gridColumns - 1 - s.columnOf i : Nat) : Int) =
      (s.gridColumns : Int) - 1 - s.columnOf i := by omega
  rw [ringKey, edgeDistance, Nat.cast_min, Nat.cast_min, Nat.cast_min, below, right]

include wide in
/-- Items are compared by their keys. -/
theorem ringKey_lt_iff {i j : Nat} (inside : i < s.count) (insideOther : j < s.count) :
    s.ringKey i < s.ringKey j ↔ s.edgeDistance i < s.edgeDistance j ∨
      s.edgeDistance i = s.edgeDistance j ∧ (s.rowOf i + s.columnOf i < s.rowOf j + s.columnOf j ∨
        s.rowOf i + s.columnOf i = s.rowOf j + s.columnOf j ∧ i < j) := by
  rw [ringKey_eq wide inside, ringKey_eq wide insideOther, Prod.Lex.toLex_lt_toLex,
    Prod.Lex.toLex_lt_toLex, Int.ofNat_lt, Int.ofNat_inj]

/-- Items are compared around the rings by all but the last part of their keys. -/
theorem ringOrder_iff {i j : Nat} : s.ringOrder i j = true ↔
    s.edgeDistance i < s.edgeDistance j ∨ s.edgeDistance i = s.edgeDistance j ∧
      s.rowOf i + s.columnOf i ≤ s.rowOf j + s.columnOf j := by
  simp only [ringOrder, Bool.or_eq_true, Bool.and_eq_true, decide_eq_true_eq, beq_iff_eq]

/-- Comparison around the rings passes on. -/
theorem ringOrder_trans (a b c : Nat) (first : s.ringOrder a b) (second : s.ringOrder b c) :
    s.ringOrder a c := by
  rw [ringOrder_iff] at *
  omega

/-- Any two items compare around the rings. -/
theorem ringOrder_total (a b : Nat) : s.ringOrder a b || s.ringOrder b a := by
  rw [Bool.or_eq_true, ringOrder_iff, ringOrder_iff]
  omega

/-- The items around the rings are all items. -/
theorem ringItems_perm (s : Stagger) : s.ringItems.Perm (List.range s.count) :=
  List.mergeSort_perm _ _

include wide in
/-- An item with a lower key comes earlier around the rings. -/
theorem idxOf_ringItems_lt {i j : Nat} (inside : i < s.count) (insideOther : j < s.count)
    (less : s.ringKey i < s.ringKey j) : s.ringItems.idxOf i < s.ringItems.idxOf j := by
  refine Order.idxOf_mergeSort_lt ringOrder_trans ringOrder_total List.nodup_range
    (List.mem_range.mpr inside) (List.mem_range.mpr insideOther) ?_
  rw [ringKey_lt_iff wide inside insideOther] at less
  rw [Bool.eq_false_iff, ne_eq, ringOrder_iff, ringOrder_iff]
  rcases less with nearer | ⟨level, less | ⟨same, earlier⟩⟩
  · exact .inl (by omega)
  · exact .inl (by omega)
  · exact .inr ⟨.inr ⟨level, same.le⟩, Order.pair_sublist_range earlier insideOther⟩

/-- No two items have the same key. -/
theorem ringKey_injective : Function.Injective s.ringKey := fun _ _ same =>
  congrArg (fun key => (ofLex (ofLex key).2).2) same

include wide in
/-- Around the rings items are ranked by their keys. -/
theorem placeOf_ringItems_lt_iff (i j : Fin s.count) :
    Order.placeOf s.ringItems_perm i < Order.placeOf s.ringItems_perm j ↔
      s.ringKey i < s.ringKey j := by
  refine ⟨fun less => ?_, idxOf_ringItems_lt wide i.isLt j.isLt⟩
  rcases lt_trichotomy (s.ringKey i) (s.ringKey j) with lower | same | higher
  · exact lower
  · rw [Fin.ext (ringKey_injective same)] at less
    exact absurd less (lt_irrefl _)
  · exact absurd less (idxOf_ringItems_lt wide j.isLt i.isLt higher).asymm

/-! ## All patterns -/

/-- Where the ranks are those of a permutation, so are the delays. -/
theorem delays_eq {rank : Equiv.Perm (Fin s.count)}
    (ranks : s.ranks = List.ofFn fun i => Number.ofNat (rank i)) :
    s.delays = List.ofFn fun i => Number.ofNat (rank i) * s.unit := by
  rw [delays, ranks, List.map_ofFn]
  rfl

/-- Places in a list of all items are those of a permutation. -/
theorem placesIn_eq {order : List Nat} (all : order.Perm (List.range s.count)) :
    s.placesIn order = List.ofFn fun i => Number.ofNat (Order.placeOf all i) :=
  Order.map_range s.count fun i => Number.ofNat (order.idxOf i)

/-- Of a group in a line, shuffled or around the rings of a grid, the delays are a permutation of
the ranks below the number of items, each times the unit. Shuffled items are listed by the inverse
of this permutation, and while they are, no place is drawn that lies outside. Around the rings items
are ranked by their keys. -/
theorem exists_ranks
    (each : s.pattern ∈ [StaggerPattern.linear, .reverse, .random, .spiral])
    (wide : ∀ columns ∈ s.columns, 1 ≤ columns) :
    ∃ rank : Equiv.Perm (Fin s.count),
      s.delays = List.ofFn (fun i => Number.ofNat (rank i) * s.unit) ∧
      (s.pattern = .random →
        (∀ i, s.shuffled[(rank i).val]? = some i.val) ∧
        ((Number.ofNat s.count).isFinite = true →
          Shuffle.swaps? (s.count - 1) (Mulberry.ofSeed (s.seed.getD Defaults.staggerSeed))
            (Array.range s.count) = some s.shuffled.toArray)) ∧
      (s.pattern = .spiral → ∀ i j, rank i < rank j ↔ s.ringKey i < s.ringKey j) := by
  cases pattern : s.pattern with
  | linear =>
    refine ⟨Equiv.refl _, delays_eq ?_, nofun, nofun⟩
    rw [Stagger.ranks, pattern]
    exact Order.map_range s.count Number.ofNat
  | reverse =>
    refine ⟨Fin.revPerm, delays_eq ?_, nofun, nofun⟩
    rw [Stagger.ranks, pattern]
    refine (Order.map_range s.count fun i => Number.ofNat (s.count - 1 - i)).trans ?_
    refine congrArg List.ofFn (funext fun i => congrArg Number.ofNat ?_)
    rw [Fin.revPerm_apply, Fin.val_rev, Nat.sub_sub, Nat.add_comm]
  | random =>
    have all := shuffle_perm s.count (s.seed.getD Defaults.staggerSeed)
    refine ⟨Order.placeOf all, delays_eq ?_, fun _ => ⟨Order.getElem?_placeOf all, ?_⟩, nofun⟩
    · rw [Stagger.ranks, pattern]
      exact placesIn_eq all
    · exact swaps?_eq_shuffle _
  | spiral =>
    have all := s.ringItems_perm
    refine ⟨Order.placeOf all, delays_eq ?_, nofun, fun _ i j => ?_⟩
    · rw [Stagger.ranks, pattern]
      exact placesIn_eq all
    · exact placeOf_ringItems_lt_iff wide i j
  | fromCenter | fromEdges | row | column | diagonal =>
    rw [pattern] at each
    exact absurd each (by decide)

/-- Seven items in three columns, which leave the last row filled in part. -/
def sevenAround : Stagger := ⟨7, 2.0, .spiral, none, some 3⟩

/-- The seven items have the seven ranks in the order of their keys. -/
theorem exists_ranks_sevenAround : ∃ rank : Equiv.Perm (Fin 7),
    sevenAround.delays = List.ofFn (fun i => Number.ofNat (rank i) * 2.0) ∧
      ∀ i j, rank i < rank j ↔ sevenAround.ringKey i < sevenAround.ringKey j := by
  obtain ⟨rank, delays, -, around⟩ :=
    exists_ranks (s := sevenAround) (by decide) (by simp [sevenAround])
  exact ⟨rank, delays, around rfl⟩

/-- All cells but that in the middle are at an edge. -/
example : sevenAround.ringKey 6 < sevenAround.ringKey 4 := by decide

end Stagger
end Storyboard
