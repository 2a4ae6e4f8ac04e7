import Storyboard.Proofs.Number.Units
import Storyboard.Proofs.Order.Permutation
/-!
# Sorting is stable

Elements whose keys do not differ stay in order, so to leave out elements and to sort are steps of
which either may come first (`sortBy_filter`). This holds where all keys compare; the order of the
keys is then that of their units.
-/
namespace Storyboard.Order

variable {α : Type}

section Preorder

variable {le : α → α → Bool} (trans : ∀ a b c, le a b → le b c → le a c)
  (total : ∀ a b, le a b || le b a)

/-- A list whose first part lies below an element and whose second part does not is parted by a
comparison with that element. -/
theorem filter_parts {a : α} {below above : List α} (first : ∀ b ∈ below, !le a b)
    (second : ∀ b ∈ above, le a b) :
    (below ++ above).filter (fun b => !le a b) = below ∧
      (below ++ above).filter (le a) = above := by
  have below_kept : below.filter (fun b => !le a b) = below := List.filter_eq_self.mpr first
  have above_kept : above.filter (le a) = above := List.filter_eq_self.mpr second
  have below_left : below.filter (le a) = [] := List.filter_eq_nil_iff.mpr fun b member => by
    simpa using first b member
  have above_left : above.filter (fun b => !le a b) = [] :=
    List.filter_eq_nil_iff.mpr fun b member => by simpa using second b member
  rw [List.filter_append, List.filter_append, below_kept, below_left, above_kept, above_left]
  exact ⟨List.append_nil _, rfl⟩

include trans total in
/-- Sorting puts the first element between those below it and all others, which are sorted as they
would be without it. -/
theorem mergeSort_cons_parts (a : α) (items : List α) :
    ∃ below above, (a :: items).mergeSort le = below ++ a :: above ∧
      items.mergeSort le = below ++ above ∧ (∀ b ∈ below, !le a b) ∧ ∀ b ∈ above, le a b := by
  obtain ⟨below, above, whole, others, first⟩ := List.mergeSort_cons trans total a items
  have sorted := List.pairwise_mergeSort trans total (a :: items)
  rw [whole] at sorted
  have behind := (List.pairwise_append.mp sorted).2.1
  exact ⟨below, above, whole, others, first, (List.pairwise_cons.mp behind).1⟩

include trans total in
/-- Elements may be left out before sorting or after it. -/
theorem mergeSort_filter (p : α → Bool) (items : List α) :
    (items.mergeSort le).filter p = (items.filter p).mergeSort le := by
  induction items with
  | nil => simp
  | cons a items ih =>
    obtain ⟨below, above, whole, others, first, second⟩ := mergeSort_cons_parts trans total a items
    rw [others] at ih
    rw [whole]
    cases kept : p a with
    | false =>
      have left := Bool.eq_false_iff.mp kept
      rw [List.filter_cons_of_neg left, ← ih, List.filter_append, List.filter_append,
        List.filter_cons_of_neg left]
    | true =>
      obtain ⟨below', above', whole', others', first', second'⟩ :=
        mergeSort_cons_parts trans total a (items.filter p)
      -- What is left of the parts are parts of what is left, and there is only one way to part it.
      have firstLeft : ∀ b ∈ below.filter p, !le a b := fun b member =>
        first b (List.mem_of_mem_filter member)
      have secondLeft : ∀ b ∈ above.filter p, le a b := fun b member =>
        second b (List.mem_of_mem_filter member)
      have parts := filter_parts firstLeft secondLeft
      have parts' := filter_parts first' second'
      rw [← others', ← ih, List.filter_append, parts.1, parts.2] at parts'
      rw [List.filter_cons_of_pos kept, whole', ← parts'.1, ← parts'.2, List.filter_append,
        List.filter_cons_of_pos kept]

end Preorder

section Keys

variable {key : α → Float}

/-- Whether the key of one element has no more units than that of another. -/
def keyLE (key : α → Float) (x y : α) : Bool :=
  decide (Binary64.units (key x) ≤ Binary64.units (key y))

/-- Comparison of keys passes on. -/
theorem keyLE_trans (a b c : α) (first : keyLE key a b) (second : keyLE key b c) :
    keyLE key a c := by
  simp only [keyLE, decide_eq_true_eq] at *
  omega

/-- Any two keys compare. -/
theorem keyLE_total (a b : α) : keyLE key a b || keyLE key b a := by
  simp only [keyLE, Bool.or_eq_true, decide_eq_true_eq]
  omega

variable {items : List α} (defined : ∀ x ∈ items, (key x).isNaN = false)

include defined

/-- Where all keys compare a list is sorted by their units. -/
theorem sortBy_eq_mergeSort : sortBy key items = items.mergeSort (keyLE key) := by
  have compare : allDefined key items = true := by
    rw [allDefined, List.all_eq_true]
    intro x member
    rw [defined x member]
    rfl
  have same : ∀ x ∈ items, ∀ y ∈ items,
      (!decide (key y < key x)) = keyLE key (id x) (id y) := by
    intro x memberX y memberY
    rw [← decide_not, keyLE, decide_eq_decide, Binary64.lt_iff_units (defined y memberY)
      (defined x memberX), Int.not_lt]
    rfl
  rw [sortBy, if_pos compare]
  simpa using List.map_mergeSort same

/-- Elements may be left out before sorting by a key or after it, where all keys compare. -/
theorem sortBy_filter (p : α → Bool) :
    (sortBy key items).filter p = sortBy key (items.filter p) := by
  rw [sortBy_eq_mergeSort defined, mergeSort_filter keyLE_trans keyLE_total p items,
    sortBy_eq_mergeSort fun x member => defined x (List.mem_of_mem_filter member)]

/-- Where all keys compare, the sorted elements with the places they had are in the order of their
keys, and where keys are equal in the order of their places. -/
theorem sortBy_places : ∃ listed : List (α × Nat), listed.Perm items.zipIdx ∧
    listed.map (·.1) = sortBy key items ∧
    listed.Pairwise fun a b => key a.1 ≤ key b.1 ∧ ((key a.1 == key b.1) = true → a.2 < b.2) := by
  have whole := List.mergeSort_perm items.zipIdx (List.zipIdxLE (keyLE key))
  refine ⟨items.zipIdx.mergeSort (List.zipIdxLE (keyLE key)), whole, ?_, ?_⟩
  · rw [List.mergeSort_zipIdx, sortBy_eq_mergeSort defined]
  have ordered := List.pairwise_mergeSort (List.zipIdxLE_trans (@keyLE_trans _ key))
    (List.zipIdxLE_total keyLE_total) items.zipIdx
  have apart : (items.zipIdx.mergeSort (List.zipIdxLE (keyLE key))).Pairwise
      fun a b => a.2 ≠ b.2 := by
    have places : (items.zipIdx.map (·.2)).Nodup := by
      rw [List.zipIdx_map_snd]
      exact List.nodup_range'
    exact List.pairwise_map.mp ((whole.map _).nodup_iff.mpr places)
  have number : ∀ pair ∈ items.zipIdx.mergeSort (List.zipIdxLE (keyLE key)),
      (key pair.1).isNaN = false := fun pair member =>
    defined pair.1 (List.fst_mem_of_mem_zipIdx (whole.mem_iff.mp member))
  refine (ordered.and apart).imp_of_mem fun {a b} memberA memberB both => ?_
  obtain ⟨le, other⟩ := both
  rw [Binary64.le_iff_units (number a memberA) (number b memberB),
    Binary64.beq_iff_units (number a memberA) (number b memberB)]
  simp only [List.zipIdxLE, keyLE, decide_eq_true_eq] at le
  split at le
  · rename_i less
    refine ⟨less, fun same => ?_⟩
    rw [if_pos (by omega), decide_eq_true_eq] at le
    omega
  · cases le

end Keys

end Storyboard.Order
