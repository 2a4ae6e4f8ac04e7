import Storyboard.Proofs.Random.Period
/-!
# Drawing until a draw is not zero

A normal draw takes two uniform draws that are not zero, and draws again for as long as it takes.
As a program this is a search that gives up after a number of attempts. `DrawsNonzero` is the loop
itself, which never gives up; the search is the loop cut off (`drawsNonzero_iff`).

Main statement: on a generator both loops end, from the state of any seed after any number of draws,
and as many attempts as there are states are always enough (`Mulberry.normal_ends`).
-/
namespace Storyboard

namespace Normal

variable {σ : Type} [Uniform σ] {source next last : σ} {u v : Float}

/-- Drawing until a draw is not zero, for as long as it takes. -/
inductive DrawsNonzero : σ → Float → σ → Prop where
  /-- A draw that is not zero is the result. -/
  | take {source next : σ} {u : Float} (drawn : Uniform.draw source = (u, next))
    (nonzero : (u == 0.0) = false) : DrawsNonzero source u next
  /-- A draw of zero is passed over. -/
  | pass {source next last : σ} {u v : Float} (drawn : Uniform.draw source = (u, next))
    (zero : (u == 0.0) = true) (later : DrawsNonzero next v last) : DrawsNonzero source v last

/-- A search with an attempt left looks at one draw. -/
theorem drawNonzero_succ (attempts : Nat) (drawn : Uniform.draw source = (u, next)) :
    drawNonzero (attempts + 1) source =
      if u == 0.0 then drawNonzero attempts next else some (u, next) := by
  simp only [drawNonzero, drawn]

/-- What a search finds it finds with more attempts, too. -/
theorem drawNonzero_mono {attempts more : Nat} (le : attempts ≤ more)
    (found : drawNonzero attempts source = some (u, last)) :
    drawNonzero more source = some (u, last) := by
  induction attempts generalizing more source with
  | zero => cases found
  | succ attempts ih =>
    cases more with
    | zero => cases le
    | succ more =>
      cases drawn : Uniform.draw source with
      | mk v next =>
        rw [drawNonzero_succ _ drawn] at found ⊢
        split at found
        · rename_i zero
          rw [if_pos zero]
          exact ih (Nat.le_of_succ_le_succ le) found
        · rename_i nonzero
          rw [if_neg nonzero]
          exact found

/-- The loop has a result just if the search finds it with enough attempts. -/
theorem drawsNonzero_iff :
    DrawsNonzero source u last ↔ ∃ attempts, drawNonzero attempts source = some (u, last) := by
  constructor
  · intro draws
    induction draws with
    | take drawn nonzero =>
      exact ⟨1, (drawNonzero_succ 0 drawn).trans (if_neg (by simp [nonzero]))⟩
    | pass drawn zero _ ih =>
      obtain ⟨attempts, found⟩ := ih
      exact ⟨attempts + 1, ((drawNonzero_succ attempts drawn).trans (if_pos zero)).trans found⟩
  · rintro ⟨attempts, found⟩
    induction attempts generalizing source with
    | zero => cases found
    | succ attempts ih =>
      cases drawn : Uniform.draw source with
      | mk v next =>
        rw [drawNonzero_succ attempts drawn] at found
        cases zero : v == 0.0 with
        | false =>
          rw [zero] at found
          cases found
          exact .take drawn zero
        | true =>
          rw [zero] at found
          exact .pass drawn zero (ih found)

end Normal

namespace Mulberry

/-- Drawing until a draw is not zero ends from every state, and as many attempts as there are states
are enough. -/
theorem exists_drawsNonzero (g : Mulberry) : ∃ u last, Normal.DrawsNonzero g u last ∧
    ∀ attempts ≥ modulus, Normal.drawNonzero attempts g = some (u, last) := by
  obtain ⟨⟨u, last⟩, found⟩ := Option.isSome_iff_exists.mp g.drawNonzero_isSome
  exact ⟨u, last, Normal.drawsNonzero_iff.mpr ⟨modulus, found⟩,
    fun attempts enough => Normal.drawNonzero_mono enough found⟩

/-- Normal draws end. From any state the next states, as many as there are, are pairwise distinct
and are all of them, and not every state is drawn as zero. So on the generator of any seed, after
any number of draws, the two loops of a normal draw end, the second one from where the first one
left the generator; and a search that tries each as often as there are states, or more often, gives
the normal draw of what they end with. -/
theorem normal_ends (seed : Int) (earlier : Nat) (mean std : Float) :
    (∀ g : Mulberry, Set.BijOn (fun count => (advance^[count + 1] g).state) (Set.Iio modulus)
      (Set.Iio modulus)) ∧
    (∃ g : Mulberry, g.state < modulus ∧ ((draw g).1 == 0.0) = false) ∧
    ∃ (u v : Float) (middle last : Mulberry),
      Normal.DrawsNonzero (advance^[earlier] (ofSeed seed)) u middle ∧
      Normal.DrawsNonzero middle v last ∧
      (advance^[earlier] (ofSeed seed)).normal mean std =
        (Normal.ofUniform mean std u v, last) ∧
      ∀ attempts ≥ modulus, Normal.sample? attempts mean std (advance^[earlier] (ofSeed seed)) =
        some (Normal.ofUniform mean std u v, last) := by
  refine ⟨bijOn_state, ⟨ofSeed 0, by decide, by decide⟩, ?_⟩
  obtain ⟨u, middle, first, found⟩ := (advance^[earlier] (ofSeed seed)).exists_drawsNonzero
  obtain ⟨v, last, second, foundOther⟩ := middle.exists_drawsNonzero
  have sampled : ∀ attempts ≥ modulus,
      Normal.sample? attempts mean std (advance^[earlier] (ofSeed seed)) =
        some (Normal.ofUniform mean std u v, last) := fun attempts enough =>
    Normal.sample?_of_drawNonzero mean std (found attempts enough) (foundOther attempts enough)
  refine ⟨u, v, middle, last, first, second, ?_, sampled⟩
  rw [normal, sampled modulus le_rfl, Option.getD_some]

end Mulberry
end Storyboard
