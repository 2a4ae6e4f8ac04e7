import Storyboard.Effect.Basic
import Storyboard.Proofs.Schema.Compositions
/-!
# Documents are read back

An effect is read back as a composition is: by its type, with the fields that it shares with all
effects and those of its own. Its plain form knows the ends of a fade or of a scale by their long
names, whatever name they were given under. Together both say that reading is idempotent
(`Schema.reads_again`): what is read of a document is read again, without any issue, from the plain
form of what was read.
-/
namespace Storyboard

open Schema Reader

namespace Effect

/-! ## The fields of an effect -/

/-- The fields that every effect has, as they are written. -/
def commonPlain (duration delay : Float) (easing : Option EasingChoice) (name : String) : Fields :=
  [("duration_frames", .float duration), ("delay_frames", .float delay),
    ("easing", Json.ofOption plainEasing easing), ("type", .str name)]

/-- Plain data name an easing, and the name is read back. -/
theorem readEasing_readsBack : ReadsBack readEasing plainEasing := by
  intro data easing accepted
  cases easing with
  | named name => rfl
  | custom curve => cases data <;> nomatch accepted

/-- A field with two names is read back under the long one. -/
theorem aliased_readsBack {written : Fields} {short long : String} {default value : Float}
    (unused : written.lookup short = none) (held : written.lookup long = some (.float value)) :
    aliased written short long default = .valid value := by
  simp only [aliased, unused, Reader.defaulted, held]
  rfl

/-- A side is read back by its name. -/
theorem readSide_readsBack (default : Side) :
    FieldReadsBack (fun given => readSide given default) "direction" fun side =>
      .str side.label :=
  (oneOf_readsBack Side.label (by decide)).defaulted (by cases default <;> rfl)

/-- An origin is read back by its name. -/
theorem origin_readsBack :
    ReadsBack (oneOf .literalError originsByName) fun origin => .str origin.name := by
  refine oneOf_readsBack Origin.name ?_
  -- the nine origins have nine names, so each is found under its own
  repeat' constructor

/-! ## The kinds of effects -/

/-- The names of the kinds and of their fields are whole. -/
theorem names_whole (kind : EffectKind) :
    Text.isWhole (typeName kind) = true ∧
      ((kindFields kind).map (·.1)).all Text.isWhole = true := by
  cases kind <;> simp only [typeName, kindFields, List.map_cons, List.map_nil] <;>
    exact ⟨rfl, rfl⟩

/-- An effect of a name is read back if its kind has the name, and the fields of its own, behind
those of every effect, are just the ones that are asked for and give the kind again. -/
theorem reader_readsBack {name : String} {fields : Fields → List String}
    {kind : Fields → Checked EffectKind}
    (again : ∀ given what, (∃ found, kind given = .valid found ∧ found = what) →
      typeName what = name ∧ ∀ duration delay easing,
        let written := commonPlain duration delay easing name ++ kindFields what
        fields written = (kindFields what).map (·.1) ∧
          ∃ found, kind written = .valid found ∧ found = what) :
    KindReadsBack "type" plain (reader name fields kind) := by
  refine modelKnowing_kindReadsBack fun given effect accepted => ?_
  simp only [Checked.exists_seq_eq_valid, Checked.exists_map_eq_valid] at accepted ⊢
  obtain ⟨duration, durationRead, delay, delayRead, easing, easingRead, _, typeRead, what, kindRead,
    rfl⟩ := accepted
  obtain ⟨rfl, written⟩ := again given what ⟨what, kindRead, rfl⟩
  obtain ⟨keys, _, kindAgain, rfl⟩ := written duration delay easing
  refine ⟨commonPlain duration delay easing _ ++ kindFields _, rfl, rfl, ?_, ?_,
    _, nonNegative_readsBack.required durationRead rfl,
    _, float_readsBack.defaulted rfl delayRead rfl,
    _, readEasing_readsBack.optional (by rintro (_ | _) <;> nofun) easingRead rfl,
    _, constant_readsBack (names_whole _).1 typeRead rfl, _, kindAgain, rfl⟩
  · rw [keys, List.map_append]
    rfl
  · rw [keys, List.all_append, (names_whole _).2]
    rfl

/-- Effects are read back by their types. -/
theorem readsBack : ReadsBack read plain := by
  refine tagged_readsBack ⟨?fade, ?slide, ?push, ?scale, ?wipe, ?typewriter, ?spring⟩ <;>
    refine reader_readsBack fun given what accepted => ?_ <;>
    simp only [readSpan, Checked.exists_seq_eq_valid, Checked.exists_map_eq_valid] at accepted ⊢
  case fade =>
    obtain ⟨_, -, _, -, rfl⟩ := accepted
    exact ⟨rfl, fun _ _ _ => ⟨rfl, _, aliased_readsBack rfl rfl, _, aliased_readsBack rfl rfl,
      rfl⟩⟩
  case slide =>
    obtain ⟨_, side, _, distance, rfl⟩ := accepted
    exact ⟨rfl, fun _ _ _ => ⟨rfl, _, readSide_readsBack _ side rfl,
      _, float_readsBack.defaulted rfl distance rfl, rfl⟩⟩
  case push =>
    obtain ⟨_, side, rfl⟩ := accepted
    exact ⟨rfl, fun _ _ _ => ⟨rfl, _, readSide_readsBack _ side rfl, rfl⟩⟩
  case scale =>
    obtain ⟨_, -, _, -, _, origin, rfl⟩ := accepted
    exact ⟨rfl, fun _ _ _ => ⟨rfl, _, aliased_readsBack rfl rfl, _, aliased_readsBack rfl rfl,
      _, origin_readsBack.defaulted rfl origin rfl, rfl⟩⟩
  case wipe =>
    obtain ⟨_, side, rfl⟩ := accepted
    exact ⟨rfl, fun _ _ _ => ⟨rfl, _, readSide_readsBack _ side rfl, rfl⟩⟩
  case typewriter =>
    obtain ⟨_, cursor, _, blinkFrames, _, charsPerFrame, rfl⟩ := accepted
    exact ⟨rfl, fun _ _ _ => ⟨rfl, _, bool_readsBack.defaulted rfl cursor rfl,
      _, positiveInt_readsBack.defaulted rfl blinkFrames rfl,
      _, nonNegative_readsBack.defaulted rfl charsPerFrame rfl, rfl⟩⟩
  case spring =>
    obtain ⟨_, mass, _, stiffness, _, damping, rfl⟩ := accepted
    exact ⟨rfl, fun _ _ _ => ⟨rfl, _, float_readsBack.defaulted rfl mass rfl,
      _, float_readsBack.defaulted rfl stiffness rfl, _, float_readsBack.defaulted rfl damping rfl,
      rfl⟩⟩

end Effect

/-! ## Both kinds of documents -/

namespace Schema

/-- Reading is idempotent. Whatever plain data are read as a composition or as an effect, with
numerals, words for truth values, whole doubles and fields left out, the plain form of what was read
is read again, without any issue, for the same composition or the same effect. -/
theorem reads_again (data : Json) :
    (∀ composition, Composition.read data = .valid composition →
      Composition.read composition.plain = .valid composition) ∧
    ∀ effect, Effect.read data = .valid effect → Effect.read effect.plain = .valid effect :=
  ⟨Composition.readsBack data, Effect.readsBack data⟩

/-- A composition with a numeral for its rate, a whole double for its seed, a number for its pause
and a truth value for a position. -/
def looselyWritten : Json :=
  .obj [("fps", .str "25"),
    ("voiceover", .obj [("seed", .float 7.0), ("pause_between_items", .int 1)]),
    ("timeline", .arr [.obj [("kind", .str "mark"), ("id", .str "late"), ("at", .bool true)]])]

/-- A fade that names only one of its ends, by the short name. -/
def shortFade : Json :=
  .obj [("type", .str "fade"), ("from", .float 0.25), ("duration_frames", .str "12")]

/-- Both are read, and read again from their plain forms. -/
theorem looselyWritten_reads_again :
    ∃ composition effect,
      (Composition.read looselyWritten = .valid composition ∧
        Effect.read shortFade = .valid effect) ∧
      composition.fps = 25.0 ∧ composition.voiceover.seed = some 7 ∧
      effect.kind = .fade 0.25 1.0 ∧
      Composition.read composition.plain = .valid composition ∧
        Effect.read effect.plain = .valid effect := by
  have read : Composition.read looselyWritten = .valid
      { fps := 25.0, voiceover := { seed := some 7, pauseBetweenItems := some (.seconds 1.0) },
        timeline := [.mark ⟨"late", .seconds 1.0⟩] } := rfl
  have effectRead : Effect.read shortFade = .valid ⟨12.0, 0.0, none, .fade 0.25 1.0⟩ := rfl
  exact ⟨_, _, ⟨read, effectRead⟩, rfl, rfl, rfl, (reads_again _).1 _ read,
    (reads_again _).2 _ effectRead⟩

end Schema
end Storyboard
