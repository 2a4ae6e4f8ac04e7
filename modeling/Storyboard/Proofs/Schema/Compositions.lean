import Storyboard.Composition.Plain
import Storyboard.Proofs.Schema.ReadBack
/-!
# Compositions are read back

The plain form of a composition holds every field under the name that its reader knows, with the
defaults filled in, numbers for numerals and truth values for the words that mean them. So each part
of a composition, once read, is read again from its plain form: from the positions and pauses
outwards, each part from the laws of the parts it holds. A proof for one part takes what was read
apart into the fields, sees that the object written has just the fields asked for, and then gives
one law for each field, in the order of the fields.
-/
namespace Storyboard

open Schema Reader

/-! ## Positions and timings -/

namespace TimeValue

/-- A position is a text or a number: a text stays one, also where it looks like a number. -/
theorem readsBack : ReadsBack read plain := by
  intro data value _
  cases value <;> rfl

/-- A position is never written as nothing. -/
theorem plain_ne_null (value : TimeValue) : value.plain ≠ .null := by
  cases value <;> nofun

/-- A field that may hold a position is read back. -/
theorem optional_readsBack {key : String} :
    FieldReadsBack (fun given => Reader.optional given key read) key (Json.ofOption plain) :=
  readsBack.optional plain_ne_null

end TimeValue

/-- A field that may hold a text is read back. -/
theorem optionalText_readsBack {key : String} :
    FieldReadsBack (fun given => Reader.optional given key Reader.string) key Json.ofText? :=
  string_readsBack.optional nofun

namespace TimeRange

/-- A timing is read back. -/
theorem readsBack : ReadsBack read plain := by
  refine modelKnowing_readsBack fun given range accepted => ?_
  simp only [Checked.exists_seq_eq_valid, Checked.exists_map_eq_valid] at accepted ⊢
  obtain ⟨_, start, _, finish, _, duration, _, startIsRelative, _, finishIsRelative, rfl⟩ :=
    accepted
  refine ⟨_, rfl, rfl, rfl, ?_⟩
  exact ⟨_, TimeValue.optional_readsBack start rfl, _, TimeValue.optional_readsBack finish rfl,
    _, TimeValue.optional_readsBack duration rfl,
    _, bool_readsBack.defaulted rfl startIsRelative rfl,
    _, bool_readsBack.defaulted rfl finishIsRelative rfl, rfl⟩

/-- A field that may hold a timing is read back. -/
theorem optional_readsBack {key : String} :
    FieldReadsBack (fun given => Reader.optional given key read) key (Json.ofOption plain) :=
  readsBack.optional nofun

end TimeRange

/-! ## Pauses -/

namespace Pause

/-- A pause of a fixed length is read back under its mode. -/
theorem readFixed_readsBack : KindReadsBack "mode" plain ("fixed", readFixed) := by
  refine modelKnowing_kindReadsBack fun given pause accepted => ?_
  simp only [Checked.exists_seq_eq_valid, Checked.exists_map_eq_valid] at accepted ⊢
  obtain ⟨_, kind, _, mode, _, seconds, rfl⟩ := accepted
  refine ⟨_, rfl, rfl, rfl, rfl, ?_⟩
  exact ⟨_, constant_readsBack rfl kind rfl, _, constant_readsBack rfl mode rfl,
    _, float_readsBack.required seconds rfl, rfl⟩

/-- A sampled pause is read back under its mode, and its deviation is not negative again. -/
theorem readGaussian_readsBack : KindReadsBack "mode" plain ("gaussian", readGaussian) := by
  refine modelKnowing_kindReadsBack fun given pause accepted => ?_
  simp only [Checked.exists_seq_eq_valid, Checked.exists_map_eq_valid] at accepted ⊢
  obtain ⟨_, kind, _, mode, _, mean, _, std, _, min, _, max, rfl⟩ := accepted
  refine ⟨_, rfl, rfl, rfl, rfl, ?_⟩
  exact ⟨_, constant_readsBack rfl kind rfl, _, constant_readsBack rfl mode rfl,
    _, float_readsBack.required mean rfl, _, nonNegative_readsBack.required std rfl,
    _, float_readsBack.optional nofun min rfl, _, float_readsBack.optional nofun max rfl, rfl⟩

/-- A pause is read back by its mode. -/
theorem readsBack : ReadsBack read plain :=
  tagged_readsBack ⟨readFixed_readsBack, readGaussian_readsBack⟩

/-- Among other parts, a pause tells that it is one. -/
theorem plain_tells (pause : Pause) :
    ∃ written : Fields, pause.plain = .obj written ∧
      written.lookup "kind" = some (.str "pause") := by
  cases pause <;> exact ⟨_, rfl, rfl⟩

end Pause

namespace PauseSetting

/-- Seconds are read as seconds, and a pause is no number, so it is read as a pause. -/
theorem readsBack : ReadsBack read plain := by
  intro data setting accepted
  cases setting with
  | seconds value => rfl
  | pause p =>
    -- a pause is found only where no number is
    have found : Pause.read data = .valid p := by
      simp only [read, either] at accepted
      cases number : float data with
      | valid value => simp [number, Checked.map] at accepted
      | invalid issues =>
        cases other : Pause.read data with
        | valid q => simpa [number, other, Checked.map] using accepted
        | invalid more => simp [number, other, Checked.map] at accepted
    obtain ⟨written, isObject, -⟩ := p.plain_tells
    have again := Pause.readsBack data p found
    simp only [plain, read, either]
    rw [isObject] at again ⊢
    simp only [float, Checked.fail, Checked.map, again]

/-- A pause or its seconds are never written as nothing. -/
theorem plain_ne_null (setting : PauseSetting) : setting.plain ≠ .null := by
  cases setting with
  | seconds value => nofun
  | pause p => cases p <;> nofun

end PauseSetting

/-! ## Scenes and their parts -/

namespace Segment

/-- Spoken text is read back under its kind. -/
theorem readText_readsBack : KindReadsBack "kind" plain ("text", readText) := by
  refine modelKnowing_kindReadsBack fun given segment accepted => ?_
  simp only [Checked.exists_seq_eq_valid, Checked.exists_map_eq_valid] at accepted ⊢
  obtain ⟨_, kind, _, text, _, duration, _, trim, rfl⟩ := accepted
  refine ⟨_, rfl, rfl, rfl, rfl, ?_⟩
  exact ⟨_, constant_readsBack rfl kind rfl, _, string_readsBack.required text rfl,
    _, nonNegative_readsBack.optional nofun duration rfl,
    _, nonNegative_readsBack.defaulted rfl trim rfl, rfl⟩

/-- A part of a cue is read back by its kind. -/
theorem readsBack : ReadsBack read plain :=
  tagged_readsBack ⟨readText_readsBack, Pause.readsBack.kind (fun _ => rfl) Pause.plain_tells⟩

end Segment

/-- A cue is read back. -/
theorem Cue.readsBack : ReadsBack read fun cue => SceneItem.plain (.cue cue) := by
  refine modelKnowing_readsBack fun given cue accepted => ?_
  simp only [Checked.exists_seq_eq_valid, Checked.exists_map_eq_valid] at accepted ⊢
  obtain ⟨_, kind, _, id, _, text, _, duration, _, time, _, segments, _, bullets, _, markup, rfl⟩ :=
    accepted
  refine ⟨_, rfl, rfl, rfl, ?_⟩
  exact ⟨_, constant_readsBack rfl kind rfl, _, string_readsBack.required id rfl,
    _, optionalText_readsBack text rfl, _, TimeValue.optional_readsBack duration rfl,
    _, TimeRange.optional_readsBack time rfl,
    _, Segment.readsBack.list.defaulted rfl segments rfl,
    _, string_readsBack.list.defaulted rfl bullets rfl,
    _, fields_readsBack.defaulted rfl markup rfl, rfl⟩

/-- A part of a scene is read back by its kind. -/
theorem SceneItem.readsBack : ReadsBack read plain :=
  tagged_readsBack ⟨Cue.readsBack.kind (fun _ => rfl) fun _ => ⟨_, rfl, rfl⟩,
    Pause.readsBack.kind (fun _ => rfl) Pause.plain_tells⟩

/-- A transition in short form is read back. -/
theorem Handover.readsBack : ReadsBack read plain := by
  refine modelKnowing_readsBack fun given handover accepted => ?_
  simp only [Checked.exists_seq_eq_valid, Checked.exists_map_eq_valid] at accepted ⊢
  obtain ⟨_, effect, _, duration, _, ease, _, props, rfl⟩ := accepted
  refine ⟨_, rfl, rfl, rfl, ?_⟩
  exact ⟨_, string_readsBack.defaulted rfl effect rfl, _, TimeValue.optional_readsBack duration rfl,
    _, optionalText_readsBack ease rfl, _, fields_readsBack.defaulted rfl props rfl, rfl⟩

/-- A scene is read back with all that it holds. -/
theorem Scene.readsBack : ReadsBack read fun scene => Item.plain (.scene scene) := by
  refine modelKnowing_readsBack fun given scene accepted => ?_
  simp only [Checked.exists_seq_eq_valid, Checked.exists_map_eq_valid] at accepted ⊢
  obtain ⟨_, kind, _, id, _, title, _, time, _, items, _, handover, _, markup, rfl⟩ := accepted
  refine ⟨_, rfl, rfl, rfl, ?_⟩
  exact ⟨_, constant_readsBack rfl kind rfl, _, string_readsBack.required id rfl,
    _, optionalText_readsBack title rfl, _, TimeRange.optional_readsBack time rfl,
    _, SceneItem.readsBack.list.defaulted rfl items rfl,
    _, Handover.readsBack.optional nofun handover rfl,
    _, fields_readsBack.defaulted rfl markup rfl, rfl⟩

/-! ## Transitions and marks -/

/-- A mode is read back by its name. -/
theorem TransitionMode.readsBack : ReadsBack read fun mode => .str mode.label :=
  oneOf_readsBack label (by decide)

/-- A transition is read back, with its mode if it has one. -/
theorem Transition.readsBack : ReadsBack read fun t => Item.plain (.transition t) := by
  refine modelKnowing_readsBack fun given transition accepted => ?_
  simp only [Checked.exists_seq_eq_valid, Checked.exists_map_eq_valid] at accepted ⊢
  obtain ⟨_, kind, _, id, _, effect, _, time, _, duration, _, ease, _, props, mode, modeRead,
    rfl⟩ := accepted
  refine ⟨_, rfl, rfl, rfl, ?_⟩
  exact ⟨_, constant_readsBack rfl kind rfl, _, string_readsBack.required id rfl,
    _, string_readsBack.defaulted rfl effect rfl, _, TimeRange.optional_readsBack time rfl,
    _, TimeValue.optional_readsBack duration rfl, _, optionalText_readsBack ease rfl,
    _, fields_readsBack.defaulted rfl props rfl,
    _, TransitionMode.readsBack.optional nofun modeRead (by cases mode <;> rfl), rfl⟩

/-- A mark is read back. -/
theorem Mark.readsBack : ReadsBack read fun mark => Item.plain (.mark mark) := by
  refine modelKnowing_readsBack fun given mark accepted => ?_
  simp only [Checked.exists_seq_eq_valid, Checked.exists_map_eq_valid] at accepted ⊢
  obtain ⟨_, kind, _, id, _, position, rfl⟩ := accepted
  refine ⟨_, rfl, rfl, rfl, ?_⟩
  exact ⟨_, constant_readsBack rfl kind rfl, _, string_readsBack.required id rfl,
    _, TimeValue.readsBack.required position rfl, rfl⟩

/-- An entity of the timeline is read back by its kind. -/
theorem Item.readsBack : ReadsBack read plain :=
  tagged_readsBack ⟨Scene.readsBack.kind (fun _ => rfl) fun _ => ⟨_, rfl, rfl⟩,
    Transition.readsBack.kind (fun _ => rfl) fun _ => ⟨_, rfl, rfl⟩,
    Mark.readsBack.kind (fun _ => rfl) fun _ => ⟨_, rfl, rfl⟩⟩

/-! ## The whole -/

/-- The narration settings are read back. -/
theorem Voiceover.readsBack : ReadsBack read plain := by
  refine modelKnowing_readsBack fun given voiceover accepted => ?_
  simp only [Checked.exists_seq_eq_valid, Checked.exists_map_eq_valid] at accepted ⊢
  obtain ⟨_, seed, _, leadIn, _, pause, _, wordsPerMinute, rfl⟩ := accepted
  refine ⟨_, rfl, rfl, rfl, ?_⟩
  exact ⟨_, int_readsBack.optional nofun seed rfl,
    _, nonNegative_readsBack.defaulted rfl leadIn rfl,
    _, PauseSetting.readsBack.optional PauseSetting.plain_ne_null pause rfl,
    _, positive_readsBack.defaulted rfl wordsPerMinute rfl, rfl⟩

/-- A composition is read back with all that it holds. -/
theorem Composition.readsBack : ReadsBack read plain := by
  refine modelKnowing_readsBack fun given composition accepted => ?_
  simp only [Checked.exists_seq_eq_valid, Checked.exists_map_eq_valid] at accepted ⊢
  obtain ⟨_, id, _, title, _, fps, _, width, _, height, _, duration, _, poster, _, voiceover,
    _, timeline, rfl⟩ := accepted
  refine ⟨_, rfl, rfl, rfl, ?_⟩
  exact ⟨_, string_readsBack.defaulted rfl id rfl, _, optionalText_readsBack title rfl,
    _, positive_readsBack.defaulted rfl fps rfl,
    _, positiveInt_readsBack.defaulted rfl width rfl,
    _, positiveInt_readsBack.defaulted rfl height rfl,
    _, TimeValue.optional_readsBack duration rfl, _, TimeValue.optional_readsBack poster rfl,
    _, Voiceover.readsBack.defaulted rfl voiceover rfl,
    _, Item.readsBack.list.defaulted rfl timeline rfl, rfl⟩

end Storyboard
