import Storyboard.Proofs.Effect.Phases
import Storyboard.Proofs.Schema.ReadBack
/-!
# Typing

Typing shows the front of a text: nothing before the delay, all of it from the end on, and in
between as many symbols as a product of doubles gives, but no more than there are. The phases are
told by a difference of doubles. Neither it nor the product nor the floor turns the order of frames
around, so the three phases and their counts come in one order.

Main statement: what is typed at a frame is the front of what is typed at a later one, and the
cursor is never on from the delay on where all of the text is shown (`Effect.style_types`).
-/
namespace Storyboard

open Binary64

/-! ## Fronts of texts -/

namespace Text

/-- The pieces of the front of a text are the first ones. -/
theorem pieces_front (count : Nat) (text : List Char) :
    pieces (front count text) = (pieces text).take count := by
  fun_induction pieces text generalizing count with
  | case1 => rw [front, pieces, List.take_nil]; rfl
  | case2 c => cases count <;> simp [front, pieces]
  | case3 d rest ih =>
    cases count with
    | zero => simp [front, pieces]
    | succ count =>
      have kept : front (count + 1) (mark :: d :: rest) = mark :: d :: front count rest := by
        simp [front, pieces]
      rw [kept, List.take_succ_cons, ← ih count]
      simp [pieces]
  | case4 c d rest other ih =>
    cases count with
    | zero => simp [front, pieces]
    | succ count =>
      have kept : front (count + 1) (c :: d :: rest) = c :: front count (d :: rest) := by
        simp [front, pieces, other]
      rw [kept, List.take_succ_cons, ← ih count, pieces_cons other]

/-- All symbols of a text are the text. -/
theorem front_size (text : List Char) : front (size text) text = text := by
  rw [front, size, List.take_length, flatten_pieces]

/-- The front of a text has so many symbols, unless the text has fewer. -/
theorem size_front (count : Nat) (text : List Char) :
    size (front count text) = min count (size text) := by
  rw [size, pieces_front, List.length_take, size]

end Text

/-- Whether a text begins with another: its symbols, and the characters that they are written as. -/
def IsFront (part text : String) : Prop :=
  Text.symbols part <+: Text.symbols text ∧ part.toList <+: text.toList

/-- Fewer first symbols are the front of more. -/
theorem isFront_front {count more : Nat} (le : count ≤ more) (text : List Char) :
    IsFront (String.ofList (Text.front count text)) (String.ofList (Text.front more text)) := by
  have pieces : (Text.pieces text).take count <+: (Text.pieces text).take more :=
    List.take_prefix_take_left le
  refine ⟨?_, ?_⟩
  · simp only [Text.symbols, String.toList_ofList, Text.pieces_front]
    exact pieces.map _
  · simp only [String.toList_ofList, Text.front]
    exact pieces.flatten

namespace Effect

open Schema (Checked Reader)

variable {effect : Effect} {viewport : Viewport} {cursor : Bool} {blinkFrames : Int}
  {charsPerFrame f g frame x : Float}

/-! ## Settings of typing -/

/-- Whether an effect is typing with settings that are valid. -/
structure Types (effect : Effect) (cursor : Bool) (blinkFrames : Int) (charsPerFrame : Float) :
    Prop where
  /-- The effect is typing. -/
  kind : effect.kind = .typewriter cursor blinkFrames charsPerFrame
  /-- It does not last less than no time. -/
  duration : 0.0 ≤ effect.duration
  /-- The cursor stays as it is for some frames. -/
  blinkFrames : 0 < blinkFrames
  /-- No symbols are taken back. -/
  charsPerFrame : 0.0 ≤ charsPerFrame

/-- An effect of a name that is read lasts no less than no time, and its kind was read, too. -/
theorem reader_valid {name : String} {fields : Fields → List String}
    {kind : Fields → Checked EffectKind} {data : Json}
    (accepted : (reader name fields kind).2 data = .valid effect) :
    0.0 ≤ effect.duration ∧ ∃ given, kind given = .valid effect.kind := by
  obtain ⟨given, valid⟩ := Reader.modelKnowing_valid accepted
  simp only [Checked.seq_eq_valid, Checked.map_eq_valid] at valid
  obtain ⟨_, ⟨_, ⟨_, ⟨_, ⟨duration, isDuration, rfl⟩, delay, _, rfl⟩, easing, _, rfl⟩, _, _, rfl⟩,
    what, isKind, rfl⟩ := valid
  refine ⟨?_, given, isKind⟩
  rw [Reader.required] at isDuration
  split at isDuration
  · have checked := (Checked.also_eq_valid.mp (Checked.within_eq_valid.mp isDuration)).2
    by_contra below
    rw [if_neg below] at checked
    cases checked
  · cases isDuration

/-- Typing that is read has settings that are valid. -/
theorem types_of_read {data : Json} (accepted : read data = .valid effect)
    (kind : effect.kind = .typewriter cursor blinkFrames charsPerFrame) :
    Types effect cursor blinkFrames charsPerFrame := by
  obtain ⟨name, reader, found, given, valid⟩ := Reader.tagged_valid accepted
  have laws : readers.Forall fun entry => ∀ data, entry.2 data = .valid effect →
      Types effect cursor blinkFrames charsPerFrame := by
    refine ⟨?fade, ?slide, ?push, ?scale, ?wipe, ?typewriter, ?spring⟩ <;> intro data valid <;>
      obtain ⟨duration, given, isKind⟩ := reader_valid valid <;> rw [kind] at isKind
    case typewriter =>
      simp only [Checked.seq_eq_valid, Checked.map_eq_valid] at isKind
      obtain ⟨_, ⟨_, ⟨_, _, rfl⟩, _, isBlink, rfl⟩, _, isSpeed, same⟩ := isKind
      cases same
      refine ⟨kind, duration, ?_, ?_⟩
      · refine Reader.defaulted_holds isBlink (by decide) fun data count checked => ?_
        have above := (Checked.also_eq_valid.mp checked).2
        by_contra below
        rw [if_pos (Int.not_lt.mp below)] at above
        cases above
      · refine Reader.defaulted_holds isSpeed (by decide) fun data speed checked => ?_
        have above := (Checked.also_eq_valid.mp checked).2
        by_contra below
        rw [if_neg below] at above
        cases above
    all_goals simp [readSpan, Checked.seq_eq_valid, Checked.map_eq_valid] at isKind
  exact List.forall_iff_forall_mem.mp laws _ (Reader.mem_of_lookup found) given valid

/-! ## Counts -/

/-- Whether typing at a frame is calculated without overflow: while the text is typed, neither the
symbols nor, if there is a cursor, the frames that it stays as it is are too many for a double. -/
def TypesFinitely (effect : Effect) (cursor : Bool) (blinkFrames : Int)
    (charsPerFrame frame : Float) : Prop :=
  effect.delay ≤ frame → frame - effect.delay < effect.duration →
    ((frame - effect.delay) * charsPerFrame).isFinite = true ∧
      (cursor = true → (Number.ofInt blinkFrames).isFinite = true)

/-- Whether so many symbols of a text are typed at a frame. -/
def IsTyped (effect : Effect) (charsPerFrame : Float) (size : Nat) (frame : Float) (count : Nat) :
    Prop :=
  (frame < effect.delay ∧ count = 0) ∨
    (effect.delay ≤ frame ∧ effect.duration ≤ frame - effect.delay ∧ count = size) ∨
    (effect.delay ≤ frame ∧ frame - effect.delay < effect.duration ∧
      ∃ typed : Nat, Number.floor ((frame - effect.delay) * charsPerFrame) = .ok (typed : Int) ∧
        count = min typed size)

/-- No more symbols are typed than there are. -/
theorem IsTyped.le_size {size count : Nat} (typed : IsTyped effect charsPerFrame size frame count) :
    count ≤ size := by
  rcases typed with ⟨_, rfl⟩ | ⟨_, _, rfl⟩ | ⟨_, _, k, _, rfl⟩
  · exact Nat.zero_le size
  · exact le_rfl
  · exact Nat.min_le_right k size

/-- From the delay on and before the end what has passed is finite and not below zero. -/
theorem finite_of_running (finite : frame.isFinite = true)
    (finiteDelay : effect.delay.isFinite = true) (finiteDuration : effect.duration.isFinite = true)
    (reached : effect.delay ≤ frame) (running : frame - effect.delay < effect.duration) :
    0.0 ≤ frame - effect.delay ∧ (frame - effect.delay).isFinite = true := by
  have numberPassed := isNaN_sub (isNaN_of_isFinite finite) finiteDelay
  have above : 0.0 ≤ frame - effect.delay := by
    refine le_of_not_lt isNaN_zero numberPassed fun below => ?_
    exact not_le_of_lt ((sub_lt_zero_iff finite finiteDelay).mp below) reached
  exact ⟨above, isFinite_of_lt finiteDuration above running⟩

/-- No fewer symbols are typed later on. -/
theorem IsTyped.mono {size i j : Nat} (finiteDelay : effect.delay.isFinite = true)
    (finiteDuration : effect.duration.isFinite = true) (finiteSpeed : charsPerFrame.isFinite = true)
    (nonneg : 0.0 ≤ charsPerFrame) (finite : f.isFinite = true) (finiteOther : g.isFinite = true)
    (le : f ≤ g) (first : IsTyped effect charsPerFrame size f i)
    (second : IsTyped effect charsPerFrame size g j) : i ≤ j := by
  obtain ⟨number, numberOther⟩ := isNaN_of_le le
  have later := sub_le_sub number numberOther finiteDelay le
  obtain ⟨numberPassed, numberPassedOther⟩ := isNaN_of_le later
  -- No phase is followed by an earlier one.
  have started (reached : effect.delay ≤ f) : ¬ g < effect.delay := fun waiting =>
    not_le_of_lt waiting (le_trans (isNaN_of_isFinite finiteDelay) number numberOther reached le)
  rcases first with ⟨_, rfl⟩ | ⟨reached, ended, rfl⟩ | ⟨reached, running, k, typed, rfl⟩
  · exact Nat.zero_le j
  · have endedOther := le_trans (isNaN_of_isFinite finiteDuration) numberPassed numberPassedOther
      ended later
    rcases second with ⟨waiting, _⟩ | ⟨_, _, rfl⟩ | ⟨_, running, _⟩
    · exact absurd waiting (started reached)
    · exact le_rfl
    · exact absurd endedOther (not_le_of_lt running)
  · rcases second with ⟨waiting, _⟩ | ⟨_, _, rfl⟩ | ⟨reachedOther, runningOther, l, typedOther, rfl⟩
    · exact absurd waiting (started reached)
    · exact Nat.min_le_right k _
    · have passed := (finite_of_running finite finiteDelay finiteDuration reached running).2
      have passedOther :=
        (finite_of_running finiteOther finiteDelay finiteDuration reachedOther runningOther).2
      have order := floor_mono typed typedOther (units_mul_mono passed passedOther finiteSpeed
        (nonneg_iff.mp nonneg).2 ((le_iff_units numberPassed numberPassedOther).mp later))
      omega

/-! ## Styles of typing -/

/-- Whether the cursor is on has an answer at a finite frame. -/
theorem exists_blinkOn (finite : x.isFinite = true) (nonneg : 0.0 ≤ x) (positive : 0 < blinkFrames)
    (fits : (Number.ofInt blinkFrames).isFinite = true) :
    ∃ on, blinkOn x blinkFrames = .ok on := by
  have least := whole_le_units_ofInt positive
  have some_units := whole_pos
  have some_frames : ¬ (Number.ofInt blinkFrames == 0.0) = true := by
    rw [beq_iff_units (isNaN_of_isFinite fits) isNaN_zero, units_zero]
    omega
  obtain ⟨count, floored, _⟩ :=
    exists_floor (isFinite_div finite fits (nonneg_iff.mp nonneg).2 least)
  refine ⟨count % 2 == 0, ?_⟩
  rw [blinkOn, if_neg (by simp [isInf_of_isFinite fits]), Number.divide, if_neg some_frames]
  change (Number.floor (x / Number.ofInt blinkFrames) >>= _) = _
  rw [floored]
  rfl

/-- The first symbols of a text, as a text. -/
def typedText (count : Nat) (text : String) : String := String.ofList (Text.front count text.toList)

/-- The style of typing shows as many symbols as the product of what has passed and the speed has
ones, and the cursor is not on once that is all of the text. -/
theorem exists_typedStyle (types : Types effect cursor blinkFrames charsPerFrame)
    (finiteSpeed : charsPerFrame.isFinite = true) (finite : x.isFinite = true) (nonneg : 0.0 ≤ x)
    (fits : (x * charsPerFrame).isFinite = true)
    (blinks : cursor = true → (Number.ofInt blinkFrames).isFinite = true) (text : String) :
    ∃ (typed : Nat) (on : Bool), Number.floor (x * charsPerFrame) = .ok (typed : Int) ∧
      typedStyle cursor blinkFrames charsPerFrame x text = .ok
        { visibleText := some (typedText (min typed (Text.size text.toList)) text)
          showCursor := some on } ∧
      (on = true → typed < Text.size text.toList) := by
  obtain ⟨n, floored, _, upper⟩ := exists_floor fits
  have rounding := isRoundingOf_mul finite finiteSpeed
  have above : 0 ≤ units (x * charsPerFrame) := rounding.nonneg (div_nonneg (mul_nonneg
    (by exact_mod_cast (nonneg_iff.mp nonneg).2)
    (by exact_mod_cast (nonneg_iff.mp types.charsPerFrame).2)) (Nat.cast_nonneg _))
  obtain ⟨typed, rfl⟩ : ∃ typed : Nat, n = typed := by
    have room : (0 : Int) < whole := Int.natCast_pos.mpr whole_pos
    have more : 0 < n + 1 :=
      lt_of_mul_lt_mul_right (by rw [zero_mul]; exact above.trans_lt upper) room.le
    exact ⟨n.toNat, by omega⟩
  obtain ⟨on, known⟩ :
      ∃ on, (if cursor = true then blinkOn x blinkFrames else .ok false) = .ok on := by
    cases cursor with
    | false => exact ⟨false, rfl⟩
    | true => exact exists_blinkOn finite nonneg types.blinkFrames (blinks rfl)
  have count : (min (typed : Int) (Text.size text.toList : Int)).toNat =
      min typed (Text.size text.toList) := by omega
  refine ⟨typed, on && decide (min (typed : Int) (Text.size text.toList : Int) <
    (Text.size text.toList : Int)), floored, ?_, fun shown => ?_⟩
  · rw [typedStyle, floored, ← count]
    cases cursor with
    | false =>
      cases known
      rfl
    | true =>
      change (blinkOn x blinkFrames >>= _) = _
      rw [show blinkOn x blinkFrames = .ok on from known]
      rfl
  · rw [Bool.and_eq_true, decide_eq_true_iff] at shown
    omega

/-- At a finite frame typing shows the front of a text, and from the delay on the cursor is not on
once that is all of the text. -/
theorem Types.exists_style (types : Types effect cursor blinkFrames charsPerFrame)
    (finiteDelay : effect.delay.isFinite = true) (finiteDuration : effect.duration.isFinite = true)
    (finiteSpeed : charsPerFrame.isFinite = true) (finite : frame.isFinite = true)
    (fits : TypesFinitely effect cursor blinkFrames charsPerFrame frame) (viewport : Viewport) :
    ∃ (count : Nat) (on : Bool),
      IsTyped effect charsPerFrame (Text.size viewport.text.toList) frame count ∧
      effect.style viewport frame = .ok
        { visibleText := some (typedText count viewport.text), showCursor := some on } ∧
      (effect.delay ≤ frame → on = true → count < Text.size viewport.text.toList) := by
  rcases style_cases viewport finite finiteDelay finiteDuration with
    ⟨waiting, shown⟩ | ⟨reached, ended, shown⟩ | ⟨reached, nonneg, running, shown⟩
  · refine ⟨0, cursor, .inl ⟨waiting, rfl⟩, ?_,
      fun reached => absurd reached (not_le_of_lt waiting)⟩
    rw [shown, initialStyle, types.kind]
    rfl
  · refine ⟨_, false, .inr (.inl ⟨reached, ended, rfl⟩), ?_, nofun⟩
    rw [shown, finalStyle, types.kind, typedText, Text.front_size, String.ofList_toList]
    rfl
  · obtain ⟨few, blinks⟩ := fits reached running
    obtain ⟨typed, on, floored, known, fewer⟩ := exists_typedStyle types finiteSpeed
      (isFinite_of_lt finiteDuration nonneg running) nonneg few blinks viewport.text
    refine ⟨_, on, .inr (.inr ⟨reached, running, typed, floored, rfl⟩), ?_, fun _ isOn => ?_⟩
    · rw [shown, runningStyle, types.kind]
      change (typedStyle _ _ _ _ _).mapError _ = _
      rw [known]
      rfl
    · have := fewer isOn
      omega

/-- Whether a text and a cursor are what typing shows at a frame: the text is a front of the one to
type, and all of it from the end on, and the cursor is not on beside all of it from the delay
on. -/
structure Shows (effect : Effect) (viewport : Viewport) (frame : Float) (shown : String)
    (on : Bool) : Prop where
  /-- They are the style of the effect. -/
  style : effect.style viewport frame = .ok { visibleText := some shown, showCursor := some on }
  /-- The text to type begins with what is shown. -/
  front : IsFront shown viewport.text
  /-- From the end on all of it is shown, be the end told by doubles or exactly. -/
  whole : effect.duration ≤ frame - effect.delay ∨
    units effect.delay + units effect.duration ≤ units frame → shown = viewport.text
  /-- From the delay on the cursor is not on beside all of it. -/
  cursor : effect.delay ≤ frame → on = true → shown ≠ viewport.text

/-- At a finite frame typing shows so many symbols as are typed. -/
theorem Types.exists_shows (types : Types effect cursor blinkFrames charsPerFrame)
    (finiteDelay : effect.delay.isFinite = true) (finiteDuration : effect.duration.isFinite = true)
    (finiteSpeed : charsPerFrame.isFinite = true) (finite : frame.isFinite = true)
    (fits : TypesFinitely effect cursor blinkFrames charsPerFrame frame) (viewport : Viewport) :
    ∃ (count : Nat) (on : Bool),
      IsTyped effect charsPerFrame (Text.size viewport.text.toList) frame count ∧
      Shows effect viewport frame (typedText count viewport.text) on := by
  obtain ⟨count, on, typed, shown, fewer⟩ :=
    types.exists_style finiteDelay finiteDuration finiteSpeed finite fits viewport
  have all : typedText (Text.size viewport.text.toList) viewport.text = viewport.text := by
    rw [typedText, Text.front_size, String.ofList_toList]
  refine ⟨count, on, typed, shown, ?_, fun ended => ?_, fun reached isOn whole => ?_⟩
  · have front := isFront_front typed.le_size viewport.text.toList
    rwa [← typedText, ← typedText, all] at front
  · -- An end that is told exactly is told by doubles, too.
    have past : effect.duration ≤ frame - effect.delay := by
      rcases ended with past | sum
      · exact past
      · exact le_sub_of_units_le finiteDuration finite finiteDelay (by omega)
    have numberPassed := (isNaN_of_le past).2
    have reached : ¬ frame < effect.delay := fun waiting => by
      have below := (sub_lt_zero_iff finite finiteDelay).mpr waiting
      exact not_le_of_lt below
        (le_trans isNaN_zero (isNaN_of_isFinite finiteDuration) numberPassed types.duration
          past)
    rcases typed with ⟨waiting, _⟩ | ⟨_, _, rfl⟩ | ⟨_, running, _⟩
    · exact absurd waiting reached
    · exact all
    · exact absurd past (not_le_of_lt running)
  · have sizes := congrArg (fun text => Text.size text.toList) whole
    simp only [typedText, String.toList_ofList, Text.size_front] at sizes
    have := fewer reached isOn
    omega

/-- Typing only grows. Of two finite frames at which nothing overflows, what is shown at the later
one begins with what is shown at the earlier one. Both are fronts of the text, and all of it from
the end on, in each of the phases; and from the delay on the cursor is never on beside all of the
text. -/
theorem style_types (types : Types effect cursor blinkFrames charsPerFrame)
    (finiteDelay : effect.delay.isFinite = true) (finiteDuration : effect.duration.isFinite = true)
    (finiteSpeed : charsPerFrame.isFinite = true) (finite : f.isFinite = true)
    (finiteOther : g.isFinite = true) (le : f ≤ g)
    (fits : TypesFinitely effect cursor blinkFrames charsPerFrame f)
    (fitsOther : TypesFinitely effect cursor blinkFrames charsPerFrame g) (viewport : Viewport) :
    ∃ (shown shownOther : String) (on onOther : Bool), Shows effect viewport f shown on ∧
      Shows effect viewport g shownOther onOther ∧ IsFront shown shownOther := by
  obtain ⟨i, on, typed, shows⟩ :=
    types.exists_shows finiteDelay finiteDuration finiteSpeed finite fits viewport
  obtain ⟨j, onOther, typedOther, showsOther⟩ :=
    types.exists_shows finiteDelay finiteDuration finiteSpeed finiteOther fitsOther viewport
  have grows := typed.mono finiteDelay finiteDuration finiteSpeed types.charsPerFrame finite
    finiteOther le typedOther
  exact ⟨_, _, on, onOther, shows, showsOther, isFront_front grows viewport.text.toList⟩

/-- Typing at half a symbol in a frame. -/
def slowTyping : Effect := { duration := 10.0, delay := 2.0, kind := .typewriter true 15 0.5 }

/-- It is typing as it is read; three frames behind its delay one symbol is typed, and ten behind
it all of the text is. -/
theorem slowTyping_types : ∃ (shown shownOther : String) (on onOther : Bool),
    Shows slowTyping { text := "Hello" } 5.0 shown on ∧
      Shows slowTyping { text := "Hello" } 12.0 shownOther onOther ∧ IsFront shown shownOther ∧
      shown = "H" ∧ on = true ∧ shownOther = "Hello" := by
  have accepted : read (.obj [("type", .str "typewriter"), ("duration_frames", .float 10.0),
      ("delay_frames", .float 2.0), ("chars_per_frame", .float 0.5)]) = .valid slowTyping := by rfl
  obtain ⟨shown, shownOther, on, onOther, first, second, front⟩ :=
    style_types (types_of_read accepted rfl) (by decide) (by decide)
      (by decide) (show (5.0 : Float).isFinite = true by decide)
      (show (12.0 : Float).isFinite = true by decide) (by decide)
      (fun _ _ => ⟨by decide, fun _ => by decide⟩)
      (fun _ running => absurd running (by decide)) { text := "Hello" }
  have typed : slowTyping.style { text := "Hello" } 5.0 =
      .ok { visibleText := some "H", showCursor := some true } := by rfl
  have same : shown = "H" ∧ on = true := by simpa using first.style.symm.trans typed
  exact ⟨shown, shownOther, on, onOther, first, second, front, same.1, same.2,
    second.whole (.inl (by decide))⟩

end Effect

end Storyboard
