import Mathlib.Data.List.Basic
import Storyboard.Composition.Reader
/-!
# Values that are read back

A value that was read may be written as plain data again. It is read back if the reader takes what
is written for the same value. This is a law of a reader and a writer together, and it is asked for
the values that are read, not for all: a reader checks bounds, and a value outside of them is
never read. Each way to join readers keeps the law.
-/
namespace Storyboard.Schema

variable {α β : Type}

namespace Checked

/-- A changed value is valid if there is a value to change. -/
theorem map_eq_valid {f : α → β} {x : Checked α} {b : β} :
    f <$> x = .valid b ↔ ∃ a, x = .valid a ∧ f a = b := by
  cases x <;> simp [Functor.map, map]

/-- An application is valid if both of its sides are. -/
theorem seq_eq_valid {f : Checked (α → β)} {x : Checked α} {b : β} :
    f <*> x = .valid b ↔ ∃ g, f = .valid g ∧ ∃ a, x = .valid a ∧ g a = b := by
  cases f <;> cases x <;> simp [Seq.seq, apply]

/-- Some changed value is valid as one wants it if some value is, which is then changed. -/
theorem exists_map_eq_valid {f : α → β} {x : Checked α} {wanted : β → Prop} :
    (∃ b, f <$> x = .valid b ∧ wanted b) ↔ ∃ a, x = .valid a ∧ wanted (f a) := by
  simp only [map_eq_valid]
  constructor
  · rintro ⟨_, ⟨a, found, rfl⟩, holds⟩
    exact ⟨a, found, holds⟩
  · rintro ⟨a, found, holds⟩
    exact ⟨f a, ⟨a, found, rfl⟩, holds⟩

/-- Some application is valid as one wants it if some function and some value are. Of an object
this tells the values of its fields one after the other. -/
theorem exists_seq_eq_valid {f : Checked (α → β)} {x : Checked α} {wanted : β → Prop} :
    (∃ b, f <*> x = .valid b ∧ wanted b) ↔
      ∃ g, f = .valid g ∧ ∃ a, x = .valid a ∧ wanted (g a) := by
  simp only [seq_eq_valid]
  constructor
  · rintro ⟨_, ⟨g, foundFunction, a, found, rfl⟩, holds⟩
    exact ⟨g, foundFunction, a, found, holds⟩
  · rintro ⟨g, foundFunction, a, found, holds⟩
    exact ⟨g a, ⟨g, foundFunction, a, found, rfl⟩, holds⟩

/-- Where something stands does not change whether it is valid. -/
@[simp] theorem within_eq_valid {key : String} {x : Checked α} {a : α} :
    x.within key = .valid a ↔ x = .valid a := by
  cases x <;> simp [within]

/-- What is asked more of a valid value holds of it. -/
theorem also_eq_valid {more : α → Option IssueKind} {x : Checked α} {a : α} :
    x.also more = .valid a ↔ x = .valid a ∧ more a = none := by
  cases x with
  | invalid issues => simp [also]
  | valid value =>
    constructor
    · intro accepted
      cases asked : more value with
      | some kind => simp [also, asked, fail] at accepted
      | none =>
        obtain rfl : value = a := by simpa [also, asked] using accepted
        exact ⟨rfl, asked⟩
    · rintro ⟨⟨⟩, asked⟩
      simp [also, asked]

end Checked

namespace Reader

/-- Whatever value is read, the reader takes what is written of it for the same value. -/
def ReadsBack (read : Reader α) (write : α → Json) : Prop :=
  ∀ data value, read data = .valid value → read (write value) = .valid value

/-- The law for one field of an object: whatever value is read of the field, it is read again in an
object that holds what is written of it under the key. -/
def FieldReadsBack (field : Fields → Checked α) (key : String) (write : α → Json) : Prop :=
  ∀ ⦃given value⦄, field given = .valid value →
    ∀ ⦃written : Fields⦄, written.lookup key = some (write value) → field written = .valid value

/-! ## Single values -/

/-- A text is written as it is. -/
theorem string_readsBack : ReadsBack string .str := fun _ _ _ => rfl

/-- A number is written as the double it was read for. -/
theorem float_readsBack : ReadsBack float .float := fun _ _ _ => rfl

/-- A whole number is written as such, also where a double or a numeral was given. -/
theorem int_readsBack : ReadsBack int .int := fun _ _ _ => rfl

/-- A truth value is written as such, also where a word or a number was given. -/
theorem bool_readsBack : ReadsBack bool .bool := fun _ _ _ => rfl

/-- An object of free keys is written as it is. -/
theorem fields_readsBack : ReadsBack fields .obj := fun _ _ _ => rfl

/-- What more is asked of a value is asked again, and holds again. -/
theorem ReadsBack.also {read : Reader α} {write : α → Json} (law : ReadsBack read write)
    (more : α → Option IssueKind) : ReadsBack (fun data => (read data).also more) write := by
  intro data value accepted
  obtain ⟨found, asked⟩ := Checked.also_eq_valid.mp accepted
  exact Checked.also_eq_valid.mpr ⟨law data value found, asked⟩

/-- A number of at least zero is one again. -/
theorem nonNegative_readsBack : ReadsBack nonNegative .float := float_readsBack.also _

/-- A number above zero is one again. -/
theorem positive_readsBack : ReadsBack positive .float := float_readsBack.also _

/-- A whole number above zero is one again. -/
theorem positiveInt_readsBack : ReadsBack positiveInt .int := int_readsBack.also _

/-- A changed value is read back if what is written of it is written of the value before. -/
theorem ReadsBack.map {read : Reader α} {before : α → Json} (law : ReadsBack read before)
    {f : α → β} {write : β → Json} (same : ∀ value, write (f value) = before value) :
    ReadsBack (fun data => (read data).map f) write := by
  intro data value accepted
  obtain ⟨found, foundRead, rfl⟩ := Checked.map_eq_valid.mp accepted
  rw [same]
  exact Checked.map_eq_valid.mpr ⟨found, law data found foundRead, rfl⟩

/-- What is found under a name is there under it. -/
theorem mem_of_lookup {choices : List (String × α)} {name : String} {value : α}
    (found : choices.lookup name = some value) : (name, value) ∈ choices := by
  obtain ⟨before, after, rfl, -⟩ := List.lookup_eq_some_iff.mp found
  exact List.mem_append_right before List.mem_cons_self

/-- A choice is read back if each choice has a whole name under which it is found. -/
theorem oneOf_readsBack (label : α → String) {otherwise : IssueKind}
    {choices : List (String × α)} (named : choices.Forall fun choice =>
      Text.isWhole (label choice.2) = true ∧ choices.lookup (label choice.2) = some choice.2) :
    ReadsBack (oneOf otherwise choices) fun value => .str (label value) := by
  intro data value accepted
  -- the choice may have been given under another name than the one it is written with
  obtain ⟨text, found⟩ : ∃ text, choices.lookup text = some value := by
    cases data with
    | str text =>
      simp only [oneOf, ofText] at accepted
      split at accepted
      · split at accepted
        · cases accepted
          exact ⟨text, ‹_›⟩
        · nomatch accepted
      · nomatch accepted
    | _ => nomatch accepted
  obtain ⟨whole, again⟩ := List.forall_iff_forall_mem.mp named _ (mem_of_lookup found)
  simp only [oneOf, ofText, whole, again, if_true]

/-- What may be nothing is read back if what is written of a value is never nothing. -/
theorem ReadsBack.nullable {read : Reader α} {write : α → Json} (law : ReadsBack read write)
    (something : ∀ value, write value ≠ .null) :
    ReadsBack (nullable read) (Json.ofOption write) := by
  intro data value accepted
  cases value with
  | none => rfl
  | some value =>
    have found : read data = .valid value := by
      cases data with
      | null => nomatch accepted
      | _ =>
        obtain ⟨found, foundRead, same⟩ := Checked.map_eq_valid.mp accepted
        rw [foundRead, Option.some.inj same]
    have again := law data value found
    have isValue := something value
    -- what is written is not nothing, so it is read as a value
    simp only [Json.ofOption]
    generalize write value = written at again isValue
    cases written with
    | null => exact absurd rfl isValue
    | _ => exact Checked.map_eq_valid.mpr ⟨value, again, rfl⟩

/-- The values of a list are read back wherever the counting starts. -/
theorem ReadsBack.itemsFrom {read : Reader α} {write : α → Json} (law : ReadsBack read write)
    {items : List Json} {values : List α} {position : Nat}
    (accepted : itemsFrom read position items = .valid values) :
    itemsFrom read position (values.map write) = .valid values := by
  induction items generalizing position values with
  | nil =>
    cases accepted
    rfl
  | cons item rest ih =>
    obtain ⟨_, itemRead, others, restRead, rfl⟩ := Checked.seq_eq_valid.mp accepted
    obtain ⟨value, valueRead, rfl⟩ := Checked.map_eq_valid.mp itemRead
    have again := law item value (Checked.within_eq_valid.mp valueRead)
    exact Checked.seq_eq_valid.mpr
      ⟨_, Checked.map_eq_valid.mpr ⟨value, Checked.within_eq_valid.mpr again, rfl⟩, others,
        ih restRead, rfl⟩

/-- A list is read back if its values are. -/
theorem ReadsBack.list {read : Reader α} {write : α → Json} (law : ReadsBack read write) :
    ReadsBack (list read) (Json.ofList write) := by
  intro data values accepted
  cases data with
  | arr items => exact law.itemsFrom accepted
  | _ => nomatch accepted

/-! ## Fields -/

/-- A field that has to be there is read back. -/
theorem ReadsBack.required {read : Reader α} {write : α → Json} (law : ReadsBack read write)
    {key : String} : FieldReadsBack (fun given => required given key read) key write := by
  intro given value accepted written held
  simp only [Reader.required] at accepted ⊢
  simp only [held, Checked.within_eq_valid]
  split at accepted
  · exact law _ value (Checked.within_eq_valid.mp accepted)
  · nomatch accepted

/-- A field that may be left out is read back if its default is. -/
theorem ReadsBack.defaulted {read : Reader α} {write : α → Json} (law : ReadsBack read write)
    {key : String} {default : α} (sound : read (write default) = .valid default) :
    FieldReadsBack (fun given => defaulted given key default read) key write := by
  intro given value accepted written held
  simp only [Reader.defaulted] at accepted ⊢
  simp only [held, Checked.within_eq_valid]
  split at accepted
  · exact law _ value (Checked.within_eq_valid.mp accepted)
  · cases accepted
    exact sound

/-- A field that may be left out keeps to what holds of its default and of what is read for it. -/
theorem defaulted_holds {read : Reader α} {given : Fields} {key : String} {default value : α}
    {holds : α → Prop} (accepted : defaulted given key default read = .valid value)
    (sound : holds default) (checked : ∀ data value, read data = .valid value → holds value) :
    holds value := by
  simp only [Reader.defaulted] at accepted
  split at accepted
  · exact checked _ value (Checked.within_eq_valid.mp accepted)
  · cases accepted
    exact sound

/-- A field that may be left out or be nothing is read back. -/
theorem ReadsBack.optional {read : Reader α} {write : α → Json} (law : ReadsBack read write)
    {key : String} (something : ∀ value, write value ≠ .null) :
    FieldReadsBack (fun given => optional given key read) key (Json.ofOption write) :=
  (law.nullable something).defaulted rfl

/-- A field that can hold one name only is read back if the name is whole. -/
theorem constant_readsBack {key name : String} (whole : Text.isWhole name = true) :
    FieldReadsBack (fun given => constant given key name) key fun _ => .str name :=
  (oneOf_readsBack (fun _ => name) (by simp [whole])).defaulted
    (by simp [oneOf, ofText, whole])

/-! ## Objects -/

/-- An object of fixed fields is read from an object. -/
theorem modelKnowing_valid {known : Fields → List String} {read : Fields → Checked α}
    {data : Json} {value : α} (accepted : modelKnowing known read data = .valid value) :
    ∃ given, read given = .valid value := by
  cases data with
  | obj given =>
    refine ⟨given, ?_⟩
    simp only [modelKnowing] at accepted
    split at accepted
    · simp only [closed] at accepted
      split at accepted
      · exact accepted
      · cases found : read given <;> simp [found, Checked.map, Checked.apply] at accepted
    · nomatch accepted
  | _ => nomatch accepted

/-- In an object with exactly the fields that are asked for, nothing but the fields is checked. -/
theorem modelKnowing_of_keys {known : Fields → List String} {read : Fields → Checked α}
    {written : Fields} (keys : written.map (·.1) = known written)
    (whole : (known written).all Text.isWhole = true) :
    modelKnowing known read (.obj written) = read written := by
  have allWhole : (written.all fun field => Text.isWhole field.1) = true := by
    rw [← keys, List.all_map] at whole
    exact whole
  have noneUnknown : unknownFields (known written) written = [] := by
    rw [unknownFields, List.map_eq_nil_iff, List.filter_eq_nil_iff]
    intro field isField
    have isKnown : field.1 ∈ known written := keys ▸ List.mem_map_of_mem isField
    simpa using isKnown
  simp only [modelKnowing, allWhole, if_true, closed, noneUnknown]

/-- An object of fixed fields is read back if each of its values is written as an object of just
these fields, from which they are read back. The value is told apart from what is found, so that
`exists_seq_eq_valid` takes both readings apart into the fields. -/
theorem modelKnowing_readsBack {known : Fields → List String} {read : Fields → Checked α}
    {write : α → Json}
    (again : ∀ given value, (∃ found, read given = .valid found ∧ found = value) →
      ∃ written : Fields, write value = .obj written ∧ written.map (·.1) = known written ∧
        (known written).all Text.isWhole = true ∧
        ∃ found, read written = .valid found ∧ found = value) :
    ReadsBack (modelKnowing known read) write := by
  intro data value accepted
  obtain ⟨given, found⟩ := modelKnowing_valid accepted
  obtain ⟨written, isObject, keys, whole, _, foundAgain, rfl⟩ :=
    again given value ⟨value, found, rfl⟩
  rw [isObject]
  exact (modelKnowing_of_keys keys whole).trans foundAgain

/-- The law for one of several kinds of objects: whatever value is read of the kind, an object is
written of it that tells the kind and is read for the same value. -/
def KindReadsBack (tag : String) (write : α → Json) (kind : String × Reader α) : Prop :=
  ∀ data value, kind.2 data = .valid value →
    ∃ written : Fields, write value = .obj written ∧
      written.lookup tag = some (.str kind.1) ∧ kind.2 (.obj written) = .valid value

/-- An object of fixed fields that tells its kind is read back as one of its kind. -/
theorem modelKnowing_kindReadsBack {tag name : String} {known : Fields → List String}
    {read : Fields → Checked α} {write : α → Json}
    (again : ∀ given value, (∃ found, read given = .valid found ∧ found = value) →
      ∃ written : Fields, write value = .obj written ∧ written.lookup tag = some (.str name) ∧
        written.map (·.1) = known written ∧ (known written).all Text.isWhole = true ∧
        ∃ found, read written = .valid found ∧ found = value) :
    KindReadsBack tag write (name, modelKnowing known read) := by
  intro data value accepted
  obtain ⟨given, found⟩ := modelKnowing_valid accepted
  obtain ⟨written, isObject, tells, keys, whole, _, foundAgain, rfl⟩ :=
    again given value ⟨value, found, rfl⟩
  exact ⟨written, isObject, tells, (modelKnowing_of_keys keys whole).trans foundAgain⟩

/-- What is read back on its own is read back as one of several kinds, if what is written of it
tells the kind. -/
theorem ReadsBack.kind {read : Reader α} {before : α → Json} (law : ReadsBack read before)
    {tag name : String} {f : α → β} {write : β → Json}
    (same : ∀ value, write (f value) = before value)
    (told : ∀ value, ∃ written : Fields, before value = .obj written ∧
      written.lookup tag = some (.str name)) :
    KindReadsBack tag write (name, fun data => (read data).map f) := by
  intro data value accepted
  have again := law.map same data value accepted
  obtain ⟨found, -, rfl⟩ := Checked.map_eq_valid.mp accepted
  obtain ⟨written, isObject, tells⟩ := told found
  rw [same, isObject] at again
  exact ⟨written, (same found).trans isObject, tells, again⟩

/-- What is read as one of several kinds is read as some kind of them. -/
theorem tagged_valid {tag : String} {kinds : List (String × Reader α)} {data : Json} {value : α}
    (accepted : tagged tag kinds data = .valid value) :
    ∃ name read, kinds.lookup name = some read ∧ ∃ given, read given = .valid value := by
  cases data with
  | obj given =>
    simp only [tagged] at accepted
    split at accepted
    · nomatch accepted
    · split at accepted
      · exact ⟨_, _, ‹_›, _, Checked.within_eq_valid.mp accepted⟩
      · nomatch accepted
    · nomatch accepted
  | _ => nomatch accepted

/-- An object of one of several kinds is read back if each kind is. -/
theorem tagged_readsBack {tag : String} {kinds : List (String × Reader α)} {write : α → Json}
    (laws : kinds.Forall (KindReadsBack tag write)) : ReadsBack (tagged tag kinds) write := by
  intro data value accepted
  obtain ⟨name, read, found, given, valueRead⟩ := tagged_valid accepted
  have law := List.forall_iff_forall_mem.mp laws _ (mem_of_lookup found)
  obtain ⟨written, isObject, tells, again⟩ := law given value valueRead
  rw [isObject]
  simp only [tagged, tells, found, Checked.within_eq_valid]
  exact again

end Reader
end Storyboard.Schema
