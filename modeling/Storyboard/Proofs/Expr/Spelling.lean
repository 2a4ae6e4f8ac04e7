import Mathlib
import Storyboard.Proofs.Expr.Dependence
import Storyboard.Proofs.Expr.Grammar
import Storyboard.Proofs.Expr.Separation
/-!
# Anchors as they are spelled

The spelling of an anchor is an expression that reads this anchor and nothing else. A name in it may
be any identifier, one that is also a function, a unit or a property included, since what follows a
name in a spelling ends it.

Main statement: the spelling of an anchor that an author can write is read, names that anchor alone,
and has its position (`Anchor.parse_describe`).
-/
namespace Storyboard

/-! ## Identifiers -/

/-- Whether a character is a letter of A to Z or of a to z. -/
def IsLetter (c : Char) : Prop := ('A' ≤ c ∧ c ≤ 'Z') ∨ ('a' ≤ c ∧ c ≤ 'z')

instance : DecidablePred IsLetter := fun _ => inferInstanceAs (Decidable (_ ∨ _))

/-- Whether a text is an identifier: a letter or an underscore, and behind it letters, digits of 0
to 9, underscores and hyphens. -/
def IsIdentifier (text : String) : Prop :=
  ∃ first rest, text.toList = first :: rest ∧ (IsLetter first ∨ first = '_') ∧
    ∀ c ∈ rest, IsLetter c ∨ ('0' ≤ c ∧ c ≤ '9') ∨ c = '_' ∨ c = '-'

/-- Letters are an identifier. -/
theorem isIdentifier_of_letters {name : String} (nonempty : name.toList ≠ [])
    (letters : name.toList.all (fun c => decide (IsLetter c)) = true) : IsIdentifier name := by
  obtain ⟨first, rest, whole⟩ := List.exists_cons_of_ne_nil nonempty
  have inside : ∀ c ∈ name.toList, IsLetter c := fun c member =>
    of_decide_eq_true (List.all_eq_true.mp letters c member)
  rw [whole] at inside
  exact ⟨first, rest, whole, .inl (inside first List.mem_cons_self), fun c member =>
    .inl (inside c (List.mem_cons_of_mem _ member))⟩

namespace Token

/-- Letters are those of the alphabet. -/
theorem isAlpha_of_isLetter {c : Char} (letter : IsLetter c) : c.isAlpha = true := by
  simp only [Char.isAlpha, Char.isUpper, Char.isLower, Bool.or_eq_true, Bool.and_eq_true,
    decide_eq_true_eq]
  exact letter

/-- An identifier begins as one. -/
theorem startsIdentifier_of_isLetter {c : Char} (letter : IsLetter c ∨ c = '_') :
    startsIdentifier c = true := by
  rw [startsIdentifier, Bool.or_eq_true, beq_iff_eq]
  exact letter.imp isAlpha_of_isLetter id

/-- An identifier goes on as one. -/
theorem continuesIdentifier_of_isLetter {c : Char}
    (inside : IsLetter c ∨ ('0' ≤ c ∧ c ≤ '9') ∨ c = '_' ∨ c = '-') :
    continuesIdentifier c = true := by
  simp only [continuesIdentifier, Char.isAlphanum, Bool.or_eq_true, beq_iff_eq]
  rcases inside with letter | digit | rfl | rfl
  · exact .inl (.inl (.inl (isAlpha_of_isLetter letter)))
  · refine .inl (.inl (.inr ?_))
    rw [Char.isDigit, Bool.and_eq_true, decide_eq_true_iff, decide_eq_true_iff]
    exact digit
  · exact .inl (.inr rfl)
  · exact .inr rfl

/-- What begins an identifier is a character of ASCII. -/
theorem toNat_lt_of_startsIdentifier {c : Char} (starts : startsIdentifier c = true) :
    c.toNat < 128 := by
  simp only [startsIdentifier, Char.isAlpha, Char.isUpper, Char.isLower, Bool.or_eq_true,
    Bool.and_eq_true, decide_eq_true_eq, beq_iff_eq, UInt32.le_iff_toNat_le, ge_iff_le] at starts
  change ((65 ≤ c.toNat ∧ c.toNat ≤ 90) ∨ (97 ≤ c.toNat ∧ c.toNat ≤ 122)) ∨ c = '_' at starts
  rcases starts with (upper | lower) | rfl
  · omega
  · omega
  · decide

/-- What begins an identifier begins no other word. -/
theorem apart_of_startsIdentifier {c : Char} (starts : startsIdentifier c = true) :
    isSeparator c = false ∧ ofSymbol? c = none ∧ Text.isDigitLike c = false := by
  have all : ∀ n : Fin 128, startsIdentifier (Char.ofNat n) = true →
      isSeparator (Char.ofNat n) = false ∧ (ofSymbol? (Char.ofNat n)).isNone = true ∧
        Text.isDigitLike (Char.ofNat n) = false := by
    decide +kernel
  have one := all ⟨c.toNat, toNat_lt_of_startsIdentifier starts⟩
  rw [Char.ofNat_toNat] at one
  obtain ⟨separator, symbol, digit⟩ := one starts
  exact ⟨separator, Option.isNone_iff_eq_none.mp symbol, digit⟩

/-! ## The words of a spelling -/

/-- A symbol is a word, whatever follows it. -/
theorem scan_symbol {c : Char} {token : Token} (symbol : ofSymbol? c = some token)
    (apart : isSeparator c = false) (rest : List Char) :
    scan (c :: rest) = (scan rest).map (token :: ·) := by
  rw [scan, if_neg (Bool.eq_false_iff.mp apart), symbol]

/-- An identifier is a word up to a character that does not go on with it. -/
theorem scan_identifier {name : String} (identifier : IsIdentifier name) {more : List Char}
    (ends : ∀ c ∈ more.head?, continuesIdentifier c = false) :
    scan (name.toList ++ more) = (scan more).map (.identifier name :: ·) := by
  obtain ⟨first, rest, spelled, begins, inside⟩ := identifier
  have starts := startsIdentifier_of_isLetter begins
  obtain ⟨separator, symbol, digit⟩ := apart_of_startsIdentifier starts
  have goesOn : ∀ c ∈ rest, continuesIdentifier c = true := fun c member =>
    continuesIdentifier_of_isLetter (inside c member)
  have taken : (rest ++ more).takeWhile continuesIdentifier = rest := by
    rw [List.takeWhile_append_of_pos goesOn]
    cases more with
    | nil => exact List.append_nil _
    | cons stop more =>
      rw [List.takeWhile_cons_of_neg (Bool.eq_false_iff.mp (ends stop rfl)), List.append_nil]
  have left : (rest ++ more).dropWhile continuesIdentifier = more := by
    rw [List.dropWhile_append_of_pos goesOn]
    cases more with
    | nil => rfl
    | cons stop more => rw [List.dropWhile_cons_of_neg (Bool.eq_false_iff.mp (ends stop rfl))]
  have whole : String.ofList (first :: rest) = name := by rw [← spelled, String.ofList_toList]
  rw [spelled, List.cons_append, scan, if_neg (Bool.eq_false_iff.mp separator), symbol]
  dsimp only
  rw [if_neg (Bool.eq_false_iff.mp digit), if_pos starts, taken, left, whole]

section Names

variable {name property : String} (identifier : IsIdentifier name)

include identifier in
/-- A function of one name is four words, and what follows it others. -/
theorem scan_call {function : String} {more : List Char} {words : List Token}
    (known : IsIdentifier function) (behind : scan more = .ok words) :
    scan (function.toList ++ '(' :: (name.toList ++ ')' :: more)) =
      .ok (.identifier function :: .openParen :: .identifier name :: .closeParen :: words) := by
  rw [scan_identifier known (by simpa using by decide), scan_symbol rfl rfl,
    scan_identifier identifier (by simpa using by decide), scan_symbol rfl rfl, behind]
  rfl

/-- A property behind a dot is two words. -/
theorem scan_property (known : IsIdentifier property) :
    scan ('.' :: property.toList) = .ok [.dot, .identifier property] := by
  have ends : ∀ c ∈ ([] : List Char).head?, continuesIdentifier c = false := by simp
  have alone := scan_identifier known ends
  rw [List.append_nil, scan] at alone
  rw [scan_symbol rfl rfl, alone]
  rfl

include identifier in
/-- A name with a property is three words. -/
theorem scan_property_of (known : IsIdentifier property) :
    scan (name.toList ++ '.' :: property.toList) =
      .ok [.identifier name, .dot, .identifier property] := by
  rw [scan_identifier identifier (by simpa using by decide), scan_property known]
  rfl

end Names

end Token

/-! ## Reading a spelling -/

namespace TimeExpression

/-- What begins and ends without a blank is trimmed to itself. -/
theorem trim_eq_self {text : List Char} (first : ∀ c ∈ text.head?, Text.isBlank c = false)
    (last : ∀ c ∈ text.getLast?, Text.isBlank c = false) : Text.trim text = text := by
  have kept : ∀ {text : List Char}, (∀ c ∈ text.head?, Text.isBlank c = false) →
      text.dropWhile Text.isBlank = text := by
    intro text solid
    cases text with
    | nil => rfl
    | cons c rest => exact List.dropWhile_cons_of_neg (Bool.eq_false_iff.mp (solid c rfl))
  rw [Text.trim, Text.trimBy, kept first, kept (by rwa [List.head?_reverse]), List.reverse_reverse]

/-- A text without blanks around it whose words are an expression is read as that expression. -/
theorem parse_of_words {text : String} {words : List Token} {tree : Expr}
    (trimmed : Text.trim text.toList = text.toList) (cut : Token.scan text.toList = .ok words)
    (derives : Expr.IsExpression words tree) : parse text = .ok ⟨text, tree⟩ := by
  rw [parse_of_scan (by rw [trimmed]; exact cut), Expr.ofTokens_eq_ok_iff.mpr derives]
  dsimp only
  rw [trimmed, String.ofList_toList]

end TimeExpression

namespace Anchor

/-- Whether an author can spell an anchor: it can be written, and its name is an identifier. -/
def IsSpelled (anchor : Anchor) : Prop :=
  anchor.IsWritable ∧ ∀ name ∈ anchor.ref, IsIdentifier name

/-- The words of the spelling of an anchor. -/
def words (anchor : Anchor) : List Token :=
  let call (function : String) : List Token :=
    [.identifier function, .openParen, .identifier (anchor.ref.getD "None"), .closeParen]
  let property (name : String) : List Token := [.dot, .identifier name]
  match anchor.kind with
  | .sceneStart => call "scene" ++ property "start"
  | .sceneEnd => call "scene" ++ property "end"
  | .cueStart => call "cue"
  | .markStart => call "mark"
  | .prevStart => .identifier "prev" :: property "start"
  | .prevEnd => .identifier "prev" :: property "end"
  | .nextStart => .identifier "next" :: property "start"
  | .timelineStart => .identifier "timeline" :: property "start"
  | .transition => call "transition"

/-- The tree of the spelling of an anchor. -/
def tree (anchor : Anchor) : Expr :=
  let call (function : String) : Expr :=
    .call function [.identifier (anchor.ref.getD "None")]
  match anchor.kind with
  | .sceneStart => .property (call "scene") "start"
  | .sceneEnd => .property (call "scene") "end"
  | .cueStart => call "cue"
  | .markStart => call "mark"
  | .prevStart => .property (.identifier "prev") "start"
  | .prevEnd => .property (.identifier "prev") "end"
  | .nextStart => .property (.identifier "next") "start"
  | .timelineStart => .property (.identifier "timeline") "start"
  | .transition => call "transition"

/-- No spelling has blanks around it. -/
theorem trim_describe (anchor : Anchor) :
    Text.trim anchor.describe.toList = anchor.describe.toList := by
  apply TimeExpression.trim_eq_self
  · rcases anchor with ⟨kind, ref⟩
    cases kind <;> simp [describe] <;> decide
  · rcases anchor with ⟨kind, ref⟩
    cases kind <;> simp [describe, List.getLast?_append, List.getLast?_cons] <;> decide

/-- The words of a spelling are an expression. -/
theorem isExpression_words (anchor : Anchor) : Expr.IsExpression anchor.words anchor.tree := by
  have call (function name : String) : Expr.IsNamed
      [.identifier function, .openParen, .identifier name, .closeParen]
      (.call function [.identifier name]) :=
    .call function (.some (.last (.term (.unary (.primary (.named (.name name)))))))
  refine .term (.unary (.primary (.named ?_)))
  rcases anchor with ⟨kind, ref⟩
  cases kind with
  | sceneStart => exact .property (call _ _) "start"
  | sceneEnd => exact .property (call _ _) "end"
  | cueStart | markStart | transition => exact call _ _
  | prevStart | nextStart | timelineStart => exact .property (.name _) "start"
  | prevEnd => exact .property (.name _) "end"

/-- The spelling of an anchor is cut into its words. -/
theorem scan_describe {anchor : Anchor} (spelled : anchor.IsSpelled) :
    Token.scan anchor.describe.toList = .ok anchor.words := by
  obtain ⟨writable, named⟩ := spelled
  have start : IsIdentifier "start" := isIdentifier_of_letters (by decide) (by decide)
  have finish : IsIdentifier "end" := isIdentifier_of_letters (by decide) (by decide)
  have scene : IsIdentifier "scene" := isIdentifier_of_letters (by decide) (by decide)
  have cue : IsIdentifier "cue" := isIdentifier_of_letters (by decide) (by decide)
  have mark : IsIdentifier "mark" := isIdentifier_of_letters (by decide) (by decide)
  have previous : IsIdentifier "prev" := isIdentifier_of_letters (by decide) (by decide)
  have next : IsIdentifier "next" := isIdentifier_of_letters (by decide) (by decide)
  have timeline : IsIdentifier "timeline" := isIdentifier_of_letters (by decide) (by decide)
  rcases anchor with ⟨kind, ref⟩
  cases kind with
  | sceneStart =>
    obtain ⟨name, rfl⟩ := writable
    simpa [describe, words] using Token.scan_call (named name rfl) scene (Token.scan_property start)
  | sceneEnd =>
    obtain ⟨name, rfl⟩ := writable
    simpa [describe, words] using
      Token.scan_call (named name rfl) scene (Token.scan_property finish)
  | cueStart =>
    obtain ⟨name, rfl⟩ := writable
    simpa [describe, words] using Token.scan_call (named name rfl) cue Token.scan.eq_1
  | markStart =>
    obtain ⟨name, rfl⟩ := writable
    simpa [describe, words] using Token.scan_call (named name rfl) mark Token.scan.eq_1
  | prevStart => simpa [describe, words] using Token.scan_property_of previous start
  | prevEnd => simpa [describe, words] using Token.scan_property_of previous finish
  | nextStart => simpa [describe, words] using Token.scan_property_of next start
  | timelineStart => simpa [describe, words] using Token.scan_property_of timeline start
  | transition => exact writable.elim

/-- The spelling of an anchor names that anchor alone. -/
theorem anchors_tree {anchor : Anchor} (writable : anchor.IsWritable) :
    anchor.tree.anchors = .ok [anchor] := by
  rcases anchor with ⟨kind, ref⟩
  cases kind with
  | sceneStart | sceneEnd | cueStart | markStart =>
    obtain ⟨name, rfl⟩ := writable
    rfl
  | prevStart | prevEnd | nextStart | timelineStart =>
    cases writable
    rfl
  | transition => exact writable.elim

/-- The spelling of an anchor is evaluated by reading that anchor. -/
theorem eval_tree {anchor : Anchor} (writable : anchor.IsWritable) (ctx : Context) :
    anchor.tree.eval ctx = Expr.readAnchor ctx anchor := by
  rcases anchor with ⟨kind, ref⟩
  cases kind with
  | sceneStart | sceneEnd | cueStart | markStart =>
    obtain ⟨name, rfl⟩ := writable
    rfl
  | prevStart | prevEnd | nextStart | timelineStart =>
    cases writable
    rfl
  | transition => exact writable.elim

/-- The spelling of an anchor is an expression that names this anchor and no other, and in every
context it has the position of the anchor, or waits for this anchor where the context does not know
it. -/
theorem parse_describe (anchor : Anchor) (spelled : anchor.IsSpelled) :
    ∃ expression, TimeExpression.parse anchor.describe = .ok expression ∧
      expression.references = .ok [anchor] ∧
      ∀ ctx : Context, expression.evaluate ctx =
        match ctx.lookup? anchor with
        | some position => .ok position
        | none => .error (.missing anchor) := by
  refine ⟨⟨anchor.describe, anchor.tree⟩, TimeExpression.parse_of_words anchor.trim_describe
    (scan_describe spelled) anchor.isExpression_words, ?_, fun ctx => ?_⟩
  · rw [TimeExpression.references, anchors_tree spelled.1]
    rfl
  · rw [TimeExpression.evaluate, eval_tree spelled.1, Expr.readAnchor]
    cases ctx.lookup? anchor <;> rfl

/-- The end of a scene that is called `ms-2` is spelled so that it is read back, though its name
begins like a unit and goes on like a difference. -/
theorem unitScene_describe : (sceneEnd "ms-2").IsSpelled ∧
    ∃ expression, TimeExpression.parse "scene(ms-2).end" = .ok expression ∧
      expression.references = .ok [sceneEnd "ms-2"] ∧
      expression.evaluate { fps := 30.0, sceneEnds := [("ms-2", 4.5)] } = .ok 4.5 ∧
      expression.evaluate { fps := 30.0 } = .error (.missing (sceneEnd "ms-2")) := by
  have spelled : (sceneEnd "ms-2").IsSpelled := by
    refine ⟨⟨_, rfl⟩, fun name same => ?_⟩
    cases same
    exact ⟨'m', ['s', '-', '2'], rfl, by decide, by simp [IsLetter]⟩
  obtain ⟨expression, read, names, positions⟩ := parse_describe (sceneEnd "ms-2") spelled
  exact ⟨spelled, expression, read, names, positions _, positions _⟩

end Anchor
end Storyboard
